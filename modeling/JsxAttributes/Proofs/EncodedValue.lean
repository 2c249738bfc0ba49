import JsxAttributes.Expression.OfValue
import JsxAttributes.Proofs.ExpressionRoundTrip
import JsxAttributes.Proofs.ScriptEvaluation

/-! The expression of a value evaluates to the value, also after it has been written as JSON and read
back. Two things could go wrong with it and do not: the sign of a number never reaches a literal, where it
would be lost, and the key `__proto__` is never written plainly, where it would define nothing. -/
namespace JsxAttributes

open Number (Double)

/-! ## Values -/

namespace Json

mutual

/-- The value as one of a script, each number as the double nearest to it. -/
def meaning : Json → ScriptValue
  | .null => .null
  | .bool b => .bool b
  | .int n => .number (Double.ofInt n)
  | .double x => .number x
  | .str t => .text t
  | .arr items => .array (itemMeanings items)
  | .obj members => .object (memberMeanings members)

def itemMeanings : List Json → List ScriptValue
  | [] => []
  | j :: r => meaning j :: itemMeanings r

def memberMeanings : List (String × Json) → List (String × ScriptValue)
  | [] => []
  | (key, j) :: r => (key, meaning j) :: memberMeanings r

end

mutual

/-- No object in it repeats a key. -/
def Distinct : Json → Prop
  | .arr items => ItemsDistinct items
  | .obj members => (members.map Prod.fst).Nodup ∧ MembersDistinct members
  | _ => True

def ItemsDistinct : List Json → Prop
  | [] => True
  | j :: r => Distinct j ∧ ItemsDistinct r

def MembersDistinct : List (String × Json) → Prop
  | [] => True
  | (_, j) :: r => Distinct j ∧ MembersDistinct r

end

theorem keys_memberMeanings (members : List (String × Json)) :
    (memberMeanings members).map Prod.fst = members.map Prod.fst := by
  induction members with
  | nil => rw [memberMeanings, List.map_nil, List.map_nil]
  | cons m r ih => rw [memberMeanings, List.map_cons, ih, List.map_cons]

end Json

namespace Expression

/-! ## Numbers -/

def absolute (x : Double) : Double := if x.isNegative then x.negate else x

theorem eval_ofMagnitude (x : Double) : (ofMagnitude x).eval = some (.number (absolute x)) := by
  cases x with
  | nan => rfl
  | infinite negative => cases negative <;> rfl
  | finite negative rank => cases negative <;> simp [ofMagnitude, eval, Literal.value, absolute,
      Double.isNegative, Double.negate]

theorem eval_ofNumber (x : Double) : (ofNumber x).eval = some (.number x) := by
  rw [ofNumber]
  by_cases h : x.isNegative = true
  · rw [if_pos h, applied, eval, if_pos ⟨rfl, rfl⟩, eval_ofMagnitude, absolute, if_pos h]
    simp [ScriptValue.negated?]
  · rw [if_neg h, eval_ofMagnitude, absolute, if_neg h]

theorem numbers_ofNumber (x : Double) :
    ∀ y ∈ (ofNumber x).numbers, y.isFinite = true ∧ y.isNegative = false := by
  have hm : ∀ y ∈ (ofMagnitude x).numbers, y.isFinite = true ∧ y.isNegative = false := by
    cases x <;> simp [ofMagnitude, numbers, Double.isFinite, Double.isNegative]
  rw [ofNumber]
  split
  · rw [applied, numbers]
    exact hm
  · exact hm

theorem wellFormed_ofNumber (x : Double) : (ofNumber x).WellFormed := by
  have hm : (ofMagnitude x).WellFormed := by
    cases x <;> simp [ofMagnitude, WellFormed, Literal.WellFormed, Double.isFinite]
  rw [ofNumber]
  split
  · rw [applied, WellFormed]
    exact hm
  · exact hm

/-! ## Values -/

mutual

theorem numbers_ofValue : (v : Json) →
    ∀ y ∈ (ofValue v).numbers, y.isFinite = true ∧ y.isNegative = false
  | .null => by simp [ofValue, numbers]
  | .bool b => by simp [ofValue, numbers]
  | .int n => by rw [ofValue]; exact numbers_ofNumber _
  | .double x => by rw [ofValue]; exact numbers_ofNumber x
  | .str t => by simp [ofValue, text, numbers]
  | .arr items => by rw [ofValue, numbers]; exact numbers_ofItems items
  | .obj members => by rw [ofValue, numbers]; exact numbers_ofMembers members

theorem numbers_ofItems : (items : List Json) →
    ∀ y ∈ elementNumbers (ofItems items), y.isFinite = true ∧ y.isNegative = false
  | [] => by simp [ofItems, elementNumbers]
  | j :: r => by
    rw [ofItems, elementNumbers]
    exact List.forall_mem_append.2 ⟨numbers_ofValue j, numbers_ofItems r⟩

theorem numbers_ofMembers : (members : List (String × Json)) →
    ∀ y ∈ propertyNumbers (ofMembers members), y.isFinite = true ∧ y.isNegative = false
  | [] => by simp [ofMembers, propertyNumbers]
  | (key, j) :: r => by
    rw [ofMembers, Property.ofText, propertyNumbers, text, numbers, List.nil_append]
    · exact List.forall_mem_append.2 ⟨numbers_ofValue j, numbers_ofMembers r⟩
    · simp

end

theorem ofNumber_ne_other (x : Double) (node : Json) : ofNumber x ≠ .other node := by
  rw [ofNumber]
  split
  · simp [applied]
  · cases x <;> simp [ofMagnitude]

theorem ofValue_ne_other (v node : Json) : ofValue v ≠ .other node := by
  cases v with
  | int n =>
    rw [ofValue]
    exact ofNumber_ne_other _ node
  | double x =>
    rw [ofValue]
    exact ofNumber_ne_other x node
  | _ => simp [ofValue, text]

mutual

theorem wellFormed_ofValue : (v : Json) → (ofValue v).WellFormed
  | .null => by simp [ofValue, WellFormed, Literal.WellFormed]
  | .bool b => by simp [ofValue, WellFormed, Literal.WellFormed]
  | .int n => by rw [ofValue]; exact wellFormed_ofNumber _
  | .double x => by rw [ofValue]; exact wellFormed_ofNumber x
  | .str t => by simp [ofValue, text, WellFormed, Literal.WellFormed]
  | .arr items => by rw [ofValue, WellFormed]; exact wellFormed_ofItems items
  | .obj members => by rw [ofValue, WellFormed]; exact wellFormed_ofMembers members

theorem wellFormed_ofItems : (items : List Json) → ElementsWellFormed (ofItems items)
  | [] => by simp [ofItems, ElementsWellFormed]
  | j :: r => by
    rw [ofItems, ElementsWellFormed]
    exact ⟨⟨ofValue_ne_other j .null, wellFormed_ofValue j⟩, wellFormed_ofItems r⟩

theorem wellFormed_ofMembers : (members : List (String × Json)) →
    PropertiesWellFormed (ofMembers members)
  | [] => by simp [ofMembers, PropertiesWellFormed]
  | (key, j) :: r => by
    rw [ofMembers, Property.ofText, PropertiesWellFormed]
    have hkey : (text key).WellFormed := by simp [text, WellFormed, Literal.WellFormed]
    exact ⟨⟨hkey, wellFormed_ofValue j⟩, wellFormed_ofMembers r⟩

end

mutual

theorem eval_ofValue : (v : Json) → v.Distinct → (ofValue v).eval = some v.meaning
  | .null, _ => by rw [ofValue, eval, Literal.value, Json.meaning]
  | .bool b, _ => by rw [ofValue, eval, Literal.value, Json.meaning]
  | .int n, _ => by rw [ofValue, eval_ofNumber, Json.meaning]
  | .double x, _ => by rw [ofValue, eval_ofNumber, Json.meaning]
  | .str t, _ => by rw [ofValue, text, eval, Literal.value, Json.meaning]
  | .arr items, h => by
    rw [Json.Distinct] at h
    rw [ofValue, eval, evalElements_ofItems items h, Json.meaning]
    rfl
  | .obj members, h => by
    rw [Json.Distinct] at h
    have hkeys := h.1
    rw [← Json.keys_memberMeanings] at hkeys
    rw [ofValue, eval, evalProperties_ofMembers members h.2, Json.meaning, Option.map_some,
      OrderedMap.entries_ofList_of_nodup hkeys]

theorem evalElements_ofItems : (items : List Json) → Json.ItemsDistinct items →
    evalElements (ofItems items) = some (Json.itemMeanings items)
  | [], _ => by rw [ofItems, evalElements, Json.itemMeanings]
  | j :: r, h => by
    rw [Json.ItemsDistinct] at h
    rw [ofItems, evalElements, eval_ofValue j h.1, evalElements_ofItems r h.2, Json.itemMeanings]
    rfl

theorem evalProperties_ofMembers : (members : List (String × Json)) →
    Json.MembersDistinct members →
    evalProperties (ofMembers members) = some (Json.memberMeanings members)
  | [], _ => by rw [ofMembers, evalProperties, Json.memberMeanings]
  | (key, j) :: r, h => by
    rw [Json.MembersDistinct] at h
    rw [ofMembers, Json.memberMeanings]
    exact evalProperties_ofText (eval_ofValue j h.1) (evalProperties_ofMembers r h.2)

end

/-! ## Encoding -/

/-- The expression evaluates to the value, before and after it has been written as JSON, and its literals
hold finite numbers without a sign. -/
structure Encodes (e : Expression) (v : ScriptValue) : Prop where
  eval : e.eval = some v
  reread : (ofJson e.toJson).eval = some v
  numbers : ∀ x ∈ e.numbers, x.isFinite = true ∧ x.isNegative = false

theorem encodes_of_wellFormed {e : Expression} {v : ScriptValue} (hw : e.WellFormed)
    (hn : ∀ x ∈ e.numbers, x.isFinite = true ∧ x.isNegative = false) (he : e.eval = some v) :
    Encodes e v := by
  have hread : ofJson e.toJson = e := by
    rw [ofJson_toJson e hw, positiveZeros_eq_self e fun x hx => (hn x hx).2]
  exact ⟨he, by rw [hread]; exact he, hn⟩

/-- Encoding keeps the meaning: a value is encoded with each number as the nearest double, and every
double, also a zero with its sign, an infinity or what is no number, as itself. -/
theorem encodes_meaning :
    (∀ v : Json, v.Distinct → Encodes (ofValue v) v.meaning) ∧
      (∀ x : Double, Encodes (ofNumber x) (.number x)) ∧
      ∀ n : Int, Double.IsNearestInt n (Double.ofInt n) := by
  refine ⟨fun v hv => ?_, fun x => ?_, Double.isNearestInt_ofInt⟩
  · exact encodes_of_wellFormed (wellFormed_ofValue v) (numbers_ofValue v) (eval_ofValue v hv)
  · exact encodes_of_wellFormed (wellFormed_ofNumber x) (numbers_ofNumber x) (eval_ofNumber x)

/-- An object in an array in an object, each with the key `__proto__`, and a negative zero. -/
theorem encodes_meaning_nested :
    (Json.obj [("__proto__", .arr [.obj [("__proto__", .double Double.zero.negate)]]),
        ("b", .int 0)]).Distinct ∧
      Encodes (ofValue (.obj [("__proto__", .arr [.obj [("__proto__", .double Double.zero.negate)]]),
          ("b", .int 0)]))
        (.object [("__proto__", .array [.object [("__proto__", .number Double.zero.negate)]]),
          ("b", .number Double.zero)]) := by
  have hd : (Json.obj [("__proto__", .arr [.obj [("__proto__", .double Double.zero.negate)]]),
      ("b", .int 0)]).Distinct := by
    simp [Json.Distinct, Json.MembersDistinct, Json.ItemsDistinct]
  have hzero : Double.ofInt 0 = Double.zero := by decide
  have he := encodes_meaning.1 _ hd
  simp only [Json.meaning, Json.memberMeanings, Json.itemMeanings, hzero] at he
  exact ⟨hd, he⟩

end Expression
end JsxAttributes
