import JsxAttributes.Attribute.Basic
import JsxAttributes.Proofs.ExpressionLikeness

/-! The JSON of attributes tells them apart. The three kinds of values are written in three ways, as nothing, as a text
and as a node, and the program in the node is read back as the expression. -/
namespace JsxAttributes

open Json (Likeness)

/-! ## Attributes -/

namespace AttributeValue

/-- A value of the same kind, with the same text or with a related expression. -/
inductive Rel (r : Json → Json → Prop) : AttributeValue → AttributeValue → Prop where
  | absent : Rel r .absent .absent
  | text (t : String) : Rel r (.text t) (.text t)
  | expression {e f : Expression} : e.Rel r f → Rel r (.expression e) (.expression f)

def WellFormed : AttributeValue → Prop
  | .expression e => e.WellFormed
  | _ => True

end AttributeValue

namespace Attribute

structure Rel (r : Json → Json → Prop) (a b : Attribute) : Prop where
  name : a.name = b.name
  value : a.value.Rel r b.value

def WellFormed (a : Attribute) : Prop := a.value.WellFormed

end Attribute

namespace Json

/-- The first member of an object that has the name. -/
def member? (name : String) : Json → Option Json
  | .obj members => findEntry name members
  | _ => none

/-- The value to which the names lead, member by member. -/
def follow? (names : List String) (j : Json) : Option Json := names.foldlM (fun k name => k.member? name) j

end Json

/-! ## What is written alike -/

section Likeness

variable {r : Json → Json → Prop}

theorem Statement.rel_of_toJson (hr : Likeness r) {e f : Expression}
    (h : r (Statement.expression e).toJson (Statement.expression f).toJson) : r e.toJson f.toJson :=
  hr.member h "expression" rfl rfl

/-- The expression can be told from the program that is made of it. -/
theorem Program.rel_of_toJson (hr : Likeness r) {e f : Expression}
    (h : r (Program.ofExpression e).toJson (Program.ofExpression f).toJson) : r e.toJson f.toJson := by
  have hbody : r (.arr [(Statement.expression e).toJson]) (.arr [(Statement.expression f).toJson]) :=
    hr.member h "body" rfl rfl
  obtain ⟨statements, hstatements, hall⟩ := hr.arr hbody
  obtain rfl := Json.arr.inj hstatements
  cases hall with
  | cons hstatement _ => exact Statement.rel_of_toJson hr hstatement

namespace AttributeValue

variable {v w : AttributeValue} {e f : Expression}

theorem rel_of_expression (hr : Likeness r) {j k : Json} (hj : (expression e).toJson? = some j)
    (hk : (expression f).toJson? = some k) (h : r j k) : r e.toJson f.toJson := by
  obtain rfl := Option.some.inj hj
  obtain rfl := Option.some.inj hk
  have hdata : r (.obj [("estree", (Program.ofExpression e).toJson)])
      (.obj [("estree", (Program.ofExpression f).toJson)]) := hr.member h "data" rfl rfl
  exact Program.rel_of_toJson hr (hr.member hdata "estree" rfl rfl)

/-- A text is never written like an expression. -/
theorem not_rel_text (hr : Likeness r) {t : String} {k : Json} (hk : (expression e).toJson? = some k) :
    ¬ r (.str t) k := by
  intro h
  obtain rfl := Option.some.inj hk
  exact nomatch hr.str h

theorem rel_of_toJson? (hr : Likeness r) (hv : v.WellFormed) (hw : w.WellFormed)
    (h : Option.Rel r v.toJson? w.toJson?) : v.Rel r w := by
  cases v with
  | absent =>
    cases w with
    | absent => exact .absent
    | text u => cases h
    | expression f => cases h
  | text t =>
    cases w with
    | absent => cases h
    | text u =>
      cases h with
      | some h =>
        obtain rfl := Json.str.inj (hr.str h)
        exact .text _
    | expression f =>
      cases h with
      | some h => exact absurd h (not_rel_text hr rfl)
  | expression e =>
    cases w with
    | absent => cases h
    | text u =>
      cases h with
      | some h => exact absurd (hr.symm h) (not_rel_text hr rfl)
    | expression f =>
      cases h with
      | some h => exact .expression (Expression.rel_of_toJson hr e f hv hw (rel_of_expression hr rfl rfl h))

end AttributeValue

namespace Attribute

variable {a b : Attribute}

theorem field?_value (a : Attribute) : ∃ members, a.toJson = .obj members ∧
    Json.field? "name" members = some (some (.str a.name)) ∧
    Json.field? "value" members = some a.value.toJson? := by
  obtain ⟨name, value⟩ := a
  cases value with
  | absent => exact ⟨_, rfl, rfl, rfl⟩
  | text t => exact ⟨_, rfl, rfl, rfl⟩
  | expression e => exact ⟨_, rfl, rfl, rfl⟩

theorem rel_value (hr : Likeness r) (h : r a.toJson b.toJson) :
    a.name = b.name ∧ Option.Rel r a.value.toJson? b.value.toJson? := by
  obtain ⟨ms, hms, hname, hvalue⟩ := a.field?_value
  obtain ⟨ns, hns, hname', hvalue'⟩ := b.field?_value
  rw [hms, hns] at h
  obtain ⟨ns', hobj, hfields⟩ := hr.obj h
  obtain rfl := Json.obj.inj hobj
  have hvalues := hfields "value"
  rw [hvalue, hvalue'] at hvalues
  constructor
  · exact (Json.str.inj (hr.str (hr.member h "name" hname hname'))).symm
  · cases hvalues with
    | some hvalues => exact hvalues

theorem rel_of_toJson (hr : Likeness r) (ha : a.WellFormed) (hb : b.WellFormed) (h : r a.toJson b.toJson) :
    a.Rel r b := by
  obtain ⟨hname, hvalue⟩ := rel_value hr h
  exact ⟨hname, AttributeValue.rel_of_toJson? hr ha hb hvalue⟩

theorem forall₂_of_toJson (hr : Likeness r) : (xs ys : List Attribute) → (∀ a ∈ xs, a.WellFormed) →
    (∀ b ∈ ys, b.WellFormed) → List.Forall₂ r (xs.map toJson) (ys.map toJson) →
    List.Forall₂ (Attribute.Rel r) xs ys := by
  intro xs ys hxs hys h
  rw [List.forall₂_map_left_iff, List.forall₂_map_right_iff] at h
  induction h with
  | nil => exact .nil
  | cons h _ ih =>
    obtain ⟨hx, hxs⟩ := List.forall_mem_cons.1 hxs
    obtain ⟨hy, hys⟩ := List.forall_mem_cons.1 hys
    exact .cons (rel_of_toJson hr hx hy h) (ih hxs hys)

/-- Attributes of one name that are of different kinds are not written alike, whatever their values are. -/
theorem kinds_apart (hr : Likeness r) (name t : String) (e : Expression) :
    ¬ r (Attribute.mk name .absent).toJson (Attribute.mk name (.text t)).toJson ∧
    ¬ r (Attribute.mk name .absent).toJson (Attribute.mk name (.expression e)).toJson ∧
    ¬ r (Attribute.mk name (.text t)).toJson (Attribute.mk name (.expression e)).toJson := by
  refine ⟨fun h => ?_, fun h => ?_, fun h => ?_⟩
  · exact nomatch (rel_value hr h).2
  · exact nomatch (rel_value hr h).2
  · cases (rel_value hr h).2 with
    | some h => exact AttributeValue.not_rel_text hr rfl h

end Attribute
end Likeness

/-- The program of an expression attribute stands in its value. -/
theorem Attribute.follow?_estree (name : String) (e : Expression) :
    (Attribute.mk name (.expression e)).toJson.follow? ["value", "data", "estree"] =
      some (Program.ofExpression e).toJson := rfl

/-- Attributes of like expressions are written alike. -/
theorem Attribute.alike_of_expression (name : String) {e f : Expression} (h : Json.Alike e.toJson f.toJson) :
    Json.Alike (Attribute.mk name (.expression e)).toJson (Attribute.mk name (.expression f)).toJson := by
  have hstatement : Json.Alike (Statement.expression e).toJson (Statement.expression f).toJson :=
    .obj (.refl _) (.cons (.named "type" (.str _)) (.cons (.named "expression" h) .nil))
  have hprogram : Json.Alike (Program.ofExpression e).toJson (Program.ofExpression f).toJson :=
    .obj (.refl _) (.cons (.named "type" (.str _)) (.cons (.named "sourceType" (.str _))
      (.cons (.named "body" (.arr (.cons hstatement .nil))) .nil)))
  have hdata : Json.Alike (.obj [("estree", (Program.ofExpression e).toJson)])
      (.obj [("estree", (Program.ofExpression f).toJson)]) :=
    .obj (.refl _) (.cons (.named "estree" hprogram) .nil)
  have hvalue : Json.Alike
      (.node "mdxJsxAttributeValueExpression" [("value", .str ""),
        ("data", .obj [("estree", (Program.ofExpression e).toJson)])])
      (.node "mdxJsxAttributeValueExpression" [("value", .str ""),
        ("data", .obj [("estree", (Program.ofExpression f).toJson)])]) :=
    .obj (.refl _) (.cons (.named "type" (.str _)) (.cons (.named "value" (.str _))
      (.cons (.named "data" hdata) .nil)))
  exact .obj (.refl _) (.cons (.named "type" (.str _)) (.cons (.named "name" (.str _))
    (.cons (.named "value" hvalue) .nil)))

/-- Lists of attributes whose JSON is the same are the same but for the signs of zeros in literals: as written, and
also where members of objects may stand in any order and zeros have any sign, the nodes that are kept as JSON being
compared like the JSON of the lists. Attributes of one name without a value, with a text and with an expression are
never written alike. The program in the value of an expression attribute is read as that of the expression. -/
theorem Attribute.toJson_unambiguous {r : Json → Json → Prop} (hr : r = Eq ∨ r = Json.Alike) :
    (∀ xs ys : List Attribute, (∀ a ∈ xs, a.WellFormed) → (∀ b ∈ ys, b.WellFormed) →
      r (.arr (xs.map toJson)) (.arr (ys.map toJson)) → List.Forall₂ (Attribute.Rel r) xs ys) ∧
    (∀ (name t : String) (e : Expression),
      ¬ r (Attribute.mk name .absent).toJson (Attribute.mk name (.text t)).toJson ∧
      ¬ r (Attribute.mk name .absent).toJson (Attribute.mk name (.expression e)).toJson ∧
      ¬ r (Attribute.mk name (.text t)).toJson (Attribute.mk name (.expression e)).toJson) ∧
    ∀ (name : String) (e : Expression), e.WellFormed → ∃ j q,
      (Attribute.mk name (.expression e)).toJson.follow? ["value", "data", "estree"] = some j ∧
      Program.ofJson? j = some q ∧ q.Same (Program.ofExpression e) := by
  have hlike : Likeness r := by
    cases hr with
    | inl h => exact h ▸ Json.likeness_eq
    | inr h => exact h ▸ Json.likeness_alike
  refine ⟨fun xs ys hxs hys h => ?_, kinds_apart hlike, fun name e he => ?_⟩
  · obtain ⟨items, hitems, hall⟩ := hlike.arr h
    obtain rfl := Json.arr.inj hitems
    exact forall₂_of_toJson hlike xs ys hxs hys hall
  · have hprogram : (Program.ofExpression e).WellFormed := List.forall_mem_singleton.2 he
    obtain ⟨q, hq, hsame⟩ := Program.ofJson?_toJson hprogram
    exact ⟨_, q, follow?_estree name e, hq, hsame⟩

/-- A zero with either sign, and a node kept as JSON with its members in either order. -/
theorem Attribute.toJson_unambiguous_array :
    let first : Expression := .array [none, some (.literal (.number .zero)),
      some (.other (.obj [("x", .null), ("y", .bool true)]))]
    let second : Expression := .array [none, some (.literal (.number Number.Double.zero.negate)),
      some (.other (.obj [("y", .bool true), ("x", .null)]))]
    (first.WellFormed ∧ second.WellFormed) ∧
    Json.Alike (.arr [(Attribute.mk "a" (.expression first)).toJson])
      (.arr [(Attribute.mk "a" (.expression second)).toJson]) ∧
    List.Forall₂ (Attribute.Rel Json.Alike) [⟨"a", .expression first⟩] [⟨"a", .expression second⟩] := by
  intro first second
  have hkept {ms : List (String × Json)} (hnone : (Json.obj ms).readings.node? = none)
      (hms : (Json.obj ms).normalize = .obj ms) : Expression.ofJson (.obj ms) = .other (.obj ms) := by
    rw [Expression.ofJson_of_node?_eq_none hnone, hms]
  have hfirst : first.WellFormed := by
    simpa [first, Expression.WellFormed, Expression.ElementsWellFormed, Literal.WellFormed] using
      ⟨rfl, hkept rfl rfl⟩
  have hsecond : second.WellFormed := by
    simpa [second, Expression.WellFormed, Expression.ElementsWellFormed, Literal.WellFormed] using
      ⟨rfl, hkept rfl rfl⟩
  have hother : Json.Alike (.obj [("x", .null), ("y", .bool true)]) (.obj [("y", .bool true), ("x", .null)]) :=
    .obj (.swap _ _ _) (.cons (.named "x" .null) (.cons (.named "y" (.bool true)) .nil))
  have hzero : Json.Alike (Expression.literal (.number .zero)).toJson
      (Expression.literal (.number Number.Double.zero.negate)).toJson :=
    .obj (.refl _) (.cons (.named "type" (.str _)) (.cons (.named "value" (.int 0)) .nil))
  have harray : Json.Alike first.toJson second.toJson :=
    .obj (.refl _) (.cons (.named "type" (.str _)) (.cons (.named "elements"
      (.arr (.cons .null (.cons hzero (.cons hother .nil))))) .nil))
  have hattribute := alike_of_expression "a" harray
  have hlists := Json.Alike.arr (.cons hattribute .nil)
  obtain ⟨hsame, -, -⟩ := toJson_unambiguous (.inr rfl)
  exact ⟨⟨hfirst, hsecond⟩, hlists, hsame [⟨"a", .expression first⟩] [⟨"a", .expression second⟩]
    (List.forall_mem_singleton.2 hfirst) (List.forall_mem_singleton.2 hsecond) hlists⟩

end JsxAttributes
