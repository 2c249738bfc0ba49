import JsxAttributes.Proofs.EncodedValue

/-! Reading and writing expressions are inverse to each other, up to the signs of zeros. Whatever is read is
well-formed, because a node is made only of what its fields were read as; and a node that does not fit is kept
as it came. The induction over JSON carries what is known about a value in every place it may fill. -/
namespace JsxAttributes

open Number (Double)
open Json (Filler Layer)

/-! ## JSON values -/

namespace Json

mutual

/-- Its numbers are integers of 64 bits, signed or unsigned, and finite doubles. -/
def NumbersFit : Json → Prop
  | .int n => -2 ^ 63 ≤ n ∧ n < 2 ^ 64
  | .double x => x.isFinite = true
  | .arr items => ItemNumbersFit items
  | .obj members => MemberNumbersFit members
  | _ => True

def ItemNumbersFit : List Json → Prop
  | [] => True
  | j :: r => NumbersFit j ∧ ItemNumbersFit r

def MemberNumbersFit : List (String × Json) → Prop
  | [] => True
  | (_, j) :: r => NumbersFit j ∧ MemberNumbersFit r

end

/-- What a program holds as a JSON value: no object repeats a key, and numbers are as JSON text gives them. -/
structure IsValue (j : Json) : Prop where
  distinct : j.Distinct
  numbers : j.NumbersFit

mutual

theorem normalize_eq_self : (j : Json) → j.Distinct → j.normalize = j
  | .null, _ => by rw [normalize]
  | .bool b, _ => by rw [normalize]
  | .int n, _ => by rw [normalize]
  | .double x, _ => by rw [normalize]
  | .str t, _ => by rw [normalize]
  | .arr items, h => by
    rw [Distinct] at h
    rw [normalize, normalizeItems_eq_self items h]
  | .obj members, h => by
    rw [Distinct] at h
    rw [normalize, normalizeMembers_eq_self members h.2, OrderedMap.entries_ofList_of_nodup h.1]

theorem normalizeItems_eq_self : (items : List Json) → ItemsDistinct items →
    normalizeItems items = items
  | [], _ => by rw [normalizeItems]
  | j :: r, h => by
    rw [ItemsDistinct] at h
    rw [normalizeItems, normalize_eq_self j h.1, normalizeItems_eq_self r h.2]

theorem normalizeMembers_eq_self : (members : List (String × Json)) → MembersDistinct members →
    normalizeMembers members = members
  | [], _ => by rw [normalizeMembers]
  | (key, j) :: r, h => by
    rw [MembersDistinct] at h
    rw [normalizeMembers, normalize_eq_self j h.1, normalizeMembers_eq_self r h.2]

end

theorem natAbs_le_of_numbersFit {n : Int} (h : (int n).NumbersFit) : n.natAbs ≤ 2 ^ 64 := by
  rw [NumbersFit] at h
  omega

end Json

/-! ## Equality of expressions -/

/-- Numbers are compared as doubles, so that the two zeros are equal. -/
def Literal.Same : Literal → Literal → Prop
  | .number x, .number y => x.equals y = true
  | v, w => v = w

namespace Expression

mutual

/-- The same expression but for the signs of zeros in its literals. -/
def Same : Expression → Expression → Prop
  | .literal v, .literal w => v.Same w
  | .identifier m, .identifier n => m = n
  | .array es, .array fs => ElementsSame es fs
  | .object ps, .object qs => PropertiesSame ps qs
  | .unary o p a, .unary o' p' a' => o = o' ∧ p = p' ∧ Same a a'
  | .other j, .other k => j = k
  | _, _ => False

def ElementsSame : List (Option Expression) → List (Option Expression) → Prop
  | [], [] => True
  | none :: r, none :: s => ElementsSame r s
  | some e :: r, some f :: s => Same e f ∧ ElementsSame r s
  | _, _ => False

def PropertiesSame : List (Property Expression) → List (Property Expression) → Prop
  | [], [] => True
  | ⟨c, key, kind, m, s, value⟩ :: r, ⟨c', key', kind', m', s', value'⟩ :: t =>
    (c = c' ∧ Same key key' ∧ kind = kind' ∧ m = m' ∧ s = s' ∧ Same value value') ∧
      PropertiesSame r t
  | _, _ => False

end

end Expression

namespace Property

def WellFormed (p : Property Expression) : Prop := p.key.WellFormed ∧ p.value.WellFormed

structure Same (p q : Property Expression) : Prop where
  computed : p.computed = q.computed
  key : p.key.Same q.key
  kind : p.kind = q.kind
  method : p.method = q.method
  shorthand : p.shorthand = q.shorthand
  value : p.value.Same q.value

end Property

namespace Statement

def WellFormed : Statement → Prop
  | .expression e => e.WellFormed

def Same : Statement → Statement → Prop
  | .expression e, .expression f => e.Same f

end Statement

namespace Program

def WellFormed (p : Program) : Prop := ∀ s ∈ p.body, s.WellFormed

structure Same (p q : Program) : Prop where
  sourceType : p.sourceType = q.sourceType
  body : List.Forall₂ Statement.Same p.body q.body

end Program

/-! ## The signs of zeros -/

theorem Number.Double.equals_positiveZero {x : Double} (h : x.isFinite = true) :
    x.positiveZero.equals x = true := by
  cases x with
  | infinite negative => cases h
  | nan => cases h
  | finite negative rank =>
    rw [Double.positiveZero, Double.isZero]
    split
    · next h0 =>
      have hrank : rank = ⟨0, by decide⟩ := Fin.ext (eq_of_beq h0)
      simp only [Double.zero, Double.equals, hrank, BEq.rfl, Bool.or_true, Bool.and_true]
    · simp only [Double.equals, BEq.rfl, Bool.true_or, Bool.and_true]

theorem Literal.same_positiveZeros {v : Literal} (h : v.WellFormed) : v.positiveZeros.Same v := by
  cases v with
  | number x => exact Double.equals_positiveZero h
  | null => rfl
  | bool b => rfl
  | text t => rfl

namespace Expression

mutual

theorem same_positiveZeros : (e : Expression) → e.WellFormed → e.positiveZeros.Same e
  | .literal v, h => by
    rw [WellFormed] at h
    rw [positiveZeros, Same]
    exact Literal.same_positiveZeros h
  | .identifier name, _ => by rw [positiveZeros, Same]
  | .array elements, h => by
    rw [WellFormed] at h
    rw [positiveZeros, Same]
    exact elementsSame_positiveZeros elements h
  | .object properties, h => by
    rw [WellFormed] at h
    rw [positiveZeros, Same]
    exact propertiesSame_positiveZeros properties h
  | .unary operator prefixed argument, h => by
    rw [WellFormed] at h
    rw [positiveZeros, Same]
    exact ⟨rfl, rfl, same_positiveZeros argument h⟩
  | .other node, _ => by rw [positiveZeros, Same]

theorem elementsSame_positiveZeros : (es : List (Option Expression)) → ElementsWellFormed es →
    ElementsSame (elementsPositiveZeros es) es
  | [], _ => by rw [elementsPositiveZeros, ElementsSame]; trivial
  | none :: r, h => by
    rw [ElementsWellFormed] at h
    rw [elementsPositiveZeros, ElementsSame]
    exact elementsSame_positiveZeros r h
  | some e :: r, h => by
    rw [ElementsWellFormed] at h
    rw [elementsPositiveZeros, ElementsSame]
    exact ⟨same_positiveZeros e h.1.2, elementsSame_positiveZeros r h.2⟩

theorem propertiesSame_positiveZeros : (ps : List (Property Expression)) →
    PropertiesWellFormed ps → PropertiesSame (propertiesPositiveZeros ps) ps
  | [], _ => by rw [propertiesPositiveZeros, PropertiesSame]; trivial
  | ⟨computed, key, kind, method, shorthand, value⟩ :: r, h => by
    rw [PropertiesWellFormed] at h
    rw [propertiesPositiveZeros, PropertiesSame]
    exact ⟨⟨rfl, same_positiveZeros key h.1.1, rfl, rfl, rfl, same_positiveZeros value h.1.2⟩,
      propertiesSame_positiveZeros r h.2⟩

end

/-- Writing and reading back loses nothing but the signs of zeros. -/
theorem same_ofJson_toJson {e : Expression} (h : e.WellFormed) : (ofJson e.toJson).Same e := by
  rw [ofJson_toJson e h]
  exact same_positiveZeros e h

end Expression

/-! ## What is read from the values inside a node -/

namespace Json.Layer

variable {α : Type}

def values : Layer α → List α
  | .members entries => entries.map Prod.snd
  | .items as => as
  | .leaf => []

theorem mem_of_field? {name : String} {entries : List (String × α)} {a : α}
    (h : field? name entries = some (some a)) : a ∈ entries.map Prod.snd := by
  rw [field?] at h
  split at h
  · cases h
  · next e he =>
    cases h
    have hm : e ∈ entries.filter (·.1 = name) := by rw [he]; exact List.mem_singleton_self e
    exact List.mem_map_of_mem (List.mem_of_mem_filter hm)
  · cases h

theorem mem_of_mapM_field? {names : List String} {entries : List (String × α)}
    {fs : List (Option α)} {a : α} (h : names.mapM (field? · entries) = some fs)
    (ha : some a ∈ fs) : a ∈ entries.map Prod.snd := by
  induction names generalizing fs with
  | nil =>
    cases h
    cases ha
  | cons name r ih =>
    rw [List.mapM_cons] at h
    obtain ⟨f, hf, h⟩ := Option.bind_eq_some_iff.1 h
    obtain ⟨fr, hr, h⟩ := Option.bind_eq_some_iff.1 h
    cases h
    cases List.mem_cons.1 ha with
    | inl he => exact mem_of_field? (he ▸ hf)
    | inr hm => exact ih hr hm

/-- A field holds a value of the node. -/
theorem mem_values_of_fields? {l : Layer α} {names : List String} {fs : List (Option α)} {a : α}
    (h : l.fields? names = some fs) (ha : some a ∈ fs) : a ∈ l.values := by
  cases l with
  | members entries =>
    rw [values]
    exact mem_of_mapM_field? h ha
  | items as =>
    rw [fields?] at h
    split at h
    · cases h
      rw [values]
      simpa using ha
    · cases h
  | leaf => cases h

theorem values_subset_of_splitType? {l fields : Layer Readings} {type : Json}
    (h : l.splitType? = some (type, fields)) : fields.values ⊆ l.values := by
  cases l with
  | members entries =>
    rw [splitType?] at h
    split at h
    · cases h
      exact fun _ hr => hr
    · cases h
  | items rs =>
    cases rs with
    | nil => cases h
    | cons t r =>
      cases h
      exact fun _ hr => List.mem_cons_of_mem _ hr
  | leaf => cases h

end Json.Layer

namespace Readings

/-- In whatever place the value stands, what it is read as is well-formed. -/
structure Sound (r : Readings) : Prop where
  literal : ∀ v, Literal.ofJson? r.json = some v → v.WellFormed
  expression : r.expression.WellFormed
  element : ∀ e, r.element = some e → e ≠ .other .null
  elements : ∀ es, r.elements = some es → Expression.ElementsWellFormed es
  property : ∀ p, r.property = some p → p.WellFormed
  properties : ∀ ps, r.properties = some ps → Expression.PropertiesWellFormed ps

end Readings

namespace Json.Layer

variable {l : Layer Readings}

/-- The fields of a node make a well-formed node. -/
theorem wellFormed_ofType? (hl : ∀ r ∈ l.values, r.Sound) {t : NodeType} {e : Expression}
    (h : l.ofType? t = some e) : e.WellFormed := by
  have hfield {names : List String} {fs : List (Option Readings)} {r : Readings}
      (hf : l.fields? names = some fs) (hr : some r ∈ fs) : r.Sound :=
    hl r (mem_values_of_fields? hf hr)
  cases t with
  | literal =>
    rw [ofType?, literal?] at h
    split at h
    · next v hf =>
      obtain ⟨w, hw, rfl⟩ := Option.map_eq_some_iff.1 h
      rw [Expression.WellFormed]
      exact (hfield hf (by simp)).literal w hw
    · cases h
  | identifier =>
    rw [ofType?, identifier?] at h
    split at h
    · obtain ⟨w, -, rfl⟩ := Option.map_eq_some_iff.1 h
      rw [Expression.WellFormed]
      trivial
    · cases h
  | array =>
    rw [ofType?, array?] at h
    split at h
    · next es hf =>
      obtain ⟨ws, hws, rfl⟩ := Option.map_eq_some_iff.1 h
      rw [Expression.WellFormed]
      exact (hfield hf (by simp)).elements ws hws
    · cases h
  | object =>
    rw [ofType?, object?] at h
    split at h
    · next ps hf =>
      obtain ⟨ws, hws, rfl⟩ := Option.map_eq_some_iff.1 h
      rw [Expression.WellFormed]
      exact (hfield hf (by simp)).properties ws hws
    · cases h
  | unary =>
    rw [ofType?, unary?] at h
    split at h
    · next o p a hf =>
      obtain ⟨_, -, h⟩ := Option.bind_eq_some_iff.1 h
      obtain ⟨_, -, h⟩ := Option.bind_eq_some_iff.1 h
      cases h
      rw [Expression.WellFormed]
      exact (hfield hf (by simp)).expression
    · cases h

theorem ofType?_ne_other {t : NodeType} {node : Json} : l.ofType? t ≠ some (.other node) := by
  intro h
  cases t with
  | literal =>
    rw [ofType?, literal?] at h
    split at h
    · simp at h
    · cases h
  | identifier =>
    rw [ofType?, identifier?] at h
    split at h
    · simp at h
    · cases h
  | array =>
    rw [ofType?, array?] at h
    split at h
    · simp at h
    · cases h
  | object =>
    rw [ofType?, object?] at h
    split at h
    · simp at h
    · cases h
  | unary =>
    rw [ofType?, unary?] at h
    split at h
    · obtain ⟨_, -, h⟩ := Option.bind_eq_some_iff.1 h
      obtain ⟨_, -, h⟩ := Option.bind_eq_some_iff.1 h
      cases h
    · cases h

theorem wellFormed_property? (hl : ∀ r ∈ l.values, r.Sound) {filler : Filler}
    {p : Property Expression} (h : l.property? filler = some p) : p.WellFormed := by
  rw [property?] at h
  split at h
  · next c k d m s v hf =>
    obtain ⟨_, -, h⟩ := Option.bind_eq_some_iff.1 h
    obtain ⟨_, -, h⟩ := Option.bind_eq_some_iff.1 h
    obtain ⟨_, -, h⟩ := Option.bind_eq_some_iff.1 h
    obtain ⟨_, -, h⟩ := Option.bind_eq_some_iff.1 h
    cases h
    have hk := hl k (mem_values_of_fields? hf (by simp))
    have hv := hl v (mem_values_of_fields? hf (by simp))
    exact ⟨hk.expression, hv.expression⟩
  · cases h

theorem node?_eq_some {e : Expression} (h : l.node? = some e) :
    ∃ (fields : Layer Readings) (t : NodeType), fields.values ⊆ l.values ∧
      fields.ofType? t = some e := by
  rw [node?] at h
  obtain ⟨⟨type, fields⟩, hs, h⟩ := Option.bind_eq_some_iff.1 h
  obtain ⟨t, -, h⟩ := Option.bind_eq_some_iff.1 h
  exact ⟨fields, t, values_subset_of_splitType? hs, h⟩

end Json.Layer

namespace Expression

theorem ofJson_of_node?_eq_none {j : Json} (h : j.readings.node? = none) :
    ofJson j = .other j.normalize := by
  rw [ofJson]
  simp only [Readings.ofLayer, h]

theorem ofJson_of_node?_eq_some {j : Json} {e : Expression} (h : j.readings.node? = some e) :
    ofJson j = e := by
  rw [ofJson]
  simp only [Readings.ofLayer, h]

/-- What does not fit into a node is kept as it came. -/
theorem eq_of_ofJson_eq_other {j node : Json} (hj : j.Distinct) (h : ofJson j = .other node) :
    node = j := by
  cases hn : j.readings.node? with
  | none =>
    rw [ofJson_of_node?_eq_none hn, Json.normalize_eq_self j hj] at h
    exact (Expression.other.inj h).symm
  | some e =>
    obtain ⟨fields, t, -, ht⟩ := Json.Layer.node?_eq_some hn
    rw [← ofJson_of_node?_eq_some hn, h] at ht
    exact absurd ht Json.Layer.ofType?_ne_other

end Expression

namespace Readings

theorem element_eq_some {r : Readings} {e : Expression} (h : r.element = some e) :
    r.json ≠ .null ∧ e = r.expression := by
  rw [element] at h
  split at h
  · cases h
  · next hj => exact ⟨hj, (Option.some.inj h).symm⟩

theorem elementsWellFormed_map {rs : List Readings} (h : ∀ r ∈ rs, r.Sound) :
    Expression.ElementsWellFormed (rs.map (·.element)) := by
  induction rs with
  | nil => rw [List.map_nil, Expression.ElementsWellFormed]; trivial
  | cons r rs ih =>
    obtain ⟨hr, hrs⟩ := List.forall_mem_cons.1 h
    rw [List.map_cons]
    cases he : r.element with
    | none =>
      rw [Expression.ElementsWellFormed]
      exact ih hrs
    | some e =>
      rw [Expression.ElementsWellFormed]
      exact ⟨⟨hr.element e he, (element_eq_some he).2 ▸ hr.expression⟩, ih hrs⟩

theorem propertiesWellFormed_mapM {rs : List Readings} {ps : List (Property Expression)}
    (h : ∀ r ∈ rs, r.Sound) (hps : rs.mapM (·.property) = some ps) :
    Expression.PropertiesWellFormed ps := by
  induction rs generalizing ps with
  | nil =>
    rw [List.mapM_nil] at hps
    cases hps
    rw [Expression.PropertiesWellFormed]
    trivial
  | cons r rs ih =>
    obtain ⟨hr, hrs⟩ := List.forall_mem_cons.1 h
    rw [List.mapM_cons] at hps
    obtain ⟨p, hp, hps⟩ := Option.bind_eq_some_iff.1 hps
    obtain ⟨qs, hqs, hps⟩ := Option.bind_eq_some_iff.1 hps
    cases hps
    obtain ⟨computed, key, kind, method, shorthand, value⟩ := p
    rw [Expression.PropertiesWellFormed]
    exact ⟨hr.property _ hp, ih hrs hqs⟩

theorem wellFormed_literal {j : Json} (hj : j.NumbersFit) {v : Literal}
    (h : Literal.ofJson? j = some v) : v.WellFormed := by
  cases j with
  | int n =>
    cases h
    exact Double.isFinite_ofInt (Json.natAbs_le_of_numbersFit hj)
  | double x =>
    cases h
    rw [Json.NumbersFit] at hj
    exact hj
  | null => cases h; trivial
  | bool b => cases h; trivial
  | str t => cases h; trivial
  | arr items => cases h
  | obj members => cases h

/-- A value is read soundly if the values inside it are. -/
theorem sound_ofJson_of_values {j : Json} (hj : j.IsValue) (hl : ∀ r ∈ j.readings.values, r.Sound) :
    (ofJson j).Sound where
  literal v h := wellFormed_literal hj.numbers h
  expression := by
    have hself := Json.normalize_eq_self j hj.distinct
    cases hn : j.readings.node? with
    | none =>
      have he := Expression.ofJson_of_node?_eq_none hn
      rw [hself] at he
      show (Expression.ofJson j).WellFormed
      rw [he, Expression.WellFormed]
      exact he
    | some e =>
      obtain ⟨fields, t, hsub, ht⟩ := Json.Layer.node?_eq_some hn
      show (Expression.ofJson j).WellFormed
      rw [Expression.ofJson_of_node?_eq_some hn]
      exact Json.Layer.wellFormed_ofType? (fun r hr => hl r (hsub hr)) ht
  element e he := by
    obtain ⟨hnull, rfl⟩ := element_eq_some he
    intro hother
    exact hnull (Expression.eq_of_ofJson_eq_other hj.distinct hother).symm
  elements es h := by
    rw [ofJson] at h
    generalize j.readings = l at h hl
    cases l with
    | items rs =>
      cases h
      exact elementsWellFormed_map hl
    | members entries => cases h
    | leaf => cases h
  property p h := Json.Layer.wellFormed_property? hl h
  properties ps h := by
    rw [ofJson] at h
    generalize j.readings = l at h hl
    cases l with
    | items rs => exact propertiesWellFormed_mapM hl h
    | members entries => cases h
    | leaf => cases h

mutual

theorem sound_ofJson : (j : Json) → j.IsValue → (ofJson j).Sound
  | .null, h => sound_ofJson_of_values h (by simp [Json.readings, Json.Layer.values])
  | .bool b, h => sound_ofJson_of_values h (by simp [Json.readings, Json.Layer.values])
  | .int n, h => sound_ofJson_of_values h (by simp [Json.readings, Json.Layer.values])
  | .double x, h => sound_ofJson_of_values h (by simp [Json.readings, Json.Layer.values])
  | .str t, h => sound_ofJson_of_values h (by simp [Json.readings, Json.Layer.values])
  | .arr items, h => by
    have hd := h.distinct
    have hn := h.numbers
    rw [Json.Distinct] at hd
    rw [Json.NumbersFit] at hn
    refine sound_ofJson_of_values h ?_
    rw [Json.readings, Json.Layer.values]
    exact sound_itemReadings items hd hn
  | .obj members, h => by
    have hd := h.distinct
    have hn := h.numbers
    rw [Json.Distinct] at hd
    rw [Json.NumbersFit] at hn
    refine sound_ofJson_of_values h ?_
    rw [Json.readings, Json.Layer.values]
    exact sound_memberReadings members hd.2 hn

theorem sound_itemReadings : (items : List Json) → Json.ItemsDistinct items →
    Json.ItemNumbersFit items → ∀ r ∈ Json.itemReadings items, r.Sound
  | [], _, _ => by simp [Json.itemReadings]
  | j :: r, hd, hn => by
    rw [Json.ItemsDistinct] at hd
    rw [Json.ItemNumbersFit] at hn
    rw [Json.itemReadings]
    exact List.forall_mem_cons.2 ⟨sound_ofJson j ⟨hd.1, hn.1⟩, sound_itemReadings r hd.2 hn.2⟩

theorem sound_memberReadings : (members : List (String × Json)) → Json.MembersDistinct members →
    Json.MemberNumbersFit members →
    ∀ r ∈ (Json.memberReadings members).map Prod.snd, r.Sound
  | [], _, _ => by simp [Json.memberReadings]
  | (key, j) :: r, hd, hn => by
    rw [Json.MembersDistinct] at hd
    rw [Json.MemberNumbersFit] at hn
    rw [Json.memberReadings, List.map_cons]
    exact List.forall_mem_cons.2 ⟨sound_ofJson j ⟨hd.1, hn.1⟩, sound_memberReadings r hd.2 hn.2⟩

end

end Readings

/-! ## Properties, statements and programs -/

open Readings

theorem Property.ofJson?_toJson {p : Property Expression} (h : p.WellFormed) :
    ∃ q, Property.ofJson? p.toJson = some q ∧ q.Same p := by
  refine ⟨_, property?_node .null _, ?_⟩
  exact ⟨rfl, Expression.same_ofJson_toJson h.1, rfl, rfl, rfl, Expression.same_ofJson_toJson h.2⟩

theorem Statement.ofJson?_toJson {s : Statement} (h : s.WellFormed) :
    ∃ t, Statement.ofJson? s.toJson = some t ∧ t.Same s := by
  obtain ⟨e⟩ := s
  refine ⟨.expression (Expression.ofJson e.toJson), ?_, Expression.same_ofJson_toJson h⟩
  rw [Statement.ofJson?, toJson, readings_node, Json.Layer.statement?, splitType?_node (by simp)]
  simp [node, Json.Layer.fields?, Json.field?, Readings.ofJson, ofLayer, Expression.ofJson]

theorem Statement.mapM_ofJson?_toJson {body : List Statement} (h : ∀ s ∈ body, s.WellFormed) :
    ∃ ts, (body.map (·.toJson)).mapM Statement.ofJson? = some ts ∧
      List.Forall₂ Statement.Same ts body := by
  induction body with
  | nil => exact ⟨[], rfl, .nil⟩
  | cons s r ih =>
    obtain ⟨hs, hr⟩ := List.forall_mem_cons.1 h
    obtain ⟨t, ht, hsame⟩ := Statement.ofJson?_toJson hs
    obtain ⟨ts, hts, hall⟩ := ih hr
    refine ⟨t :: ts, ?_, .cons hsame hall⟩
    rw [List.map_cons, List.mapM_cons, ht, hts]
    rfl

theorem SourceType.choice?_name (filler : Filler) (t : SourceType) :
    (Json.str t.name).choice? filler SourceType.named = some t := by
  cases t <;> rfl

theorem Program.ofJson?_toJson {p : Program} (h : p.WellFormed) :
    ∃ q, Program.ofJson? p.toJson = some q ∧ q.Same p := by
  obtain ⟨body, hbody, hsame⟩ := Statement.mapM_ofJson?_toJson h
  refine ⟨⟨p.sourceType, body⟩, ?_, rfl, hsame⟩
  have hfields : (p.toJson).layer.fields? Program.fieldNames =
      some [some (.str p.sourceType.name), some (.arr (p.body.map (·.toJson)))] := by
    simp [Program.toJson, Json.node, Json.layer, Json.Layer.fields?, Program.fieldNames, Json.field?]
  rw [Program.ofJson?, hfields]
  simp only [SourceType.choice?_name, hbody]
  rfl

/-! ## Reading and writing -/

/-- A well-formed expression that is written and read back is the same expression; so is every JSON value that
is read, written and read again, because reading makes well-formed expressions. What is kept as JSON is the
value itself. Properties, statements and programs are read back as well. -/
theorem reading_and_writing :
    (∀ e : Expression, e.WellFormed → (Expression.ofJson e.toJson).Same e) ∧
    (∀ j : Json, j.IsValue → (Expression.ofJson j).WellFormed ∧
      (Expression.ofJson (Expression.ofJson j).toJson).Same (Expression.ofJson j) ∧
      ∀ node, Expression.ofJson j = .other node → node = j) ∧
    (∀ p : Property Expression, p.WellFormed →
      ∃ q, Property.ofJson? p.toJson = some q ∧ q.Same p) ∧
    (∀ s : Statement, s.WellFormed → ∃ t, Statement.ofJson? s.toJson = some t ∧ t.Same s) ∧
    ∀ p : Program, p.WellFormed → ∃ q, Program.ofJson? p.toJson = some q ∧ q.Same p := by
  refine ⟨fun e he => Expression.same_ofJson_toJson he, fun j hj => ?_,
    fun p hp => Property.ofJson?_toJson hp, fun s hs => Statement.ofJson?_toJson hs,
    fun p hp => Program.ofJson?_toJson hp⟩
  have hwell : (Expression.ofJson j).WellFormed := (sound_ofJson j hj).expression
  exact ⟨hwell, Expression.same_ofJson_toJson hwell,
    fun node h => Expression.eq_of_ofJson_eq_other hj.distinct h⟩

/-- A hole, a negative zero and an unknown node in an array; an identifier whose name is no text. -/
theorem reading_and_writing_hole :
    ((Expression.array [none, some (.literal (.number Double.zero.negate)),
        some (.other (.obj []))]).WellFormed ∧
      (Expression.ofJson (Expression.array [none, some (.literal (.number Double.zero.negate)),
        some (.other (.obj []))]).toJson).Same
        (.array [none, some (.literal (.number Double.zero.negate)), some (.other (.obj []))])) ∧
    ((Json.obj [("type", .str "Identifier"), ("name", .int 0)]).IsValue ∧
      (Expression.ofJson (.obj [("type", .str "Identifier"), ("name", .int 0)])).WellFormed) ∧
    ((Property.ofText "__proto__" (.literal .null)).WellFormed ∧ ∃ q,
      Property.ofJson? (Property.ofText "__proto__" (.literal .null)).toJson = some q ∧
        q.Same (Property.ofText "__proto__" (.literal .null))) ∧
    ((Statement.expression (.identifier "a")).WellFormed ∧ ∃ t,
      Statement.ofJson? (Statement.expression (.identifier "a")).toJson = some t ∧
        t.Same (.expression (.identifier "a"))) ∧
    ((Program.ofExpression (.identifier "a")).WellFormed ∧ ∃ q,
      Program.ofJson? (Program.ofExpression (.identifier "a")).toJson = some q ∧
        q.Same (Program.ofExpression (.identifier "a"))) := by
  obtain ⟨hexpression, hjson, hproperty, hstatement, hprogram⟩ := reading_and_writing
  have he : (Expression.array [none, some (.literal (.number Double.zero.negate)),
      some (.other (.obj []))]).WellFormed := by
    have hother : Expression.ofJson (.obj []) = .other (.obj []) :=
      Expression.ofJson_of_node?_eq_none rfl
    simpa [Expression.WellFormed, Expression.ElementsWellFormed, Literal.WellFormed] using
      ⟨rfl, hother⟩
  have hj : (Json.obj [("type", .str "Identifier"), ("name", .int 0)]).IsValue :=
    ⟨by simp [Json.Distinct, Json.MembersDistinct],
      by simp [Json.NumbersFit, Json.MemberNumbersFit]⟩
  have hp : (Property.ofText "__proto__" (.literal .null)).WellFormed := by
    simp [Property.WellFormed, Property.ofText, Expression.text, Expression.WellFormed,
      Literal.WellFormed]
  have hs : (Statement.expression (.identifier "a")).WellFormed := by
    simp [Statement.WellFormed, Expression.WellFormed]
  have hq : (Program.ofExpression (.identifier "a")).WellFormed := by
    simpa [Program.WellFormed, Program.ofExpression] using hs
  exact ⟨⟨he, hexpression _ he⟩, ⟨hj, (hjson _ hj).1⟩, ⟨hp, hproperty _ hp⟩,
    ⟨hs, hstatement _ hs⟩, ⟨hq, hprogram _ hq⟩⟩

end JsxAttributes
