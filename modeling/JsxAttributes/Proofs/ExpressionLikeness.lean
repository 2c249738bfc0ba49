import JsxAttributes.Proofs.ExpressionReading
import JsxAttributes.Proofs.JsonLikeness

/-! Well-formed expressions whose JSON is alike are the same. The induction follows the expressions: two nodes of one
type have like fields. That a node and a value kept as JSON are never written alike is seen from reading: what is like
the JSON of a node has the type and the fields of one, and is read as a node. -/
namespace JsxAttributes

open Json (Filler Layer Likeness)

/-! ## Equality up to what is kept as JSON -/

/-- Two entries that differ in nothing but their keys and values, which are related. -/
inductive Property.Rel {ε : Type} (r : ε → ε → Prop) : Property ε → Property ε → Prop where
  | entry (computed : Bool) (kind : PropertyKind) (method shorthand : Bool) {k l v w : ε} :
      r k l → r v w →
      Rel r ⟨computed, k, kind, method, shorthand, v⟩ ⟨computed, l, kind, method, shorthand, w⟩

/-- The same expression but for the signs of zeros in its literals, with related values where it keeps JSON. -/
inductive Expression.Rel (r : Json → Json → Prop) : Expression → Expression → Prop where
  | literal {v w : Literal} : v.Same w → Rel r (.literal v) (.literal w)
  | identifier (name : String) : Rel r (.identifier name) (.identifier name)
  | array {es fs : List (Option Expression)} : List.Forall₂ (Option.Rel (Rel r)) es fs →
      Rel r (.array es) (.array fs)
  | object {ps qs : List (Property Expression)} : List.Forall₂ (Property.Rel (Rel r)) ps qs →
      Rel r (.object ps) (.object qs)
  | unary (operator : UnaryOperator) (prefixed : Bool) {a b : Expression} : Rel r a b →
      Rel r (.unary operator prefixed a) (.unary operator prefixed b)
  | other {j k : Json} : r j k → Rel r (.other j) (.other k)

namespace Expression

mutual

/-- Expressions that keep the same JSON are the same. -/
theorem same_of_rel : (e : Expression) → ∀ {f : Expression}, Rel Eq e f → e.Same f
  | .literal _, _, h => by
    cases h with
    | literal h => rw [Same]; exact h
  | .identifier _, _, h => by
    cases h with
    | identifier => rw [Same]
  | .array es, _, h => by
    cases h with
    | array h => rw [Same]; exact elementsSame_of_rel es h
  | .object ps, _, h => by
    cases h with
    | object h => rw [Same]; exact propertiesSame_of_rel ps h
  | .unary _ _ a, _, h => by
    cases h with
    | unary _ _ h => rw [Same]; exact ⟨rfl, rfl, same_of_rel a h⟩
  | .other _, _, h => by
    cases h with
    | other h => rw [Same]; exact h

theorem elementsSame_of_rel : (es : List (Option Expression)) → ∀ {fs : List (Option Expression)},
    List.Forall₂ (Option.Rel (Rel Eq)) es fs → ElementsSame es fs
  | [], _, .nil => by rw [ElementsSame]; trivial
  | none :: es, _, .cons .none hs => by
    rw [ElementsSame]
    exact elementsSame_of_rel es hs
  | some e :: es, _, .cons (.some h) hs => by
    rw [ElementsSame]
    exact ⟨same_of_rel e h, elementsSame_of_rel es hs⟩

theorem propertiesSame_of_rel : (ps : List (Property Expression)) → ∀ {qs : List (Property Expression)},
    List.Forall₂ (Property.Rel (Rel Eq)) ps qs → PropertiesSame ps qs
  | [], _, .nil => by rw [PropertiesSame]; trivial
  | ⟨_, key, _, _, _, value⟩ :: ps, _, .cons (.entry _ _ _ _ hk hv) hs => by
    rw [PropertiesSame]
    exact ⟨⟨rfl, same_of_rel key hk, rfl, rfl, rfl, same_of_rel value hv⟩, propertiesSame_of_rel ps hs⟩

end

end Expression

/-! ## Literals -/

namespace Literal

variable {u v w : Literal}

theorem Same.symm (h : v.Same w) : w.Same v := by
  cases v <;> cases w <;> first | exact Number.Double.equals_symm h | exact h.symm

theorem Same.trans (h : u.Same v) (h' : v.Same w) : u.Same w := by
  cases u with
  | number x =>
    cases v with
    | number y =>
      cases w with
      | number z => exact Number.Double.equals_trans h h'
      | _ => cases h'
    | _ => cases h
  | null => exact (show null = v from h) ▸ h'
  | bool b => exact (show bool b = v from h) ▸ h'
  | text t => exact (show text t = v from h) ▸ h'

theorem exists_ofJson?_toJson (v : Literal) : ∃ w, ofJson? v.toJson = some w := by
  cases v with
  | number x =>
    rw [toJson, Json.ofNumber]
    split
    · exact ⟨_, rfl⟩
    · split
      · exact ⟨_, rfl⟩
      · exact ⟨_, rfl⟩
  | _ => exact ⟨_, rfl⟩

variable {r : Json → Json → Prop}

/-- Like values are read as the same literal. -/
theorem ofJson?_of_rel (hr : Likeness r) {j k : Json} (h : r j k) (hv : ofJson? j = some v) :
    ∃ w, ofJson? k = some w ∧ (v = w ∨ v.Same w) := by
  cases j with
  | null => exact ⟨v, hr.null h ▸ hv, .inl rfl⟩
  | bool b => exact ⟨v, hr.bool h ▸ hv, .inl rfl⟩
  | int n => exact ⟨v, hr.int h ▸ hv, .inl rfl⟩
  | str t => exact ⟨v, hr.str h ▸ hv, .inl rfl⟩
  | double x =>
    obtain ⟨y, rfl, hxy⟩ := hr.double h
    obtain rfl := Option.some.inj hv
    exact ⟨.number y, rfl, hxy.imp_left (congrArg number)⟩
  | arr items => cases hv
  | obj members => cases hv

theorem same_of_rel (hr : Likeness r) (hv : v.WellFormed) (hw : w.WellFormed)
    (h : r v.toJson w.toJson) : v.Same w := by
  obtain ⟨w', hw', hsame⟩ := ofJson?_of_rel hr h (ofJson?_toJson hv)
  rw [ofJson?_toJson hw, Option.some.injEq] at hw'
  subst hw'
  have hread : v.Same w.positiveZeros := by
    cases hsame with
    | inl heq => exact heq ▸ (same_positiveZeros hv).symm
    | inr hsame => exact (same_positiveZeros hv).symm.trans hsame
  exact hread.trans (same_positiveZeros hw)

end Literal

/-! ## Reading what is like a node -/

namespace Json

theorem field?_map {α β : Type} (g : α → β) (name : String) (ms : List (String × α)) :
    field? name (ms.map fun m => (m.1, g m.2)) = (field? name ms).map (Option.map g) := by
  have hfilter : (ms.map fun m => (m.1, g m.2)).filter (·.1 = name) =
      (ms.filter (·.1 = name)).map fun m => (m.1, g m.2) := List.filter_map
  rw [field?, field?, hfilter]
  generalize ms.filter (·.1 = name) = named
  cases named with
  | nil => rfl
  | cons _ others =>
    cases others with
    | nil => rfl
    | cons _ _ => rfl

/-- The fields of an object are read from its members. -/
theorem fields?_readings {ns : List (String × Json)} {names : List String} {js : List Json}
    (h : List.Forall₂ (fun name j => field? name ns = some (some j)) names js) :
    (obj ns).readings.fields? names = some (js.map fun j => some (Readings.ofJson j)) := by
  rw [readings, Readings.memberReadings_eq, Layer.fields?]
  induction h with
  | nil => rfl
  | cons hj _ ih =>
    rw [List.mapM_cons, field?_map, hj, ih]
    rfl

end Json

namespace Expression

variable {r : Json → Json → Prop} {e f : Expression}

/-- The type of its node, unless it is kept as JSON. -/
def nodeType? : Expression → Option NodeType
  | .literal _ => some .literal
  | .identifier _ => some .identifier
  | .array _ => some .array
  | .object _ => some .object
  | .unary _ _ _ => some .unary
  | .other _ => none

theorem exists_type {t : NodeType} (h : e.nodeType? = some t) : ∃ ms name, e.toJson = .obj ms ∧
    Json.field? "type" ms = some (some (.str name)) ∧ NodeType.ofJson? (.str name) = some t := by
  cases e with
  | other node => cases h
  | _ =>
    cases h
    rw [toJson, Json.node]
    exact ⟨_, _, rfl, rfl, rfl⟩

/-- What has the type and the fields of a node is read as that node. -/
theorem ofJson_ne_other_of_fields {ns : List (String × Json)} {name : String} {t : NodeType}
    (hname : Json.field? "type" ns = some (some (.str name)))
    (ht : NodeType.ofJson? (.str name) = some t)
    (hfields : ((Json.obj ns).readings.ofType? t).isSome) (node : Json) :
    ofJson (.obj ns) ≠ .other node := by
  obtain ⟨e, he⟩ := Option.isSome_iff_exists.1 hfields
  have hsplit : (Json.obj ns).readings.splitType? = some (.str name, (Json.obj ns).readings) := by
    rw [Json.readings, Readings.memberReadings_eq, Layer.splitType?, Json.field?_map, hname]
    rfl
  have hnode : (Json.obj ns).readings.node? = some e := by
    rw [Layer.node?, hsplit]
    simp only [Option.bind_eq_bind, Option.bind_some, ht, he]
  rw [ofJson_of_node?_eq_some hnode]
  intro hother
  exact Layer.ofType?_ne_other (hother ▸ he)

/-! ### The fields of each node -/

theorem isSome_literal? {ns : List (String × Json)} {j : Json} {v : Literal}
    (h : Json.field? "value" ns = some (some j)) (hv : Literal.ofJson? j = some v) :
    (Json.obj ns).readings.literal?.isSome := by
  have hread : Literal.ofJson? (Readings.ofJson j).json = some v := hv
  rw [Layer.literal?, Json.fields?_readings (.cons h .nil)]
  simp only [List.map_cons, List.map_nil, hread, Option.map_some, Option.isSome_some]

theorem isSome_identifier? {ns : List (String × Json)} {name : String}
    (h : Json.field? "name" ns = some (some (.str name))) : (Json.obj ns).readings.identifier?.isSome := by
  rw [Layer.identifier?, Json.fields?_readings (.cons h .nil)]
  rfl

theorem isSome_array? {ns : List (String × Json)} {items : List Json}
    (h : Json.field? "elements" ns = some (some (.arr items))) : (Json.obj ns).readings.array?.isSome := by
  rw [Layer.array?, arrayFieldNames, Json.fields?_readings (.cons h .nil)]
  rfl

theorem isSome_object? {ns : List (String × Json)} {items : List Json} {ps : List (Property Expression)}
    (h : Json.field? "properties" ns = some (some (.arr items)))
    (hps : items.mapM (fun j => (Readings.ofJson j).property) = some ps) :
    (Json.obj ns).readings.object?.isSome := by
  have hread : (Readings.ofJson (.arr items)).properties = some ps := by
    simp only [Readings.ofJson, Readings.ofLayer, Json.readings, Readings.itemReadings_eq, List.mapM_map]
    exact hps
  rw [Layer.object?, objectFieldNames, Json.fields?_readings (.cons h .nil)]
  simp only [List.map_cons, List.map_nil, hread, Option.map_some, Option.isSome_some]

theorem isSome_unary? {ns : List (String × Json)} {operator : UnaryOperator} {prefixed : Bool} {j : Json}
    (ho : Json.field? "operator" ns = some (some (.str operator.symbol)))
    (hp : Json.field? "prefix" ns = some (some (.bool prefixed)))
    (ha : Json.field? "argument" ns = some (some j)) :
    ((Json.obj ns).readings.unary? .nullOrEmpty).isSome := by
  have hchoice : (Readings.ofJson (.str operator.symbol)).json.choice? .nullOrEmpty UnaryOperator.named =
      some operator := UnaryOperator.choice?_symbol .nullOrEmpty operator
  rw [Layer.unary?, unaryFieldNames, Json.fields?_readings (.cons ho (.cons hp (.cons ha .nil)))]
  simp only [List.map_cons, List.map_nil, hchoice]
  rfl

end Expression

/-! ## Names -/

theorem UnaryOperator.symbol_injective {o o' : UnaryOperator} (h : o.symbol = o'.symbol) : o = o' := by
  have hread := choice?_symbol .null o
  rw [h, choice?_symbol .null o'] at hread
  exact (Option.some.inj hread).symm

theorem PropertyKind.name_injective {k k' : PropertyKind} (h : k.name = k'.name) : k = k' := by
  have hread := choice?_name .null k
  rw [h, choice?_name .null k'] at hread
  exact (Option.some.inj hread).symm

/-! ## What is like a node -/

section Likeness

variable {r : Json → Json → Prop}

theorem Property.exists_property? (hr : Likeness r) {p : Property Json} {k : Json} (h : r p.node k) :
    ∃ q, k.readings.property? .nullOrEmpty = some q := by
  rw [node, Json.node] at h
  obtain ⟨ns, rfl, hmembers⟩ := hr.exists_members h
  obtain ⟨c, hc, hcomputed⟩ := hmembers "computed" (.bool p.computed) rfl
  obtain ⟨key, hkey, -⟩ := hmembers "key" p.key rfl
  obtain ⟨d, hd, hkind⟩ := hmembers "kind" (.str p.kind.name) rfl
  obtain ⟨m, hm, hmethod⟩ := hmembers "method" (.bool p.method) rfl
  obtain ⟨s, hs, hshorthand⟩ := hmembers "shorthand" (.bool p.shorthand) rfl
  obtain ⟨v, hv, -⟩ := hmembers "value" p.value rfl
  obtain rfl := hr.bool hcomputed
  obtain rfl := hr.str hkind
  obtain rfl := hr.bool hmethod
  obtain rfl := hr.bool hshorthand
  have hchoice : (Readings.ofJson (.str p.kind.name)).json.choice? .nullOrEmpty PropertyKind.named =
      some p.kind := PropertyKind.choice?_name .nullOrEmpty p.kind
  rw [Layer.property?, fieldNames,
    Json.fields?_readings (.cons hc (.cons hkey (.cons hd (.cons hm (.cons hs (.cons hv .nil))))))]
  simp only [List.map_cons, List.map_nil, hchoice]
  exact ⟨_, rfl⟩

theorem Property.rel_of_node (hr : Likeness r) {p q : Property Json} (h : r p.node q.node) : p.Rel r q := by
  obtain ⟨computed, key, kind, method, shorthand, value⟩ := p
  obtain ⟨computed', key', kind', method', shorthand', value'⟩ := q
  have hcomputed : r (.bool computed) (.bool computed') := hr.member h "computed" rfl rfl
  have hkey : r key key' := hr.member h "key" rfl rfl
  have hkind : r (.str kind.name) (.str kind'.name) := hr.member h "kind" rfl rfl
  have hmethod : r (.bool method) (.bool method') := hr.member h "method" rfl rfl
  have hshorthand : r (.bool shorthand) (.bool shorthand') := hr.member h "shorthand" rfl rfl
  have hvalue : r value value' := hr.member h "value" rfl rfl
  obtain rfl := Json.bool.inj (hr.bool hcomputed)
  obtain rfl := PropertyKind.name_injective (Json.str.inj (hr.str hkind))
  obtain rfl := Json.bool.inj (hr.bool hmethod)
  obtain rfl := Json.bool.inj (hr.bool hshorthand)
  exact .entry _ _ _ _ hkey hvalue

namespace Expression

theorem exists_mapM_property (hr : Likeness r) : (ps : List (Property Expression)) → ∀ {items : List Json},
    List.Forall₂ r (propertiesToJson ps) items →
      ∃ qs, items.mapM (fun j => (Readings.ofJson j).property) = some qs := by
  intro ps
  induction ps with
  | nil =>
    intro items h
    rw [propertiesToJson] at h
    cases h
    exact ⟨[], rfl⟩
  | cons p ps ih =>
    intro items h
    obtain ⟨computed, key, kind, method, shorthand, value⟩ := p
    rw [propertiesToJson] at h
    cases h with
    | cons hp hps =>
      obtain ⟨q, hq⟩ := Property.exists_property? hr hp
      obtain ⟨qs, hqs⟩ := ih hps
      refine ⟨q :: qs, ?_⟩
      rw [List.mapM_cons, show (Readings.ofJson _).property = some q from hq, hqs]
      rfl

/-- What is like the JSON of a node is not kept as JSON when it is read. -/
theorem ofJson_ne_other (hr : Likeness r) {e : Expression} {t : NodeType} (ht : e.nodeType? = some t)
    {k : Json} (h : r e.toJson k) (node : Json) : ofJson k ≠ .other node := by
  obtain ⟨ms, name, hms, hname, htype⟩ := exists_type ht
  have hobj := hms ▸ h
  obtain ⟨ns, rfl, hmembers⟩ := hr.exists_members hobj
  obtain ⟨type, hns, htypes⟩ := hmembers "type" _ hname
  obtain rfl := hr.str htypes
  refine ofJson_ne_other_of_fields hns htype ?_ node
  cases e with
  | literal v =>
    cases ht
    cases hms
    obtain ⟨j, hj, hvj⟩ := hmembers "value" v.toJson rfl
    obtain ⟨w, hw⟩ := Literal.exists_ofJson?_toJson v
    obtain ⟨w', hw', -⟩ := Literal.ofJson?_of_rel hr hvj hw
    exact isSome_literal? hj hw'
  | identifier n =>
    cases ht
    cases hms
    obtain ⟨j, hj, hnj⟩ := hmembers "name" (.str n) rfl
    obtain rfl := hr.str hnj
    exact isSome_identifier? hj
  | array elements =>
    cases ht
    cases hms
    obtain ⟨j, hj, hes⟩ := hmembers "elements" _ rfl
    obtain ⟨items, rfl, -⟩ := hr.arr hes
    exact isSome_array? hj
  | object properties =>
    cases ht
    cases hms
    obtain ⟨j, hj, hps⟩ := hmembers "properties" _ rfl
    obtain ⟨items, rfl, hitems⟩ := hr.arr hps
    obtain ⟨qs, hqs⟩ := exists_mapM_property hr properties hitems
    exact isSome_object? hj hqs
  | unary operator prefixed argument =>
    cases ht
    cases hms
    obtain ⟨o, ho, hoperator⟩ := hmembers "operator" (.str operator.symbol) rfl
    obtain ⟨p, hp, hprefixed⟩ := hmembers "prefix" (.bool prefixed) rfl
    obtain ⟨a, ha, -⟩ := hmembers "argument" argument.toJson rfl
    obtain rfl := hr.str hoperator
    obtain rfl := hr.bool hprefixed
    exact isSome_unary? ho hp ha
  | other j => cases ht

/-! ## Expressions of like JSON -/

variable {e f : Expression}

/-- A node of this library and a value that is kept as JSON are not written alike. -/
theorem nodeType?_eq (hr : Likeness r) (he : e.WellFormed) (hf : f.WellFormed) (h : r e.toJson f.toJson) :
    e.nodeType? = f.nodeType? := by
  -- Were the second one kept as JSON, reading it would make a node of it.
  have hkept {a b : Expression} {t : NodeType} (hb : b.WellFormed) (hab : r a.toJson b.toJson)
      (ha : a.nodeType? = some t) : b.nodeType? ≠ none := by
    intro hnone
    cases b with
    | other j =>
      rw [WellFormed] at hb
      rw [toJson] at hab
      exact ofJson_ne_other hr ha hab j hb
    | _ => cases hnone
  cases ht : e.nodeType? with
  | none =>
    cases hu : f.nodeType? with
    | none => rfl
    | some u => exact absurd ht (hkept he (hr.symm h) hu)
  | some t =>
    cases hu : f.nodeType? with
    | none => exact absurd hu (hkept hf h ht)
    | some u =>
      obtain ⟨ms, name, hms, hname, htype⟩ := exists_type ht
      obtain ⟨ns, name', hns, hname', htype'⟩ := exists_type hu
      rw [hms, hns] at h
      have hnames := hr.str (hr.member h "type" hname hname')
      rw [Json.str.inj hnames, htype] at htype'
      exact htype'

mutual

/-- Well-formed expressions whose JSON is alike are the same. -/
theorem rel_of_toJson (hr : Likeness r) : (e f : Expression) → e.WellFormed → f.WellFormed →
    r e.toJson f.toJson → Rel r e f
  | .literal v, f, he, hf, h => by
    have htype := nodeType?_eq hr he hf h
    cases f with
    | literal w =>
      rw [WellFormed] at he hf
      rw [toJson, toJson] at h
      have hvalue : r v.toJson w.toJson := hr.member h "value" rfl rfl
      exact .literal (Literal.same_of_rel hr he hf hvalue)
    | _ => cases htype
  | .identifier m, f, he, hf, h => by
    have htype := nodeType?_eq hr he hf h
    cases f with
    | identifier n =>
      rw [toJson, toJson] at h
      have hname : r (.str m) (.str n) := hr.member h "name" rfl rfl
      obtain rfl := Json.str.inj (hr.str hname)
      exact .identifier _
    | _ => cases htype
  | .array es, f, he, hf, h => by
    have htype := nodeType?_eq hr he hf h
    cases f with
    | array fs =>
      rw [WellFormed] at he hf
      rw [toJson, toJson] at h
      have helements : r (.arr (elementsToJson es)) (.arr (elementsToJson fs)) := hr.member h "elements" rfl rfl
      obtain ⟨js, hjs, hall⟩ := hr.arr helements
      obtain rfl := Json.arr.inj hjs
      exact .array (elementsRel_of_toJson hr es fs he hf hall)
    | _ => cases htype
  | .object ps, f, he, hf, h => by
    have htype := nodeType?_eq hr he hf h
    cases f with
    | object qs =>
      rw [WellFormed] at he hf
      rw [toJson, toJson] at h
      have hproperties : r (.arr (propertiesToJson ps)) (.arr (propertiesToJson qs)) := hr.member h "properties" rfl rfl
      obtain ⟨js, hjs, hall⟩ := hr.arr hproperties
      obtain rfl := Json.arr.inj hjs
      exact .object (propertiesRel_of_toJson hr ps qs he hf hall)
    | _ => cases htype
  | .unary o p a, f, he, hf, h => by
    have htype := nodeType?_eq hr he hf h
    cases f with
    | unary o' p' b =>
      rw [WellFormed] at he hf
      rw [toJson, toJson] at h
      have hoperator : r (.str o.symbol) (.str o'.symbol) := hr.member h "operator" rfl rfl
      have hprefixed : r (.bool p) (.bool p') := hr.member h "prefix" rfl rfl
      have hargument : r a.toJson b.toJson := hr.member h "argument" rfl rfl
      obtain rfl := UnaryOperator.symbol_injective (Json.str.inj (hr.str hoperator)).symm
      obtain rfl := Json.bool.inj (hr.bool hprefixed)
      exact .unary _ _ (rel_of_toJson hr a b he hf hargument)
    | _ => cases htype
  | .other j, f, he, hf, h => by
    have htype := nodeType?_eq hr he hf h
    cases f with
    | other k =>
      rw [toJson, toJson] at h
      exact .other h
    | _ => cases htype

theorem elementsRel_of_toJson (hr : Likeness r) : (es fs : List (Option Expression)) →
    ElementsWellFormed es → ElementsWellFormed fs → List.Forall₂ r (elementsToJson es) (elementsToJson fs) →
    List.Forall₂ (Option.Rel (Rel r)) es fs
  | [], [], _, _, _ => .nil
  | [], none :: _, _, _, h => nomatch h
  | [], some _ :: _, _, _, h => nomatch h
  | none :: _, [], _, _, h => nomatch h
  | some _ :: _, [], _, _, h => nomatch h
  | none :: es, none :: fs, he, hf, h => by
    rw [ElementsWellFormed] at he hf
    rw [elementsToJson, elementsToJson] at h
    cases h with
    | cons _ h => exact .cons .none (elementsRel_of_toJson hr es fs he hf h)
  | none :: es, some f :: fs, he, hf, h => by
    rw [ElementsWellFormed] at hf
    rw [elementsToJson, elementsToJson] at h
    cases h with
    | cons h _ => exact absurd (hr.null h) (toJson_ne_null hf.1.1)
  | some e :: es, none :: fs, he, hf, h => by
    rw [ElementsWellFormed] at he
    rw [elementsToJson, elementsToJson] at h
    cases h with
    | cons h _ => exact absurd (hr.null (hr.symm h)) (toJson_ne_null he.1.1)
  | some e :: es, some f :: fs, he, hf, h => by
    rw [ElementsWellFormed] at he hf
    rw [elementsToJson, elementsToJson] at h
    cases h with
    | cons h hs =>
      exact .cons (.some (rel_of_toJson hr e f he.1.2 hf.1.2 h)) (elementsRel_of_toJson hr es fs he.2 hf.2 hs)

theorem propertiesRel_of_toJson (hr : Likeness r) : (ps qs : List (Property Expression)) →
    PropertiesWellFormed ps → PropertiesWellFormed qs →
    List.Forall₂ r (propertiesToJson ps) (propertiesToJson qs) → List.Forall₂ (Property.Rel (Rel r)) ps qs
  | [], [], _, _, _ => .nil
  | [], _ :: _, _, _, h => nomatch h
  | _ :: _, [], _, _, h => nomatch h
  | ⟨c, key, kind, m, s, value⟩ :: ps, ⟨c', key', kind', m', s', value'⟩ :: qs, hp, hq, h => by
    rw [PropertiesWellFormed] at hp hq
    rw [propertiesToJson, propertiesToJson] at h
    cases h with
    | cons h hs =>
      cases Property.rel_of_node hr h with
      | entry _ _ _ _ hkey hvalue =>
        exact .cons (.entry _ _ _ _ (rel_of_toJson hr key key' hp.1.1 hq.1.1 hkey)
          (rel_of_toJson hr value value' hp.1.2 hq.1.2 hvalue)) (propertiesRel_of_toJson hr ps qs hp.2 hq.2 hs)

end

end Expression
end Likeness

end JsxAttributes
