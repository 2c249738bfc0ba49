import JsxAttributes.Expression.Decode
import JsxAttributes.Proofs.NearestDouble

/-! Reading an expression back from the JSON it was written as. What is lost is the sign of a zero, which
JSON integers do not have. The induction follows the expression; how the fields of one node are found
again is settled beforehand, node by node. -/
namespace JsxAttributes

open Number (Double)
open Json (Filler Layer)

/-! ## Well-formed expressions -/

/-- JSON holds no other numbers than finite ones. -/
def Literal.WellFormed : Literal → Prop
  | .number x => x.isFinite = true
  | _ => True

def Literal.positiveZeros : Literal → Literal
  | .number x => .number x.positiveZero
  | v => v

namespace Expression

mutual

/-- Number literals are finite, a node kept as JSON is one that reading keeps, and no element of an array
is a `null` kept so. -/
def WellFormed : Expression → Prop
  | .literal v => v.WellFormed
  | .identifier _ => True
  | .array elements => ElementsWellFormed elements
  | .object properties => PropertiesWellFormed properties
  | .unary _ _ argument => WellFormed argument
  | .other node => ofJson node = .other node

def ElementsWellFormed : List (Option Expression) → Prop
  | [] => True
  | none :: r => ElementsWellFormed r
  | some e :: r => (e ≠ .other .null ∧ WellFormed e) ∧ ElementsWellFormed r

def PropertiesWellFormed : List (Property Expression) → Prop
  | [] => True
  | ⟨_, key, _, _, _, value⟩ :: r => (WellFormed key ∧ WellFormed value) ∧ PropertiesWellFormed r

end

mutual

/-- The expression with the positive zero for the negative one in its literals. -/
def positiveZeros : Expression → Expression
  | .literal v => .literal v.positiveZeros
  | .identifier name => .identifier name
  | .array elements => .array (elementsPositiveZeros elements)
  | .object properties => .object (propertiesPositiveZeros properties)
  | .unary operator prefixed argument => .unary operator prefixed (positiveZeros argument)
  | .other node => .other node

def elementsPositiveZeros : List (Option Expression) → List (Option Expression)
  | [] => []
  | none :: r => none :: elementsPositiveZeros r
  | some e :: r => some (positiveZeros e) :: elementsPositiveZeros r

def propertiesPositiveZeros : List (Property Expression) → List (Property Expression)
  | [] => []
  | ⟨computed, key, kind, method, shorthand, value⟩ :: r =>
    ⟨computed, positiveZeros key, kind, method, shorthand, positiveZeros value⟩ ::
      propertiesPositiveZeros r

end

mutual

def numbers : Expression → List Double
  | .literal (.number x) => [x]
  | .literal _ => []
  | .identifier _ => []
  | .array elements => elementNumbers elements
  | .object properties => propertyNumbers properties
  | .unary _ _ argument => numbers argument
  | .other _ => []

def elementNumbers : List (Option Expression) → List Double
  | [] => []
  | none :: r => elementNumbers r
  | some e :: r => numbers e ++ elementNumbers r

def propertyNumbers : List (Property Expression) → List Double
  | [] => []
  | ⟨_, key, _, _, _, value⟩ :: r => numbers key ++ (numbers value ++ propertyNumbers r)

end

mutual

theorem positiveZeros_eq_self : (e : Expression) → (∀ x ∈ e.numbers, x.isNegative = false) →
    e.positiveZeros = e
  | .literal (.number x), h => by
    have hx : x.isNegative = false := h x (by simp [numbers])
    rw [positiveZeros, Literal.positiveZeros, Double.positiveZero_eq_self hx]
  | .literal .null, _ => by rw [positiveZeros, Literal.positiveZeros]; simp
  | .literal (.bool b), _ => by rw [positiveZeros, Literal.positiveZeros]; simp
  | .literal (.text t), _ => by rw [positiveZeros, Literal.positiveZeros]; simp
  | .identifier name, _ => by rw [positiveZeros]
  | .array elements, h => by
    rw [numbers] at h
    rw [positiveZeros, elementsPositiveZeros_eq_self elements h]
  | .object properties, h => by
    rw [numbers] at h
    rw [positiveZeros, propertiesPositiveZeros_eq_self properties h]
  | .unary operator prefixed argument, h => by
    rw [numbers] at h
    rw [positiveZeros, positiveZeros_eq_self argument h]
  | .other node, _ => by rw [positiveZeros]

theorem elementsPositiveZeros_eq_self : (es : List (Option Expression)) →
    (∀ x ∈ elementNumbers es, x.isNegative = false) → elementsPositiveZeros es = es
  | [], _ => by rw [elementsPositiveZeros]
  | none :: r, h => by
    rw [elementNumbers] at h
    rw [elementsPositiveZeros, elementsPositiveZeros_eq_self r h]
  | some e :: r, h => by
    rw [elementNumbers, List.forall_mem_append] at h
    rw [elementsPositiveZeros, positiveZeros_eq_self e h.1, elementsPositiveZeros_eq_self r h.2]

theorem propertiesPositiveZeros_eq_self : (ps : List (Property Expression)) →
    (∀ x ∈ propertyNumbers ps, x.isNegative = false) → propertiesPositiveZeros ps = ps
  | [], _ => by rw [propertiesPositiveZeros]
  | ⟨computed, key, kind, method, shorthand, value⟩ :: r, h => by
    rw [propertyNumbers, List.forall_mem_append, List.forall_mem_append] at h
    rw [propertiesPositiveZeros, positiveZeros_eq_self key h.1, positiveZeros_eq_self value h.2.1,
      propertiesPositiveZeros_eq_self r h.2.2]

end

end Expression

/-! ## Names and literals -/

theorem PropertyKind.choice?_name (filler : Filler) (k : PropertyKind) :
    (Json.str k.name).choice? filler PropertyKind.named = some k := by
  cases k <;> rfl

theorem UnaryOperator.choice?_symbol (filler : Filler) (o : UnaryOperator) :
    (Json.str o.symbol).choice? filler UnaryOperator.named = some o := by
  cases o <;> rfl

theorem Literal.ofJson?_toJson {v : Literal} (h : v.WellFormed) :
    Literal.ofJson? v.toJson = some v.positiveZeros := by
  cases v with
  | null => rfl
  | bool b => rfl
  | text t => rfl
  | number x =>
    rw [toJson, Json.ofNumber, positiveZeros]
    cases hs : x.toSafeInt? with
    | some n => exact congrArg (fun y => some (Literal.number y)) (Double.ofInt_of_toSafeInt? hs)
    | none =>
      have hfinite : x.isFinite = true := h
      rw [hfinite, Double.positiveZero_of_toSafeInt?_eq_none hs]
      rfl

/-! ## Nodes -/

namespace Readings

def ofJson (j : Json) : Readings := .ofLayer j j.readings

theorem itemReadings_eq (items : List Json) : Json.itemReadings items = items.map ofJson := by
  induction items with
  | nil => rfl
  | cons j r ih => exact congrArg (ofJson j :: ·) ih

theorem memberReadings_eq (members : List (String × Json)) :
    Json.memberReadings members = members.map fun m => (m.1, ofJson m.2) := by
  induction members with
  | nil => rfl
  | cons m r ih => exact congrArg ((m.1, ofJson m.2) :: ·) ih

/-- The level of a node: its type and its fields. -/
def node (type : String) (fields : List (String × Json)) : Layer Readings :=
  .members (("type", ofJson (.str type)) :: fields.map fun f => (f.1, ofJson f.2))

theorem readings_node (type : String) (fields : List (String × Json)) :
    (Json.node type fields).readings = node type fields :=
  congrArg Layer.members (memberReadings_eq _)

theorem splitType?_node {type : String} {fields : List (String × Json)}
    (h : "type" ∉ fields.map Prod.fst) :
    (node type fields).splitType? = some (.str type, node type fields) := by
  have hrest : (fields.map fun f => (f.1, ofJson f.2)).filter (·.1 = "type") = [] := by
    refine List.filter_eq_nil_iff.2 fun f hf => ?_
    obtain ⟨g, hg, rfl⟩ := List.mem_map.1 hf
    have hne : g.1 ≠ "type" := fun hk => h (hk ▸ List.mem_map_of_mem hg)
    simpa using hne
  rw [node, Layer.splitType?, Json.field?, List.filter_cons_of_pos (by simp), hrest]
  rfl

/-- A node is read as its type says, where its fields fit. -/
theorem ofJson_node {type : String} {fields : List (String × Json)} {t : NodeType} {e : Expression}
    (h : "type" ∉ fields.map Prod.fst) (ht : NodeType.ofJson? (.str type) = some t)
    (he : (node type fields).ofType? t = some e) : Expression.ofJson (Json.node type fields) = e := by
  have hn : (node type fields).node? = some e := by
    rw [Layer.node?, splitType?_node h]
    simp only [Option.bind_eq_bind, Option.bind_some, ht, he]
  rw [Expression.ofJson, readings_node]
  simp only [ofLayer, hn]

theorem fields?_property (p : Property Json) :
    (node "Property" p.fields).fields? Property.fieldNames = some
      [some (ofJson (.bool p.computed)), some (ofJson p.key), some (ofJson (.str p.kind.name)),
        some (ofJson (.bool p.method)), some (ofJson (.bool p.shorthand)), some (ofJson p.value)] := by
  simp [node, Layer.fields?, Property.fieldNames, Property.fields, Json.field?]

theorem property?_node (filler : Filler) (p : Property Json) :
    p.node.readings.property? filler = some ⟨p.computed, Expression.ofJson p.key, p.kind, p.method,
      p.shorthand, Expression.ofJson p.value⟩ := by
  rw [Property.node, readings_node, Layer.property?, fields?_property]
  simp [ofJson, ofLayer, Json.bool?, PropertyKind.choice?_name, Expression.ofJson]

end Readings

/-! ## Expressions -/

namespace Expression
open Readings

theorem ofJson_literal {v : Literal} (h : v.WellFormed) :
    ofJson (literal v).toJson = literal v.positiveZeros := by
  rw [toJson]
  refine ofJson_node (t := .literal) (by simp) rfl ?_
  simp [Readings.node, Layer.ofType?, Layer.literal?, Layer.fields?, Json.field?, Readings.ofJson,
    ofLayer, Literal.ofJson?_toJson h]

theorem ofJson_identifier (name : String) : ofJson (identifier name).toJson = identifier name := by
  rw [toJson]
  refine ofJson_node (t := .identifier) (by simp) rfl ?_
  simp [Readings.node, Layer.ofType?, Layer.identifier?, Layer.fields?, Json.field?,
    Readings.ofJson, ofLayer, Json.str?]

/-- An array is read if its elements are. -/
theorem ofJson_array (items : List Json) :
    ofJson (.node "ArrayExpression" (arrayFields items)) =
      array (items.map fun j => (Readings.ofJson j).element) := by
  refine ofJson_node (t := .array) (by simp [arrayFields]) rfl ?_
  simp [Readings.node, Layer.ofType?, Layer.array?, Layer.fields?, Json.field?, Readings.ofJson,
    ofLayer, arrayFields, arrayFieldNames, Json.readings, itemReadings_eq]

theorem ofJson_object {items : List Json} {ps : List (Property Expression)}
    (h : items.mapM (fun j => (Readings.ofJson j).property) = some ps) :
    ofJson (.node "ObjectExpression" (objectFields items)) = object ps := by
  refine ofJson_node (t := .object) (by simp [objectFields]) rfl ?_
  have hps : (Readings.ofJson (.arr items)).properties = some ps := by
    simp only [Readings.ofJson, ofLayer, Json.readings, itemReadings_eq, List.mapM_map]
    exact h
  simp [Readings.node, Layer.ofType?, Layer.object?, Layer.fields?, Json.field?, objectFields,
    objectFieldNames, hps]

theorem ofJson_unary (operator : UnaryOperator) (prefixed : Bool) (argument : Json) :
    ofJson (.node "UnaryExpression" (unaryFields operator prefixed argument)) =
      unary operator prefixed (ofJson argument) := by
  refine ofJson_node (t := .unary) (by simp [unaryFields]) rfl ?_
  have ho := UnaryOperator.choice?_symbol .nullOrEmpty operator
  simp [Readings.node, Layer.ofType?, Layer.unary?, Layer.fields?, Json.field?, unaryFields,
    unaryFieldNames, Readings.ofJson, ofLayer, Json.bool?, ho, ofJson]

theorem toJson_ne_null {e : Expression} (h : e ≠ .other .null) : e.toJson ≠ .null := by
  cases e with
  | other node =>
    rw [toJson]
    exact fun hn => h (congrArg other hn)
  | _ => simp [toJson, Json.node]

theorem element_toJson {e : Expression} (h : e ≠ .other .null) :
    (Readings.ofJson e.toJson).element = some (ofJson e.toJson) := by
  have hn := toJson_ne_null h
  rw [Readings.element]
  split
  · next hj => exact absurd hj hn
  · rfl

mutual

/-- A well-formed expression is read back, up to the signs of zeros. -/
theorem ofJson_toJson : (e : Expression) → e.WellFormed → ofJson e.toJson = e.positiveZeros
  | .literal v, h => by
    rw [WellFormed] at h
    rw [ofJson_literal h, positiveZeros]
  | .identifier name, _ => by rw [ofJson_identifier, positiveZeros]
  | .array elements, h => by
    rw [WellFormed] at h
    rw [toJson, ofJson_array, elements_toJson elements h, positiveZeros]
  | .object properties, h => by
    rw [WellFormed] at h
    rw [toJson, ofJson_object (properties_toJson properties h), positiveZeros]
  | .unary operator prefixed argument, h => by
    rw [WellFormed] at h
    rw [toJson, ofJson_unary, ofJson_toJson argument h, positiveZeros]
  | .other node, h => by
    rw [WellFormed] at h
    rw [toJson, h, positiveZeros]

theorem elements_toJson : (es : List (Option Expression)) → ElementsWellFormed es →
    (elementsToJson es).map (fun j => (Readings.ofJson j).element) = elementsPositiveZeros es
  | [], _ => by rw [elementsToJson, List.map_nil, elementsPositiveZeros]
  | none :: r, h => by
    rw [ElementsWellFormed] at h
    rw [elementsToJson, List.map_cons, elements_toJson r h, elementsPositiveZeros]
    rfl
  | some e :: r, h => by
    rw [ElementsWellFormed] at h
    rw [elementsToJson, List.map_cons, elements_toJson r h.2, element_toJson h.1.1,
      ofJson_toJson e h.1.2, elementsPositiveZeros]

theorem properties_toJson : (ps : List (Property Expression)) → PropertiesWellFormed ps →
    (propertiesToJson ps).mapM (fun j => (Readings.ofJson j).property) =
      some (propertiesPositiveZeros ps)
  | [], _ => by
    rw [propertiesToJson, propertiesPositiveZeros]
    rfl
  | ⟨computed, key, kind, method, shorthand, value⟩ :: r, h => by
    rw [PropertiesWellFormed] at h
    have hp := property?_node .nullOrEmpty
      ⟨computed, key.toJson, kind, method, shorthand, value.toJson⟩
    rw [ofJson_toJson key h.1.1, ofJson_toJson value h.1.2] at hp
    rw [propertiesToJson, List.mapM_cons, properties_toJson r h.2, propertiesPositiveZeros]
    simp [Readings.ofJson, ofLayer, hp]

end

end Expression
end JsxAttributes
