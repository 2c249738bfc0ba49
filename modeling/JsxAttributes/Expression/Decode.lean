import JsxAttributes.Expression.Encode
import JsxAttributes.Json.Record

/-!
Reading expressions, statements and programs from JSON. An expression is read from every JSON value:
a node whose type is known and whose fields fit becomes that node, and all else is kept whole. So
that the recursion follows the JSON value, each value inside a node is first read in every way that
its place in the node may ask for. A record that is asked for by itself is stricter than the same
record inside an expression: beside the name of a choice it allows `null` alone.
-/
namespace JsxAttributes

open Number (Double)
open Json (Extent Filler Layer)

/-- What a value inside a node is read as, depending on the field it fills. -/
structure Readings where
  json : Json
  expression : Expression
  elements : Option (List (Option Expression))
  property : Option (Property Expression)
  properties : Option (List (Property Expression))

/-- An element of an array; `null` stands for a hole. -/
def Readings.element (r : Readings) : Option Expression :=
  match r.json with
  | .null => none
  | _ => some r.expression

def Literal.ofJson? : Json → Option Literal
  | .null => some .null
  | .bool b => some (.bool b)
  | .int n => some (.number (Double.ofInt n))
  | .double x => some (.number x)
  | .str t => some (.text t)
  | _ => none

def PropertyKind.named : List (String × PropertyKind) :=
  [PropertyKind.init, .get, .set].map fun k => (k.name, k)

def UnaryOperator.named : List (String × UnaryOperator) :=
  [UnaryOperator.minus, .plus, .not, .bitwiseNot, .typeof, .void, .delete].map
    fun o => (o.symbol, o)

def SourceType.named : List (String × SourceType) :=
  [SourceType.script, .module].map fun t => (t.name, t)

/-! ## The fields of records -/

def Expression.arrayFieldNames : List String := ["elements"]

def Expression.objectFieldNames : List String := ["properties"]

def Expression.unaryFieldNames : List String := ["operator", "prefix", "argument"]

def Property.fieldNames : List String := ["computed", "key", "kind", "method", "shorthand", "value"]

def Program.fieldNames : List String := ["sourceType", "body"]

inductive NodeType where
  | literal
  | identifier
  | array
  | object
  | unary
  deriving DecidableEq

def NodeType.named : List (String × NodeType) :=
  [("Literal", .literal), ("Identifier", .identifier), ("ArrayExpression", .array),
    ("ObjectExpression", .object), ("UnaryExpression", .unary)]

/-- A node type is given by its name or by its place in the order. -/
def NodeType.ofJson? : Json → Option NodeType
  | .str name => findEntry name NodeType.named
  | .int (.ofNat n) => (NodeType.named.map Prod.snd)[n]?
  | _ => none

namespace Json.Layer

/-- Splits a node into its type and its fields. As an array a node starts with its type. -/
def splitType? : Layer Readings → Option (Json × Layer Readings)
  | .members entries =>
    match field? "type" entries with
    | some (some type) => some (type.json, .members entries)
    | _ => none
  | .items (type :: values) => some (type.json, .items values)
  | _ => none

def literal? (l : Layer Readings) : Option Expression :=
  match l.fields? ["value"] with
  | some [some v] => (Literal.ofJson? v.json).map .literal
  | _ => none

def identifier? (l : Layer Readings) : Option Expression :=
  match l.fields? ["name"] with
  | some [some n] => n.json.str?.map .identifier
  | _ => none

def array? (l : Layer Readings) : Option Expression :=
  match l.fields? Expression.arrayFieldNames with
  | some [some es] => es.elements.map .array
  | _ => none

def object? (l : Layer Readings) : Option Expression :=
  match l.fields? Expression.objectFieldNames with
  | some [some ps] => ps.properties.map .object
  | _ => none

def unary? (filler : Filler) (l : Layer Readings) : Option Expression :=
  match l.fields? Expression.unaryFieldNames with
  | some [some o, some p, some a] => do
    return .unary (← o.json.choice? filler UnaryOperator.named) (← p.json.bool?) a.expression
  | _ => none

/-- The fields of an entry of an object expression; its type is not looked at. -/
def property? (filler : Filler) (l : Layer Readings) : Option (Property Expression) :=
  match l.fields? Property.fieldNames with
  | some [some c, some k, some d, some m, some s, some v] => do
    return ⟨← c.json.bool?, k.expression, ← d.json.choice? filler PropertyKind.named,
      ← m.json.bool?, ← s.json.bool?, v.expression⟩
  | _ => none

def ofType? (l : Layer Readings) : NodeType → Option Expression
  | .literal => l.literal?
  | .identifier => l.identifier?
  | .array => l.array?
  | .object => l.object?
  | .unary => l.unary? .nullOrEmpty

def node? (l : Layer Readings) : Option Expression := do
  let (type, fields) ← l.splitType?
  fields.ofType? (← NodeType.ofJson? type)

/-- A statement, which is always an expression. -/
def statement? (l : Layer Readings) : Option Statement :=
  match l.splitType? with
  | some (.str "ExpressionStatement", fields) =>
    match fields.fields? ["expression"] with
    | some [some e] => some (.expression e.expression)
    | _ => none
  | _ => none

end Json.Layer

/-- Reads a value in every way, given its level with the values inside it read already. -/
def Readings.ofLayer (j : Json) (l : Layer Readings) : Readings where
  json := j
  expression := match l.node? with
    | some e => e
    | none => .other j.normalize
  elements := match l with
    | .items rs => some (rs.map (·.element))
    | _ => none
  property := l.property? .nullOrEmpty
  properties := match l with
    | .items rs => rs.mapM (·.property)
    | _ => none

mutual

/-- The level of a value with the values inside it read in every way. -/
def Json.readings : Json → Layer Readings
  | .obj members => .members (Json.memberReadings members)
  | .arr items => .items (Json.itemReadings items)
  | _ => .leaf

def Json.itemReadings : List Json → List Readings
  | [] => []
  | j :: r => .ofLayer j j.readings :: Json.itemReadings r

def Json.memberReadings : List (String × Json) → List (String × Readings)
  | [] => []
  | (key, j) :: r => (key, .ofLayer j j.readings) :: Json.memberReadings r

end

namespace Expression

def ofJson (j : Json) : Expression := (Readings.ofLayer j j.readings).expression

def arrayOfJson? (j : Json) : Option Expression := j.readings.array?

def unaryOfJson? (j : Json) : Option Expression := j.readings.unary? .null

end Expression

def Property.ofJson? (j : Json) : Option (Property Expression) := j.readings.property? .null

/-- An object expression, given by its fields without a type. -/
def Expression.objectOfJson? (j : Json) : Option Expression :=
  match j.layer.fields? Expression.objectFieldNames with
  | some [some (.arr properties)] => (properties.mapM Property.ofJson?).map .object
  | _ => none

def Statement.ofJson? (j : Json) : Option Statement := j.readings.statement?

def Program.ofJson? (j : Json) : Option Program :=
  match j.layer.fields? Program.fieldNames with
  | some [some t, some (.arr body)] => do
    return ⟨← t.choice? .null SourceType.named, ← body.mapM Statement.ofJson?⟩
  | _ => none

/-! ## What a record asks of a text -/

def Expression.arrayExtent : Extent := .ofFields arrayFieldNames

def Expression.unaryExtent : Extent := .ofFields unaryFieldNames

def Property.extent : Extent := .ofFields fieldNames

def Expression.objectExtent : Extent :=
  .record (objectFieldNames.map fun name => (name, .each Property.extent))

def Program.extent : Extent := .ofFields fieldNames

end JsxAttributes
