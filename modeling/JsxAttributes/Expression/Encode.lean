import JsxAttributes.Expression.Basic

/-!
Expressions, statements and programs as JSON. Each node starts with its type and goes on with its
fields; a node kept as JSON is written as it is.
-/
namespace JsxAttributes

open Number (Double)

/-- Whole numbers below 2⁵³ are written as integers, also the negative zero, and what is no finite
number as `null`. -/
def Json.ofNumber (x : Double) : Json :=
  match x.toSafeInt? with
  | some n => .int n
  | none => if x.isFinite then .double x else .null

def Literal.toJson : Literal → Json
  | .null => .null
  | .bool b => .bool b
  | .number x => .ofNumber x
  | .text t => .str t

def PropertyKind.name : PropertyKind → String
  | .init => "init"
  | .get => "get"
  | .set => "set"

def UnaryOperator.symbol : UnaryOperator → String
  | .minus => "-"
  | .plus => "+"
  | .not => "!"
  | .bitwiseNot => "~"
  | .typeof => "typeof"
  | .void => "void"
  | .delete => "delete"

def SourceType.name : SourceType → String
  | .script => "script"
  | .module => "module"

/-- A node of a syntax tree: an object that starts with its type. -/
def Json.node (type : String) (fields : List (String × Json)) : Json :=
  .obj (("type", .str type) :: fields)

/-- The fields of an entry whose key and value are JSON already. -/
def Property.fields (p : Property Json) : List (String × Json) :=
  [("computed", .bool p.computed), ("key", p.key), ("kind", .str p.kind.name),
    ("method", .bool p.method), ("shorthand", .bool p.shorthand), ("value", p.value)]

def Property.node (p : Property Json) : Json := .node "Property" p.fields

namespace Expression

def arrayFields (elements : List Json) : List (String × Json) := [("elements", .arr elements)]

def objectFields (properties : List Json) : List (String × Json) :=
  [("properties", .arr properties)]

def unaryFields (operator : UnaryOperator) (prefixed : Bool) (argument : Json) :
    List (String × Json) :=
  [("operator", .str operator.symbol), ("prefix", .bool prefixed), ("argument", argument)]

mutual

def toJson : Expression → Json
  | .literal v => .node "Literal" [("value", v.toJson)]
  | .identifier name => .node "Identifier" [("name", .str name)]
  | .array elements => .node "ArrayExpression" (arrayFields (elementsToJson elements))
  | .object properties => .node "ObjectExpression" (objectFields (propertiesToJson properties))
  | .unary operator prefixed argument =>
    .node "UnaryExpression" (unaryFields operator prefixed (toJson argument))
  | .other node => node

/-- A hole is written `null`. -/
def elementsToJson : List (Option Expression) → List Json
  | [] => []
  | none :: r => .null :: elementsToJson r
  | some e :: r => toJson e :: elementsToJson r

def propertiesToJson : List (Property Expression) → List Json
  | [] => []
  | ⟨computed, key, kind, method, shorthand, value⟩ :: r =>
    Property.node ⟨computed, toJson key, kind, method, shorthand, toJson value⟩ ::
      propertiesToJson r

end

end Expression

def Property.toJson (p : Property Expression) : Json :=
  Property.node ⟨p.computed, p.key.toJson, p.kind, p.method, p.shorthand, p.value.toJson⟩

def Statement.toJson : Statement → Json
  | .expression e => .node "ExpressionStatement" [("expression", e.toJson)]

def Program.toJson (p : Program) : Json :=
  .node "Program" [("sourceType", .str p.sourceType.name), ("body", .arr (p.body.map (·.toJson)))]

end JsxAttributes
