import JsxAttributes.Expression.Encode

/-!
Attributes of a JSX element, and the nodes by which they are written.
-/
namespace JsxAttributes

inductive AttributeValue where
  /-- The attribute is there without a value. -/
  | absent
  | text (text : String)
  | expression (expression : Expression)

structure Attribute where
  name : String
  value : AttributeValue

namespace AttributeValue

def text? : AttributeValue → Option String
  | .text t => some t
  | _ => none

def expression? : AttributeValue → Option Expression
  | .expression e => some e
  | _ => none

/-- An expression is written as a program, next to an empty source text. -/
def toJson? : AttributeValue → Option Json
  | .absent => none
  | .text t => some (.str t)
  | .expression e => some (.node "mdxJsxAttributeValueExpression"
      [("value", .str ""), ("data", .obj [("estree", (Program.ofExpression e).toJson)])])

end AttributeValue

/-- An attribute without a value has no member for it. -/
def Attribute.toJson (a : Attribute) : Json :=
  .node "mdxJsxAttribute"
    (("name", .str a.name) :: a.value.toJson?.toList.map fun j => ("value", j))

end JsxAttributes
