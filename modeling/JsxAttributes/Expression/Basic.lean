import JsxAttributes.Json.Basic

/-!
Expressions of a script as a syntax tree. The nodes that this library makes itself have
constructors of their own; every other node is kept as the JSON it came as.
-/
namespace JsxAttributes

open Number (Double)

inductive Literal where
  | null
  | bool (value : Bool)
  | number (value : Double)
  | text (value : String)
  deriving Inhabited

inductive PropertyKind where
  | init
  | get
  | set
  deriving DecidableEq

inductive UnaryOperator where
  | minus
  | plus
  | not
  | bitwiseNot
  | typeof
  | void
  | delete
  deriving DecidableEq

/-- One entry of an object expression, whose key and value are of the type of expressions. -/
structure Property (ε : Type) where
  computed : Bool
  key : ε
  kind : PropertyKind
  method : Bool
  shorthand : Bool
  value : ε

/-- An element of an array expression is missing where the array has a hole. -/
inductive Expression where
  | literal (value : Literal)
  | identifier (name : String)
  | array (elements : List (Option Expression))
  | object (properties : List (Property Expression))
  | unary (operator : UnaryOperator) (prefixed : Bool) (argument : Expression)
  | other (node : Json)
  deriving Inhabited

inductive SourceType where
  | script
  | module
  deriving DecidableEq

inductive Statement where
  | expression (expression : Expression)

structure Program where
  sourceType : SourceType
  body : List Statement

namespace Expression

def text (t : String) : Expression := .literal (.text t)

def applied (operator : UnaryOperator) (argument : Expression) : Expression :=
  .unary operator true argument

end Expression

/-- A data property with a text as its key. The key `__proto__` is computed, because written plainly
it would set the prototype of the object and define no property. -/
def Property.ofText (key : String) (value : Expression) : Property Expression where
  computed := key == "__proto__"
  key := .text key
  kind := .init
  method := false
  shorthand := false
  value := value

/-- A module of one statement, the given expression. -/
def Program.ofExpression (e : Expression) : Program := ⟨.module, [.expression e]⟩

end JsxAttributes
