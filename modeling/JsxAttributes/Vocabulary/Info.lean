import JsxAttributes.Json.Record

/-!
What is known about one property: its names, the namespace that defines it and the shape of its
values.
-/
namespace JsxAttributes

/-- The language an element belongs to. Inside SVG names are told apart by case. -/
inductive Schema where
  | html
  | svg
  deriving DecidableEq, Inhabited

inductive Space where
  | html
  | svg
  | xml
  | xlink
  | xmlns
  deriving DecidableEq

structure Shape where
  /-- Present or not; a falsy value means that it is not. -/
  boolean : Bool := false
  /-- Takes the texts `true` and `false`. -/
  booleanish : Bool := false
  /-- Present or not, or a text. -/
  overloadedBoolean : Bool := false
  number : Bool := false
  commaSeparated : Bool := false
  spaceSeparated : Bool := false
  commaOrSpaceSeparated : Bool := false
  deriving DecidableEq

namespace Shape

def plain : Shape := {}
def bool : Shape := { boolean := true }
def boolish : Shape := { booleanish := true }
def overloaded : Shape := { overloadedBoolean := true }
def num : Shape := { number := true }
def commas : Shape := { commaSeparated := true }
def spaces : Shape := { spaceSeparated := true }
def commasOrSpaces : Shape := { commaOrSpaceSeparated := true }

end Shape

structure Info where
  /-- The name in a property map, such as `className`. -/
  property : String
  /-- The name in markup, such as `class`. -/
  attributeName : String
  space : Option Space := none
  shape : Shape := {}
  /-- Has to be set on the element object and not through the attribute. -/
  mustUseProperty : Bool := false
  /-- Some vocabulary knows the property, or it is a data property. -/
  defined : Bool := false
  deriving DecidableEq

namespace Schema

def name : Schema → String
  | .html => "html"
  | .svg => "svg"

def named : List (String × Schema) := [Schema.html, .svg].map fun s => (s.name, s)

def ofJson? : Json → Option Schema := Json.choice? .null named

end Schema

namespace Space

def name : Space → String
  | .html => "html"
  | .svg => "svg"
  | .xml => "xml"
  | .xlink => "xlink"
  | .xmlns => "xmlns"

def named : List (String × Space) :=
  [Space.html, .svg, .xml, .xlink, .xmlns].map fun s => (s.name, s)

def ofJson? : Json → Option Space := Json.choice? .null named

end Space

end JsxAttributes
