import JsxAttributes.Expression.Basic

/-!
The expression that evaluates to a given value. A literal holds no sign and no infinity, so
negative numbers are written with a minus, and what is no finite number by its global name.
-/
namespace JsxAttributes.Expression

open Number (Double)

/-- The expression of a number without a sign. -/
def ofMagnitude : Double → Expression
  | .nan => .identifier "NaN"
  | .infinite _ => .identifier "Infinity"
  | .finite _ rank => .literal (.number (.finite false rank))

/-- The expression of a number; the negative zero has a minus as well. -/
def ofNumber (x : Double) : Expression :=
  if x.isNegative then applied .minus (ofMagnitude x) else ofMagnitude x

mutual

/-- The expression of a JSON value; an object keeps the order of its members. -/
def ofValue : Json → Expression
  | .null => .literal .null
  | .bool b => .literal (.bool b)
  | .int n => ofNumber (Double.ofInt n)
  | .double x => ofNumber x
  | .str t => .text t
  | .arr items => .array (ofItems items)
  | .obj members => .object (ofMembers members)

def ofItems : List Json → List (Option Expression)
  | [] => []
  | j :: r => some (ofValue j) :: ofItems r

def ofMembers : List (String × Json) → List (Property Expression)
  | [] => []
  | (key, j) :: r => Property.ofText key (ofValue j) :: ofMembers r

end

end JsxAttributes.Expression
