import JsxAttributes.Text.Dashes

/-!
Names of data attributes (`data-foo-bar`) and of their properties (`dataFooBar`). Such a name is
`data` in letters of any case, followed by one or more ASCII letters, digits and signs of
`_`, `-`, `.` and `:`.
-/
namespace JsxAttributes.DataName

def isNameChar (c : Char) : Bool :=
  c.isAlphanum || c == '_' || c == '-' || c == '.' || c == ':'

/-- What follows the four letters of `data`, if this is a data name. -/
def rest? : List Char → Option (List Char)
  | d :: a :: t :: b :: r =>
    if [d, a, t, b].map Char.toLower = ['d', 'a', 't', 'a'] ∧ r ≠ [] ∧ r.all isNameChar then some r
    else none
  | _ => none

def capitalize : List Char → List Char
  | [] => []
  | c :: r => c.toUpper :: r

/-- The property of the attribute that goes on so after `data-`. -/
def propertyOf (rest : List Char) : List Char :=
  ['d', 'a', 't', 'a'] ++ capitalize (Text.dashesToCapitals rest)

/-- The attribute of the property `name`, which goes on with `rest` after `data`. A name with a
dash before a small letter is an attribute already. -/
def attributeOf (name rest : List Char) : List Char :=
  if Text.hasWordDash rest then name
  else
    let spread := Text.capitalsToDashes rest
    ['d', 'a', 't', 'a'] ++ (if spread.head? = some '-' then spread else '-' :: spread)

end JsxAttributes.DataName
