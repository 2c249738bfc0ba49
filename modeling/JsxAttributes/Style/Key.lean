import JsxAttributes.Json.Record
import JsxAttributes.Text.Dashes
import JsxAttributes.Text.Lowercase

/-!
The key of a style property in a JSX style object: `background-color` becomes `backgroundColor`.
Custom properties and names without a dash stay as they are.
-/
namespace JsxAttributes.Style

structure KeyOptions where
  /-- Keeps vendor names capital, as React spells them; `ms` is small even then. -/
  reactCompat : Bool := false
  deriving DecidableEq

/-- Two dashes and a name of ASCII letters, digits, underscores and dashes. -/
def isCustomName : List Char → Bool
  | '-' :: '-' :: name => !name.isEmpty && name.all fun c => c.isAlphanum || c == '_' || c == '-'
  | _ => false

/-- The vendors whose names start with a small letter. -/
def smallVendors (o : KeyOptions) : List String :=
  if o.reactCompat then ["ms"] else ["webkit", "moz", "ms", "o", "khtml"]

/-- Takes away the dash before such a vendor, so that its name stays small. -/
def withoutLeadingDash (o : KeyOptions) : List Char → List Char
  | [] => []
  | c :: r =>
    if c = '-' ∧ (smallVendors o).any fun v => (v.toList ++ ['-']).isPrefixOf r then r else c :: r

def keyOf (o : KeyOptions) (property : String) : String :=
  let s := property.toList
  if s.contains '-' && !isCustomName s then
    String.ofList (Text.dashesToCapitals (withoutLeadingDash o (Text.lowercase s)))
  else property

def KeyOptions.fieldNames : List String := ["reactCompat"]

def KeyOptions.extent : Json.Extent := .ofFields fieldNames

/-- Fields that are missing have their defaults. -/
def KeyOptions.ofJson? (j : Json) : Option KeyOptions :=
  match j.layer.fields? fieldNames with
  | some [r] => (Json.optional? Json.bool? false r).map fun b => { reactCompat := b }
  | _ => none

end JsxAttributes.Style
