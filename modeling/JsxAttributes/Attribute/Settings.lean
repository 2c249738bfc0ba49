import JsxAttributes.Expression.Basic
import JsxAttributes.PropertyMap.Value
import JsxAttributes.Vocabulary.Info
import JsxAttributes.Vocabulary.Spelling

/-!
What a caller may choose: how names are spelled, the schema, and a hook that replaces values.
-/
namespace JsxAttributes

inductive Hooked where
  /-- The attribute is there without a value. -/
  | absent
  | text (text : String)
  | expression (expression : Expression)

/-- Gets the attribute name, the text computed for it if it has one, and the value in the map. -/
abbrev Hook := String → Option String → Value → Hooked

structure Settings where
  spelling : Spelling := .react
  schema : Schema := .html
  hook : Option Hook := none

/-- Without a hook a computed text is the value. -/
def Hooked.ofText? : Option String → Hooked
  | some t => .text t
  | none => .absent

namespace Settings

def fieldNames : List String := ["elementAttributeNameCase", "space"]

def extent : Json.Extent := .ofFields fieldNames

/-- Fields that are missing have their defaults. A hook cannot be written in JSON. -/
def ofJson? (j : Json) : Option Settings :=
  match j.layer.fields? fieldNames with
  | some [c, s] => do
    return { spelling := ← Json.optional? Spelling.ofJson? .react c,
             schema := ← Json.optional? Schema.ofJson? .html s }
  | _ => none

/-- A description for debugging; of a hook it only tells that there is one. -/
def describe (o : Settings) : String :=
  let spelling := match o.spelling with
    | .vocabulary => "Html"
    | .react => "React"
  let schema := match o.schema with
    | .html => "Html"
    | .svg => "Svg"
  let hook := match o.hook with
    | some _ => "Some(\"<fn>\")"
    | none => "None"
  "Options \x7b element_attribute_name_case: " ++ spelling ++ ", space: " ++ schema ++
    ", transform: " ++ hook ++ " \x7d"

end Settings

end JsxAttributes
