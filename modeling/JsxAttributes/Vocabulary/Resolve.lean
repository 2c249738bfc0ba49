import JsxAttributes.Vocabulary.Aria
import JsxAttributes.Vocabulary.DataName
import JsxAttributes.Vocabulary.Html
import JsxAttributes.Vocabulary.Svg
import JsxAttributes.Vocabulary.Xml

/-!
What a property or attribute name means in a schema. Names are compared in small letters. A data
name outside the vocabularies is converted by its form, and every other name stands for itself.
-/
namespace JsxAttributes.Schema

def vocabularies : Schema → List Vocabulary
  | .html => [.xml, .xlink, .xmlns, .aria, .html]
  | .svg => [.xml, .xlink, .xmlns, .aria, .svg]

def htmlTable : Table := .ofVocabularies (vocabularies .html)

def svgTable : Table := .ofVocabularies (vocabularies .svg)

def table : Schema → Table
  | .html => htmlTable
  | .svg => svgTable

/-- What a name outside the vocabularies means. -/
def unlisted (name : String) : Info :=
  match DataName.rest? name.toList with
  | some ('-' :: r) =>
    { property := String.ofList (DataName.propertyOf r), attributeName := name, defined := true }
  | some r =>
    { property := name, attributeName := String.ofList (DataName.attributeOf name.toList r),
      defined := true }
  | none => { property := name, attributeName := name }

def resolve (s : Schema) (name : String) : Info :=
  match s.table.get? (Text.lowercased name) with
  | some i => i
  | none => unlisted name

end JsxAttributes.Schema
