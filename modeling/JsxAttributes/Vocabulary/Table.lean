import JsxAttributes.OrderedMap
import JsxAttributes.Text.Lowercase
import JsxAttributes.Vocabulary.Info

/-!
Vocabularies and the look-up table of several of them together. A name is known in small letters,
as a property or as an attribute; where two properties claim a name, the later one has it.
-/
namespace JsxAttributes

structure Vocabulary where
  space : Option Space
  /-- The attribute name that a property name suggests. -/
  suggestedAttribute : String → String
  /-- Suggested attribute names that are written differently. -/
  exceptions : List (String × String) := []
  mustUseProperty : List String := []
  properties : List (String × Shape)

namespace Vocabulary

def dropChars (n : Nat) (text : String) : String := String.ofList (text.toList.drop n)

def attributeOf (v : Vocabulary) (property : String) : String :=
  (findEntry (v.suggestedAttribute property) v.exceptions).getD (v.suggestedAttribute property)

def info (v : Vocabulary) (property : String) (shape : Shape) : Info where
  property := property
  attributeName := v.attributeOf property
  space := v.space
  shape := shape
  mustUseProperty := v.mustUseProperty.contains property
  defined := true

def infos (v : Vocabulary) : List Info := v.properties.map fun (name, shape) => v.info name shape

end Vocabulary

/-- Both lists have the newest entry first, so that it is the one found. -/
structure Table where
  infos : List (String × Info)
  /-- The property names by each name in small letters. -/
  claims : List (String × String)

namespace Table

def empty : Table := ⟨[], []⟩

/-- Claims the names of a property; the attribute name is claimed after the property name. -/
def add (t : Table) (i : Info) : Table where
  infos := (i.property, i) :: t.infos
  claims := (Text.lowercased i.attributeName, i.property) ::
    (Text.lowercased i.property, i.property) :: t.claims

def ofVocabularies (vs : List Vocabulary) : Table := (vs.flatMap Vocabulary.infos).foldl add empty

/-- What the last property that claims the name is known to be. -/
def get? (t : Table) (name : String) : Option Info :=
  (findEntry name t.claims).bind (findEntry · t.infos)

end Table

end JsxAttributes
