import JsxAttributes.OrderedMap

/-!
How much of a written value a reader asks for. Of a record it asks for the fields, so that members
which are no fields may hold anything that the grammar allows.
-/
namespace JsxAttributes.Json

/-- How much of a value is read: all of it, the fields of a record, or as much of every item. -/
inductive Extent where
  | whole
  | record (fields : List (String × Extent))
  | each (item : Extent)

namespace Extent

def ofFields (names : List String) : Extent := .record (names.map fun name => (name, .whole))

/-- How much of the member with this name is read, if any of it is. -/
def member? (name : String) : Extent → Option Extent
  | .whole => some .whole
  | .record fields => findEntry name fields
  | .each _ => none

/-- How much of the item at this place is read; a record may be given as an array of its fields. -/
def item (place : Nat) : Extent → Extent
  | .whole => .whole
  | .record fields => ((fields.map Prod.snd)[place]?).getD .whole
  | .each item => item

end Extent

end JsxAttributes.Json
