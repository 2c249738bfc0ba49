import JsxAttributes.Json.Basic
import JsxAttributes.Json.Extent

/-!
Reading records and choices from JSON. A record is an object with a member for each field, or an
array of the fields in their order. Members that are no fields are passed over; a field given twice
is refused, and so is an array of more items than there are fields.
-/
namespace JsxAttributes.Json

variable {α : Type}

/-- One level of a JSON value, with something known about each value inside it. -/
inductive Layer (α : Type) where
  | members (entries : List (String × α))
  | items (items : List α)
  | leaf

/-- The level itself, over the plain values inside it. -/
def layer : Json → Layer Json
  | .obj members => .members members
  | .arr items => .items items
  | _ => .leaf

/-- What stands under a name: nothing or one value, and a failure if there are several. -/
def field? (name : String) (members : List (String × α)) : Option (Option α) :=
  match members.filter (·.1 = name) with
  | [] => some none
  | [e] => some (some e.2)
  | _ => none

/-- The fields with these names, in this order; those that are missing are `none`. -/
def Layer.fields? (names : List String) : Layer α → Option (List (Option α))
  | .members entries => names.mapM (field? · entries)
  | .items values =>
    if values.length ≤ names.length then
      some (values.map some ++ List.replicate (names.length - values.length) none)
    else none
  | .leaf => none

def optional? (read : Json → Option α) (default : α) : Option Json → Option α
  | none => some default
  | some j => read j

/-- What may fill the place beside the name of a choice that is written as an object. -/
inductive Filler where
  | null
  | nullOrEmpty

def Filler.allows : Filler → Json → Bool
  | _, .null => true
  | .nullOrEmpty, .obj [] => true
  | _, _ => false

/-- One of several named values: its name, or an object of that name alone with a filler in it. -/
def choice? (filler : Filler) (named : List (String × α)) : Json → Option α
  | .str name => findEntry name named
  | .obj [(name, j)] => if filler.allows j then findEntry name named else none
  | _ => none

end JsxAttributes.Json
