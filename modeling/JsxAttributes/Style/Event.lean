import JsxAttributes.Style.Object

/-!
What is noted while a style text is read and turned into an object.
-/
namespace JsxAttributes.Style

inductive Event where
  | read (declaration : Declaration)
  /-- A declaration has no value. -/
  | skippedEmpty (property : String)
  /-- A declaration would have set the prototype. -/
  | droppedProto

/-- The declarations up to the first fault. -/
def readEvents (text : String) : List Event :=
  (Reading.ofText text.toList).declarations.map .read

/-- The declarations that make no entry. -/
def assignmentEvents (o : KeyOptions) (ds : List Declaration) : List Event :=
  ds.filterMap fun d =>
    match d.assignment o with
    | .empty => some (.skippedEmpty d.property)
    | .proto => some .droppedProto
    | .entry .. => none

/-- All declarations are read before the first of them is assigned. -/
def objectEvents (o : KeyOptions) (text : String) : List Event :=
  readEvents text ++
    match readDeclarations text with
    | .ok ds => assignmentEvents o ds
    | .error _ => []

end JsxAttributes.Style
