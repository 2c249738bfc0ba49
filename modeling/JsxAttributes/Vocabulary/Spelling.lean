import JsxAttributes.Json.Record

/-!
How names of properties are spelled in JSX: as in their vocabulary, or as React spells them. React
has its own spelling for the properties of one table; names are compared exactly.
-/
namespace JsxAttributes

inductive Spelling where
  | vocabulary
  | react
  deriving DecidableEq

namespace Spelling

def named : List (String × Spelling) :=
  [("html", .vocabulary), ("preserve", .vocabulary), ("react", .react), ("alternate", .react)]

def ofJson? : Json → Option Spelling := Json.choice? .null named

end Spelling

def reactSpellings : List (String × String) := [
  ("classId", "classID"), ("dataType", "datatype"), ("itemId", "itemID"),
  ("strokeDashArray", "strokeDasharray"), ("strokeDashOffset", "strokeDashoffset"),
  ("strokeLineCap", "strokeLinecap"), ("strokeLineJoin", "strokeLinejoin"),
  ("strokeMiterLimit", "strokeMiterlimit"), ("typeOf", "typeof"), ("xLinkActuate", "xlinkActuate"),
  ("xLinkArcRole", "xlinkArcrole"), ("xLinkHref", "xlinkHref"), ("xLinkRole", "xlinkRole"),
  ("xLinkShow", "xlinkShow"), ("xLinkTitle", "xlinkTitle"), ("xLinkType", "xlinkType"),
  ("xmlnsXLink", "xmlnsXlink")]

/-- The spelling of a property in React, if it differs. -/
def reactSpelling? (property : String) : Option String := findEntry property reactSpellings

end JsxAttributes
