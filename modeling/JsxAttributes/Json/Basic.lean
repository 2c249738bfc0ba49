import JsxAttributes.Number.Double
import JsxAttributes.OrderedMap

/-!
JSON values. Numbers are integers or doubles, as their text tells them apart. A text may repeat a
key of an object; `normalize` settles such repetitions.
-/
namespace JsxAttributes

open Number (Double)

inductive Json where
  | null
  | bool (value : Bool)
  | int (value : Int)
  | double (value : Double)
  | str (text : String)
  | arr (items : List Json)
  | obj (members : List (String × Json))
  deriving Inhabited

namespace Json

/-- The number nearest to what is written, if it is a number. -/
def number? : Json → Option Double
  | .int n => some (Double.ofInt n)
  | .double x => some x
  | _ => none

def bool? : Json → Option Bool
  | .bool b => some b
  | _ => none

def str? : Json → Option String
  | .str t => some t
  | _ => none

mutual

/-- In every object, a repeated key keeps its first place and takes its last value. -/
def normalize : Json → Json
  | .arr items => .arr (normalizeItems items)
  | .obj members => .obj (OrderedMap.ofList (normalizeMembers members)).entries
  | .null => .null
  | .bool b => .bool b
  | .int n => .int n
  | .double x => .double x
  | .str t => .str t

def normalizeItems : List Json → List Json
  | [] => []
  | j :: r => normalize j :: normalizeItems r

def normalizeMembers : List (String × Json) → List (String × Json)
  | [] => []
  | (key, j) :: r => (key, normalize j) :: normalizeMembers r

end

end Json

end JsxAttributes
