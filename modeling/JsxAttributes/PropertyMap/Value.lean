import JsxAttributes.Json.Basic
import JsxAttributes.Number.Layout

/-!
Values of element properties, with the text and the truth that a script gives them.
-/
namespace JsxAttributes

open Number (Double)

inductive Token where
  | number (value : Double)
  | text (value : String)

inductive Value where
  | null
  | bool (value : Bool)
  | number (value : Double)
  | text (value : String)
  | list (tokens : List Token)

namespace Token

def toText : Token → String
  | .number x => x.toText
  | .text t => t

def equals : Token → Token → Bool
  | .number x, .number y => x.equals y
  | .text s, .text t => s == t
  | _, _ => false

def ofJson? : Json → Option Token
  | .str t => some (.text t)
  | j => j.number?.map .number

end Token

def joinTokens (separator : String) (tokens : List Token) : String :=
  separator.intercalate (tokens.map (·.toText))

namespace Value

/-- The text a script gives the value. -/
def toText : Value → String
  | .null => "null"
  | .bool b => if b then "true" else "false"
  | .number x => x.toText
  | .text t => t
  | .list tokens => joinTokens "," tokens

def isNaN : Value → Bool
  | .number x => x.isNaN
  | _ => false

/-- A script takes the value for false. A list is an object and therefore never false. -/
def isFalsy : Value → Bool
  | .null => true
  | .bool b => !b
  | .number x => x.isZero || x.isNaN
  | .text t => t.isEmpty
  | .list _ => false

def equalTokens : List Token → List Token → Bool
  | [], [] => true
  | x :: xs, y :: ys => x.equals y && equalTokens xs ys
  | _, _ => false

/-- Equality of values, with the two zeros equal and `NaN` equal to nothing. -/
def equals : Value → Value → Bool
  | .null, .null => true
  | .bool a, .bool b => a == b
  | .number x, .number y => x.equals y
  | .text s, .text t => s == t
  | .list xs, .list ys => equalTokens xs ys
  | _, _ => false

def ofJson? : Json → Option Value
  | .null => some .null
  | .bool b => some (.bool b)
  | .str t => some (.text t)
  | .arr items => (items.mapM Token.ofJson?).map .list
  | j => j.number?.map .number

end Value

end JsxAttributes
