import JsxAttributes.Json.Basic
import JsxAttributes.Number.Layout

/-!
Writing JSON as compact text: no blanks, fields in their order, characters beyond ASCII as they
are. What is no finite number is written `null`.
-/
namespace JsxAttributes

open Number

/-- A JSON number is written without an exponent from 10⁻⁵ on and below 10¹⁶, and a whole double
keeps a fraction, so that it is read back as a double. -/
def Number.Layout.json : Layout := ⟨-4, 16, true, .even⟩

namespace Json

def escape (c : Char) : List Char :=
  if c = '"' then ['\\', '"']
  else if c = '\\' then ['\\', '\\']
  else if c = '\x08' then ['\\', 'b']
  else if c = '\x0c' then ['\\', 'f']
  else if c = '\n' then ['\\', 'n']
  else if c = '\r' then ['\\', 'r']
  else if c = '\t' then ['\\', 't']
  else if c.toNat < 0x20 then
    ['\\', 'u', '0', '0', Nat.digitChar (c.toNat / 16), Nat.digitChar (c.toNat % 16)]
  else [c]

def quote (text : String) : List Char := '"' :: (text.toList.flatMap escape ++ ['"'])

def writeInt (n : Int) : List Char :=
  (if n < 0 then ['-'] else []) ++ Nat.toDigits 10 n.natAbs

def writeDouble : Double → List Char
  | .finite negative rank => Layout.json.write negative rank
  | _ => "null".toList

mutual

def write : Json → List Char
  | .null => "null".toList
  | .bool b => (if b then "true" else "false").toList
  | .int n => writeInt n
  | .double x => writeDouble x
  | .str t => quote t
  | .arr items => '[' :: writeItems items
  | .obj members => '\x7b' :: writeMembers members

/-- The items with commas between them, and the closing bracket. -/
def writeItems : List Json → List Char
  | [] => [']']
  | [j] => write j ++ [']']
  | j :: r => write j ++ ',' :: writeItems r

/-- The members with commas between them, and the closing brace. -/
def writeMembers : List (String × Json) → List Char
  | [] => ['\x7d']
  | [(key, j)] => quote key ++ ':' :: (write j ++ ['\x7d'])
  | (key, j) :: r => quote key ++ ':' :: (write j ++ ',' :: writeMembers r)

end

def toText (j : Json) : String := String.ofList j.write

end Json

end JsxAttributes
