import JsxAttributes.Number.Double

/-!
JSON as it is written: the grammar alone, before anyone asks which values the parts stand for.
Blanks are space, tab and the two line ends, and a text in quotes holds no raw control character.
Numbers of any size, halves of surrogate pairs and any depth of nesting have their place here.
-/
namespace JsxAttributes.Json

/-- A piece of a text in quotes: a character, or a code unit given by its four digits. -/
inductive Piece where
  | char (c : Char)
  | unit (n : Nat)

/-- A number as written, with the digits on both sides of its point. -/
structure Numeral where
  negative : Bool
  whole : List Char
  decimals : Option (List Char)
  exponent : Option Int

inductive Written where
  | null
  | bool (value : Bool)
  | number (numeral : Numeral)
  | str (pieces : List Piece)
  | arr (items : List Written)
  | obj (members : List (List Piece × Written))

def skipBlank (s : List Char) : List Char :=
  s.dropWhile fun c => c = ' ' || c = '\t' || c = '\n' || c = '\r'

def hexDigit? (c : Char) : Option Nat :=
  if c.isDigit then some (c.toNat - '0'.toNat)
  else if 'a' ≤ c ∧ c ≤ 'f' then some (c.toNat - 'a'.toNat + 10)
  else if 'A' ≤ c ∧ c ≤ 'F' then some (c.toNat - 'A'.toNat + 10)
  else none

/-- The code unit written by four hexadecimal digits. -/
def codeUnit? (a b c d : Char) : Option Nat := do
  return (((← hexDigit? a) * 16 + (← hexDigit? b)) * 16 + (← hexDigit? c)) * 16 + (← hexDigit? d)

def escaped? : Char → Option Char
  | '"' => some '"'
  | '\\' => some '\\'
  | '/' => some '/'
  | 'b' => some '\x08'
  | 'f' => some '\x0c'
  | 'n' => some '\n'
  | 'r' => some '\r'
  | 't' => some '\t'
  | _ => none

def pushPiece (p : Piece) : List Piece × List Char → List Piece × List Char
  | (pieces, rest) => (p :: pieces, rest)

/-- Reads a text behind its opening quote up to the closing one. -/
def readPieces : List Char → Option (List Piece × List Char)
  | [] => none
  | '"' :: r => some ([], r)
  | '\\' :: 'u' :: a :: b :: c :: d :: r => do
    return pushPiece (.unit (← codeUnit? a b c d)) (← readPieces r)
  | '\\' :: c :: r => do return pushPiece (.char (← escaped? c)) (← readPieces r)
  | c :: r => if c.toNat < 0x20 then none else (readPieces r).map (pushPiece (.char c))

def digitsValue (digits : List Char) : Nat := Nat.ofDigitChars 10 digits 0

def readExponent : List Char → Option (Option Int × List Char)
  | [] => some (none, [])
  | c :: r =>
    if c = 'e' ∨ c = 'E' then
      let (negative, r) := match r with
        | '-' :: r => (true, r)
        | '+' :: r => (false, r)
        | r => (false, r)
      let (digits, rest) := r.span Char.isDigit
      if digits.isEmpty then none
      else
        let n : Int := digitsValue digits
        some (some (if negative then -n else n), rest)
    else some (none, c :: r)

def readFraction : List Char → Option (Option (List Char) × List Char)
  | '.' :: r =>
    let (digits, rest) := r.span Char.isDigit
    if digits.isEmpty then none else some (some digits, rest)
  | s => some (none, s)

/-- Reads a number whose sign has been read. No zero stands in front of other digits. -/
def readNumeral (negative : Bool) (s : List Char) : Option (Numeral × List Char) := do
  let (whole, rest) := s.span Char.isDigit
  if whole.isEmpty ∨ (whole.head? = some '0' ∧ 1 < whole.length) then none
  else
    let (decimals, rest) ← readFraction rest
    let (exponent, rest) ← readExponent rest
    return (⟨negative, whole, decimals, exponent⟩, rest)

namespace Written

mutual

/-- Reads a value with its blanks in front; `fuel` is at least the number of characters. -/
def readValue : (fuel : Nat) → List Char → Option (Written × List Char)
  | 0, _ => none
  | fuel + 1, s =>
    match skipBlank s with
    | 'n' :: 'u' :: 'l' :: 'l' :: r => some (.null, r)
    | 't' :: 'r' :: 'u' :: 'e' :: r => some (.bool true, r)
    | 'f' :: 'a' :: 'l' :: 's' :: 'e' :: r => some (.bool false, r)
    | '"' :: r => (readPieces r).map fun (pieces, rest) => (.str pieces, rest)
    | '-' :: r => (readNumeral true r).map fun (n, rest) => (.number n, rest)
    | '[' :: r =>
      match skipBlank r with
      | ']' :: rest => some (.arr [], rest)
      | _ => (readItems fuel r).map fun (items, rest) => (.arr items, rest)
    | '\x7b' :: r =>
      match skipBlank r with
      | '\x7d' :: rest => some (.obj [], rest)
      | _ => (readMembers fuel r).map fun (members, rest) => (.obj members, rest)
    | r => (readNumeral false r).map fun (n, rest) => (.number n, rest)

def readItems : (fuel : Nat) → List Char → Option (List Written × List Char)
  | 0, _ => none
  | fuel + 1, s => do
    let (item, rest) ← readValue fuel s
    match skipBlank rest with
    | ']' :: rest => return ([item], rest)
    | ',' :: rest =>
      let (items, rest) ← readItems fuel rest
      return (item :: items, rest)
    | _ => none

def readMembers : (fuel : Nat) → List Char → Option (List (List Piece × Written) × List Char)
  | 0, _ => none
  | fuel + 1, s =>
    match skipBlank s with
    | '"' :: r => do
      let (key, rest) ← readPieces r
      match skipBlank rest with
      | ':' :: rest =>
        let (value, rest) ← readValue fuel rest
        match skipBlank rest with
        | '\x7d' :: rest => return ([(key, value)], rest)
        | ',' :: rest =>
          let (members, rest) ← readMembers fuel rest
          return ((key, value) :: members, rest)
        | _ => none
      | _ => none
    | _ => none

end

/-- Reads a text that is one value with blanks around it. -/
def ofText? (text : String) : Option Written := do
  let s := text.toList
  let (value, rest) ← readValue (2 * s.length + 1) s
  if (skipBlank rest).isEmpty then return value else none

end Written

end JsxAttributes.Json
