import JsxAttributes.Json.Basic
import JsxAttributes.Json.Extent
import JsxAttributes.Json.Written

/-!
Reading JSON text. What is written must stand for values: an integer that fits 64 bits, signed or
unsigned, stays an integer, `-0` and every other number becomes the nearest double, and a number
beyond the doubles is refused; so are half of a surrogate pair and nesting beyond a limit. This is
asked only of what is read: in a record, members that are no fields are passed over as written.
-/
namespace JsxAttributes.Json

open Number (Double)

/-- The text that the pieces make. Two halves of a surrogate pair stand side by side. -/
def textOf? : List Piece → Option (List Char)
  | [] => some []
  | .char c :: r => do return c :: (← textOf? r)
  | .unit n :: r =>
    if 0xD800 ≤ n ∧ n < 0xDC00 then
      match r with
      | .unit low :: r =>
        if 0xDC00 ≤ low ∧ low < 0xE000 then do
          return Char.ofNat (0x10000 + (n - 0xD800) * 0x400 + (low - 0xDC00)) :: (← textOf? r)
        else none
      | _ => none
    else if 0xDC00 ≤ n ∧ n < 0xE000 then none
    else do return Char.ofNat n :: (← textOf? r)

/-- An integer of 64 bits, signed or unsigned. The negative zero is not one. -/
def fitsWord (negative : Bool) (magnitude : Nat) : Bool :=
  if negative then 0 < magnitude && magnitude ≤ 1 <<< 63 else magnitude < 1 <<< 64

def Numeral.value? (n : Numeral) : Option Json :=
  if n.decimals.isNone ∧ n.exponent.isNone ∧ fitsWord n.negative (digitsValue n.whole) then
    let m : Int := digitsValue n.whole
    some (.int (if n.negative then -m else m))
  else
    let decimals := n.decimals.getD []
    let x := Double.ofDecimal n.negative (digitsValue (n.whole ++ decimals))
      (n.exponent.getD 0 - decimals.length)
    if x.isFinite then some (.double x) else none

namespace Written

mutual

/-- The value that is written, as far as it is read. `nesting` bounds the depth of what is read. -/
def value? (extent : Extent) : (nesting : Nat) → Written → Option Json
  | _, .null => some .null
  | _, .bool b => some (.bool b)
  | _, .number n => n.value?
  | _, .str pieces => (textOf? pieces).map fun t => .str (String.ofList t)
  | 0, _ => none
  | inner + 1, .arr items => (itemValues? extent inner 0 items).map .arr
  | inner + 1, .obj members => (memberValues? extent inner members).map .obj

/-- The values of items, the first of which stands at `place`. -/
def itemValues? (extent : Extent) (nesting place : Nat) : List Written → Option (List Json)
  | [] => some []
  | w :: r => do
    return (← value? (extent.item place) nesting w) :: (← itemValues? extent nesting (place + 1) r)

/-- The values of the members that are read. Every key is read. -/
def memberValues? (extent : Extent) (nesting : Nat) :
    List (List Piece × Written) → Option (List (String × Json))
  | [] => some []
  | (key, w) :: r => do
    let name := String.ofList (← textOf? key)
    match extent.member? name with
    | some e => return (name, ← value? e nesting w) :: (← memberValues? extent nesting r)
    | none => memberValues? extent nesting r

end

end Written

/-- Reads as much of a text as is asked for. The text is one JSON value; repeated keys are kept. -/
def parse? (nesting : Nat) (extent : Extent) (text : String) : Option Json := do
  (← Written.ofText? text).value? extent nesting

end JsxAttributes.Json
