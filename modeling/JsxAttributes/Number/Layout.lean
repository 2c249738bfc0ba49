import JsxAttributes.Number.Shortest

/-!
Writing a finite double as text. A layout fixes what the shortest digits leave open: which numbers
are written with a point and which with an exponent, whether a whole number keeps a fraction, how
zero is written and what becomes of a tie.
-/
namespace JsxAttributes.Number

structure Layout where
  /-- The least place of the point, counted from the first digit, without an exponent. -/
  leastPoint : Int
  /-- The greatest place of the point without an exponent. -/
  greatestPoint : Int
  /-- Whole numbers are written with `.0`, and a negative zero with its sign. -/
  keepsFraction : Bool
  tie : Tie

/-- The digits with a point after so many of them, filled up with zeros. -/
def positional (keepsFraction : Bool) (digits : List Char) (point : Int) : List Char :=
  if point ≤ 0 then '0' :: '.' :: (List.replicate (-point).toNat '0' ++ digits)
  else if digits.length ≤ point then
    digits ++ List.replicate (point - digits.length).toNat '0' ++
      (if keepsFraction then ['.', '0'] else [])
  else digits.take point.toNat ++ '.' :: digits.drop point.toNat

/-- One digit before the point, none after it if there are no more, and an exponent with its
sign. -/
def scientific (digits : List Char) (point : Int) : List Char :=
  let exponent := point - 1
  digits.take 1 ++ (if digits.length ≤ 1 then [] else '.' :: digits.drop 1) ++
    'e' :: (if exponent < 0 then '-' else '+') :: Nat.toDigits 10 exponent.natAbs

def Layout.ofDecimal (l : Layout) (d : Decimal) : List Char :=
  let digits := Nat.toDigits 10 d.coefficient
  let point := digits.length + d.exponent
  if l.leastPoint ≤ point ∧ point ≤ l.greatestPoint then positional l.keepsFraction digits point
  else scientific digits point

/-- The text of a finite double with this sign and rank. -/
def Layout.write (l : Layout) (negative : Bool) (rank : Nat) : List Char :=
  if rank = 0 then
    if l.keepsFraction then (if negative then ['-'] else []) ++ ['0', '.', '0'] else ['0']
  else (if negative then ['-'] else []) ++ l.ofDecimal (shortestDecimal l.tie rank)

/-- A script writes a number without an exponent from 10⁻⁶ on and below 10²¹. -/
def Layout.script : Layout := ⟨-5, 21, false, .up⟩

/-- The text a script gives a number. -/
def Double.toText : Double → String
  | .finite negative rank => String.ofList (Layout.script.write negative rank)
  | .infinite negative => if negative then "-Infinity" else "Infinity"
  | .nan => "NaN"

end JsxAttributes.Number
