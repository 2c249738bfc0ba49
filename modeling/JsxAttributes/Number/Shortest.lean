import JsxAttributes.Number.Double

/-!
The shortest decimal of a double: among the decimals that read back as the double, those of the
fewest digits, and of these the nearest. The search tries the grids of 1, 2, … 17 digits; on each
only the two neighbours of the value can be in question.
-/
namespace JsxAttributes.Number

/-- The number `coefficient * 10 ^ exponent`. -/
structure Decimal where
  coefficient : Nat
  exponent : Int
  deriving DecidableEq

/-- What becomes of a value exactly halfway between two decimals. -/
inductive Tie where
  | up
  | even
  deriving DecidableEq

/-- All lengths are whole when measured in units of 2⁻¹⁰⁷⁵ * 10⁻³⁴⁰. -/
def gridDepth : Nat := 340

/-- The numbers that round to one double: those between two bounds, which belong to them exactly
when the rank is even. -/
structure Window where
  low : Nat
  value : Nat
  high : Nat
  closed : Bool

namespace Window

/-- The window of a double that is not zero; its bounds are halfway to the neighbours. -/
def ofRank (rank : Nat) : Window where
  low := (units (rank - 1) + units rank) * Nat.pow 10 gridDepth
  value := 2 * units rank * Nat.pow 10 gridDepth
  high := (units rank + units (rank + 1)) * Nat.pow 10 gridDepth
  closed := rank % 2 == 0

def contains (w : Window) (x : Nat) : Bool :=
  if w.closed then w.low ≤ x && x ≤ w.high else w.low < x && x < w.high

/-- The point of a grid that lies in the window and is nearest to its value, counted in steps. -/
def nearestPoint (w : Window) (tie : Tie) (step : Nat) : Option Nat :=
  let below := w.value / step
  let above := below + 1
  if w.contains (below * step) then
    if w.contains (above * step) then
      let twice := 2 * (w.value % step)
      let goesUp := step < twice || (twice == step && (tie == .up || below % 2 == 1))
      some (if goesUp then above else below)
    else some below
  else if w.contains (above * step) then some above
  else none

/-- The step of the grid whose points end `place` digits above the last place measured. -/
def gridStep (place : Nat) : Nat := Nat.pow 10 place <<< 1075

def leadingPlace (w : Window) : Nat := (Nat.toDigits 10 (w.value / gridStep 0)).length - 1

/-- The point found first when the grids are tried from the coarsest on. -/
def shortest (w : Window) (tie : Tie) : Decimal :=
  let onGrid (place : Nat) : Option Decimal :=
    (w.nearestPoint tie (gridStep place)).map (⟨·, place - gridDepth⟩)
  let finest := w.leadingPlace - 16
  ((List.range 17).findSome? fun digit => onGrid (w.leadingPlace - digit)).getD
    ⟨w.value / gridStep finest, finest - gridDepth⟩

end Window

/-- The same number with a coefficient that does not end in a zero. -/
def Decimal.normalize (d : Decimal) : Decimal :=
  if h : d.coefficient ≠ 0 ∧ d.coefficient % 10 = 0 then
    Decimal.normalize ⟨d.coefficient / 10, d.exponent + 1⟩
  else d
termination_by d.coefficient
decreasing_by omega

/-- The decimal digits of the double with this rank, which is not zero. -/
def shortestDecimal (tie : Tie) (rank : Nat) : Decimal :=
  ((Window.ofRank rank).shortest tie).normalize

end JsxAttributes.Number
