/-!
The numbers of 64-bit binary floating point, as mathematics: a finite number is a sign and its
place among the numbers of that sign, counted upwards from zero. Consecutive places are consecutive
doubles, so neighbours, rounding intervals and comparison need no bit fields. Main definitions:
`units` (the exact value of a place) and `nearestRank` (the place nearest to a fraction).
-/
namespace JsxAttributes.Number

/-- How many finite doubles one sign has. -/
def rankCount : Nat := 2047 <<< 52

theorem rankCount_eq : rankCount = 9218868437227405312 := rfl

inductive Double where
  | finite (negative : Bool) (rank : Fin rankCount)
  | infinite (negative : Bool)
  | nan
  deriving DecidableEq, Inhabited

/-- The value of the double with this rank, in units of 2⁻¹⁰⁷⁴. The first 2⁵³ ranks are their own
value; after them the step doubles every 2⁵² ranks. -/
def units (rank : Nat) : Nat :=
  let shift := rank >>> 52 - 1
  (rank - shift <<< 52) <<< shift

/-- The whole number nearest to a fraction, of two equally near the even one. -/
def roundHalfEven (num den : Nat) : Nat :=
  let whole := num / den
  let twice := 2 * (num % den)
  if twice < den ∨ (twice = den ∧ whole % 2 = 0) then whole else whole + 1

/-- The rank of the double nearest to a fraction, of two equally near the one with an even rank.
A result from `rankCount` on is beyond the finite doubles. -/
def nearestRank (num den : Nat) : Nat :=
  let scaled := num <<< 1074
  let shift := (scaled / den).log2 - 52
  shift <<< 52 + roundHalfEven scaled (den <<< shift)

namespace Double

def zero : Double := .finite false ⟨0, by decide⟩

/-- The double with this sign and rank; the finite ones are followed by the infinite one. -/
def ofRank (negative : Bool) (rank : Nat) : Double :=
  if h : rank < rankCount then .finite negative ⟨rank, h⟩ else .infinite negative

def ofRatio (negative : Bool) (num den : Nat) : Double := ofRank negative (nearestRank num den)

/-- The double nearest to an integer; zero has no sign. -/
def ofInt (n : Int) : Double := ofRatio (n < 0) n.natAbs 1

/-- The double nearest to `coefficient * 10 ^ exponent`. A decimal of more than 310 places before
the point, or of more than 330 zeros after it, is not computed. -/
def ofDecimal (negative : Bool) (coefficient : Nat) (exponent : Int) : Double :=
  let point := (Nat.toDigits 10 coefficient).length + exponent
  if coefficient = 0 ∨ point < -330 then .finite negative ⟨0, by decide⟩
  else if 310 < point then .infinite negative
  else if 0 ≤ exponent then ofRatio negative (coefficient * Nat.pow 10 exponent.toNat) 1
  else ofRatio negative coefficient (Nat.pow 10 (-exponent).toNat)

/-- Reads the 64 bits of the interchange format; all that is not a number is one value. -/
def ofBits (bits : Nat) : Double :=
  let negative := bits >>> 63 % 2 == 1
  let rank := bits % 1 <<< 63
  if rank ≤ rankCount then ofRank negative rank else .nan

def toBits : Double → Nat
  | .finite negative rank => (if negative then 1 <<< 63 else 0) + rank
  | .infinite negative => (if negative then 1 <<< 63 else 0) + rankCount
  | .nan => rankCount + 1 <<< 51

/-- Has the sign of the negative numbers; so does the negative zero. -/
def isNegative : Double → Bool
  | .finite negative _ => negative
  | .infinite negative => negative
  | .nan => false

def isNaN : Double → Bool
  | .nan => true
  | _ => false

def isZero : Double → Bool
  | .finite _ rank => rank.val == 0
  | _ => false

def isFinite : Double → Bool
  | .finite _ _ => true
  | _ => false

def negate : Double → Double
  | .finite negative rank => .finite (!negative) rank
  | .infinite negative => .infinite (!negative)
  | .nan => .nan

/-- The numbers are equal: the two zeros are, and what is not a number equals nothing. -/
def equals : Double → Double → Bool
  | .finite s m, .finite t n => m == n && (s == t || m.val == 0)
  | .infinite s, .infinite t => s == t
  | _, _ => false

/-- The number as an integer of magnitude below 2⁵³, if it is one; the negative zero is 0. -/
def toSafeInt? : Double → Option Int
  | .finite negative rank =>
    let whole : Nat := units rank >>> 1074
    if units rank % 1 <<< 1074 = 0 ∧ whole < 1 <<< 53 then
      some (if negative then -(whole : Int) else whole)
    else none
  | _ => none

@[simp] theorem negate_negate (x : Double) : x.negate.negate = x := by
  cases x <;> simp [negate]

@[simp] theorem isNaN_negate (x : Double) : x.negate.isNaN = x.isNaN := by
  cases x <;> rfl

theorem ofBits_signed (negative : Bool) {rank : Nat} (h : rank ≤ rankCount) :
    ofBits ((if negative then 1 <<< 63 else 0) + rank) = ofRank negative rank := by
  have hs : 1 <<< 63 = 9223372036854775808 := rfl
  rw [rankCount_eq] at h
  cases negative
  · have h1 : (0 + rank) >>> 63 = 0 := by omega
    have h2 : (0 + rank) % 1 <<< 63 = rank := by rw [hs]; omega
    simp only [ofBits, Bool.false_eq_true, ite_false, h1, h2, if_pos (rankCount_eq ▸ h)]
    rfl
  · have h1 : (1 <<< 63 + rank) >>> 63 = 1 := by omega
    have h2 : (1 <<< 63 + rank) % 1 <<< 63 = rank := by rw [hs]; omega
    simp only [ofBits, ite_true, h1, h2, if_pos (rankCount_eq ▸ h)]
    rfl

theorem nanBits_exceed : ¬ (rankCount + 1 <<< 51) % 1 <<< 63 ≤ rankCount := by decide

theorem ofBits_toBits (x : Double) : ofBits x.toBits = x := by
  cases x with
  | nan =>
    unfold ofBits toBits
    dsimp only
    exact if_neg nanBits_exceed
  | infinite negative =>
    exact (ofBits_signed negative (Nat.le_refl _)).trans (by simp [ofRank])
  | finite negative rank =>
    exact (ofBits_signed negative (Nat.le_of_lt rank.isLt)).trans (by simp [ofRank])

end Double

end JsxAttributes.Number
