import JsxAttributes.Json.Written
import JsxAttributes.Proofs.ShortestDecimal

/-! Numerals as they are written, the number each stands for, and the reading of a spelled numeral, which finds
its parts again. -/
namespace JsxAttributes.Json

open Number (Decimal)

namespace Numeral

/-- The decimal with all digits of the numeral, on both sides of the point. -/
def decimal (n : Numeral) : Decimal :=
  ⟨digitsValue (n.whole ++ n.decimals.getD []), n.exponent.getD 0 - (n.decimals.getD []).length⟩

/-- The number that the numeral stands for, without rounding. -/
def value (n : Numeral) : Rat := if n.negative then -n.decimal.value else n.decimal.value

@[simp] def spelledDecimals : Option (List Char) → List Char
  | none => []
  | some digits => '.' :: digits

/-- An exponent has a sign, and no zero stands in front of its other digits. -/
@[simp] def spelledExponent : Option Int → List Char
  | none => []
  | some e => 'e' :: (if e < 0 then '-' else '+') :: Nat.toDigits 10 e.natAbs

/-- The characters of the numeral behind its sign. -/
def magnitude (n : Numeral) : List Char :=
  n.whole ++ (spelledDecimals n.decimals ++ spelledExponent n.exponent)

def spelled (n : Numeral) : List Char := (if n.negative then ['-'] else []) ++ n.magnitude

/-- Digits stand before the point, without a superfluous zero, and behind a point. -/
structure WellFormed (n : Numeral) : Prop where
  whole_ne : n.whole ≠ []
  whole_digits : ∀ c ∈ n.whole, c.isDigit = true
  whole_zero : n.whole = ['0'] ∨ n.whole.head? ≠ some '0'
  decimals_ne : n.decimals ≠ some []
  decimals_digits : ∀ c ∈ n.decimals.getD [], c.isDigit = true

end Numeral

/-! ## Reading what is spelled -/

theorem span_digits {digits rest : List Char} (hd : ∀ c ∈ digits, c.isDigit = true)
    (hr : ∀ c ∈ rest.head?, c.isDigit = false) : (digits ++ rest).span Char.isDigit = (digits, rest) := by
  rw [List.span_eq_takeWhile_dropWhile, List.takeWhile_append_of_pos hd, List.dropWhile_append_of_pos hd]
  cases rest with
  | nil => simp
  | cons c r =>
    have hc := hr c rfl
    simp [hc]

theorem not_isDigit_head_spelledExponent (exponent : Option Int) :
    ∀ c ∈ (Numeral.spelledExponent exponent).head?, c.isDigit = false := by
  cases exponent with
  | none => exact fun _ h => nomatch h
  | some e => rintro c ⟨⟩; decide

theorem not_isDigit_head_spelledDecimals (decimals : Option (List Char)) (exponent : Option Int) :
    ∀ c ∈ (Numeral.spelledDecimals decimals ++ Numeral.spelledExponent exponent).head?, c.isDigit = false := by
  cases decimals with
  | none => exact not_isDigit_head_spelledExponent exponent
  | some digits => rintro c ⟨⟩; decide

theorem readExponent_spelled (exponent : Option Int) :
    readExponent (Numeral.spelledExponent exponent) = some (exponent, []) := by
  cases exponent with
  | none => rfl
  | some e =>
    have hspan := @span_digits (Nat.toDigits 10 e.natAbs) []
      (fun c h => Nat.isDigit_of_mem_toDigits (by decide) (by decide) h) (fun _ h => nomatch h)
    have hne : ¬ (Nat.toDigits 10 e.natAbs).isEmpty = true := by
      rw [List.isEmpty_iff]
      exact Nat.toDigits_ne_nil
    rw [List.append_nil] at hspan
    by_cases hneg : e < 0
    · rw [Numeral.spelledExponent, if_pos hneg, readExponent, if_pos (.inl rfl), hspan]
      dsimp only
      rw [if_neg hne, if_pos rfl, digitsValue, Nat.ofDigitChars_ten_toDigits, Int.ofNat_natAbs_of_nonpos
        (Int.le_of_lt hneg), Int.neg_neg]
    · rw [Numeral.spelledExponent, if_neg hneg, readExponent, if_pos (.inl rfl), hspan]
      dsimp only
      rw [if_neg hne, if_neg Bool.false_ne_true, digitsValue, Nat.ofDigitChars_ten_toDigits,
        Int.natAbs_of_nonneg (Int.not_lt.1 hneg)]

theorem readFraction_spelled {decimals : Option (List Char)} (hne : decimals ≠ some [])
    (hd : ∀ c ∈ decimals.getD [], c.isDigit = true) (exponent : Option Int) :
    readFraction (Numeral.spelledDecimals decimals ++ Numeral.spelledExponent exponent) =
      some (decimals, Numeral.spelledExponent exponent) := by
  cases decimals with
  | none => cases exponent <;> rfl
  | some digits =>
    have hempty : ¬ digits.isEmpty = true := fun h => hne (congrArg some (List.isEmpty_iff.1 h))
    have hspan : (digits ++ Numeral.spelledExponent exponent).span Char.isDigit = _ :=
      span_digits hd (not_isDigit_head_spelledExponent exponent)
    rw [Numeral.spelledDecimals, List.cons_append, readFraction, hspan]
    exact if_neg hempty

theorem readValue_minus (fuel : Nat) (r : List Char) : Written.readValue (fuel + 1) ('-' :: r) =
    (readNumeral true r).map fun (n, rest) => (.number n, rest) := by
  rw [Written.readValue]
  rfl

theorem readValue_digit {c : Char} (hc : c.isDigit = true) (fuel : Nat) (r : List Char) :
    Written.readValue (fuel + 1) (c :: r) =
      (readNumeral false (c :: r)).map fun (n, rest) => (.number n, rest) := by
  have hskip : skipBlank (c :: r) = c :: r := by
    rw [skipBlank, List.dropWhile_cons_of_neg]
    intro hblank
    simp only [Bool.or_eq_true, decide_eq_true_eq] at hblank
    rcases hblank with ((rfl | rfl) | rfl) | rfl <;> exact absurd hc (by decide)
  rw [Written.readValue, hskip]
  split
  case h_8 => rfl
  all_goals
    rename_i heq
    obtain ⟨rfl, -⟩ := List.cons.inj heq
    exact absurd hc (by decide)

namespace Numeral.WellFormed

variable {n : Numeral}

theorem readNumeral_magnitude (h : n.WellFormed) : readNumeral n.negative n.magnitude = some (n, []) := by
  have hspan := span_digits h.whole_digits (not_isDigit_head_spelledDecimals n.decimals n.exponent)
  have hguard : ¬ (n.whole.isEmpty = true ∨ (n.whole.head? = some '0' ∧ 1 < n.whole.length)) := by
    rw [List.isEmpty_iff]
    rintro (hnil | ⟨hzero, hlong⟩)
    · exact h.whole_ne hnil
    · rcases h.whole_zero with hw | hw
      · rw [hw] at hlong
        exact absurd hlong (by decide)
      · exact hw hzero
  rw [readNumeral, magnitude, hspan]
  dsimp only
  rw [if_neg hguard, readFraction_spelled h.decimals_ne h.decimals_digits, Option.bind_eq_bind, Option.bind_some]
  dsimp only
  rw [readExponent_spelled]
  rfl

theorem exists_magnitude_eq (h : n.WellFormed) : ∃ c r, n.magnitude = c :: r ∧ c.isDigit = true := by
  obtain ⟨c, r, hw⟩ := List.exists_cons_of_ne_nil h.whole_ne
  exact ⟨c, r ++ (spelledDecimals n.decimals ++ spelledExponent n.exponent), by rw [magnitude, hw]; rfl,
    h.whole_digits c (by rw [hw]; exact List.mem_cons_self)⟩

theorem readValue_spelled (h : n.WellFormed) (fuel : Nat) :
    Written.readValue (fuel + 1) n.spelled = some (.number n, []) := by
  have hread := h.readNumeral_magnitude
  rw [spelled]
  cases hneg : n.negative with
  | true =>
    rw [hneg] at hread
    rw [if_pos rfl, List.singleton_append, readValue_minus, hread]
    rfl
  | false =>
    obtain ⟨c, r, hcons, hc⟩ := h.exists_magnitude_eq
    rw [hneg, hcons] at hread
    rw [if_neg Bool.false_ne_true, List.nil_append, hcons, readValue_digit hc, hread]
    rfl

/-- As a JSON text, a spelled numeral is read as this numeral. -/
theorem ofText?_spelled (h : n.WellFormed) :
    Written.ofText? (String.ofList n.spelled) = some (.number n) := by
  rw [Written.ofText?, String.toList_ofList, h.readValue_spelled]
  rfl

end Numeral.WellFormed

end JsxAttributes.Json
