import JsxAttributes.Number.Double
import Mathlib.Algebra.Group.Nat.Defs
import Mathlib.Data.Nat.Dist
import Mathlib.Order.Monotone.Basic

/-! The rank that rounding finds is that of the nearest double. Around a fraction the doubles are the
multiples of one step, so that the nearest of all is the nearest multiple of it. Ranks go on beyond the
finite doubles; there they stand for the numbers that would come next. -/
namespace JsxAttributes.Number

/-- No double is nearer to the fraction, which is counted in units of 2⁻¹⁰⁷⁴, and another is as near only
if this one has an even rank. -/
structure IsNearest (scaled den rank : Nat) : Prop where
  le : ∀ r, Nat.dist (units rank * den) scaled ≤ Nat.dist (units r * den) scaled
  even : ∀ r, r ≠ rank →
    Nat.dist (units r * den) scaled = Nat.dist (units rank * den) scaled → rank % 2 = 0

/-! ## Steps -/

/-- From the shift on, and up to the next, ranks count steps. -/
theorem units_shift {shift count : Nat} (h : shift = 0 ∨ 2 ^ 52 ≤ count) (hc : count ≤ 2 ^ 53) :
    units (shift <<< 52 + count) = count <<< shift := by
  cases Nat.lt_or_eq_of_le hc with
  | inl hlt =>
    have hs : (shift <<< 52 + count) >>> 52 - 1 = shift := by omega
    rw [units, hs, Nat.add_sub_cancel_left]
  | inr heq =>
    subst heq
    have hs : (shift <<< 52 + 2 ^ 53) >>> 52 - 1 = shift + 1 := by omega
    have hr : shift <<< 52 + 2 ^ 53 - (shift + 1) <<< 52 = 2 ^ 52 := by omega
    rw [units, hs, hr, Nat.shiftLeft_eq, Nat.shiftLeft_eq, ← Nat.pow_add, ← Nat.pow_add]
    exact congrArg (2 ^ ·) (by omega)

theorem exists_shift (rank : Nat) : ∃ shift count, rank = shift <<< 52 + count ∧
    (shift = 0 ∨ 2 ^ 52 ≤ count) ∧ count < 2 ^ 53 :=
  ⟨rank >>> 52 - 1, rank - (rank >>> 52 - 1) <<< 52, by omega, by omega, by omega⟩

theorem units_strictMono : StrictMono units := by
  refine strictMono_nat_of_lt_succ fun rank => ?_
  obtain ⟨shift, count, rfl, hs, hc⟩ := exists_shift rank
  rw [units_shift hs (Nat.le_of_lt hc), Nat.add_assoc, units_shift (by omega) hc,
    Nat.shiftLeft_eq, Nat.shiftLeft_eq]
  exact Nat.mul_lt_mul_of_pos_right (Nat.lt_succ_self count) (Nat.two_pow_pos shift)

/-- So many steps make up a whole number that their count fills 53 bits, unless a step is 1. -/
theorem shift_spec (n : Nat) : (n.log2 - 52 = 0 ∨ 2 ^ 52 ≤ n / 2 ^ (n.log2 - 52)) ∧
    n / 2 ^ (n.log2 - 52) < 2 ^ 53 := by
  generalize hs : n.log2 - 52 = shift
  have hpos := Nat.two_pow_pos shift
  constructor
  · by_cases h0 : shift = 0
    · exact .inl h0
    · have hn : n ≠ 0 := by
        intro hzero
        subst hzero
        exact h0 (by rw [← hs]; rfl)
      have hlog : n.log2 = 52 + shift := by omega
      right
      rw [Nat.le_div_iff_mul_le hpos, ← Nat.pow_add, ← hlog]
      exact Nat.log2_self_le hn
  · rw [Nat.div_lt_iff_lt_mul hpos, ← Nat.pow_add]
    exact Nat.lt_of_lt_of_le Nat.lt_log2_self (Nat.pow_le_pow_right (by decide) (by omega))

/-! ## Rounding -/

theorem roundHalfEven_cases (num den : Nat) :
    (roundHalfEven num den = num / den ∧ 2 * (num % den) ≤ den ∧
        (2 * (num % den) = den → num / den % 2 = 0)) ∨
      (roundHalfEven num den = num / den + 1 ∧ den ≤ 2 * (num % den) ∧
        (2 * (num % den) = den → (num / den + 1) % 2 = 0)) := by
  rw [roundHalfEven]
  split
  · next h => exact .inl ⟨rfl, by omega, by omega⟩
  · next h => exact .inr ⟨rfl, by omega, by omega⟩

/-- The rank is the nearer one of two neighbours around a number, of two equally near the even one. -/
structure IsNearer (scaled den low rank : Nat) : Prop where
  low_le : units low * den ≤ scaled
  lt_high : scaled < units (low + 1) * den
  nearer : rank = low ∧ 2 * scaled ≤ units low * den + units (low + 1) * den ∨
    rank = low + 1 ∧ units low * den + units (low + 1) * den ≤ 2 * scaled
  even : 2 * scaled = units low * den + units (low + 1) * den → rank % 2 = 0

theorem isNearer_rounded (scaled : Nat) {den shift : Nat} (h : 0 < den)
    (hs : (scaled / den).log2 - 52 = shift) : IsNearer scaled den
      (shift <<< 52 + scaled / (den <<< shift))
      (shift <<< 52 + roundHalfEven scaled (den <<< shift)) := by
  obtain ⟨hfull, hc⟩ := hs ▸ shift_spec (scaled / den)
  rw [Nat.div_div_eq_div_mul, ← Nat.shiftLeft_eq] at hfull hc
  have hstep : 0 < den <<< shift := Nat.shiftLeft_eq den shift ▸ Nat.mul_pos h (Nat.two_pow_pos shift)
  have hround := roundHalfEven_cases scaled (den <<< shift)
  have hmod := Nat.mod_lt scaled hstep
  have hdiv := Nat.div_add_mod scaled (den <<< shift)
  generalize scaled / (den <<< shift) = count at *
  have hunits (n : Nat) : n <<< shift * den = den <<< shift * n := by
    rw [Nat.shiftLeft_eq, Nat.shiftLeft_eq, Nat.mul_assoc, Nat.mul_comm, Nat.mul_comm den]
  have hlow : units (shift <<< 52 + count) * den = den <<< shift * count := by
    rw [units_shift hfull (Nat.le_of_lt hc), hunits]
  have hhigh : units (shift <<< 52 + count + 1) * den = den <<< shift * count + den <<< shift := by
    rw [Nat.add_assoc, units_shift (by omega) (Nat.succ_le_of_lt hc), hunits, Nat.mul_succ]
  generalize den <<< shift = step at *
  constructor
  · rw [hlow]
    omega
  · rw [hhigh]
    omega
  · rw [hlow, hhigh]
    omega
  · rw [hlow, hhigh]
    omega

theorem IsNearer.isNearest {scaled den low rank : Nat} (h : IsNearer scaled den low rank)
    (hd : 0 < den) : IsNearest scaled den rank := by
  have hside (r : Nat) : units r * den < units low * den ∨ r = low ∨ r = low + 1 ∨
      units (low + 1) * den < units r * den := by
    obtain hr | hr | hr := Nat.lt_trichotomy r low
    · exact .inl (Nat.mul_lt_mul_of_pos_right (units_strictMono hr) hd)
    · exact .inr (.inl hr)
    · cases Nat.lt_or_eq_of_le hr with
      | inl hr => exact .inr (.inr (.inr (Nat.mul_lt_mul_of_pos_right (units_strictMono hr) hd)))
      | inr hr => exact .inr (.inr (.inl hr.symm))
  obtain ⟨hlow, hhigh, hnearer, heven⟩ := h
  refine ⟨fun r => ?_, fun r hr he => heven ?_⟩
  · simp only [Nat.dist]
    rcases hnearer with ⟨rfl, h⟩ | ⟨rfl, h⟩ <;> rcases hside r with hr | rfl | rfl | hr <;> omega
  · simp only [Nat.dist] at he
    rcases hnearer with ⟨rfl, h⟩ | ⟨rfl, h⟩ <;> rcases hside r with hr | rfl | rfl | hr <;> omega

/-- Rounding goes to the nearest double. -/
theorem isNearest_nearestRank (num : Nat) {den : Nat} (h : 0 < den) :
    IsNearest (num <<< 1074) den (nearestRank num den) :=
  (isNearer_rounded _ h rfl).isNearest h

/-- What is a double already is not rounded. -/
theorem nearestRank_units {num den rank : Nat} (h : 0 < den)
    (he : num <<< 1074 = units rank * den) : nearestRank num den = rank := by
  have hle := (isNearest_nearestRank num h).le rank
  rw [he, Nat.dist_self, Nat.le_zero] at hle
  exact units_strictMono.injective (Nat.eq_of_mul_eq_mul_right h (Nat.eq_of_dist_eq_zero hle))

/-- Rounding stays below every double that the fraction stays below. -/
theorem nearestRank_le {num den rank : Nat} (h : 0 < den) (hle : num <<< 1074 ≤ units rank * den) :
    nearestRank num den ≤ rank := by
  by_contra hlt
  have hmono := Nat.mul_lt_mul_of_pos_right (units_strictMono (Nat.lt_of_not_le hlt)) h
  have hnear := (isNearest_nearestRank num h).le rank
  simp only [Nat.dist] at hnear
  omega

/-! ## Whole numbers -/

namespace Double

/-- The double rounded to, which has the sign of the integer and is infinite beyond the finite ones. -/
def IsNearestInt (n : Int) (x : Double) : Prop :=
  ∃ rank, IsNearest (n.natAbs <<< 1074) 1 rank ∧ x = .ofRank (n < 0) rank

theorem isNearestInt_ofInt (n : Int) : IsNearestInt n (.ofInt n) :=
  ⟨_, isNearest_nearestRank n.natAbs Nat.one_pos, rfl⟩

/-- The integers of 64 bits lie among the finite doubles. -/
theorem isFinite_ofInt {n : Int} (h : n.natAbs ≤ 2 ^ 64) : (ofInt n).isFinite = true := by
  have hunits : units (1086 <<< 52 + 2 ^ 52) = 2 ^ 64 <<< 1074 := by
    have hstep : 2 ^ 52 <<< 12 = 2 ^ 64 := by decide
    rw [units_shift (.inr (Nat.le_refl _)) (by decide), ← hstep]
    exact Nat.shiftLeft_add (2 ^ 52) 12 1074
  have hle : nearestRank n.natAbs 1 ≤ 1086 <<< 52 + 2 ^ 52 := by
    refine nearestRank_le Nat.one_pos ?_
    rw [hunits, Nat.mul_one, Nat.shiftLeft_eq, Nat.shiftLeft_eq]
    exact Nat.mul_le_mul_right _ h
  have hlt : nearestRank n.natAbs 1 < rankCount := Nat.lt_of_le_of_lt hle (by decide)
  rw [ofInt, ofRatio, ofRank, dif_pos hlt]
  rfl

/-- The number without the sign of a zero. -/
def positiveZero (x : Double) : Double := if x.isZero then .zero else x

theorem shiftRight_shiftLeft_eq {x k : Nat} (h : x % 1 <<< k = 0) : (x >>> k) <<< k = x := by
  rw [Nat.one_shiftLeft] at h
  rw [Nat.shiftRight_eq_div_pow, Nat.shiftLeft_eq]
  exact Nat.div_mul_cancel (Nat.dvd_of_mod_eq_zero h)

theorem toSafeInt?_finite {negative : Bool} {rank : Fin rankCount} {n : Int}
    (h : (finite negative rank).toSafeInt? = some n) :
    n.natAbs <<< 1074 = units rank ∧ (n < 0 → negative = true) ∧ (0 < n → negative = false) := by
  rw [toSafeInt?] at h
  split at h
  · next hw =>
    have hdiv := shiftRight_shiftLeft_eq hw.1
    obtain rfl := Option.some.inj h
    cases negative
    · rw [if_neg Bool.false_ne_true, Int.natAbs_natCast]
      exact ⟨hdiv, fun hn => absurd hn (by omega), fun _ => rfl⟩
    · rw [if_pos rfl, Int.natAbs_neg, Int.natAbs_natCast]
      exact ⟨hdiv, fun _ => rfl, fun hn => absurd hn (by omega)⟩
  · cases h

theorem positiveZero_eq_self {x : Double} (h : x.isNegative = false) : x.positiveZero = x := by
  cases x with
  | infinite => rfl
  | nan => rfl
  | finite negative rank =>
    obtain rfl : negative = false := h
    rw [positiveZero, isZero]
    split
    · next h0 => exact congrArg (finite false) (Fin.ext (eq_of_beq h0).symm)
    · rfl

theorem positiveZero_of_toSafeInt?_eq_none {x : Double} (h : x.toSafeInt? = none) :
    x.positiveZero = x := by
  cases x with
  | infinite => rfl
  | nan => rfl
  | finite negative rank =>
    rw [positiveZero, isZero, if_neg]
    intro h0
    have hunits : units rank = 0 := by rw [eq_of_beq h0]; rfl
    rw [toSafeInt?, hunits, Nat.zero_mod, Nat.zero_shiftRight, if_pos ⟨rfl, by decide⟩] at h
    cases h

/-- Reading a double as an integer loses the sign of a zero, and nothing else. -/
theorem ofInt_of_toSafeInt? {x : Double} {n : Int} (h : x.toSafeInt? = some n) :
    ofInt n = x.positiveZero := by
  cases x with
  | infinite => cases h
  | nan => cases h
  | finite negative rank =>
    obtain ⟨hunits, hneg, hpos⟩ := toSafeInt?_finite h
    have hrank : nearestRank n.natAbs 1 = rank :=
      nearestRank_units Nat.one_pos (hunits.trans (Nat.mul_one _).symm)
    have hzero : n = 0 ↔ rank.val = 0 := by
      have hu : units rank = 0 ↔ rank.val = 0 := units_strictMono.injective.eq_iff' rfl
      rw [← hu, ← hunits, Nat.shiftLeft_eq_zero_iff, Int.natAbs_eq_zero]
    rw [ofInt, ofRatio, hrank, ofRank, dif_pos rank.isLt, positiveZero, isZero]
    by_cases h0 : rank.val = 0
    · rw [if_pos (beq_iff_eq.2 h0), hzero.2 h0, zero]
      simp [h0]
    · have hsign : decide (n < 0) = negative := by
        obtain hn | hn | hn := Int.lt_trichotomy n 0
        · rw [hneg hn, decide_eq_true hn]
        · exact absurd (hzero.1 hn) h0
        · rw [hpos hn, decide_eq_false (by omega)]
      rw [if_neg (by simpa using h0), hsign]

end Double
end JsxAttributes.Number
