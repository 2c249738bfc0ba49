import JsxAttributes.Number.Shortest
import JsxAttributes.Proofs.NearestDouble
import Mathlib.Algebra.Order.Field.Power
import Mathlib.Data.Rat.Cast.Order
import Mathlib.Tactic.FieldSimp
import Mathlib.Tactic.Linarith
import Mathlib.Tactic.Ring

/-! The shortest decimal of a double reads back as the double. The search ends, for a grid of seventeen digits
has a point in every window, and whatever lies in the window of a double is rounded to it. -/
namespace JsxAttributes.Number

/-! ## Powers of ten -/

theorem lt_length_toDigits_iff {n k : Nat} (hk : 0 < k) :
    k < (Nat.toDigits 10 n).length ↔ Nat.pow 10 k ≤ n := by
  rw [← Nat.not_le, Nat.length_toDigits_le_iff (by decide) hk, Nat.not_lt]
  rfl

theorem ten_pow_pos (place : Nat) : 0 < Nat.pow 10 place := Nat.pow_pos (by decide)

/-! ## What lies in a window is rounded to its double -/

/-- Nearest is the double between whose midpoints the fraction lies; a midpoint belongs to the even one. -/
theorem nearestRank_of_between {num den rank : Nat} (hr : 0 < rank) (hd : 0 < den)
    (hlow : (units (rank - 1) + units rank) * den ≤ 2 * (num <<< 1074))
    (hhigh : 2 * (num <<< 1074) ≤ (units rank + units (rank + 1)) * den)
    (hstrict : rank % 2 = 0 ∨ (units (rank - 1) + units rank) * den < 2 * (num <<< 1074) ∧
      2 * (num <<< 1074) < (units rank + units (rank + 1)) * den) :
    nearestRank num den = rank := by
  obtain ⟨hle, heven⟩ := isNearest_nearestRank num hd
  generalize nearestRank num den = r at hle heven
  generalize num <<< 1074 = scaled at *
  have hmono {m n : Nat} (h : m < n) : units m * den < units n * den :=
    Nat.mul_lt_mul_of_pos_right (units_strictMono h) hd
  have hnear := hle rank
  simp only [Nat.add_mul, Nat.dist] at *
  by_contra hne
  have hstep := hmono (Nat.sub_lt hr Nat.one_pos)
  have hstep' := hmono (Nat.lt_add_one rank)
  have hparity := heven rank (Ne.symm hne)
  cases Nat.lt_or_gt_of_ne hne with
  | inl hlt =>
    cases Nat.lt_or_eq_of_le (Nat.le_sub_one_of_lt hlt) with
    | inl hr' =>
      have := hmono hr'
      omega
    | inr hr' =>
      subst hr'
      omega
  | inr hgt =>
    cases Nat.lt_or_eq_of_le (Nat.succ_le_of_lt hgt) with
    | inl hr' =>
      have := hmono hr'
      rw [Nat.succ_eq_add_one] at this
      omega
    | inr hr' =>
      rw [Nat.succ_eq_add_one] at hr'
      subst hr'
      omega

namespace Window

theorem contains_iff (w : Window) (x : Nat) : w.contains x = true ↔
    w.low ≤ x ∧ x ≤ w.high ∧ (w.closed = true ∨ w.low < x ∧ x < w.high) := by
  rw [contains]
  cases w.closed with
  | true => simp
  | false =>
    simp only [Bool.false_eq_true, if_false, Bool.and_eq_true, decide_eq_true_eq, false_or]
    omega

end Window

/-- A point of the window, as a fraction, is rounded to the double of the window. -/
theorem nearestRank_of_contains {num den rank x : Nat} (hr : 0 < rank) (hd : 0 < den)
    (hx : (Window.ofRank rank).contains x = true)
    (hpoint : 2 * (num <<< 1074) * Nat.pow 10 gridDepth = x * den) : nearestRank num den = rank := by
  obtain ⟨hlow, hhigh, hstrict⟩ := (Window.contains_iff _ _).1 hx
  have hpos := ten_pow_pos gridDepth
  simp only [Window.ofRank, beq_iff_eq] at hlow hhigh hstrict
  generalize Nat.pow 10 gridDepth = scale at *
  have hle {a b : Nat} : a * scale ≤ b * scale ↔ a ≤ b := Nat.mul_le_mul_right_iff hpos
  have hlt {a b : Nat} : a * scale < b * scale ↔ a < b := Nat.mul_lt_mul_right hpos
  refine nearestRank_of_between hr hd (hle.1 ?_) (hle.1 ?_) (hstrict.imp_right fun h => ⟨hlt.1 ?_, hlt.1 ?_⟩)
  · rw [hpoint, Nat.mul_right_comm]
    exact Nat.mul_le_mul_right den hlow
  · rw [hpoint, Nat.mul_right_comm]
    exact Nat.mul_le_mul_right den hhigh
  · rw [hpoint, Nat.mul_right_comm]
    exact Nat.mul_lt_mul_of_pos_right h.1 hd
  · rw [hpoint, Nat.mul_right_comm]
    exact Nat.mul_lt_mul_of_pos_right h.2 hd

/-! ## A grid of seventeen digits meets every window -/

/-- The step above a double is the one below it, but at a power of two, which ends a run of equal steps. -/
theorem exists_step {rank : Nat} (hr : 0 < rank) : ∃ step, units (rank + 1) = units rank + step ∧
    (units (rank - 1) + step = units rank ∧ units rank < 2 ^ 53 * step ∨
      units (rank - 1) < units rank ∧ units rank = 2 ^ 52 * step) := by
  obtain ⟨shift, count, rfl, hs, hc⟩ := exists_shift rank
  refine ⟨2 ^ shift, ?_, ?_⟩
  · rw [Nat.add_assoc, units_shift (by omega) hc, units_shift hs (Nat.le_of_lt hc), Nat.shiftLeft_eq,
      Nat.shiftLeft_eq, Nat.succ_mul]
  · by_cases hcut : count = 2 ^ 52 ∧ shift ≠ 0
    · right
      refine ⟨units_strictMono (Nat.sub_lt hr Nat.one_pos), ?_⟩
      rw [units_shift hs (Nat.le_of_lt hc), hcut.1, Nat.shiftLeft_eq]
    · left
      obtain ⟨below, rfl⟩ : ∃ below, count = below + 1 := ⟨count - 1, by omega⟩
      rw [← Nat.add_assoc, Nat.add_sub_cancel, Nat.add_assoc, units_shift hs (Nat.le_of_lt hc),
        units_shift (by omega) (by omega), Nat.shiftLeft_eq, Nat.shiftLeft_eq]
      exact ⟨(Nat.succ_mul below _).symm, Nat.mul_lt_mul_of_pos_right hc (Nat.two_pow_pos shift)⟩

namespace Window

variable {rank : Nat}

/-- The bounds of a window are so far from its value that seventeen digits tell them apart. -/
theorem exists_width (hr : 0 < rank) : ∃ width, (ofRank rank).high = (ofRank rank).value + width ∧
    ((ofRank rank).low + width = (ofRank rank).value ∧ (ofRank rank).value < 2 ^ 54 * width ∨
      (ofRank rank).low < (ofRank rank).value ∧ (ofRank rank).value = 2 ^ 53 * width) := by
  obtain ⟨step, habove, hbelow⟩ := exists_step hr
  have hpos := ten_pow_pos gridDepth
  refine ⟨step * Nat.pow 10 gridDepth, ?_, ?_⟩ <;> simp only [ofRank, habove] <;>
    generalize Nat.pow 10 gridDepth = scale at *
  · rw [← Nat.add_mul]
    exact congrArg (· * scale) (by omega)
  · refine hbelow.imp (fun ⟨heq, hlt⟩ => ⟨?_, ?_⟩) fun ⟨hlt, heq⟩ => ⟨?_, ?_⟩
    · rw [← Nat.add_mul]
      exact congrArg (· * scale) (by omega)
    · rw [← Nat.mul_assoc]
      exact Nat.mul_lt_mul_of_pos_right (by omega) hpos
    · exact Nat.mul_lt_mul_of_pos_right (by omega) hpos
    · rw [← Nat.mul_assoc]
      exact congrArg (· * scale) (by omega)

/-- Of two neighbours on a grid of seventeen digits or more, between which the value lies, one is inside. -/
theorem contains_neighbour (hr : 0 < rank) {step : Nat} (hs : 0 < step)
    (h : 10 ^ 16 * step ≤ (ofRank rank).value) :
    (ofRank rank).contains ((ofRank rank).value / step * step) = true ∨
      (ofRank rank).contains (((ofRank rank).value / step + 1) * step) = true := by
  obtain ⟨width, hhigh, hlow⟩ := exists_width hr
  have hdiv := Nat.div_add_mod (ofRank rank).value step
  have hmod := Nat.mod_lt (ofRank rank).value hs
  rw [contains_iff, contains_iff, Nat.succ_mul, Nat.mul_comm _ step]
  omega

theorem isSome_nearestPoint {w : Window} (tie : Tie) {step : Nat}
    (h : w.contains (w.value / step * step) = true ∨ w.contains ((w.value / step + 1) * step) = true) :
    (w.nearestPoint tie step).isSome = true := by
  rw [nearestPoint]
  grind

theorem nearestPoint_spec {w : Window} {tie : Tie} {step n : Nat} (h : w.nearestPoint tie step = some n) :
    w.contains (n * step) = true ∧ w.value / step ≤ n := by
  rw [nearestPoint] at h
  grind

theorem gridStep_add (a b : Nat) : gridStep (a + b) = Nat.pow 10 a * gridStep b := by
  unfold gridStep
  generalize 1075 = depth
  rw [Nat.shiftLeft_eq, Nat.shiftLeft_eq, ← Nat.mul_assoc]
  exact congrArg (· * 2 ^ depth) (Nat.pow_add 10 a b)

theorem gridStep_pos (place : Nat) : 0 < gridStep place := by
  unfold gridStep
  generalize 1075 = depth
  rw [Nat.shiftLeft_eq]
  exact Nat.mul_pos (ten_pow_pos place) (Nat.two_pow_pos depth)

/-- The least double has seventeen digits before the last place measured. -/
theorem le_value (hr : 0 < rank) : Nat.pow 10 16 * gridStep 0 ≤ (ofRank rank).value := by
  have hleast : Nat.pow 10 16 * gridStep 0 ≤ 2 * Nat.pow 10 gridDepth := by decide +kernel
  have hunits : 1 ≤ units rank := units_strictMono hr
  exact hleast.trans (Nat.mul_le_mul_right _ (by omega))

/-- The value has a digit other than zero at its leading place. -/
theorem leadingPlace_spec (hr : 0 < rank) : 16 ≤ (ofRank rank).leadingPlace ∧
    gridStep (ofRank rank).leadingPlace ≤ (ofRank rank).value := by
  have hdigits := (Nat.le_div_iff_mul_le (gridStep_pos 0)).2 (le_value hr)
  have hlong := (lt_length_toDigits_iff (by decide)).2 hdigits
  have hplace : 16 ≤ (ofRank rank).leadingPlace := by
    rw [leadingPlace]
    omega
  refine ⟨hplace, ?_⟩
  rw [← Nat.add_zero (leadingPlace _), gridStep_add, ← Nat.le_div_iff_mul_le (gridStep_pos 0)]
  refine (lt_length_toDigits_iff (by omega)).1 ?_
  rw [leadingPlace]
  omega

/-- The search finds a point of the window, on a grid that has a digit other than zero. -/
theorem exists_shortest (tie : Tie) (hr : 0 < rank) : ∃ n place : Nat,
    (ofRank rank).shortest tie = ⟨n, place - gridDepth⟩ ∧ 0 < n ∧
      (ofRank rank).contains (n * gridStep place) = true := by
  obtain ⟨hplace, hleading⟩ := leadingPlace_spec hr
  have hstep {place : Nat} (h : place ≤ (ofRank rank).leadingPlace) : Nat.pow 10
      ((ofRank rank).leadingPlace - place) * gridStep place ≤ (ofRank rank).value := by
    rw [← gridStep_add, Nat.sub_add_cancel h]
    exact hleading
  unfold shortest
  extract_lets onGrid finest
  have hfound : ((List.range 17).findSome? fun digit => onGrid ((ofRank rank).leadingPlace - digit)).isSome =
      true := by
    rw [List.findSome?_isSome_iff]
    refine ⟨16, by simp, ?_⟩
    rw [Option.isSome_map]
    refine isSome_nearestPoint tie (contains_neighbour hr (gridStep_pos _) ?_)
    have := hstep (Nat.sub_le (ofRank rank).leadingPlace 16)
    rwa [Nat.sub_sub_self hplace] at this
  obtain ⟨d, hd⟩ := Option.isSome_iff_exists.1 hfound
  obtain ⟨digit, -, hdigit⟩ := List.exists_of_findSome?_eq_some hd
  obtain ⟨n, hn, rfl⟩ := Option.map_eq_some_iff.1 hdigit
  obtain ⟨hcontains, hle⟩ := nearestPoint_spec hn
  refine ⟨n, _, by rw [hd]; rfl, ?_, hcontains⟩
  refine Nat.lt_of_lt_of_le ?_ hle
  have := hstep (Nat.sub_le (ofRank rank).leadingPlace digit)
  exact Nat.div_pos ((Nat.le_mul_of_pos_left _ (ten_pow_pos _)).trans this) (gridStep_pos _)

end Window

/-! ## Decimals as numbers -/

namespace Decimal

/-- The number that the decimal stands for. -/
def value (d : Decimal) : Rat := d.coefficient * 10 ^ d.exponent

theorem normalize_value (d : Decimal) : d.normalize.value = d.value := by
  fun_induction normalize d with
  | case1 d h ih =>
    rw [ih, value, value, zpow_add_one₀ (by norm_num)]
    have hdiv : (d.coefficient : Rat) = (d.coefficient / 10 : Nat) * 10 := by
      exact_mod_cast (Nat.div_mul_cancel (Nat.dvd_of_mod_eq_zero h.2)).symm
    rw [hdiv]
    dsimp only
    ring
  | case2 d h => rfl

theorem normalize_coefficient (d : Decimal) (h : d.coefficient ≠ 0) : d.normalize.coefficient % 10 ≠ 0 := by
  fun_induction normalize d with
  | case1 d hd ih => exact ih (by dsimp only; omega)
  | case2 d hd => exact fun h0 => hd ⟨h, h0⟩

theorem value_nonneg (d : Decimal) : 0 ≤ d.value := by
  rw [value]
  positivity

/-- Cleared of its denominators, the number is counted in places of the given depth. -/
theorem natAbs_num_mul (n place depth : Nat) {d : Decimal} (hd : d = ⟨n, place - depth⟩) :
    d.value.num.natAbs * Nat.pow 10 depth = n * Nat.pow 10 place * d.value.den := by
  have hnum : (d.value.num.natAbs : Rat) = d.value * d.value.den := by
    rw [Rat.mul_den_eq_num, ← Int.cast_natCast, Int.natAbs_of_nonneg (Rat.num_nonneg.2 d.value_nonneg)]
  have hvalue : d.value * 10 ^ depth = n * 10 ^ place := by
    rw [hd, value, zpow_sub₀ (by norm_num), zpow_natCast, zpow_natCast]
    field_simp
  have hcast : (d.value.num.natAbs : Rat) * 10 ^ depth = n * 10 ^ place * d.value.den := by
    rw [hnum, mul_right_comm, hvalue]
  exact_mod_cast hcast

end Decimal

/-- The double nearest to a number. -/
def Double.ofRat (q : Rat) : Double := .ofRatio (q < 0) q.num.natAbs q.den

theorem ofRat_zero : Double.ofRat 0 = .zero := by
  have hrank : nearestRank 0 1 = 0 := nearestRank_units Nat.one_pos (Nat.zero_shiftLeft 1074)
  rw [Double.ofRat, decide_eq_false (lt_irrefl 0), Rat.num_zero, Int.natAbs_zero, Rat.den_zero, Double.ofRatio, hrank]
  rfl

/-- The double is the nearest to its shortest decimal, which does not end in a zero. -/
theorem shortestDecimal_spec (tie : Tie) {rank : Nat} (hr : 0 < rank) :
    (shortestDecimal tie rank).coefficient % 10 ≠ 0 ∧
      nearestRank (shortestDecimal tie rank).value.num.natAbs (shortestDecimal tie rank).value.den = rank := by
  obtain ⟨n, place, hshort, hn, hcontains⟩ := Window.exists_shortest tie hr
  rw [shortestDecimal, Decimal.normalize_value]
  refine ⟨Decimal.normalize_coefficient _ (by rw [hshort]; exact Nat.ne_of_gt hn), ?_⟩
  refine nearestRank_of_contains hr (Rat.den_pos _) hcontains ?_
  have hnum := Decimal.natAbs_num_mul n place gridDepth hshort
  have hshift {num scale point den depth : Nat} (h : num * scale = n * point * den) :
      2 * (num <<< depth) * scale = n * (point <<< (depth + 1)) * den := by
    rw [Nat.shiftLeft_eq, Nat.shiftLeft_eq, Nat.pow_succ]
    calc 2 * (num * 2 ^ depth) * scale = num * scale * (2 ^ depth * 2) := by ring
      _ = n * (point * (2 ^ depth * 2)) * den := by rw [h]; ring
  exact hshift hnum

/-- Rounded, the shortest decimal of a double with the sign of the double is the double. -/
theorem ofRat_shortestDecimal (tie : Tie) (negative : Bool) {rank : Fin rankCount} (hr : rank.val ≠ 0) :
    Double.ofRat (if negative then -(shortestDecimal tie rank).value else (shortestDecimal tie rank).value) =
      .finite negative rank := by
  obtain ⟨hend, hrank⟩ := shortestDecimal_spec tie (Nat.pos_of_ne_zero hr)
  have hpos : 0 < (shortestDecimal tie rank).value := by
    have : 0 < (shortestDecimal tie rank).coefficient := by omega
    rw [Decimal.value]
    positivity
  cases negative with
  | false =>
    rw [if_neg Bool.false_ne_true, Double.ofRat, decide_eq_false hpos.not_gt, Double.ofRatio, hrank,
      Double.ofRank, dif_pos rank.isLt]
  | true =>
    rw [if_pos rfl, Double.ofRat, decide_eq_true (neg_lt_zero.2 hpos), Rat.num_neg_eq_neg_num, Int.natAbs_neg,
      Rat.den_neg_eq_den, Double.ofRatio, hrank, Double.ofRank, dif_pos rank.isLt]

end JsxAttributes.Number
