import JsxAttributes.Number.Layout
import JsxAttributes.Proofs.WrittenNumeral

/-! The text of a number is a numeral in canonical form that stands for the shortest decimal of the number, so that
it reads back as the number and no two numbers share a text. -/
namespace JsxAttributes.Number

open Json (Numeral digitsValue)

/-! ## Digits -/

/-- Digits without a zero at either end. -/
structure IsTrimmed (digits : List Char) : Prop where
  ne_nil : digits ≠ []
  isDigit : ∀ c ∈ digits, c.isDigit = true
  head_ne : digits.head? ≠ some '0'
  last_ne : digits.getLast? ≠ some '0'

theorem head_toDigits_ne (n : Nat) (h : n ≠ 0) : (Nat.toDigits 10 n).head? ≠ some '0' := by
  induction n using Nat.strongRecOn with
  | ind n ih =>
    rw [Nat.toDigits_eq_if (by decide)]
    split
    · simpa using h
    · rw [List.head?_append_of_ne_nil _ Nat.toDigits_ne_nil]
      exact ih (n / 10) (by omega) (by omega)

theorem last_toDigits_ne {n : Nat} (h : n % 10 ≠ 0) : (Nat.toDigits 10 n).getLast? ≠ some '0' := by
  rw [Nat.toDigits_eq_if (by decide)]
  split
  · simp only [List.getLast?_singleton, ne_eq, Option.some.injEq, Nat.digitChar_eq_zero]
    omega
  · simpa using h

theorem isTrimmed_toDigits {n : Nat} (h : n % 10 ≠ 0) : IsTrimmed (Nat.toDigits 10 n) where
  ne_nil := Nat.toDigits_ne_nil
  isDigit _ hc := Nat.isDigit_of_mem_toDigits (by decide) (by decide) hc
  head_ne := head_toDigits_ne n (by omega)
  last_ne := last_toDigits_ne h

theorem digitsValue_append_zeros (digits : List Char) (zeros : Nat) :
    digitsValue (digits ++ List.replicate zeros '0') = digitsValue digits * 10 ^ zeros := by
  rw [digitsValue, Nat.ofDigitChars_append, Nat.ofDigitChars_replicate_zero, Nat.mul_comm, digitsValue]

theorem digitsValue_zeros_append (digits : List Char) (zeros : Nat) :
    digitsValue (List.replicate zeros '0' ++ digits) = digitsValue digits := by
  rw [digitsValue, Nat.ofDigitChars_append, Nat.ofDigitChars_replicate_zero, Nat.mul_zero, digitsValue]

/-! ## Layouts -/

/-- How digits with a point after so many of them are laid out. -/
inductive Laid (negative : Bool) (digits : List Char) (point : Int) : Numeral → Prop
  | padded (zeros : Nat) (hp : point = digits.length + zeros) (h : point ≤ 21) :
      Laid negative digits point ⟨negative, digits ++ List.replicate zeros '0', none, none⟩
  | cut (front back : List Char) (hd : digits = front ++ back) (hf : front ≠ []) (hb : back ≠ [])
      (hp : point = front.length) (h : point ≤ 21) :
      Laid negative digits point ⟨negative, front, some back, none⟩
  | small (zeros : Nat) (hp : point = -zeros) (h : -6 < point) :
      Laid negative digits point ⟨negative, ['0'], some (List.replicate zeros '0' ++ digits), none⟩
  | power (first : Char) (rest : List Char) (hd : digits = first :: rest) (h : point ≤ -6 ∨ 21 < point) :
      Laid negative digits point
        ⟨negative, [first], if rest = [] then none else some rest, some (point - 1)⟩

theorem cut_bounds {digits front back : List Char} (hd : digits = front ++ back) (hf : front ≠ [])
    (hb : back ≠ []) : 0 < front.length ∧ front.length < digits.length := by
  rw [hd, List.length_append]
  exact ⟨List.length_pos_of_ne_nil hf, Nat.lt_add_of_pos_right (List.length_pos_of_ne_nil hb)⟩

/-- Whatever its place, a point finds its layout. -/
theorem exists_laid (negative : Bool) {digits : List Char} (h : digits ≠ []) (point : Int) :
    ∃ n, Laid negative digits point n := by
  by_cases hpower : point ≤ -6 ∨ 21 < point
  · obtain ⟨first, rest, hd⟩ := List.exists_cons_of_ne_nil h
    exact ⟨_, .power first rest hd hpower⟩
  · by_cases hsmall : point ≤ 0
    · exact ⟨_, .small (-point).toNat (by omega) (by omega)⟩
    · by_cases hpadded : digits.length ≤ point
      · exact ⟨_, .padded (point - digits.length).toNat (by omega) (by omega)⟩
      · refine ⟨_, .cut (digits.take point.toNat) (digits.drop point.toNat) (List.take_append_drop _ _).symm
          ?_ ?_ ?_ (by omega)⟩
        · rw [ne_eq, List.take_eq_nil_iff]
          exact not_or_intro (by omega) h
        · rw [ne_eq, List.drop_eq_nil_iff]
          omega
        · rw [List.length_take]
          omega

/-- So many zeros, if there is such a number of them. -/
def zeros? (count : Int) : Option (List Char) :=
  if 0 ≤ count then some (List.replicate count.toNat '0') else none

/-- The digits on both sides of a place, if the place is among them. -/
def splitAt? (digits : List Char) (place : Int) : Option (List Char × List Char) :=
  if 0 ≤ place ∧ place ≤ digits.length then some (digits.splitAt place.toNat) else none

/-- The text of a decimal as far as no count is negative and no place beyond the digits. -/
def checkedText? (digits : List Char) (point : Int) : Option (List Char) :=
  if digits.length ≤ point ∧ point ≤ 21 then do
    return digits ++ (← zeros? (point - digits.length))
  else if 0 < point ∧ point ≤ 21 then do
    let (front, back) ← splitAt? digits point
    return front ++ '.' :: back
  else if -6 < point ∧ point ≤ 0 then do
    return '0' :: '.' :: ((← zeros? (-point)) ++ digits)
  else do
    let (first, rest) ← splitAt? digits 1
    return first ++ (if rest.isEmpty then [] else '.' :: rest) ++
      'e' :: (if point - 1 < 0 then '-' else '+') :: Nat.toDigits 10 (point - 1).natAbs

namespace Laid

variable {negative : Bool} {digits : List Char} {point : Int} {n : Numeral}

theorem negative_eq (h : Laid negative digits point n) : n.negative = negative := by
  cases h <;> rfl

theorem wellFormed (h : Laid negative digits point n) (ht : IsTrimmed digits) : n.WellFormed := by
  have hzeros (zeros : Nat) : ∀ c ∈ List.replicate zeros '0', c.isDigit = true := by
    intro c hc
    rw [List.eq_of_mem_replicate hc]
    decide
  cases h with
  | padded zeros hp h =>
    refine ⟨List.append_ne_nil_of_left_ne_nil ht.ne_nil _, ?_, .inr ?_, nofun, nofun⟩
    · exact fun c hc => (List.mem_append.1 hc).elim (ht.isDigit c) (hzeros zeros c)
    · rw [List.head?_append_of_ne_nil _ ht.ne_nil]
      exact ht.head_ne
  | cut front back hd hf hb hp h =>
    have hdigit := ht.isDigit
    rw [hd] at hdigit
    refine ⟨hf, fun c hc => hdigit c (List.mem_append_left _ hc), .inr ?_, fun h => hb (Option.some.inj h),
      fun c hc => hdigit c (List.mem_append_right _ hc)⟩
    have := ht.head_ne
    rwa [hd, List.head?_append_of_ne_nil _ hf] at this
  | small zeros hp h =>
    refine ⟨List.cons_ne_nil _ _, hzeros 1, .inl rfl, ?_, ?_⟩
    · exact fun h => List.append_ne_nil_of_right_ne_nil _ ht.ne_nil (Option.some.inj h)
    · exact fun c hc => (List.mem_append.1 hc).elim (hzeros zeros c) (ht.isDigit c)
  | power first rest hd h =>
    have hdigit := ht.isDigit
    have hhead := ht.head_ne
    rw [hd] at hdigit hhead
    refine ⟨List.cons_ne_nil _ _, ?_, .inr hhead, ?_, ?_⟩
    · exact fun c hc => hdigit c (List.mem_singleton.1 hc ▸ List.mem_cons_self)
    · dsimp only
      split
      · exact nofun
      · next hr => exact fun h => hr (Option.some.inj h)
    · dsimp only
      split
      · exact nofun
      · exact fun c hc => hdigit c (List.mem_cons_of_mem _ hc)

/-- No digit gets lost or is moved. -/
theorem value_eq (h : Laid negative digits point n) :
    n.decimal.value = digitsValue digits * 10 ^ (point - digits.length) := by
  cases h with
  | padded zeros hp h =>
    rw [Numeral.decimal, Decimal.value, hp]
    simp [digitsValue_append_zeros]
  | cut front back hd hf hb hp h =>
    rw [Numeral.decimal, Decimal.value, hp, hd]
    simp
  | small zeros hp h =>
    have hvalue : digitsValue ('0' :: (List.replicate zeros '0' ++ digits)) = digitsValue digits :=
      digitsValue_zeros_append digits (zeros + 1)
    rw [Numeral.decimal, Decimal.value, hp]
    simp only [Option.getD_some, Option.getD_none, List.singleton_append, hvalue]
    congr 2
    simp
    omega
  | power first rest hd h =>
    have hdecimals : (if rest = [] then none else some rest).getD [] = rest := by
      split
      · next hr => exact hr.symm
      · rfl
    rw [Numeral.decimal, Decimal.value, hd]
    simp only [Option.getD_some, List.singleton_append, hdecimals]
    congr 2
    simp
    omega

/-- Digits are laid out in every case as the layout of scripts does. -/
theorem ofDecimal_eq {d : Decimal} (h : Laid negative digits point n) (hd : Nat.toDigits 10 d.coefficient = digits)
    (hp : digits.length + d.exponent = point) : Layout.script.ofDecimal d = n.magnitude := by
  have hlength : 0 < digits.length := hd ▸ Nat.length_toDigits_pos
  unfold Layout.ofDecimal
  simp only [hd, hp, Layout.script]
  rw [Numeral.magnitude]
  cases h with
  | padded zeros hp h =>
    rw [if_pos (by omega), positional, if_neg (by omega), if_pos (by omega), if_neg Bool.false_ne_true]
    simp [hp]
  | cut front back hd hf hb hp h =>
    have hinside := cut_bounds hd hf hb
    rw [if_pos (by omega), positional, if_neg (by omega), if_neg (by omega)]
    simp [hp, hd]
  | small zeros hp h =>
    rw [if_pos (by omega), positional, if_pos (by omega)]
    simp [hp]
  | power first rest hd h =>
    rw [if_neg (by omega), scientific, hd]
    by_cases hr : rest = [] <;> simp [hr]

/-- None of the counts and places used is out of range. -/
theorem checkedText?_eq (h : Laid negative digits point n) (hne : digits ≠ []) :
    checkedText? digits point = some n.magnitude := by
  have hlength := List.length_pos_of_ne_nil hne
  rw [Numeral.magnitude]
  unfold checkedText?
  cases h with
  | padded zeros hp h =>
    rw [if_pos (by omega), zeros?, if_pos (by omega)]
    simp [hp]
  | cut front back hd hf hb hp h =>
    have hinside := cut_bounds hd hf hb
    rw [if_neg (by omega), if_pos (by omega), splitAt?, if_pos (by omega)]
    simp [hp, hd]
  | small zeros hp h =>
    rw [if_neg (by omega), if_neg (by omega), if_pos (by omega), zeros?, if_pos (by omega)]
    simp [hp]
  | power first rest hd h =>
    rw [if_neg (by omega), if_neg (by omega), if_neg (by omega), splitAt?, if_pos (by omega), hd]
    by_cases hr : rest = [] <;> simp [hr]

theorem isSome_exponent_iff (h : Laid negative digits point n) :
    n.exponent.isSome = true ↔ point ≤ -6 ∨ 21 < point := by
  cases h with
  | padded zeros hp h => exact iff_of_false (by simp) (by omega)
  | cut front back hd hf hb hp h => exact iff_of_false (by simp) (by omega)
  | small zeros hp h => exact iff_of_false (by simp) (by omega)
  | power first rest hd h => exact iff_of_true rfl h

theorem bare_iff (h : Laid negative digits point n) (hne : digits ≠ []) :
    n.decimals = none ∧ n.exponent = none ↔ digits.length ≤ point ∧ point ≤ 21 := by
  cases h with
  | padded zeros hp h => exact iff_of_true ⟨rfl, rfl⟩ ⟨by omega, h⟩
  | cut front back hd hf hb hp h =>
    have hinside := cut_bounds hd hf hb
    exact iff_of_false (by simp) (by omega)
  | small zeros hp h =>
    have hlength := List.length_pos_of_ne_nil hne
    exact iff_of_false (by simp) (by omega)
  | power first rest hd h =>
    rw [hd, List.length_cons]
    exact iff_of_false (by simp) (by omega)

theorem exponent_ne_zero (h : Laid negative digits point n) {e : Int} (he : n.exponent = some e) : e ≠ 0 := by
  cases h with
  | padded zeros hp h => cases he
  | cut front back hd hf hb hp h => cases he
  | small zeros hp h => cases he
  | power first rest hd h =>
    obtain rfl := Option.some.inj he
    omega

/-- With an exponent, a point is left out if there is no more than one digit. -/
theorem decimals_eq_none_iff (h : Laid negative digits point n) (he : n.exponent.isSome = true) :
    n.decimals = none ↔ digits.length = 1 := by
  cases h with
  | padded zeros hp h => cases he
  | cut front back hd hf hb hp h => cases he
  | small zeros hp h => cases he
  | power first rest hd h => simp [hd]

theorem last_decimals_ne (h : Laid negative digits point n) (ht : IsTrimmed digits) :
    ∀ decimals, n.decimals = some decimals → decimals.getLast? ≠ some '0' := by
  have hlast := ht.last_ne
  cases h with
  | padded zeros hp h => exact nofun
  | cut front back hd hf hb hp h =>
    rintro _ ⟨⟩
    rwa [hd, List.getLast?_append_of_ne_nil _ hb] at hlast
  | small zeros hp h =>
    rintro _ ⟨⟩
    rwa [List.getLast?_append_of_ne_nil _ ht.ne_nil]
  | power first rest hd h =>
    intro decimals hdecimals
    dsimp only at hdecimals
    split at hdecimals
    · cases hdecimals
    · next hr =>
      obtain rfl := Option.some.inj hdecimals
      rwa [hd, ← List.singleton_append, List.getLast?_append_of_ne_nil _ hr] at hlast

end Laid

/-! ## Magnitudes -/

namespace Decimal

variable {d : Decimal}

/-- The place of the point, counted from the first digit. -/
def point (d : Decimal) : Int := (Nat.toDigits 10 d.coefficient).length + d.exponent

/-- The first digit, which is not zero, stands directly before the point's place. -/
theorem value_bounds (h : d.coefficient ≠ 0) :
    (10 : Rat) ^ (d.point - 1) ≤ d.value ∧ d.value < 10 ^ d.point := by
  obtain ⟨k, hk⟩ := Nat.exists_eq_add_one.2 (Nat.length_toDigits_pos (b := 10) (n := d.coefficient))
  have hlow : 10 ^ k ≤ d.coefficient := by
    obtain rfl | hpos := Nat.eq_zero_or_pos k
    · exact Nat.one_le_iff_ne_zero.2 h
    · exact (lt_length_toDigits_iff hpos).1 (by omega)
  have hhigh : d.coefficient < 10 ^ (k + 1) :=
    (Nat.length_toDigits_le_iff (by decide) (Nat.succ_pos k)).1 (Nat.le_of_eq hk)
  have hscale (j : Nat) : (10 : Rat) ^ (j + d.exponent) = (10 ^ j : Nat) * 10 ^ d.exponent := by
    rw [zpow_add₀ (by norm_num), zpow_natCast, Nat.cast_pow, Nat.cast_ofNat]
  have hpos : (0 : Rat) < 10 ^ d.exponent := by positivity
  have hpoint : d.point = (k + 1 : Nat) + d.exponent := by rw [point, hk]
  constructor
  · have hprev : d.point - 1 = k + d.exponent := by omega
    rw [hprev, hscale, value]
    exact mul_le_mul_of_nonneg_right (Nat.cast_le.2 hlow) hpos.le
  · rw [hpoint, hscale, value]
    exact mul_lt_mul_of_pos_right (Nat.cast_lt.2 hhigh) hpos

theorem value_lt_iff (h : d.coefficient ≠ 0) (k : Int) : d.value < 10 ^ k ↔ d.point ≤ k := by
  obtain ⟨hlow, hhigh⟩ := value_bounds h
  constructor
  · intro hlt
    have := (zpow_lt_zpow_iff_right₀ (by norm_num)).1 (hlow.trans_lt hlt)
    omega
  · intro hle
    exact hhigh.trans_le (zpow_le_zpow_right₀ (by norm_num) hle)

theorem le_value_iff (h : d.coefficient ≠ 0) (k : Int) : 10 ^ k ≤ d.value ↔ k < d.point := by
  rw [← not_lt, value_lt_iff h, not_le]

/-- A decimal that does not end in a zero is whole if its exponent leaves its digits before the point. -/
theorem exists_value_eq_iff (h : d.coefficient % 10 ≠ 0) : (∃ m : Int, d.value = m) ↔ 0 ≤ d.exponent := by
  constructor
  · rintro ⟨m, hm⟩
    by_contra hneg
    obtain ⟨k, hk⟩ : ∃ k : Nat, d.exponent = -(k + 1 : Nat) := ⟨(-d.exponent - 1).toNat, by omega⟩
    have hvalue : (d.coefficient : Rat) = m * 10 ^ (k + 1) := by
      rw [← hm, value, hk, zpow_neg, zpow_natCast]
      field_simp
    have hcast : (d.coefficient : Int) = m * 10 ^ k * 10 := by
      rw [pow_succ, ← mul_assoc] at hvalue
      exact_mod_cast hvalue
    omega
  · intro hnonneg
    obtain ⟨k, hk⟩ := Int.eq_ofNat_of_zero_le hnonneg
    refine ⟨d.coefficient * 10 ^ k, ?_⟩
    rw [value, hk, zpow_natCast]
    push_cast
    rfl

end Decimal

/-! ## Texts -/

/-- The numeral writes a decimal in the one form that scripts give it. -/
structure IsCanonical (negative : Bool) (d : Decimal) (n : Numeral) : Prop where
  negative_eq : n.negative = negative
  value_eq : n.decimal.value = d.value
  /-- An exponent is written outside of a fixed range. -/
  exponent_iff : n.exponent.isSome = true ↔ d.value < 10 ^ (-6 : Int) ∨ 10 ^ (21 : Int) ≤ d.value
  /-- Inside, what has no fraction is written without one, and nothing else is. -/
  bare_iff : n.decimals = none ∧ n.exponent = none ↔
    (∃ m : Int, d.value = m) ∧ 10 ^ (-6 : Int) ≤ d.value ∧ d.value < 10 ^ (21 : Int)
  /-- Outside, a point stands behind the first digit if there are more. -/
  single_iff : n.exponent.isSome = true → (n.decimals = none ↔ d.coefficient < 10)
  last_decimals : ∀ decimals, n.decimals = some decimals → decimals.getLast? ≠ some '0'
  first_whole : n.whole = ['0'] ∨ n.whole.head? ≠ some '0'
  first_exponent : ∀ e, n.exponent = some e → (Nat.toDigits 10 e.natAbs).head? ≠ some '0'
  /-- On the way no count is negative and no place is beyond the digits. -/
  checked : checkedText? (Nat.toDigits 10 d.coefficient) d.point = some n.magnitude

/-- However many digits a decimal has and wherever its point is, the layout of scripts writes it in this form. -/
theorem exists_isCanonical (negative : Bool) {d : Decimal} (h : d.coefficient % 10 ≠ 0) :
    ∃ n, IsCanonical negative d n ∧ n.WellFormed ∧ Layout.script.ofDecimal d = n.magnitude := by
  have ht := isTrimmed_toDigits h
  obtain ⟨n, hn⟩ := exists_laid negative ht.ne_nil d.point
  have hc : d.coefficient ≠ 0 := by omega
  have hwhole : d.point = (Nat.toDigits 10 d.coefficient).length + d.exponent := rfl
  refine ⟨n, ⟨hn.negative_eq, ?_, ?_, ?_, fun he => ?_, hn.last_decimals_ne ht, (hn.wellFormed ht).whole_zero,
    fun e he => head_toDigits_ne _ (Int.natAbs_ne_zero.2 (hn.exponent_ne_zero he)),
    hn.checkedText?_eq ht.ne_nil⟩, hn.wellFormed ht, hn.ofDecimal_eq rfl rfl⟩
  · rw [hn.value_eq, digitsValue, Nat.ofDigitChars_ten_toDigits, Decimal.value, hwhole, add_sub_cancel_left]
  · rw [hn.isSome_exponent_iff, Decimal.value_lt_iff hc, Decimal.le_value_iff hc]
  · rw [hn.bare_iff ht.ne_nil, Decimal.exists_value_eq_iff h, Decimal.value_lt_iff hc, Decimal.le_value_iff hc]
    have := List.length_pos_of_ne_nil ht.ne_nil
    omega
  · have hpos := Nat.length_toDigits_pos (b := 10) (n := d.coefficient)
    have hlength := Nat.length_toDigits_le_iff (b := 10) (n := d.coefficient) (k := 1) (by decide) (by decide)
    rw [hn.decimals_eq_none_iff he]
    omega

/-- The text of a double that is not zero is such a form of its shortest decimal. It reads as one numeral, and
the double is the nearest to the number that this stands for. -/
theorem exists_numeral (negative : Bool) {rank : Fin rankCount} (hr : rank.val ≠ 0) :
    ∃ n, IsCanonical negative (shortestDecimal .up rank) n ∧
      (Double.finite negative rank).toText = String.ofList n.spelled ∧
      Json.Written.ofText? (Double.finite negative rank).toText = some (.number n) ∧
      .ofRat n.value = Double.finite negative rank := by
  obtain ⟨hend, -⟩ := shortestDecimal_spec .up (Nat.pos_of_ne_zero hr)
  obtain ⟨n, hn, hwell, hlaid⟩ := exists_isCanonical negative hend
  have htext : (Double.finite negative rank).toText = String.ofList n.spelled := by
    rw [Double.toText, Layout.write, if_neg hr, Numeral.spelled, hn.negative_eq]
    exact congrArg (fun magnitude => String.ofList (_ ++ magnitude)) hlaid
  refine ⟨n, hn, htext, by rw [htext, hwell.ofText?_spelled], ?_⟩
  rw [Numeral.value, hn.negative_eq, hn.value_eq]
  exact ofRat_shortestDecimal .up negative hr

/-- The text of a finite double reads back as the double, apart from the sign of a zero. -/
theorem exists_reading {x : Double} (hx : x.isFinite = true) :
    ∃ n, Json.Written.ofText? x.toText = some (.number n) ∧ Double.ofRat n.value = x.positiveZero := by
  cases x with
  | nan => cases hx
  | infinite => cases hx
  | finite negative rank =>
    rw [Double.positiveZero, Double.isZero]
    by_cases hr : rank.val = 0
    · rw [Double.toText, Layout.write, if_pos hr, if_pos (beq_iff_eq.2 hr), ← ofRat_zero]
      have hwell : Numeral.WellFormed ⟨false, ['0'], none, none⟩ := by
        constructor <;> simp
      refine ⟨_, hwell.ofText?_spelled, congrArg Double.ofRat ?_⟩
      simp [Numeral.value, Numeral.decimal, Decimal.value, digitsValue, Nat.ofDigitChars_cons]
    · obtain ⟨n, -, -, hread, hvalue⟩ := exists_numeral negative hr
      exact ⟨n, hread, by rw [hvalue, if_neg (by simpa using hr)]⟩

namespace Double

theorem equals_of_positiveZero_eq {x y : Double} (hx : x.isFinite = true) (hy : y.isFinite = true)
    (h : x.positiveZero = y.positiveZero) : x.equals y = true := by
  cases x <;> cases hx
  cases y <;> cases hy
  simp only [positiveZero, isZero, zero] at h
  grind [equals]

/-- The text of a double that is not zero writes, in canonical form, the shortest decimal of the double, which has
a zero at neither end of its digits and is rounded to the double. Finite doubles of one text are equal. -/
theorem toText_canonical :
    (∀ (negative : Bool) (rank : Fin rankCount), rank.val ≠ 0 →
      IsTrimmed (Nat.toDigits 10 (shortestDecimal .up rank).coefficient) ∧
      ∃ n, IsCanonical negative (shortestDecimal .up rank) n ∧
        (Double.finite negative rank).toText = String.ofList n.spelled ∧
        Json.Written.ofText? (Double.finite negative rank).toText = some (.number n) ∧
        ofRat n.value = Double.finite negative rank) ∧
    ∀ x y : Double, x.isFinite = true → y.isFinite = true → x.toText = y.toText → x.equals y = true := by
  refine ⟨fun negative rank hr => ⟨?_, exists_numeral negative hr⟩, fun x y hx hy htext => ?_⟩
  · exact isTrimmed_toDigits (shortestDecimal_spec .up (Nat.pos_of_ne_zero hr)).1
  · obtain ⟨n, hn, hxn⟩ := exists_reading hx
    obtain ⟨k, hk, hyk⟩ := exists_reading hy
    rw [htext, hk] at hn
    cases hn
    exact equals_of_positiveZero_eq hx hy (hxn.symm.trans hyk)

theorem toText_canonical_least :
    (finite true ⟨1, by decide⟩).toText = "-5e-324" ∧
      (∃ n, Json.Written.ofText? "-5e-324" = some (.number n) ∧ ofRat n.value = finite true ⟨1, by decide⟩) ∧
      (finite false ⟨0, by decide⟩).equals (finite true ⟨0, by decide⟩) = true := by
  have htext : (finite true ⟨1, by decide⟩).toText = "-5e-324" := by decide +kernel
  obtain ⟨-, n, -, -, hread, hvalue⟩ := toText_canonical.1 true ⟨1, by decide⟩ (by decide)
  exact ⟨htext, ⟨n, htext ▸ hread, hvalue⟩, toText_canonical.2 _ _ rfl rfl rfl⟩

end Double

end JsxAttributes.Number
