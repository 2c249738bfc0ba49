import JsxAttributes.Text.Dashes
import JsxAttributes.Text.Lowercase

/-! Folding and spreading names of several words. A name without capitals is got back from its folded form,
and one without a joining dash from its spread form; a folded name has no joining dash left. -/
namespace JsxAttributes.Text

variable {c : Char} {s : List Char}

/-! ## Letters -/

theorem ascii_of_isLower (h : c.isLower = true) : c.toNat < 0x80 := by
  delta Char.isLower at h
  simp only [Bool.and_eq_true, decide_eq_true_eq, UInt32.le_iff_toNat_le] at h
  exact Nat.lt_of_le_of_lt h.2 (by decide)

theorem ascii_of_isUpper (h : c.isUpper = true) : c.toNat < 0x80 := by
  delta Char.isUpper at h
  simp only [decide_eq_true_eq, UInt32.le_iff_toNat_le] at h
  exact Nat.lt_of_le_of_lt h.2 (by decide)

theorem toUpper_of_isLower (h : c.isLower = true) :
    c.toUpper.isUpper = true ∧ c.toUpper.toLower = c :=
  forall_ascii (p := fun c => c.isLower = true → c.toUpper.isUpper = true ∧ c.toUpper.toLower = c)
    (by decide) (ascii_of_isLower h) h

theorem toLower_of_isUpper (h : c.isUpper = true) :
    c.toLower.isLower = true ∧ c.toLower.toUpper = c :=
  forall_ascii (p := fun c => c.isUpper = true → c.toLower.isLower = true ∧ c.toLower.toUpper = c)
    (by decide) (ascii_of_isUpper h) h

theorem isLower_eq_false_of_isUpper (h : c.isUpper = true) : c.isLower = false :=
  forall_ascii (p := fun c => c.isUpper = true → c.isLower = false) (by decide)
    (ascii_of_isUpper h) h

theorem isUpper_eq_false_of_isLower (h : c.isLower = true) : c.isUpper = false := by
  cases hu : c.isUpper with
  | false => rfl
  | true =>
    rw [isLower_eq_false_of_isUpper hu] at h
    cases h

theorem isUpper_toLower (h : c.toNat < 0x80) : c.toLower.isUpper = false :=
  forall_ascii (p := fun c => c.toLower.isUpper = false) (by decide) h

theorem toLower_ne_dash (hc : c ≠ '-') (h : c.toNat < 0x80) : c.toLower ≠ '-' :=
  forall_ascii (p := fun c => c ≠ '-' → c.toLower ≠ '-') (by decide) h hc

theorem toLower_eq_self (h : c.isUpper = false) : c.toLower = c := by
  delta Char.toLower
  delta Char.isUpper at h
  rw [dif_neg]
  simpa using h

/-! ## Joining dashes -/

/-- The dash is not followed by a small letter, or this is no dash. -/
def StaysBefore (c : Char) (s : List Char) : Prop := ∀ d ∈ s.head?, ¬ (c = '-' ∧ d.isLower = true)

theorem StaysBefore.of_ne (h : c ≠ '-') (s : List Char) : StaysBefore c s :=
  fun _ _ hd => h hd.1

theorem hasWordDash_cons : hasWordDash (c :: s) = false ↔ StaysBefore c s ∧ hasWordDash s = false := by
  cases s with
  | nil => simp [hasWordDash, StaysBefore]
  | cons d r => simp [hasWordDash, StaysBefore]

theorem dashesToCapitals_cons (h : StaysBefore c s) :
    dashesToCapitals (c :: s) = c :: dashesToCapitals s := by
  cases s with
  | nil => rfl
  | cons d r => rw [dashesToCapitals, if_neg (h d rfl)]

theorem hasWordDash_eq_false_iff : hasWordDash s = false ↔
    ∀ before c after, s = before ++ '-' :: c :: after → c.isLower = false := by
  induction s with
  | nil => simp [hasWordDash]
  | cons d r ih =>
    rw [hasWordDash_cons, ih]
    constructor
    · rintro ⟨hd, hr⟩ before c after hs
      cases before with
      | nil =>
        obtain ⟨rfl, rfl⟩ := List.cons.inj hs
        simpa [StaysBefore] using hd
      | cons b before => exact hr before c after (List.cons.inj hs).2
    · intro h
      refine ⟨?_, fun before c after hr => h (d :: before) c after (congrArg (d :: ·) hr)⟩
      rintro e he ⟨rfl, hlower⟩
      cases r with
      | nil => cases he
      | cons f r =>
        obtain rfl := Option.some.inj he
        rw [h [] f r rfl] at hlower
        cases hlower

/-- A folded name has no joining dash. -/
theorem hasWordDash_dashesToCapitals (s : List Char) : hasWordDash (dashesToCapitals s) = false := by
  fun_induction dashesToCapitals s with
  | case1 => rfl
  | case2 => rfl
  | case3 c d r h ih =>
    have hd : d.toUpper ≠ '-' := by
      intro hd
      have hu := (toUpper_of_isLower h.2).1
      rw [hd] at hu
      cases hu
    exact hasWordDash_cons.2 ⟨.of_ne hd _, ih⟩
  | case4 c d r h ih =>
    refine hasWordDash_cons.2 ⟨fun e he => ?_, ih⟩
    rintro ⟨rfl, hlower⟩
    -- The folded rest starts as the rest does, unless a dash and a letter were folded there.
    cases r with
    | nil =>
      obtain rfl := Option.some.inj he
      exact h ⟨rfl, hlower⟩
    | cons f r =>
      rw [dashesToCapitals] at he
      split at he
      · next hf =>
        obtain rfl := Option.some.inj he
        rw [isLower_eq_false_of_isUpper (toUpper_of_isLower hf.2).1] at hlower
        cases hlower
      · obtain rfl := Option.some.inj he
        exact h ⟨rfl, hlower⟩

/-! ## There and back -/

theorem capitalsToDashes_cons_of_isUpper (h : c.isUpper = true) (s : List Char) :
    capitalsToDashes (c :: s) = '-' :: c.toLower :: capitalsToDashes s := by
  rw [capitalsToDashes, if_pos h]

theorem capitalsToDashes_cons_of_not_isUpper (h : c.isUpper = false) (s : List Char) :
    capitalsToDashes (c :: s) = c :: capitalsToDashes s := by
  rw [capitalsToDashes, if_neg (by simp [h])]

/-- Spreading undoes folding, if there were no capitals. -/
theorem capitalsToDashes_dashesToCapitals (h : ∀ c ∈ s, c.isUpper = false) :
    capitalsToDashes (dashesToCapitals s) = s := by
  fun_induction dashesToCapitals s with
  | case1 => rfl
  | case2 c => exact capitalsToDashes_cons_of_not_isUpper (h c (List.mem_singleton_self c)) []
  | case3 c d r hd ih =>
    obtain ⟨rfl, hlower⟩ := hd
    obtain ⟨hupper, hback⟩ := toUpper_of_isLower hlower
    have hr : ∀ e ∈ r, e.isUpper = false := fun e he =>
      h e (List.mem_cons_of_mem _ (List.mem_cons_of_mem _ he))
    rw [capitalsToDashes_cons_of_isUpper hupper, hback, ih hr]
  | case4 c d r hd ih =>
    obtain ⟨hc, hdr⟩ := List.forall_mem_cons.1 h
    rw [capitalsToDashes_cons_of_not_isUpper hc, ih hdr]

/-- Folding undoes spreading, if there was no joining dash. -/
theorem dashesToCapitals_capitalsToDashes (h : hasWordDash s = false) :
    dashesToCapitals (capitalsToDashes s) = s := by
  induction s with
  | nil => rfl
  | cons c r ih =>
    obtain ⟨hstays, hr⟩ := hasWordDash_cons.1 h
    cases hc : c.isUpper with
    | true =>
      obtain ⟨hlower, hback⟩ := toLower_of_isUpper hc
      rw [capitalsToDashes_cons_of_isUpper hc, dashesToCapitals, if_pos ⟨rfl, hlower⟩, hback, ih hr]
    | false =>
      rw [capitalsToDashes_cons_of_not_isUpper hc, dashesToCapitals_cons, ih hr]
      intro d hd
      cases r with
      | nil => cases hd
      | cons e r =>
        rw [capitalsToDashes] at hd
        split at hd
        · obtain rfl := Option.some.inj hd
          simp
        · obtain rfl := Option.some.inj hd
          exact hstays e rfl

theorem isUpper_capitalsToDashes (s : List Char) : ∀ c ∈ capitalsToDashes s, c.isUpper = false := by
  induction s with
  | nil => exact List.forall_mem_nil _
  | cons c r ih =>
    cases hc : c.isUpper with
    | true =>
      rw [capitalsToDashes_cons_of_isUpper hc, List.forall_mem_cons, List.forall_mem_cons]
      exact ⟨rfl, isUpper_eq_false_of_isLower (toLower_of_isUpper hc).1, ih⟩
    | false =>
      rw [capitalsToDashes_cons_of_not_isUpper hc, List.forall_mem_cons]
      exact ⟨hc, ih⟩

end JsxAttributes.Text
