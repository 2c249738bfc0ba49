import JsxAttributes.Proofs.StyleKeys

/-! React's spelling of style keys beside the plain one. Where the two differ, one folds the small name from its
dash and the other from behind it; they meet again behind the first letter. No other name is touched. -/
namespace JsxAttributes

namespace Text

variable {c : Char} {s : List Char}

/-! ## Dashes and lowercasing -/

theorem ofNat_ne_dash {n : Nat} (h : 0x5A < n) : Char.ofNat n ≠ '-' := by
  intro he
  rcases toNat_ofNat_cases n with hn | hn
  · rw [he] at hn
    exact absurd (hn ▸ h) (by decide)
  · rw [he] at hn
    cases hn

/-- Lowercasing makes no dash out of another character. -/
theorem dash_mem_of_mem_lowercase (h : '-' ∈ lowercase s) : '-' ∈ s := by
  by_cases hs : '-' ∈ s
  · exact hs
  · have hchars : ∀ c ∈ s, ∀ d ∈ lowercaseChar c, d ≠ '-' := by
      intro c hc
      have hne : c ≠ '-' := fun he => hs (he ▸ hc)
      exact forall_mem_lowercaseChar (toLower_ne_dash hne) (by decide) (by decide)
        (fun _ => ofNat_ne_dash) fun _ => hne
    exact absurd rfl (forall_mem_lowercaseFrom (by decide) (by decide) hchars false _ h)

/-! ## Folding from a dash and from behind it -/

theorem dashesToCapitals_dash (h : c.isLower = true) (s : List Char) :
    dashesToCapitals ('-' :: c :: s) = c.toUpper :: dashesToCapitals s := by
  rw [dashesToCapitals, if_pos ⟨rfl, h⟩]

theorem dashesToCapitals_behind_dash (h : c.isLower = true) (s : List Char) :
    dashesToCapitals (c :: s) = c :: dashesToCapitals s := by
  refine dashesToCapitals_cons (.of_ne ?_ s)
  intro hc
  subst hc
  cases h

end Text

namespace Style

def KeyOptions.plain : KeyOptions := { reactCompat := false }

def KeyOptions.react : KeyOptions := { reactCompat := true }

/-- The vendors that React spells with a capital. -/
def capitalVendors : List String := ["webkit", "moz", "o", "khtml"]

/-- A dash, the vendor in small letters and a dash come first. -/
def NamesVendor (p v : String) : Prop := ('-' :: (v.toList ++ ['-'])) <+: (Text.lowercased p).toList

/-- The names that React spells its own way. -/
structure HasCapitalVendor (p : String) : Prop where
  plain : ¬ IsCustom p.toList
  vendor : ∃ v ∈ capitalVendors, NamesVendor p v

/-- The letter behind the leading dash of the name, as a capital in one key and small in the other, and the same
characters behind it. -/
def DifferInCapital (p capital small : String) : Prop :=
  ∃ c tail, ['-', c] <+: (Text.lowercased p).toList ∧ c.isLower = true ∧
    capital.toList = c.toUpper :: tail ∧ small.toList = c :: tail

variable {o : KeyOptions} {p v capital small : String} {s : List Char}

/-! ## Vendors -/

theorem mem_smallVendors_iff :
    v ∈ smallVendors o ↔ v = "ms" ∨ o.reactCompat = false ∧ v ∈ capitalVendors := by
  cases h : o.reactCompat with
  | true => simp [smallVendors, h]
  | false => simp [smallVendors, capitalVendors, h, or_left_comm]

theorem namesVendor_iff : NamesVendor p v ↔ ('-' :: (v.toList ++ ['-'])) <+: Text.lowercase p.toList := by
  rw [NamesVendor, Text.lowercased, String.toList_ofList]

/-- The dash goes before `ms` always, and before the others unless React keeps it. -/
theorem hasVendor_iff : HasVendor o (Text.lowercase p.toList) ↔
    NamesVendor p "ms" ∨ o.reactCompat = false ∧ ∃ v ∈ capitalVendors, NamesVendor p v := by
  simp only [HasVendor, mem_smallVendors_iff, ← namesVendor_iff, or_and_right, exists_or,
    exists_eq_left, and_assoc, exists_and_left]

/-- No vendor with its dashes starts another one. -/
theorem not_namesVendor_ms (hv : v ∈ capitalVendors) (h : NamesVendor p v) : ¬ NamesVendor p "ms" := by
  intro hms
  have hapart : ∀ v ∈ capitalVendors, ¬ (('-' :: (v.toList ++ ['-'])) <+: ['-', 'm', 's', '-'] ∨
      ['-', 'm', 's', '-'] <+: '-' :: (v.toList ++ ['-'])) := by decide
  exact hapart v hv (List.prefix_or_prefix_of_prefix h hms)

/-- Behind the dash a vendor has a small letter. -/
theorem exists_letter (hv : v ∈ capitalVendors) (h : NamesVendor p v) :
    ∃ c r, Text.lowercase p.toList = '-' :: c :: r ∧ c.isLower = true := by
  have hletters : ∀ v ∈ capitalVendors, v.toList.head?.any Char.isLower = true := by decide
  have hletter := hletters v hv
  obtain ⟨t, ht⟩ := namesVendor_iff.1 h
  cases hl : v.toList with
  | nil =>
    rw [hl] at hletter
    cases hletter
  | cons c l =>
    rw [hl] at ht hletter
    exact ⟨c, l ++ ['-'] ++ t, by simp [← ht], hletter⟩

/-! ## The name without its dash -/

theorem eq_dash_cons_of_hasVendor (h : HasVendor o s) : s = '-' :: withoutLeadingDash o s := by
  have hloses := losesDash_withoutLeadingDash o s
  generalize withoutLeadingDash o s = t at hloses
  cases hloses with
  | vendor _ => rfl
  | plain hno => exact absurd h hno

theorem withoutLeadingDash_of_not_hasVendor (h : ¬ HasVendor o s) : withoutLeadingDash o s = s :=
  (losesDash_withoutLeadingDash o s).eq_self h

theorem HasCapitalVendor.isHyphenated (h : HasCapitalVendor p) : IsHyphenated p := by
  obtain ⟨v, hv, hp⟩ := h.vendor
  obtain ⟨c, r, hl, -⟩ := exists_letter hv hp
  have hdash : '-' ∈ Text.lowercase p.toList := hl ▸ List.mem_cons_self
  exact ⟨Text.dash_mem_of_mem_lowercase hdash, h.plain⟩

/-! ## The two spellings -/

theorem keyOf_of_hasCapitalVendor (h : HasCapitalVendor p) :
    DifferInCapital p (keyOf .react p) (keyOf .plain p) := by
  obtain ⟨v, hv, hp⟩ := h.vendor
  obtain ⟨c, r, hl, hc⟩ := exists_letter hv hp
  have hreact : ¬ HasVendor .react (Text.lowercase p.toList) := by
    rw [hasVendor_iff]
    rintro (hms | ⟨hplain, -⟩)
    · exact not_namesVendor_ms hv hp hms
    · cases hplain
  have hplain : '-' :: c :: r = '-' :: withoutLeadingDash .plain (Text.lowercase p.toList) := by
    rw [← hl]
    exact eq_dash_cons_of_hasVendor (hasVendor_iff.2 (.inr ⟨rfl, v, hv, hp⟩))
  refine ⟨c, Text.dashesToCapitals r, ⟨r, ?_⟩, hc, ?_, ?_⟩
  · rw [Text.lowercased, String.toList_ofList, hl]
    rfl
  · rw [toList_keyOf h.isHyphenated, withoutLeadingDash_of_not_hasVendor hreact, hl,
      Text.dashesToCapitals_dash hc]
  · rw [toList_keyOf h.isHyphenated, ← (List.cons.inj hplain).2, Text.dashesToCapitals_behind_dash hc]

theorem withoutLeadingDash_react (h : ¬ ∃ v ∈ capitalVendors, NamesVendor p v) :
    withoutLeadingDash .react (Text.lowercase p.toList) = withoutLeadingDash .plain (Text.lowercase p.toList) := by
  have hboth (o : KeyOptions) : HasVendor o (Text.lowercase p.toList) ↔ NamesVendor p "ms" := by
    rw [hasVendor_iff]
    exact or_iff_left fun hcapital => h hcapital.2
  by_cases hms : NamesVendor p "ms"
  · have hreact := eq_dash_cons_of_hasVendor ((hboth .react).2 hms)
    have hplain := eq_dash_cons_of_hasVendor ((hboth .plain).2 hms)
    exact (List.cons.inj (hreact.symm.trans hplain)).2
  · rw [withoutLeadingDash_of_not_hasVendor (mt (hboth .react).1 hms),
      withoutLeadingDash_of_not_hasVendor (mt (hboth .plain).1 hms)]

theorem keyOf_react_eq (h : ¬ HasCapitalVendor p) : keyOf .react p = keyOf .plain p := by
  by_cases hp : IsHyphenated p
  · apply String.toList_injective
    rw [toList_keyOf hp, toList_keyOf hp, withoutLeadingDash_react fun hv => h ⟨hp.plain, hv⟩]
  · rw [keyOf_eq_self hp, keyOf_eq_self hp]

theorem DifferInCapital.ne (h : DifferInCapital p capital small) : capital ≠ small := by
  obtain ⟨c, tail, -, hc, hcapital, hsmall⟩ := h
  intro he
  have hletter : c.toUpper = c := by
    rw [he, hsmall] at hcapital
    exact (List.cons.inj hcapital).1.symm
  have hupper := (Text.toUpper_of_isLower hc).1
  rw [hletter, Text.isUpper_eq_false_of_isLower hc] at hupper
  cases hupper

/-- React's key differs from the plain one exactly for the names with a vendor that React spells with a capital,
and then in the first letter alone; so names of the vendor `ms` have the same key in both. -/
theorem react_changes_capital (p : String) :
    (keyOf .react p ≠ keyOf .plain p ↔ HasCapitalVendor p) ∧
    (HasCapitalVendor p → DifferInCapital p (keyOf .react p) (keyOf .plain p)) ∧
    (NamesVendor p "ms" → keyOf .react p = keyOf .plain p) := by
  refine ⟨⟨fun hne => ?_, fun h => (keyOf_of_hasCapitalVendor h).ne⟩, keyOf_of_hasCapitalVendor,
    fun hms => ?_⟩
  · by_cases h : HasCapitalVendor p
    · exact h
    · exact absurd (keyOf_react_eq h) hne
  · refine keyOf_react_eq fun h => ?_
    obtain ⟨v, hv, hp⟩ := h.vendor
    exact not_namesVendor_ms hv hp hms

/-- A vendor of one letter, with a dash directly behind its own. -/
theorem react_changes_capital_letter :
    (HasCapitalVendor "-O--x" ∧ DifferInCapital "-O--x" (keyOf .react "-O--x") (keyOf .plain "-O--x")) ∧
    NamesVendor "-Ms--x" "ms" ∧ keyOf .react "-Ms--x" = keyOf .plain "-Ms--x" := by
  have hcapital : HasCapitalVendor "-O--x" := by
    refine ⟨mt isCustomName_iff.2 (by decide), "o", by decide, ?_⟩
    rw [NamesVendor]
    decide +kernel
  have hms : NamesVendor "-Ms--x" "ms" := by
    rw [NamesVendor]
    decide +kernel
  exact ⟨⟨hcapital, (react_changes_capital _).2.1 hcapital⟩, hms, (react_changes_capital _).2.2 hms⟩

end Style

end JsxAttributes
