import JsxAttributes.Proofs.WordDashes
import JsxAttributes.Style.Key

/-! The key of a style property tells the property, but for capitals and the dash before a vendor. Lowercasing leaves
no ASCII capitals behind, so that each capital of a key stands for a dash and a small letter. -/
namespace JsxAttributes

namespace Text

variable {c : Char}

/-! ## No capitals after lowercasing -/

theorem isUpper_eq_false (h : c.toNat < 0x41 ∨ 0x5A < c.toNat) : c.isUpper = false := by
  cases hc : c.isUpper with
  | false => rfl
  | true =>
    delta Char.isUpper at hc
    simp only [ge_iff_le, decide_eq_true_eq, UInt32.le_iff_toNat_le] at hc
    have hlow : 0x41 ≤ c.toNat := hc.1
    have hhigh : c.toNat ≤ 0x5A := hc.2
    omega

theorem toNat_ofNat_cases (n : Nat) : (Char.ofNat n).toNat = n ∨ Char.ofNat n = '\x00' := by
  by_cases hvalid : n.isValidChar
  · rw [Char.ofNat, dif_pos hvalid]
    exact .inl rfl
  · rw [Char.ofNat, dif_neg hvalid]
    exact .inr rfl

theorem isUpper_ofNat {n : Nat} (h : 0x5A < n) : (Char.ofNat n).isUpper = false := by
  rcases toNat_ofNat_cases n with hn | hn
  · exact isUpper_eq_false (.inr (hn.symm ▸ h))
  · rw [hn]
    rfl

/-- The small letters of the table lie behind the ASCII capitals. -/
theorem lt_small : ∀ r ∈ capitalRanges, 0x5A < r.small := by decide +kernel

section
variable {p : Char → Prop} {s : List Char}

/-- What holds of each character that lowercasing can make of this one. -/
theorem forall_mem_lowercaseChar (hascii : c.toNat < 0x80 → p c.toLower) (hi : p 'i')
    (hdot : p '\u0307') (hsmall : ∀ n, 0x5A < n → p (Char.ofNat n)) (hself : 0x80 ≤ c.toNat → p c) :
    ∀ d ∈ lowercaseChar c, p d := by
  rw [lowercaseChar]
  split
  · next h => exact List.forall_mem_singleton.2 (hascii h)
  · next h =>
    split
    · exact List.forall_mem_cons.2 ⟨hi, List.forall_mem_singleton.2 hdot⟩
    · split
      · next r hr =>
        have hlt := lt_small r (List.mem_of_find?_eq_some hr)
        exact List.forall_mem_singleton.2 (hsmall _ (Nat.lt_add_right _ hlt))
      · exact List.forall_mem_singleton.2 (hself (Nat.le_of_not_lt h))

theorem forall_mem_lowercaseFrom (hfinal : p 'ς') (hsigma : p 'σ')
    (hs : ∀ c ∈ s, ∀ d ∈ lowercaseChar c, p d) (afterCased : Bool) :
    ∀ d ∈ lowercaseFrom afterCased s, p d := by
  induction s generalizing afterCased with
  | nil => exact List.forall_mem_nil _
  | cons c r ih =>
    obtain ⟨hc, hr⟩ := List.forall_mem_cons.1 hs
    rw [lowercaseFrom, List.forall_mem_append]
    refine ⟨?_, ih hr _⟩
    split
    · split
      · exact List.forall_mem_singleton.2 hfinal
      · exact List.forall_mem_singleton.2 hsigma
    · exact hc

end

theorem isUpper_lowercaseChar (c : Char) : ∀ d ∈ lowercaseChar c, d.isUpper = false :=
  forall_mem_lowercaseChar (p := fun c => c.isUpper = false) isUpper_toLower rfl rfl
    (fun _ => isUpper_ofNat) fun h => isUpper_eq_false (.inr (by omega))

theorem isUpper_lowercase (s : List Char) : ∀ c ∈ lowercase s, c.isUpper = false :=
  forall_mem_lowercaseFrom (p := fun c => c.isUpper = false) rfl rfl
    (fun c _ => isUpper_lowercaseChar c) false

end Text

namespace Style

/-- Two dashes and one or more ASCII letters, digits, underscores and dashes. -/
def IsCustom (s : List Char) : Prop :=
  ∃ name, s = '-' :: '-' :: name ∧ name ≠ [] ∧ ∀ c ∈ name, c.isAlphanum = true ∨ c = '_' ∨ c = '-'

/-- The names that do not stay as they are: those with a dash, but for custom properties. -/
structure IsHyphenated (property : String) : Prop where
  dash : '-' ∈ property.toList
  plain : ¬ IsCustom property.toList

/-- A dash, a vendor whose name is spelled small, and a dash. -/
def HasVendor (o : KeyOptions) (s : List Char) : Prop :=
  ∃ v ∈ smallVendors o, ('-' :: (v.toList ++ ['-'])) <+: s

/-- The second text is the first one without its dash before a vendor, or the first one if it has no vendor. -/
inductive LosesDash (o : KeyOptions) : List Char → List Char → Prop where
  | vendor {s : List Char} : HasVendor o ('-' :: s) → LosesDash o ('-' :: s) s
  | plain {s : List Char} : ¬ HasVendor o s → LosesDash o s s

variable {o : KeyOptions} {p q : String} {s t : List Char}

theorem isCustomName_iff : isCustomName s = true ↔ IsCustom s := by
  unfold isCustomName
  split
  · next name => simp [IsCustom, or_assoc]
  · next hs =>
    refine iff_of_false nofun fun h => ?_
    obtain ⟨name, rfl, -⟩ := h
    exact hs name rfl

/-! ## The dash before a vendor -/

theorem hasVendor_dash_iff : HasVendor o ('-' :: s) ↔
    ((smallVendors o).any fun v => (v.toList ++ ['-']).isPrefixOf s) = true := by
  simp [HasVendor, List.cons_prefix_cons]

theorem losesDash_withoutLeadingDash (o : KeyOptions) (s : List Char) :
    LosesDash o s (withoutLeadingDash o s) := by
  cases s with
  | nil =>
    refine .plain fun h => ?_
    obtain ⟨v, -, hv⟩ := h
    exact List.cons_ne_nil _ _ (List.prefix_nil.1 hv)
  | cons c r =>
    rw [withoutLeadingDash]
    split
    · next h =>
      obtain ⟨rfl, hv⟩ := h
      exact .vendor (hasVendor_dash_iff.2 hv)
    · next h =>
      refine .plain fun hv => h ?_
      have hc : c = '-' := by
        obtain ⟨v, -, hprefix⟩ := hv
        exact (List.cons_prefix_cons.1 hprefix).1.symm
      subst hc
      exact ⟨rfl, hasVendor_dash_iff.1 hv⟩

theorem LosesDash.subset (h : LosesDash o s t) : t ⊆ s := by
  cases h with
  | vendor _ => exact List.subset_cons_self ..
  | plain _ => exact fun _ hc => hc

theorem LosesDash.eq_self (h : LosesDash o s t) (hs : ¬ HasVendor o s) : t = s := by
  cases h with
  | vendor hv => exact absurd hv hs
  | plain _ => rfl

/-! ## Keys -/

theorem isHyphenated_iff : IsHyphenated p ↔
    (p.toList.contains '-' && !isCustomName p.toList) = true := by
  rw [Bool.and_eq_true, List.contains_iff_mem, Bool.not_eq_true', ← Bool.not_eq_true, isCustomName_iff]
  exact ⟨fun h => ⟨h.dash, h.plain⟩, fun h => ⟨h.1, h.2⟩⟩

theorem toList_keyOf (h : IsHyphenated p) : (keyOf o p).toList =
    Text.dashesToCapitals (withoutLeadingDash o (Text.lowercase p.toList)) := by
  rw [keyOf, if_pos (isHyphenated_iff.1 h), String.toList_ofList]

theorem keyOf_eq_self (h : ¬ IsHyphenated p) : keyOf o p = p := by
  rw [keyOf, if_neg (mt isHyphenated_iff.2 h)]

/-- A key with its capitals spread is the small form of the property, without the dash before a vendor. -/
theorem losesDash_keyOf (h : IsHyphenated p) :
    LosesDash o (Text.lowercase p.toList) (Text.capitalsToDashes (keyOf o p).toList) := by
  have hloses := losesDash_withoutLeadingDash o (Text.lowercase p.toList)
  have hsmall : ∀ c ∈ withoutLeadingDash o (Text.lowercase p.toList), c.isUpper = false :=
    fun c hc => Text.isUpper_lowercase p.toList c (hloses.subset hc)
  rwa [toList_keyOf h, Text.capitalsToDashes_dashesToCapitals hsmall]

theorem hasWordDash_keyOf (h : IsHyphenated p) : Text.hasWordDash (keyOf o p).toList = false := by
  rw [toList_keyOf h]
  exact Text.hasWordDash_dashesToCapitals _

theorem capitalsToDashes_keyOf (h : IsHyphenated p) (hl : Text.lowercased p = p)
    (hv : ¬ HasVendor o p.toList) : Text.capitalsToDashes (keyOf o p).toList = p.toList := by
  have hlower : Text.lowercase p.toList = p.toList := by
    rw [← String.toList_ofList (l := Text.lowercase p.toList)]
    exact congrArg String.toList hl
  have hloses := losesDash_keyOf (o := o) h
  rw [hlower] at hloses
  exact hloses.eq_self hv

/-- The key of a hyphenated property has no joining dash, and spread again it gives the small form of the property,
without its dash before a vendor. So two such properties that are small already and have no vendor in front have
different keys; every other name is its own key. -/
theorem keys_tell_properties (o : KeyOptions) :
    (∀ p, IsHyphenated p →
      LosesDash o (Text.lowercased p).toList (Text.capitalsToDashes (keyOf o p).toList) ∧
      ∀ before c after, (keyOf o p).toList = before ++ '-' :: c :: after → c.isLower = false) ∧
    (∀ p q, IsHyphenated p → IsHyphenated q → Text.lowercased p = p → Text.lowercased q = q →
      ¬ HasVendor o p.toList → ¬ HasVendor o q.toList → keyOf o p = keyOf o q → p = q) ∧
    ∀ p, ¬ IsHyphenated p → keyOf o p = p := by
  refine ⟨fun p hp => ⟨?_, ?_⟩, fun p q hp hq hlp hlq hvp hvq hkey => ?_, fun p hp => keyOf_eq_self hp⟩
  · rw [Text.lowercased, String.toList_ofList]
    exact losesDash_keyOf hp
  · exact Text.hasWordDash_eq_false_iff.1 (hasWordDash_keyOf hp)
  · apply String.toList_injective
    rw [← capitalsToDashes_keyOf hp hlp hvp, hkey, capitalsToDashes_keyOf hq hlq hvq]

/-- A vendor with a capital, two dashes, and a dash before a digit; a name that stays as it is. -/
theorem keys_tell_properties_vendor :
    (IsHyphenated "-WebKit-a--b-1" ∧ LosesDash {} (Text.lowercased "-WebKit-a--b-1").toList
      (Text.capitalsToDashes (keyOf {} "-WebKit-a--b-1").toList)) ∧
    ((keyOf {} "-WebKit-a--b-1").toList = "webkitA".toList ++ '-' :: 'B' :: "-1".toList ∧
      'B'.isLower = false) ∧
    ((IsHyphenated "a--b-1" ∧ Text.lowercased "a--b-1" = "a--b-1" ∧ ¬ HasVendor {} "a--b-1".toList) ∧
      "a--b-1" = "a--b-1") ∧
    ¬ IsHyphenated "--Brand_color" ∧ keyOf {} "--Brand_color" = "--Brand_color" := by
  obtain ⟨hback, hdifferent, hother⟩ := keys_tell_properties {}
  have hvendor : IsHyphenated "-WebKit-a--b-1" := isHyphenated_iff.2 (by decide)
  have hkey : (keyOf {} "-WebKit-a--b-1").toList = "webkitA".toList ++ '-' :: 'B' :: "-1".toList := by
    decide +kernel
  have hplain : IsHyphenated "a--b-1" := isHyphenated_iff.2 (by decide)
  have hlower : Text.lowercased "a--b-1" = "a--b-1" := by decide +kernel
  have hnone : ¬ HasVendor {} "a--b-1".toList := by
    rw [HasVendor]
    decide
  have hcustom : ¬ IsHyphenated "--Brand_color" := mt isHyphenated_iff.1 (by decide)
  exact ⟨⟨hvendor, (hback _ hvendor).1⟩, ⟨hkey, (hback _ hvendor).2 _ _ _ hkey⟩,
    ⟨⟨hplain, hlower, hnone⟩, hdifferent _ _ hplain hplain hlower hlower hnone hnone rfl⟩,
    hcustom, hother _ hcustom⟩

end Style

end JsxAttributes
