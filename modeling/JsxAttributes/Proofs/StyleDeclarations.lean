import JsxAttributes.Proofs.StyleKeys
import JsxAttributes.Proofs.StyleObject

/-! Every declaration that was read can be used: cleaning leaves its property at least one character and no white
space, and its value none at the ends. So no key of the object is empty, and a declaration is passed over for an
empty value only. -/
namespace JsxAttributes

namespace Text

theorem lowercaseChar_ne_nil (c : Char) : lowercaseChar c ≠ [] := by
  rw [lowercaseChar]
  split
  · simp
  · split
    · simp
    · split <;> simp

theorem lowercase_ne_nil {s : List Char} (h : s ≠ []) : lowercase s ≠ [] := by
  obtain ⟨c, r, rfl⟩ := List.exists_cons_of_ne_nil h
  rw [lowercase, lowercaseFrom]
  refine List.append_ne_nil_of_left_ne_nil ?_ _
  split
  · simp
  · exact lowercaseChar_ne_nil c

end Text

namespace Style

structure IsUsable (d : Declaration) : Prop where
  property_ne : d.property ≠ ""
  property_plain : ∀ c ∈ d.property.toList, Text.isBlank c = false
  value_front : ∀ c ∈ d.value.toList.head?, Text.isBlank c = false
  value_back : ∀ c ∈ d.value.toList.getLast?, Text.isBlank c = false

namespace Grammar

variable {property value whole before rest hack s back : List Char} {d : Declaration}
  {ds : List Declaration}

/-! ## Properties without white space -/

theorem isPropertyChar_of_isHackChar {c : Char} (h : isHackChar c = true) : isPropertyChar c = true := by
  delta isPropertyChar Char.isAlphanum Char.isAlpha
  simp only [isHackChar, Bool.or_eq_true] at h ⊢
  tauto

theorem IsHack.isBlank_eq_false (h : IsHack hack) : ∀ c ∈ hack, Text.isBlank c = false := by
  obtain ⟨-, hin⟩ := h
  have hclosing : ∀ c ∈ [']'], Text.isBlank c = false := List.forall_mem_singleton.2 (by decide)
  refine List.forall_mem_cons.2 ⟨by decide, List.forall_mem_append.2 ⟨fun c hc => ?_, hclosing⟩⟩
  exact isBlank_eq_false_of_isPropertyChar (isPropertyChar_of_isHackChar (hin c hc))

/-- White space stands in a property only behind everything else. -/
theorem IsProperty.exists_plain (h : IsProperty property rest) : ∃ plain blank, property = plain ++ blank ∧
    (∀ c ∈ plain, Text.isBlank c = false) ∧ ∀ c ∈ blank, Text.isBlank c = true := by
  obtain @⟨name, hack, blank, _, -, hname, hhack, hblank⟩ := h
  have hplain : ∀ c ∈ name, Text.isBlank c = false :=
    fun c hc => isBlank_eq_false_of_isPropertyChar (hname.1 c hc)
  have hbracket : ∀ c ∈ hack, Text.isBlank c = false := by
    obtain hhack | ⟨rfl, -⟩ := hhack
    · exact hhack.isBlank_eq_false
    · exact List.forall_mem_nil _
  exact ⟨name ++ hack, blank, (List.append_assoc ..).symm, List.forall_mem_append.2 ⟨hplain, hbracket⟩,
    hblank.1⟩

theorem trims_of_plain (hs : ∀ c ∈ s, Text.isBlank c = false) (hb : ∀ c ∈ back, Text.isBlank c = true) :
    Trims (s ++ back) s :=
  ⟨[], back, rfl, List.forall_mem_nil _, hb, fun c hc => hs c (List.mem_of_head? hc),
    fun c hc => hs c (List.mem_of_getLast? hc)⟩

/-- Taking comments out moves no white space forward, so that trimming takes away all that is left of it. -/
theorem IsProperty.isBlank_clean (h : IsProperty property rest) :
    ∀ c ∈ (Cursor.clean property).toList, Text.isBlank c = false := by
  obtain ⟨plain, blank, rfl, hplain, hblank⟩ := h.exists_plain
  have hstrips := strips_withoutComments (plain ++ blank)
  obtain ⟨t, back, ht, htp, hbb⟩ := List.sublist_append_iff.1 hstrips.sublist
  have htplain : ∀ c ∈ t, Text.isBlank c = false := fun c hc => hplain c (htp.subset hc)
  have hback : ∀ c ∈ back, Text.isBlank c = true := fun c hc => hblank c (hbb.subset hc)
  rw [ht] at hstrips
  rw [hstrips.clean_eq (trims_of_plain htplain hback), String.toList_ofList]
  exact htplain

/-! ## Declarations -/

theorem IsDeclaration.isUsable (h : IsDeclaration property value whole rest)
    (ho : ¬ OpensComment (whole ++ rest)) (hd : Describes d before property value) : IsUsable d := by
  obtain ⟨-, -, t, -, front, back, -, -, -, hfront, hback⟩ := id hd
  refine ⟨?_, ?_, hfront, hback⟩
  · rw [describes_iff.1 hd]
    exact h.clean_ne_empty ho
  · obtain ⟨hp, -⟩ := h
    rw [describes_iff.1 hd]
    exact hp.isBlank_clean

theorem isUsable_of_read {text : String} (h : readDeclarations text = .ok ds) : ∀ d ∈ ds, IsUsable d := by
  intro d hd
  obtain ⟨before, property, value, whole, rest, ho, hdeclared, hdesc⟩ := exists_isDeclaration_of_read h d hd
  exact hdeclared.isUsable ho hdesc

end Grammar

variable {o : KeyOptions} {d : Declaration}

/-! ## Keys -/

/-- Only the empty name has an empty key. -/
theorem keyOf_ne_empty {p : String} (h : p ≠ "") : keyOf o p ≠ "" := by
  by_cases hp : IsHyphenated p
  · intro hkey
    have hloses := losesDash_keyOf (o := o) hp
    rw [hkey] at hloses
    have hname : Text.lowercase p.toList ≠ [] := Text.lowercase_ne_nil (by simpa using h)
    generalize Text.lowercase p.toList = s at hloses hname
    generalize ht : Text.capitalsToDashes "".toList = t at hloses
    obtain rfl : [] = t := ht
    cases hloses with
    | vendor hvendor =>
      obtain ⟨v, -, hv⟩ := hvendor
      have hlength := hv.length_le
      simp at hlength
    | plain _ => exact hname rfl
  · rwa [keyOf_eq_self hp]

theorem assignment_eq_empty_iff (h : d.property ≠ "") : d.assignment o = .empty ↔ d.value = "" := by
  rw [Declaration.assignment]
  by_cases hv : d.value = ""
  · simp [hv]
  · by_cases hk : keyOf o d.property = "__proto__" <;> simp [h, hv, hk]

/-- The declarations of a text that can be read have a property without white space and a trimmed value, and are
passed over for an empty value only; the object of the text has no empty key and no empty value. -/
theorem declarations_usable {text : String} {ds : List Declaration} (h : readDeclarations text = .ok ds)
    (o : KeyOptions) :
    (∀ d ∈ ds, IsUsable d ∧ keyOf o d.property ≠ "" ∧ (d.assignment o = .empty ↔ d.value = "")) ∧
    ∃ es, readObject o text = .ok es ∧ ∀ e ∈ es, e.1 ≠ "" ∧ e.2 ≠ "" := by
  have husable := Grammar.isUsable_of_read h
  have hkey : ∀ d ∈ ds, keyOf o d.property ≠ "" := fun d hd => keyOf_ne_empty (husable d hd).property_ne
  obtain ⟨hread, hleaves⟩ := readObject_of_ok o h
  refine ⟨fun d hd => ⟨husable d hd, hkey d hd, assignment_eq_empty_iff (husable d hd).property_ne⟩,
    _, hread, fun e he => ?_⟩
  obtain ⟨-, before, d, after, rfl, hdkey, -, hvalue, -⟩ := (hleaves.values e.1 e.2).1 he
  exact ⟨hdkey ▸ hkey d (by simp), hvalue⟩

/-- A comment inside the property, a bracketed part, and a value that is a comment only. -/
theorem declarations_usable_comment :
    readDeclarations "/**/-/*x*/a[b] /**/: /*y*/; c: d " =
      .ok [⟨"-a[b]", "", 1, 5⟩, ⟨"c", "d", 1, 29⟩] ∧
    (IsUsable ⟨"-a[b]", "", 1, 5⟩ ∧ (⟨"-a[b]", "", 1, 5⟩ : Declaration).assignment {} = .empty) ∧
    ∃ es, readObject {} "/**/-/*x*/a[b] /**/: /*y*/; c: d " = .ok es ∧
      ∀ e ∈ es, e.1 ≠ "" ∧ e.2 ≠ "" := by
  have hread : readDeclarations "/**/-/*x*/a[b] /**/: /*y*/; c: d " =
      .ok [⟨"-a[b]", "", 1, 5⟩, ⟨"c", "d", 1, 29⟩] := by decide +kernel
  obtain ⟨hds, hes⟩ := declarations_usable hread {}
  obtain ⟨husable, -, hskipped⟩ := hds _ (List.mem_cons_self ..)
  exact ⟨hread, ⟨husable, hskipped.2 rfl⟩, hes⟩

end Style

end JsxAttributes
