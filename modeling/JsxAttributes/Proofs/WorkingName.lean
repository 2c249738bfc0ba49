import JsxAttributes.Proofs.EntryMapping
import JsxAttributes.Proofs.VocabularyNames

/-! Naming an attribute after its own name. A known name keeps its property, in React's spelling too. Of the
other names only data attributes get a new one, and this may be a data attribute or a known property once
more; with these two exceptions the name of an attribute is its own. -/
namespace JsxAttributes

/-! ## Data names -/

namespace DataName

variable {s r : List Char}

theorem isNameChar_of_rest? (h : rest? s = some r) : ∀ c ∈ r, isNameChar c = true := by
  unfold rest? at h
  split at h
  · split at h
    · next hs =>
      obtain rfl := Option.some.inj h
      exact List.all_eq_true.1 hs.2.2
    · cases h
  · cases h

theorem ascii_of_isNameChar {c : Char} (h : isNameChar c = true) : c.toNat < 0x80 := by
  delta isNameChar Char.isAlphanum Char.isAlpha Char.isUpper Char.isLower Char.isDigit at h
  simp only [Bool.or_eq_true, Bool.and_eq_true, decide_eq_true_eq, beq_iff_eq, ge_iff_le,
    UInt32.le_iff_toNat_le] at h
  rcases h with (((((h | h) | h) | rfl) | rfl) | rfl) | rfl <;>
    first | decide | (simp at h; exact Nat.lt_of_le_of_lt h.2 (by decide))

theorem isNameChar_toUpper {c : Char} (h : isNameChar c = true) : isNameChar c.toUpper = true :=
  Text.forall_ascii (p := fun c => isNameChar c = true → isNameChar c.toUpper = true)
    (by decide) (ascii_of_isNameChar h) h

theorem isNameChar_dashesToCapitals (h : ∀ c ∈ s, isNameChar c = true) :
    ∀ c ∈ Text.dashesToCapitals s, isNameChar c = true := by
  fun_induction Text.dashesToCapitals s with
  | case1 => exact h
  | case2 => exact h
  | case3 c d r hd ih =>
    obtain ⟨-, hdr⟩ := List.forall_mem_cons.1 h
    obtain ⟨hd, hr⟩ := List.forall_mem_cons.1 hdr
    exact List.forall_mem_cons.2 ⟨isNameChar_toUpper hd, ih hr⟩
  | case4 c d r hd ih =>
    obtain ⟨hc, hdr⟩ := List.forall_mem_cons.1 h
    exact List.forall_mem_cons.2 ⟨hc, ih hdr⟩

theorem length_dashesToCapitals (s : List Char) : (Text.dashesToCapitals s).length ≤ s.length := by
  fun_induction Text.dashesToCapitals s with
  | case1 => simp
  | case2 => simp
  | case3 c d r h ih =>
    simp only [List.length_cons]
    omega
  | case4 c d r h ih =>
    simp only [List.length_cons] at ih ⊢
    omega

/-- What follows `data` in the property of an attribute. -/
def tailOf (rest : List Char) : List Char := capitalize (Text.dashesToCapitals rest)

theorem propertyOf_eq (rest : List Char) : propertyOf rest = dataLetters ++ tailOf rest := rfl

theorem isNameChar_tailOf (h : ∀ c ∈ r, isNameChar c = true) :
    ∀ c ∈ tailOf r, isNameChar c = true := by
  have hd := isNameChar_dashesToCapitals h
  rw [tailOf]
  cases hs : Text.dashesToCapitals r with
  | nil => exact List.forall_mem_nil _
  | cons c t =>
    rw [hs] at hd
    obtain ⟨hc, ht⟩ := List.forall_mem_cons.1 hd
    exact List.forall_mem_cons.2 ⟨isNameChar_toUpper hc, ht⟩

theorem length_tailOf (rest : List Char) : (tailOf rest).length ≤ rest.length := by
  have h := length_dashesToCapitals rest
  rw [tailOf]
  cases hs : Text.dashesToCapitals rest with
  | nil => exact Nat.zero_le _
  | cons c t =>
    rw [hs] at h
    exact h

theorem head_tailOf_ne (h : ∀ c ∈ r, isNameChar c = true) : (tailOf r).head? ≠ some 't' := by
  have hd := isNameChar_dashesToCapitals h
  rw [tailOf]
  cases hs : Text.dashesToCapitals r with
  | nil => simp [capitalize]
  | cons c t =>
    rw [hs] at hd
    have hc := ascii_of_isNameChar (List.forall_mem_cons.1 hd).1
    have ht : c.toUpper ≠ 't' := Text.forall_ascii (p := fun c => c.toUpper ≠ 't') (by decide) hc
    simpa [capitalize] using ht

theorem rest?_dataLetters (h : ∀ c ∈ r, isNameChar c = true) (hr : r ≠ []) :
    rest? (dataLetters ++ r) = some r := by
  have hall : r.all isNameChar = true := List.all_eq_true.2 h
  exact if_pos ⟨by decide, hr, hall⟩

end DataName

/-! ## Names of attributes -/

namespace Schema

variable {name : String} {r : List Char}

theorem space_unlisted (name : String) : (unlisted name).space = none := by
  unfold unlisted
  split <;> rfl

theorem property_unlisted_of_attribute (h : DataName.rest? name.toList = some ('-' :: r)) :
    (unlisted name).property = String.ofList (DataName.propertyOf r) := by
  rw [unlisted, h]
  rfl

/-- Every name but that of a data attribute stands for itself. -/
theorem property_unlisted_of_other (h : ∀ r, DataName.rest? name.toList ≠ some ('-' :: r)) :
    (unlisted name).property = name := by
  unfold unlisted
  split
  · next r hr => exact absurd hr (h r)
  · rfl
  · rfl

end Schema

namespace Mapper

/-- The mapper resolves names by the vocabularies and spells them as React does. -/
structure KnowsNames (m : Mapper) : Prop where
  resolve : m.resolve = Schema.resolve
  respell : m.respell? = reactSpelling?

variable {m : Mapper} (hm : m.KnowsNames) {o : Settings} {key : String} {i : Info}
include hm

theorem workingName_eq (o : Settings) (key : String) :
    m.workingName o key = m.attributeName o.spelling (o.schema.resolve key) := by
  rw [← attributeName_eq, hm.resolve]

/-- A property of the language that React spells as the vocabulary does keeps its name. -/
theorem workingName_of_language {e : String × Shape} (he : e ∈ o.schema.language.properties)
    (hk : Text.lowercased key = Text.lowercased e.1) (hr : reactSpelling? e.1 = none) :
    m.workingName o key = e.1 := by
  have hspelling : reactSpelling? (o.schema.language.info e.1 e.2).property = none := hr
  rw [workingName_eq hm, Schema.resolve_eq he hk, attributeName, respelling?, hm.respell, hspelling,
    ite_self]
  rfl

/-- The known property that is named like data attributes; React has a spelling for that of SVG. -/
theorem attributeName_dataInfo (c : Spelling) (s : Schema) : m.attributeName c s.dataInfo =
    if c = .react ∧ s = .svg then "datatype" else s.dataProperty := by
  rw [attributeName, respelling?, hm.respell]
  cases s with
  | html =>
    have hspelling : reactSpelling? (Schema.dataInfo .html).property = none := by decide +kernel
    rw [hspelling, ite_self, if_neg (by simp)]
    rfl
  | svg =>
    have hspelling : reactSpelling? (Schema.dataInfo .svg).property = some "datatype" := by
      decide +kernel
    rw [hspelling]
    cases c <;> rfl

/-- React spells a name with other capitals at most. -/
theorem lowercased_workingName (o : Settings) (key : String) :
    Text.lowercased (m.workingName o key) = Text.lowercased (o.schema.resolve key).property := by
  rw [workingName_eq hm, attributeName, respelling?, hm.respell]
  split
  · cases h : reactSpelling? (o.schema.resolve key).property with
    | none => rfl
    | some spelling => exact lowercased_reactSpelling h
  · rfl

/-- What a known name means, the name of its attribute means too. -/
theorem resolve_workingName (h : o.schema.table.get? (Text.lowercased key) = some i) :
    o.schema.resolve (m.workingName o key) = o.schema.resolve key := by
  have hkey : o.schema.resolve key = i := by rw [Schema.resolve, h]
  have hget := Schema.get?_lowercased_property (Schema.mem_infos_of_get? h).1
  rw [hkey, Schema.resolve, lowercased_workingName hm, hkey, hget]

theorem workingName_of_unlisted (h : o.schema.table.get? (Text.lowercased key) = none) :
    m.workingName o key = (Schema.unlisted key).property := by
  have hkey : o.schema.resolve key = Schema.unlisted key := by rw [Schema.resolve, h]
  rw [workingName_eq hm, hkey, attributeName, respelling?, Schema.space_unlisted]
  simp

end Mapper

/-! ## Data attributes -/

/-- The property of a data attribute has the form of an attribute again, or is in SVG the known property
`dataType` in a spelling that is not asked for. -/
def DriftsTo (o : Settings) (property : List Char) : Prop :=
  dataLetters ++ ['-'] <+: property ∨
    o.schema = .svg ∧ small property = small "dataType".toList ∧
      ¬ (o.spelling = .vocabulary ∧ property = "dataType".toList)

/-- A data attribute that no vocabulary knows, with such a property. -/
def Drifts (o : Settings) (key : String) : Prop :=
  o.schema.table.get? (Text.lowercased key) = none ∧
    ∃ r, DataName.rest? key.toList = some ('-' :: r) ∧ DriftsTo o (DataName.propertyOf r)

theorem small_data (r : List Char) : small (dataLetters ++ r) = dataLetters ++ small r := by
  rw [small, small, List.map_append]
  rfl

theorem toList_lowercased_data {r : List Char} (h : ∀ c ∈ r, DataName.isNameChar c = true) :
    (Text.lowercased (String.ofList (dataLetters ++ r))).toList = dataLetters ++ small r := by
  have hascii : isAscii (dataLetters ++ r) = true := by
    rw [isAscii, List.all_append, Bool.and_eq_true]
    refine ⟨rfl, List.all_eq_true.2 fun c hc => ?_⟩
    exact decide_eq_true (DataName.ascii_of_isNameChar (h c hc))
  rw [lowercased_ofList hascii, String.toList_ofList, small_data]

/-- A data name is known exactly if it is that of the one property that is named so. -/
theorem Schema.get?_data_eq_none_iff (s : Schema) {r : List Char}
    (h : ∀ c ∈ r, DataName.isNameChar c = true) :
    s.table.get? (Text.lowercased (String.ofList (dataLetters ++ r))) = none ↔
      small (dataLetters ++ r) ≠ s.dataName := by
  have hlower := toList_lowercased_data h
  rw [small_data, ← hlower]
  constructor
  · intro hnone hname
    rw [← s.toList_lowercased_dataProperty, String.toList_inj] at hname
    have hfound := get?_lowercased_property s.dataInfo_mem
    have hp : s.dataInfo.property = s.dataProperty := rfl
    rw [hp, ← hname, hnone] at hfound
    cases hfound
  · intro hname
    by_contra hsome
    obtain ⟨i, hi⟩ := Option.ne_none_iff_exists'.1 hsome
    obtain ⟨rfl, hp⟩ := get?_of_data hi (hlower ▸ List.prefix_append ..)
    exact hname (hp ▸ s.toList_lowercased_dataProperty)

theorem driftsTo_html {o : Settings} {property : List Char} (hs : o.schema = .html) :
    DriftsTo o property ↔ dataLetters ++ ['-'] <+: property := by
  simp [DriftsTo, hs]

/-- What is `dataType` but for capitals does not have the form of an attribute. -/
theorem driftsTo_svg {o : Settings} {property : List Char} (hs : o.schema = .svg)
    (h : small property = small "dataType".toList) :
    DriftsTo o property ↔ ¬ (o.spelling = .vocabulary ∧ property = "dataType".toList) := by
  have hdash : ¬ dataLetters ++ ['-'] <+: property := by
    rintro ⟨t, rfl⟩
    simp [small, dataLetters] at h
  rw [DriftsTo, or_iff_right hdash, and_iff_right hs, and_iff_right h]

namespace Mapper
open DataName

variable {m : Mapper} (hm : m.KnowsNames) {o : Settings} {key : String} {r : List Char} {i : Info}
include hm

theorem workingName_of_listed_data (hr : ∀ c ∈ r, isNameChar c = true) (hhead : r.head? ≠ some 't')
    (h : o.schema.table.get? (Text.lowercased (String.ofList (dataLetters ++ r))) = some i) :
    m.workingName o (String.ofList (dataLetters ++ r)) = String.ofList (dataLetters ++ r) ↔
      ¬ DriftsTo o (dataLetters ++ r) := by
  have hlower := toList_lowercased_data hr
  obtain ⟨rfl, -⟩ := Schema.get?_of_data h (hlower ▸ List.prefix_append ..)
  have hdata : small (dataLetters ++ r) = o.schema.dataName := by
    by_contra hdata
    rw [(o.schema.get?_data_eq_none_iff hr).2 hdata] at h
    cases h
  have hresolve : o.schema.resolve (String.ofList (dataLetters ++ r)) = o.schema.dataInfo := by
    rw [Schema.resolve, h]
  rw [workingName_eq hm, hresolve, attributeName_dataInfo hm]
  cases hs : o.schema with
  | html =>
    have hnil : Schema.dataName .html = dataLetters ++ [] := by decide +kernel
    rw [hs, hnil, small_data] at hdata
    obtain rfl : r = [] := List.map_eq_nil_iff.1 (List.append_cancel_left hdata)
    rw [driftsTo_html hs, if_neg (by simp)]
    exact iff_of_true (by decide +kernel) (by decide)
  | svg =>
    rw [hs] at hdata
    rw [driftsTo_svg hs hdata, not_not, ← String.toList_inj, String.toList_ofList]
    cases o.spelling with
    | vocabulary =>
      rw [if_neg (by simp), and_iff_right rfl]
      exact eq_comm
    | react =>
      rw [if_pos ⟨rfl, rfl⟩]
      refine iff_of_false (fun he => hhead ?_) (by simp)
      have hr' : dataLetters ++ r = dataLetters ++ ['t', 'y', 'p', 'e'] := he.symm
      rw [List.append_cancel_left hr']
      rfl

theorem workingName_of_unlisted_data (hr : ∀ c ∈ r, isNameChar c = true)
    (h : o.schema.table.get? (Text.lowercased (String.ofList (dataLetters ++ r))) = none) :
    m.workingName o (String.ofList (dataLetters ++ r)) = String.ofList (dataLetters ++ r) ↔
      ¬ DriftsTo o (dataLetters ++ r) := by
  have htype : ¬ (o.schema = .svg ∧ small (dataLetters ++ r) = small "dataType".toList ∧
      ¬ (o.spelling = .vocabulary ∧ dataLetters ++ r = "dataType".toList)) := by
    rintro ⟨hs, hsmall, -⟩
    exact (o.schema.get?_data_eq_none_iff hr).1 h (by rw [hs]; exact hsmall)
  rw [workingName_of_unlisted hm h, DriftsTo, or_iff_left htype, List.prefix_append_right_inj]
  have htext : (String.ofList (dataLetters ++ r)).toList = dataLetters ++ r := String.toList_ofList
  cases r with
  | nil =>
    refine iff_of_true (Schema.property_unlisted_of_other fun t => ?_) (by simp)
    rw [htext]
    simp [rest?, dataLetters]
  | cons c t =>
    have hrest := rest?_dataLetters hr (List.cons_ne_nil c t)
    by_cases hc : c = '-'
    · subst hc
      refine iff_of_false (fun he => ?_) (by simp)
      rw [Schema.property_unlisted_of_attribute (htext ▸ hrest)] at he
      have hlength := congrArg List.length (String.ofList_injective he)
      have hle := length_tailOf t
      simp only [propertyOf_eq, List.length_append, List.length_cons] at hlength
      omega
    · refine iff_of_true (Schema.property_unlisted_of_other fun u hu => ?_) (by simp [Ne.symm hc])
      rw [htext, hrest, Option.some.injEq, List.cons.injEq] at hu
      exact hc hu.1

/-- A name that no vocabulary knows becomes another one only as that of a data attribute. -/
theorem workingName_unlisted_cases (h : o.schema.table.get? (Text.lowercased key) = none) :
    (m.workingName o key = key ∧ ∀ r, rest? key.toList ≠ some ('-' :: r)) ∨
      ∃ r, rest? key.toList = some ('-' :: r) ∧ (∀ c ∈ r, isNameChar c = true) ∧
        m.workingName o key = String.ofList (dataLetters ++ tailOf r) := by
  rw [workingName_of_unlisted hm h]
  by_cases hd : ∃ r, rest? key.toList = some ('-' :: r)
  · obtain ⟨r, hr⟩ := hd
    refine .inr ⟨r, hr, (List.forall_mem_cons.1 (isNameChar_of_rest? hr)).2, ?_⟩
    rw [Schema.property_unlisted_of_attribute hr, propertyOf_eq]
  · rw [not_exists] at hd
    exact .inl ⟨Schema.property_unlisted_of_other hd, hd⟩

/-- The name of an attribute is its own, unless it drifts. -/
theorem workingName_workingName_iff (o : Settings) (key : String) :
    m.workingName o (m.workingName o key) = m.workingName o key ↔ ¬ Drifts o key := by
  cases h : o.schema.table.get? (Text.lowercased key) with
  | some i =>
    have hsame := workingName_eq hm o (m.workingName o key)
    rw [resolve_workingName hm h, ← workingName_eq hm] at hsame
    simp [hsame, Drifts, h]
  | none =>
    obtain ⟨hname, hd⟩ | ⟨r, hr, hchars, hname⟩ := workingName_unlisted_cases hm h
    · simp [hname, Drifts, hd]
    · have hdrifts : Drifts o key ↔ DriftsTo o (dataLetters ++ tailOf r) := by
        simp [Drifts, h, hr, propertyOf_eq]
      rw [hname, hdrifts]
      cases hg : o.schema.table.get?
          (Text.lowercased (String.ofList (dataLetters ++ tailOf r))) with
      | some i =>
        exact workingName_of_listed_data hm (isNameChar_tailOf hchars) (head_tailOf_ne hchars) hg
      | none => exact workingName_of_unlisted_data hm (isNameChar_tailOf hchars) hg

/-- The name of an attribute is that of a flag exactly if the attribute was made of one. -/
theorem boolean_workingName (o : Settings) (key : String) :
    (o.schema.resolve (m.workingName o key)).shape.boolean =
      (o.schema.resolve key).shape.boolean := by
  cases h : o.schema.table.get? (Text.lowercased key) with
  | some i => rw [resolve_workingName hm h]
  | none =>
    obtain ⟨hname, -⟩ | ⟨r, hr, hchars, hname⟩ := workingName_unlisted_cases hm h
    · rw [hname]
    · have hkey : (o.schema.resolve key).shape.boolean = false := by
        rw [Schema.resolve, h]
        exact congrArg Shape.boolean (Schema.shape_unlisted key)
      rw [hname, hkey, Schema.resolve]
      split
      · next i hi =>
        have hp : dataLetters <+:
            (Text.lowercased (String.ofList (dataLetters ++ tailOf r))).toList :=
          toList_lowercased_data (isNameChar_tailOf hchars) ▸ List.prefix_append ..
        rw [(Schema.get?_of_data hi hp).1]
        cases o.schema <;> rfl
      · exact congrArg Shape.boolean (Schema.shape_unlisted _)

end Mapper

end JsxAttributes
