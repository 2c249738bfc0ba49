import JsxAttributes.Proofs.DataNames

/-! Resolving the property that a name was resolved to. It means what the name meant, except for data attributes
whose property is a known one, has the form of an attribute again or is `data` alone. -/
namespace JsxAttributes

/-- The same property of the same vocabulary, known or not, with values of the same shape. -/
structure Info.MeansSame (i j : Info) : Prop where
  property : i.property = j.property
  space : i.space = j.space
  defined : i.defined = j.defined
  shape : i.shape = j.shape

theorem Info.MeansSame.refl (i : Info) : i.MeansSame i := ⟨rfl, rfl, rfl, rfl⟩

namespace DataName

theorem tailOf_eq_nil_iff {r : List Char} : tailOf r = [] ↔ r = [] := by
  refine ⟨fun h => ?_, fun h => by rw [h]; rfl⟩
  rw [tailOf] at h
  fun_cases Text.dashesToCapitals r with
  | case1 => rfl
  | case2 c => cases h
  | case3 c d r hd =>
    rw [Text.dashesToCapitals, if_pos hd] at h
    cases h
  | case4 c d r hd =>
    rw [Text.dashesToCapitals, if_neg hd] at h
    cases h

end DataName

namespace Schema

open DataName

variable {s : Schema} {key name : String} {i : Info} {r : List Char}

/-- What a data attribute has behind `data-` leaves its property without a meaning of its own: nothing stands
there, or the property begins with `data-` again, or it is in SVG the known `dataType` but for capitals. -/
def Misleads (s : Schema) (r : List Char) : Prop :=
  r = [] ∨ dataLetters ++ ['-'] <+: propertyOf r ∨
    s = .svg ∧ small (propertyOf r) = small "dataType".toList

/-- A data attribute outside the vocabularies with such a property. -/
def Strays (s : Schema) (key : String) : Prop :=
  s.Outside key ∧ ∃ r, rest? key.toList = some ('-' :: r) ∧ s.Misleads r

/-! ## Names outside the vocabularies -/

theorem defined_unlisted : (unlisted name).defined = (rest? name.toList).isSome := by
  unfold unlisted
  split
  · next h => rw [h]; rfl
  · next h => rw [h]; rfl
  · next h => rw [h]; rfl

/-- A known data property makes its attribute mislead. -/
theorem misleads_of_known (hr : ∀ c ∈ r, isNameChar c = true)
    (h : ¬ s.Outside (String.ofList (propertyOf r))) : s.Misleads r := by
  rw [Outside, propertyOf_eq, get?_data_eq_none_iff s (isNameChar_tailOf hr), not_not] at h
  cases s with
  | html =>
    have hnil : dataName .html = dataLetters ++ [] := by decide +kernel
    rw [hnil, small_data] at h
    exact .inl (tailOf_eq_nil_iff.1 (List.map_eq_nil_iff.1 (List.append_cancel_left h)))
  | svg => exact .inr (.inr ⟨rfl, h⟩)

/-- Outside the vocabularies the property of an attribute stands for itself, unless it misleads. -/
theorem misleads_iff_of_outside (hr : ∀ c ∈ r, isNameChar c = true)
    (h : s.Outside (String.ofList (propertyOf r))) :
    s.Misleads r ↔ r = [] ∨ dataLetters ++ ['-'] <+: propertyOf r := by
  have hout : ¬ (s = .svg ∧ small (propertyOf r) = small "dataType".toList) := by
    rintro ⟨rfl, hsmall⟩
    exact (get?_data_eq_none_iff .svg (isNameChar_tailOf hr)).1 h hsmall
  rw [Misleads, or_iff_left hout]

/-- What an attribute that does not mislead means, its property means too. -/
theorem unlisted_propertyOf (hr : ∀ c ∈ r, isNameChar c = true) :
    (unlisted (String.ofList (propertyOf r))).property = String.ofList (propertyOf r) ∧
        (unlisted (String.ofList (propertyOf r))).defined = true ↔
      ¬ (r = [] ∨ dataLetters ++ ['-'] <+: propertyOf r) := by
  have hchars := isNameChar_tailOf hr
  rw [defined_unlisted, ← tailOf_eq_nil_iff, propertyOf_eq, String.toList_ofList,
    List.prefix_append_right_inj]
  cases ht : tailOf r with
  | nil => exact iff_of_false (by decide) (by simp)
  | cons c t =>
    rw [ht] at hchars
    have hrest := rest?_dataLetters hchars (List.cons_ne_nil c t)
    rw [hrest, Option.isSome_some, and_iff_left rfl]
    by_cases hc : c = '-'
    · subst hc
      refine iff_of_false (fun he => ?_) (by simp)
      have hrest' : rest? (String.ofList (dataLetters ++ '-' :: t)).toList = some ('-' :: t) := by
        rw [String.toList_ofList, hrest]
      rw [property_unlisted_of_attribute hrest'] at he
      have hlength := congrArg List.length (String.ofList_injective he)
      have hle := length_tailOf t
      simp only [propertyOf_eq, List.length_append, List.length_cons] at hlength
      omega
    · refine iff_of_true (property_unlisted_of_other fun u hu => ?_) (by simp [Ne.symm hc])
      rw [String.toList_ofList, hrest, Option.some.injEq, List.cons.injEq] at hu
      exact hc hu.1

/-! ## Resolving twice -/

theorem resolve_of_attribute (h : s.Outside key) (hr : rest? key.toList = some ('-' :: r)) :
    s.resolve key =
      { property := String.ofList (propertyOf r), attributeName := key, defined := true } := by
  rw [resolve_of_outside h, unlisted, hr]
  rfl

theorem resolve_propertyOf (hr : ∀ c ∈ r, isNameChar c = true) {i : Info}
    (hi : i = { property := String.ofList (propertyOf r), attributeName := key, defined := true }) :
    ((s.resolve (String.ofList (propertyOf r))).MeansSame i ↔ ¬ s.Misleads r) ∧
      (s.resolve (String.ofList (propertyOf r))).shape = i.shape := by
  subst hi
  by_cases h : s.Outside (String.ofList (propertyOf r))
  · rw [resolve_of_outside h, misleads_iff_of_outside hr h, ← unlisted_propertyOf hr]
    refine ⟨⟨fun hsame => ⟨hsame.property, hsame.defined⟩, fun ⟨hproperty, hdefined⟩ => ?_⟩,
      shape_unlisted _⟩
    exact ⟨hproperty, space_unlisted _, hdefined, shape_unlisted _⟩
  · have hmisleads := misleads_of_known hr h
    obtain ⟨j, hj⟩ := Option.ne_none_iff_exists'.1 h
    have hp : dataLetters <+: (Text.lowercased (String.ofList (propertyOf r))).toList := by
      rw [propertyOf_eq, toList_lowercased_data (isNameChar_tailOf hr)]
      exact List.prefix_append ..
    obtain ⟨rfl, -⟩ := get?_of_data hj hp
    rw [resolve, hj]
    refine ⟨iff_of_false (fun hsame => ?_) (not_not_intro hmisleads), by cases s <;> rfl⟩
    have hspace : s.dataInfo.space = none := hsame.space
    cases s <;> cases hspace

/-- Resolving a name twice means the same property as resolving it once, unless the name strays; the shape of
the values is the same in any case. -/
theorem resolve_resolve (s : Schema) (key : String) :
    ((s.resolve (s.resolve key).property).MeansSame (s.resolve key) ↔ ¬ s.Strays key) ∧
      (s.resolve (s.resolve key).property).shape = (s.resolve key).shape := by
  cases h : s.table.get? (Text.lowercased key) with
  | some i =>
    have hkey : s.resolve key = i := by rw [resolve, h]
    have hs : ¬ s.Strays key := fun hs => by simp [Strays, Outside, h] at hs
    have hagain : s.resolve i.property = i := by
      rw [resolve, get?_lowercased_property (mem_infos_of_get? h).1]
    rw [hkey, hagain]
    exact ⟨iff_of_true (.refl i) hs, rfl⟩
  | none =>
    by_cases hd : ∃ r, rest? key.toList = some ('-' :: r)
    · obtain ⟨r, hr⟩ := hd
      have hchars := (List.forall_mem_cons.1 (isNameChar_of_rest? hr)).2
      have hstrays : s.Strays key ↔ s.Misleads r := by
        simp [Strays, Outside, h, hr]
      rw [hstrays, resolve_of_attribute h hr]
      exact resolve_propertyOf hchars rfl
    · rw [not_exists] at hd
      have hs : ¬ s.Strays key := by
        rintro ⟨-, r, hr, -⟩
        exact hd r hr
      have hkey : (s.resolve key).property = key := by
        rw [resolve_of_outside h, property_unlisted_of_other hd]
      rw [hkey]
      exact ⟨iff_of_true (.refl _) hs, rfl⟩

/-- `data--1` means `data-1`, which means `data1`; `data-` means a data property `data`, and `data` the one of the
language or none; and in SVG `data-type` means a data property, whose name is that of the known `dataType`. -/
theorem resolve_resolve_fails :
    ¬ (∀ (s : Schema) (key : String), (s.resolve (s.resolve key).property).MeansSame (s.resolve key)) ∧
    ((html.resolve "data--1").property = "data-1" ∧ (html.resolve "data-1").property = "data1") ∧
    ((html.resolve "data-").property = "data" ∧ (html.resolve "data-").space = none ∧
      (html.resolve "data").space = some .html) ∧
    ((svg.resolve "data-").property = "data" ∧ (svg.resolve "data-").defined = true ∧
      (svg.resolve "data").defined = false) ∧
    (svg.resolve "data-type").property = "dataType" ∧ (svg.resolve "data-type").space = none ∧
      (svg.resolve "dataType").space = some .svg := by
  have hdash : html.resolve "data--1" = unlisted "data--1" := resolve_of_outside
    ((get?_data_eq_none_iff .html (r := ['-', '-', '1']) (List.all_eq_true.1 rfl)).2 (by decide))
  have hdigit : html.resolve "data-1" = unlisted "data-1" := resolve_of_outside
    ((get?_data_eq_none_iff .html (r := ['-', '1']) (List.all_eq_true.1 rfl)).2 (by decide))
  have hempty (s : Schema) : s.resolve "data-" = unlisted "data-" := resolve_of_outside
    ((get?_data_eq_none_iff s (r := ['-']) (List.all_eq_true.1 rfl)).2 (by cases s <;> decide))
  have hbare : svg.resolve "data" = unlisted "data" := resolve_of_outside
    ((get?_data_eq_none_iff .svg (r := []) (List.all_eq_true.1 rfl)).2 (by decide))
  have htype : svg.resolve "data-type" = unlisted "data-type" := resolve_of_outside
    ((get?_data_eq_none_iff .svg (r := ['-', 't', 'y', 'p', 'e']) (List.all_eq_true.1 rfl)).2 (by decide))
  have hdata : html.resolve "data" = html.dataInfo :=
    resolve_eq (e := ("data", .plain)) (by decide +kernel) rfl
  have hdataType : svg.resolve "dataType" = svg.dataInfo :=
    resolve_eq (e := ("dataType", .plain)) (by decide +kernel) rfl
  refine ⟨fun h => ?_, ?_⟩
  · have hproperty := (h .html "data--1").property
    have hfirst : (unlisted "data--1").property = "data-1" := by decide +kernel
    rw [hdash, hfirst, hdigit] at hproperty
    exact absurd hproperty (by decide +kernel)
  · rw [hdash, hdigit, hempty, hempty, hbare, htype, hdata, hdataType]
    decide +kernel

end Schema

end JsxAttributes
