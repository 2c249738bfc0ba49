import JsxAttributes.Proofs.WordDashes
import JsxAttributes.Proofs.WorkingName
import Mathlib.Data.Set.Function

/-! Data attributes and data properties stand for each other, one for one, as far as no vocabulary knows
them. Between the first letters behind `data` this is a change of case, and behind them folding and spreading. -/
namespace JsxAttributes

namespace DataName

/-- Attributes: `data-` and then small letters, digits and signs, of which the first is no dash. -/
def attributeForms : Set String :=
  {a | ∃ c r, a = String.ofList (dataLetters ++ '-' :: c :: r) ∧ c ≠ '-' ∧
    ∀ x ∈ c :: r, isNameChar x = true ∧ x.isUpper = false}

/-- Properties: `data` and then letters, digits and signs, of which the first is no dash and no small letter,
without a dash that has a small letter behind it. -/
def propertyForms : Set String :=
  {p | ∃ c r, p = String.ofList (dataLetters ++ c :: r) ∧ c ≠ '-' ∧ c.isLower = false ∧
    (∀ x ∈ c :: r, isNameChar x = true) ∧
    ∀ before x after, c :: r = before ++ '-' :: x :: after → x.isLower = false}

variable {c : Char} {r : List Char} {a p : String}

/-! ## Behind the first letter -/

theorem tailOf_cons (hc : c ≠ '-') (r : List Char) :
    tailOf (c :: r) = c.toUpper :: Text.dashesToCapitals r := by
  rw [tailOf, Text.dashesToCapitals_cons (.of_ne hc r), capitalize]

/-- A dash is added where the first letter is no capital. -/
theorem attributeOf_cons (hc : c ≠ '-') (hd : Text.hasWordDash (c :: r) = false) (name : List Char) :
    attributeOf name (c :: r) = dataLetters ++ '-' :: c.toLower :: Text.capitalsToDashes r := by
  rw [attributeOf, if_neg (by simp [hd])]
  cases hu : c.isUpper with
  | true =>
    rw [Text.capitalsToDashes_cons_of_isUpper hu]
    rfl
  | false =>
    rw [Text.capitalsToDashes_cons_of_not_isUpper hu, Text.toLower_eq_self hu]
    simp [hc, dataLetters]

theorem isNameChar_toLower (h : isNameChar c = true) : isNameChar c.toLower = true :=
  Text.forall_ascii (p := fun c => isNameChar c = true → isNameChar c.toLower = true)
    (by decide) (ascii_of_isNameChar h) h

theorem isNameChar_capitalsToDashes (h : ∀ x ∈ r, isNameChar x = true) :
    ∀ x ∈ Text.capitalsToDashes r, isNameChar x = true := by
  induction r with
  | nil => exact h
  | cons c r ih =>
    obtain ⟨hc, hr⟩ := List.forall_mem_cons.1 h
    cases hu : c.isUpper with
    | true =>
      rw [Text.capitalsToDashes_cons_of_isUpper hu, List.forall_mem_cons, List.forall_mem_cons]
      exact ⟨rfl, isNameChar_toLower hc, ih hr⟩
    | false =>
      rw [Text.capitalsToDashes_cons_of_not_isUpper hu, List.forall_mem_cons]
      exact ⟨hc, ih hr⟩

theorem toUpper_ne_dash (h : isNameChar c = true) (hc : c ≠ '-') : c.toUpper ≠ '-' :=
  Text.forall_ascii (p := fun c => c ≠ '-' → c.toUpper ≠ '-') (by decide) (ascii_of_isNameChar h) hc

theorem isLower_toUpper (h : isNameChar c = true) : c.toUpper.isLower = false :=
  Text.forall_ascii (p := fun c => c.toUpper.isLower = false) (by decide) (ascii_of_isNameChar h)

theorem toLower_toUpper (h : isNameChar c = true) (hc : c.isUpper = false) : c.toUpper.toLower = c :=
  Text.forall_ascii (p := fun c => c.isUpper = false → c.toUpper.toLower = c) (by decide)
    (ascii_of_isNameChar h) hc

theorem toUpper_toLower (h : isNameChar c = true) (hc : c.isLower = false) : c.toLower.toUpper = c :=
  Text.forall_ascii (p := fun c => c.isLower = false → c.toLower.toUpper = c) (by decide)
    (ascii_of_isNameChar h) hc

end DataName

namespace Schema

open DataName

variable {c : Char} {r : List Char} {a p : String}

/-! ## What the names mean -/

theorem unlisted_attribute (hc : c ≠ '-') (h : ∀ x ∈ c :: r, isNameChar x = true) :
    unlisted (String.ofList (dataLetters ++ '-' :: c :: r)) =
      { property := String.ofList (dataLetters ++ c.toUpper :: Text.dashesToCapitals r),
        attributeName := String.ofList (dataLetters ++ '-' :: c :: r), defined := true } := by
  have hall : ∀ x ∈ '-' :: c :: r, isNameChar x = true := List.forall_mem_cons.2 ⟨rfl, h⟩
  rw [unlisted, String.toList_ofList, rest?_dataLetters hall (List.cons_ne_nil _ _),
    ← tailOf_cons hc, ← propertyOf_eq]
  rfl

theorem unlisted_property (hc : c ≠ '-') (h : ∀ x ∈ c :: r, isNameChar x = true)
    (hd : Text.hasWordDash (c :: r) = false) :
    unlisted (String.ofList (dataLetters ++ c :: r)) =
      { property := String.ofList (dataLetters ++ c :: r),
        attributeName := String.ofList (dataLetters ++ '-' :: c.toLower :: Text.capitalsToDashes r),
        defined := true } := by
  rw [unlisted, String.toList_ofList, rest?_dataLetters h (List.cons_ne_nil _ _)]
  split
  · next r' hr =>
    obtain ⟨rfl, -⟩ := List.cons.inj (Option.some.inj hr)
    exact absurd rfl hc
  · next r' hr =>
    obtain rfl := Option.some.inj hr
    rw [attributeOf_cons hc hd]
  · next hr => cases hr

/-- A data attribute and its property mean the same. -/
theorem unlisted_of_mem_attributeForms (h : a ∈ attributeForms) : ∃ p ∈ propertyForms,
    unlisted a = { property := p, attributeName := a, defined := true } ∧ unlisted p = unlisted a := by
  obtain ⟨c, r, rfl, hc, hall⟩ := h
  have hchars : ∀ x ∈ c :: r, isNameChar x = true := fun x hx => (hall x hx).1
  obtain ⟨hc', hr⟩ := List.forall_mem_cons.1 hchars
  have hcapital := toUpper_ne_dash hc' hc
  have hfolded : Text.hasWordDash (c.toUpper :: Text.dashesToCapitals r) = false :=
    Text.hasWordDash_cons.2 ⟨.of_ne hcapital _, Text.hasWordDash_dashesToCapitals r⟩
  have hback : ∀ x ∈ c.toUpper :: Text.dashesToCapitals r, isNameChar x = true :=
    List.forall_mem_cons.2 ⟨isNameChar_toUpper hc', isNameChar_dashesToCapitals hr⟩
  refine ⟨_, ⟨_, _, rfl, hcapital, isLower_toUpper hc', hback,
    Text.hasWordDash_eq_false_iff.1 hfolded⟩, unlisted_attribute hc hchars, ?_⟩
  rw [unlisted_property hcapital hback hfolded, unlisted_attribute hc hchars,
    toLower_toUpper hc' (hall c (List.mem_cons_self ..)).2,
    Text.capitalsToDashes_dashesToCapitals fun x hx => (hall x (List.mem_cons_of_mem c hx)).2]

/-- A data property and its attribute mean the same. -/
theorem unlisted_of_mem_propertyForms (h : p ∈ propertyForms) : ∃ a ∈ attributeForms,
    unlisted p = { property := p, attributeName := a, defined := true } ∧ unlisted a = unlisted p := by
  obtain ⟨c, r, rfl, hc, hlower, hall, hdash⟩ := h
  have hd := Text.hasWordDash_eq_false_iff.2 hdash
  obtain ⟨hc', hr⟩ := List.forall_mem_cons.1 hall
  have hback : ∀ x ∈ c.toLower :: Text.capitalsToDashes r, isNameChar x = true :=
    List.forall_mem_cons.2 ⟨isNameChar_toLower hc', isNameChar_capitalsToDashes hr⟩
  have hsmall : ∀ x ∈ c.toLower :: Text.capitalsToDashes r, x.isUpper = false :=
    List.forall_mem_cons.2 ⟨Text.isUpper_toLower (ascii_of_isNameChar hc'), Text.isUpper_capitalsToDashes r⟩
  have hletter : c.toLower ≠ '-' := Text.toLower_ne_dash hc (ascii_of_isNameChar hc')
  refine ⟨_, ⟨_, _, rfl, hletter, fun x hx => ⟨hback x hx, hsmall x hx⟩⟩,
    unlisted_property hc hall hd, ?_⟩
  rw [unlisted_property hc hall hd, unlisted_attribute hletter hback,
    toUpper_toLower hc' hlower,
    Text.dashesToCapitals_capitalsToDashes (Text.hasWordDash_cons.1 hd).2]

/-! ## Outside the vocabularies -/

/-- No vocabulary of the schema knows the name. -/
def Outside (s : Schema) (name : String) : Prop := s.table.get? (Text.lowercased name) = none

theorem resolve_of_outside {s : Schema} {name : String} (h : s.Outside name) :
    s.resolve name = unlisted name := by
  rw [resolve, h]

/-- The data attributes that neither themselves nor by their properties are known. -/
def freeAttributes (s : Schema) : Set String :=
  {a ∈ attributeForms | s.Outside a ∧ s.Outside (unlisted a).property}

def freeProperties (s : Schema) : Set String :=
  {p ∈ propertyForms | s.Outside p ∧ s.Outside (unlisted p).attributeName}

variable {s : Schema}

theorem resolve_of_mem_freeAttributes (h : a ∈ s.freeAttributes) :
    (s.resolve a).property ∈ s.freeProperties ∧
      s.resolve a = { property := (s.resolve a).property, attributeName := a, defined := true } ∧
      s.resolve (s.resolve a).property = s.resolve a := by
  obtain ⟨ha, hout, hout'⟩ := h
  obtain ⟨p, hp, hmeans, hsame⟩ := unlisted_of_mem_attributeForms ha
  rw [hmeans] at hout'
  have hback : s.Outside (unlisted p).attributeName := by
    rw [hsame, hmeans]
    exact hout
  rw [resolve_of_outside hout, hmeans]
  refine ⟨⟨hp, hout', hback⟩, rfl, ?_⟩
  rw [resolve_of_outside hout', hsame, hmeans]

theorem resolve_of_mem_freeProperties (h : p ∈ s.freeProperties) :
    (s.resolve p).attributeName ∈ s.freeAttributes ∧
      (s.resolve (s.resolve p).attributeName).property = p := by
  obtain ⟨hp, hout, hout'⟩ := h
  obtain ⟨a, ha, hmeans, hsame⟩ := unlisted_of_mem_propertyForms hp
  rw [hmeans] at hout'
  have hback : s.Outside (unlisted a).property := by
    rw [hsame, hmeans]
    exact hout
  rw [resolve_of_outside hout, hmeans]
  refine ⟨⟨ha, hout', hback⟩, ?_⟩
  rw [resolve_of_outside hout', hsame, hmeans]

/-- Outside the vocabularies data attributes and data properties are converted both ways without loss. -/
theorem data_names_bijective (s : Schema) :
    (∀ a ∈ attributeForms, s.Outside a → s.Outside (unlisted a).property →
      (s.resolve a).property ∈ propertyForms ∧
      s.resolve a = { property := (s.resolve a).property, attributeName := a, defined := true } ∧
      s.resolve (s.resolve a).property = s.resolve a) ∧
    (∀ p ∈ propertyForms, s.Outside p → s.Outside (unlisted p).attributeName →
      (s.resolve p).attributeName ∈ attributeForms ∧
      (s.resolve (s.resolve p).attributeName).property = p) ∧
    Set.BijOn (fun a => (s.resolve a).property) s.freeAttributes s.freeProperties := by
  refine ⟨fun a ha hout hout' => ?_, fun p hp hout hout' => ?_, ?_⟩
  · obtain ⟨hp, hmeans, hsame⟩ := resolve_of_mem_freeAttributes ⟨ha, hout, hout'⟩
    exact ⟨hp.1, hmeans, hsame⟩
  · obtain ⟨ha, hback⟩ := resolve_of_mem_freeProperties ⟨hp, hout, hout'⟩
    exact ⟨ha.1, hback⟩
  · have hleft : Set.LeftInvOn (fun p => (s.resolve p).attributeName)
        (fun a => (s.resolve a).property) s.freeAttributes := by
      intro a ha
      obtain ⟨-, hmeans, hsame⟩ := resolve_of_mem_freeAttributes ha
      dsimp only
      rw [hsame, hmeans]
    have hright : Set.RightInvOn (fun p => (s.resolve p).attributeName)
        (fun a => (s.resolve a).property) s.freeProperties :=
      fun p hp => (resolve_of_mem_freeProperties hp).2
    exact Set.InvOn.bijOn ⟨hleft, hright⟩ (fun a ha => (resolve_of_mem_freeAttributes ha).1)
      fun p hp => (resolve_of_mem_freeProperties hp).1

theorem data_names_bijective_dashes :
    ("data-a--b-1" ∈ attributeForms ∧ html.Outside "data-a--b-1" ∧
      html.Outside (unlisted "data-a--b-1").property ∧
      (html.resolve "data-a--b-1").property = "dataA-B-1" ∧
      (html.resolve "data-a--b-1").property ∈ propertyForms ∧
      html.resolve "dataA-B-1" = html.resolve "data-a--b-1") ∧
    ("data1A-" ∈ propertyForms ∧ svg.Outside "data1A-" ∧
      svg.Outside (unlisted "data1A-").attributeName ∧
      (svg.resolve "data1A-").attributeName = "data-1-a-" ∧
      (svg.resolve "data-1-a-").property = "data1A-") := by
  have ha : "data-a--b-1" ∈ attributeForms :=
    ⟨'a', ['-', '-', 'b', '-', '1'], rfl, by decide, by simp; decide⟩
  have hp : "data1A-" ∈ propertyForms :=
    ⟨'1', ['A', '-'], rfl, by decide, by decide, List.all_eq_true.1 rfl,
      Text.hasWordDash_eq_false_iff.1 (by decide)⟩
  have hattribute : unlisted "data-a--b-1" = ⟨"dataA-B-1", "data-a--b-1", none, {}, false, true⟩ := by
    decide +kernel
  have hproperty : unlisted "data1A-" = ⟨"data1A-", "data-1-a-", none, {}, false, true⟩ := by
    decide +kernel
  have hao : html.Outside "data-a--b-1" :=
    (get?_data_eq_none_iff .html (r := ['-', 'a', '-', '-', 'b', '-', '1']) (List.all_eq_true.1 rfl)).2 (by decide)
  have hao' : html.Outside (unlisted "data-a--b-1").property := by
    rw [hattribute]
    exact (get?_data_eq_none_iff .html (r := ['A', '-', 'B', '-', '1']) (List.all_eq_true.1 rfl)).2 (by decide)
  have hpo : svg.Outside "data1A-" :=
    (get?_data_eq_none_iff .svg (r := ['1', 'A', '-']) (List.all_eq_true.1 rfl)).2 (by decide)
  have hpo' : svg.Outside (unlisted "data1A-").attributeName := by
    rw [hproperty]
    exact (get?_data_eq_none_iff .svg (r := ['-', '1', '-', 'a', '-']) (List.all_eq_true.1 rfl)).2 (by decide)
  have hprop : (html.resolve "data-a--b-1").property = "dataA-B-1" := by
    rw [resolve_of_outside hao, hattribute]
  have hattr : (svg.resolve "data1A-").attributeName = "data-1-a-" := by
    rw [resolve_of_outside hpo, hproperty]
  obtain ⟨hform, -, hsame⟩ := (data_names_bijective .html).1 _ ha hao hao'
  obtain ⟨-, hback⟩ := (data_names_bijective .svg).2.1 _ hp hpo hpo'
  rw [hprop] at hsame
  rw [hattr] at hback
  exact ⟨⟨ha, hao, hao', hprop, hform, hsame⟩, hp, hpo, hpo', hattr, hback⟩

end Schema

end JsxAttributes
