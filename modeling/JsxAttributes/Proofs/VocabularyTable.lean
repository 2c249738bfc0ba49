import JsxAttributes.Proofs.OrderedMapWrites
import JsxAttributes.Vocabulary.Table

/-! Looking names up in the table of several vocabularies. A name leads to the last property that claims it, and
this to the last one that has the same property name. Where no property claims the name of another one, each
property is found under its own name. -/
namespace JsxAttributes

theorem mem_of_findEntry {α : Type} {key : String} {value : α} {es : List (String × α)}
    (h : findEntry key es = some value) : (key, value) ∈ es := by
  induction es with
  | nil => cases h
  | cons e r ih =>
    by_cases he : e.1 = key
    · rw [findEntry, if_pos he, Option.some.injEq] at h
      subst he h
      exact List.mem_cons_self ..
    · rw [findEntry, if_neg he] at h
      exact List.mem_cons_of_mem _ (ih h)

/-! ## The last of several -/

/-- This one has the property, and none behind it has. -/
def IsLast {α : Type} (p : α → Prop) (xs : List α) (x : α) : Prop :=
  ∃ before after, xs = before ++ x :: after ∧ p x ∧ ∀ y ∈ after, ¬ p y

section
variable {α : Type} {p : α → Prop} {xs : List α} {x y : α}

theorem not_isLast_nil : ¬ IsLast p [] x := by
  simp [IsLast]

theorem isLast_append_one : IsLast p (xs ++ [y]) x ↔ p y ∧ x = y ∨ ¬ p y ∧ IsLast p xs x := by
  constructor
  · intro hlast
    obtain ⟨before, after, he, hx, hnone⟩ := hlast
    obtain rfl | ⟨after, z, rfl⟩ := after.eq_nil_or_concat
    · obtain rfl := (List.cons.inj (List.append_inj' he rfl).2).1
      exact .inl ⟨hx, rfl⟩
    · rw [List.concat_eq_append, ← List.cons_append, ← List.append_assoc] at he
      obtain ⟨rfl, hyz⟩ := List.append_inj' he rfl
      obtain rfl := (List.cons.inj hyz).1
      exact .inr ⟨hnone y (by simp), before, after, rfl, hx, fun z hz => hnone z (by simp [hz])⟩
  · rintro (⟨hy, rfl⟩ | ⟨hy, before, after, rfl, hx, hnone⟩)
    · exact ⟨xs, [], rfl, hy, List.forall_mem_nil _⟩
    · refine ⟨before, after ++ [y], by simp, hx, ?_⟩
      rw [List.forall_mem_append]
      exact ⟨hnone, List.forall_mem_singleton.2 hy⟩

theorem IsLast.mem (h : IsLast p xs x) : x ∈ xs := by
  obtain ⟨before, after, rfl, -⟩ := h
  exact List.mem_append_right _ (List.mem_cons_self ..)

theorem IsLast.holds (h : IsLast p xs x) : p x := by
  obtain ⟨-, -, -, hx, -⟩ := h
  exact hx

/-- If one has the property, a last one has it. -/
theorem exists_isLast (hx : x ∈ xs) (h : p x) : ∃ y, IsLast p xs y := by
  induction xs using List.reverseRecOn with
  | nil => cases hx
  | append_singleton xs y ih =>
    by_cases hy : p y
    · exact ⟨y, isLast_append_one.2 (.inl ⟨hy, rfl⟩)⟩
    · have hxs : x ∈ xs := by
        rcases List.mem_append.1 hx with hx | hx
        · exact hx
        · exact absurd (List.mem_singleton.1 hx ▸ h) hy
      obtain ⟨z, hz⟩ := ih hxs
      exact ⟨z, isLast_append_one.2 (.inr ⟨hy, hz⟩)⟩

end

/-- The names by which a property is known. -/
def Info.claimedNames (i : Info) : List String :=
  [Text.lowercased i.attributeName, Text.lowercased i.property]

/-- A property whose name one of the properties claims is that property. -/
def Separated (is : List Info) : Prop :=
  ∀ i ∈ is, ∀ j ∈ is, Text.lowercased i.property ∈ j.claimedNames → i = j

namespace Table

/-! ## What a table holds -/

section
variable {is : List Info} {i : Info} {t : Table} {name property : String}

theorem findEntry_claims_add (t : Table) (i : Info) (name : String) : findEntry name (t.add i).claims =
    if name ∈ i.claimedNames then some i.property else findEntry name t.claims := by
  simp only [add, findEntry, Info.claimedNames, List.mem_cons, List.not_mem_nil, or_false, eq_comm (a := name)]
  by_cases ha : Text.lowercased i.attributeName = name <;> simp [ha]

theorem findEntry_infos_add (t : Table) (i : Info) (property : String) : findEntry property (t.add i).infos =
    if i.property = property then some i else findEntry property t.infos := rfl

/-- Of the properties that claim a name, the last one has it. -/
theorem findEntry_claims_iff : findEntry name (is.foldl add empty).claims = some property ↔
    ∃ i, IsLast (name ∈ ·.claimedNames) is i ∧ i.property = property := by
  induction is using List.reverseRecOn with
  | nil => simp [empty, findEntry, not_isLast_nil]
  | append_singleton is i ih =>
    rw [List.foldl_append, List.foldl_cons, List.foldl_nil, findEntry_claims_add]
    by_cases hi : name ∈ i.claimedNames
    · simp [hi, isLast_append_one]
    · simp [hi, isLast_append_one, ih]

/-- Of the properties of a name, the last one is kept. -/
theorem findEntry_infos_iff : findEntry property (is.foldl add empty).infos = some i ↔
    IsLast (·.property = property) is i := by
  induction is using List.reverseRecOn with
  | nil => simp [empty, findEntry, not_isLast_nil]
  | append_singleton is j ih =>
    rw [List.foldl_append, List.foldl_cons, List.foldl_nil, findEntry_infos_add]
    by_cases hj : j.property = property
    · simp [hj, isLast_append_one, eq_comm]
    · simp [hj, isLast_append_one, ih]

/-- A claimed name leads to a property that the table has. -/
theorem exists_info_of_claim (h : findEntry name (is.foldl add empty).claims = some property) :
    ∃ i, findEntry property (is.foldl add empty).infos = some i := by
  obtain ⟨j, hj, rfl⟩ := findEntry_claims_iff.1 h
  obtain ⟨i, hi⟩ := exists_isLast (p := (·.property = j.property)) hj.mem rfl
  exact ⟨i, findEntry_infos_iff.2 hi⟩

end

/-! ## Looking up -/

variable {vs : List Vocabulary} {name : String} {i : Info}

theorem get?_eq_some_iff : (ofVocabularies vs).get? name = some i ↔
    ∃ claimant, IsLast (name ∈ ·.claimedNames) (vs.flatMap Vocabulary.infos) claimant ∧
      IsLast (·.property = claimant.property) (vs.flatMap Vocabulary.infos) i := by
  rw [get?, Option.bind_eq_some_iff]
  constructor
  · intro hfound
    obtain ⟨property, hclaim, hinfo⟩ := hfound
    obtain ⟨claimant, hlast, rfl⟩ := findEntry_claims_iff.1 hclaim
    exact ⟨claimant, hlast, findEntry_infos_iff.1 hinfo⟩
  · intro hlast
    obtain ⟨claimant, hclaim, hinfo⟩ := hlast
    exact ⟨claimant.property, findEntry_claims_iff.2 ⟨claimant, hclaim, rfl⟩, findEntry_infos_iff.2 hinfo⟩

theorem exists_get?_iff : (∃ i, (ofVocabularies vs).get? name = some i) ↔
    ∃ row ∈ vs.flatMap Vocabulary.infos, name ∈ row.claimedNames := by
  constructor
  · intro hfound
    obtain ⟨i, hi⟩ := hfound
    obtain ⟨claimant, hclaim, -⟩ := get?_eq_some_iff.1 hi
    exact ⟨claimant, hclaim.mem, hclaim.holds⟩
  · intro hrow
    obtain ⟨row, hrow, hname⟩ := hrow
    obtain ⟨claimant, hclaim⟩ := exists_isLast (p := (name ∈ ·.claimedNames)) hrow hname
    obtain ⟨i, hi⟩ := exists_isLast (p := (·.property = claimant.property)) hclaim.mem rfl
    exact ⟨i, get?_eq_some_iff.2 ⟨claimant, hclaim, hi⟩⟩

/-- A name is found exactly if the property name or the attribute name of some row is this name in small letters.
It leads to the last row that has the property name of the last row that claims it; and no claim leads to a
property that the table has not. -/
theorem get?_last_claimant (vs : List Vocabulary) (name : String) :
    ((∃ i, (ofVocabularies vs).get? name = some i) ↔ ∃ row ∈ vs.flatMap Vocabulary.infos,
      name = Text.lowercased row.property ∨ name = Text.lowercased row.attributeName) ∧
    (∀ i, (ofVocabularies vs).get? name = some i ↔ ∃ claimant,
      IsLast (fun row => name = Text.lowercased row.property ∨ name = Text.lowercased row.attributeName)
        (vs.flatMap Vocabulary.infos) claimant ∧
      IsLast (fun row => row.property = claimant.property) (vs.flatMap Vocabulary.infos) i) ∧
    ∀ property, findEntry name (ofVocabularies vs).claims = some property →
      ∃ i, findEntry property (ofVocabularies vs).infos = some i := by
  have hclaims (row : Info) : name = Text.lowercased row.property ∨ name = Text.lowercased row.attributeName ↔
      name ∈ row.claimedNames := by
    simp [Info.claimedNames, or_comm]
  simp only [hclaims]
  exact ⟨exists_get?_iff, fun _ => get?_eq_some_iff, fun _ => exists_info_of_claim⟩

/-- The attribute name of a row that was replaced leads to the row that replaced it. -/
theorem get?_last_claimant_replaced :
    (ofVocabularies [
      { space := some .xml, suggestedAttribute := fun _ => "x", properties := [("a", .plain)] },
      { space := some .html, suggestedAttribute := fun _ => "y", properties := [("a", .num)] }]).get? "x" =
      some { property := "a", attributeName := "y", space := some .html, shape := .num, defined := true } := by
  refine ((get?_last_claimant _ "x").2.1 _).2
    ⟨{ property := "a", attributeName := "x", space := some .xml, defined := true },
      ⟨[], _, rfl, .inr (by decide +kernel), ?_⟩, ⟨_, [], rfl, rfl, List.forall_mem_nil _⟩⟩
  exact List.forall_mem_singleton.2 (by decide +kernel)

section Separated
variable (hs : Separated (vs.flatMap Vocabulary.infos))
include hs

theorem mem_claimedNames (h : (ofVocabularies vs).get? name = some i) :
    i ∈ vs.flatMap Vocabulary.infos ∧ name ∈ i.claimedNames := by
  obtain ⟨claimant, hclaim, hi⟩ := get?_eq_some_iff.1 h
  have hproperty : Text.lowercased i.property ∈ claimant.claimedNames := by
    simp [Info.claimedNames, hi.holds]
  have he : i = claimant := hs i hi.mem claimant hclaim.mem hproperty
  exact ⟨hi.mem, he ▸ hclaim.holds⟩

/-- A property is found by its own name. -/
theorem get?_lowercased_property (hi : i ∈ vs.flatMap Vocabulary.infos) :
    (ofVocabularies vs).get? (Text.lowercased i.property) = some i := by
  have hname : Text.lowercased i.property ∈ i.claimedNames := List.mem_cons_of_mem _ (List.mem_singleton_self _)
  obtain ⟨j, hj⟩ := exists_get?_iff.2 ⟨i, hi, hname⟩
  obtain ⟨hjs, hclaims⟩ := mem_claimedNames hs hj
  rw [hj, hs i hi j hjs hclaims]

end Separated

end Table
end JsxAttributes
