import JsxAttributes.Proofs.ScriptObject
import JsxAttributes.Proofs.StyleReading

/-! The object of a style text is that of a script which assigns the declarations one after the other:
those without a value are left out, and the property that is assigned to is the key of the declaration.
Its entries are described in full by the declarations, without going through the assignments. -/
namespace JsxAttributes.Style
open ScriptObject

/-- The script object to which the declarations that have a value are assigned. -/
def scriptObject (o : KeyOptions) (ds : List Declaration) : ScriptObject String :=
  (ds.filter (·.value ≠ "")).foldl (fun x d => x.assign (keyOf o d.property) d.value) .empty

/-- The last declaration of the key that has a value has this one. -/
def IsLastValue (o : KeyOptions) (ds : List Declaration) (key value : String) : Prop :=
  ∃ before d after, ds = before ++ d :: after ∧ keyOf o d.property = key ∧ d.value = value ∧
    value ≠ "" ∧ ∀ e ∈ after, keyOf o e.property = key → e.value = ""

/-- The keys of the declarations that have a value, in the order of their first occurrences. -/
def firstKeys (o : KeyOptions) (ds : List Declaration) : List String :=
  ((ds.filter (·.value ≠ "")).map fun d => keyOf o d.property).eraseDups

/-- The entries that the declarations leave, and their order. -/
structure Leaves (o : KeyOptions) (ds : List Declaration) (es : List (String × String)) : Prop where
  distinct : (es.map Prod.fst).Nodup
  keys : ∀ key, key ∈ es.map Prod.fst ↔
    key ≠ "__proto__" ∧ ∃ d ∈ ds, d.value ≠ "" ∧ keyOf o d.property = key
  values : ∀ key value, (key, value) ∈ es ↔ key ≠ "__proto__" ∧ IsLastValue o ds key value
  order : ∃ ns : List Nat, ns.Pairwise (· < ·) ∧ (∀ n ∈ ns, n < indexCount) ∧
    es.map Prod.fst =
      ns.map toString ++ (firstKeys o ds).filter fun key => key ≠ "__proto__" ∧ ¬ IsIndex key

variable {o : KeyOptions} {ds : List Declaration} {d : Declaration} {m : OrderedMap String}

/-! ## Assigning -/

theorem assign_eq (h : d.property ≠ "") : assign o m d =
    if d.value = "" ∨ keyOf o d.property = "__proto__" then m
    else m.insert (keyOf o d.property) d.value := by
  rw [assign, Declaration.assignment]
  by_cases hv : d.value = ""
  · simp [hv]
  · by_cases hk : keyOf o d.property = "__proto__" <;> simp [h, hv, hk]

theorem ofMap_assign (h : d.property ≠ "") (hv : d.value ≠ "") :
    ofMap (assign o m d) = (ofMap m).assign (keyOf o d.property) d.value := by
  rw [assign_eq h, ScriptObject.assign]
  by_cases hk : keyOf o d.property = "__proto__"
  · rw [if_pos (.inr hk), if_pos hk]
  · rw [if_neg (by simp [hv, hk]), if_neg hk, ofMap_insert]

theorem ofMap_foldl_assign (h : ∀ d ∈ ds, d.property ≠ "") :
    ofMap (ds.foldl (assign o) m) = (ds.filter (·.value ≠ "")).foldl
      (fun x d => x.assign (keyOf o d.property) d.value) (ofMap m) := by
  induction ds generalizing m with
  | nil => rfl
  | cons d r ih =>
    obtain ⟨hd, hr⟩ := List.forall_mem_cons.1 h
    rw [List.foldl_cons, ih hr]
    by_cases hv : d.value = ""
    · rw [assign_eq hd, if_pos (.inl hv), List.filter_cons_of_neg (by simp [hv])]
    · rw [ofMap_assign hd hv, List.filter_cons_of_pos (by simp [hv]), List.foldl_cons]

theorem ofMap_declarations (h : ∀ d ∈ ds, d.property ≠ "") :
    ofMap (ds.foldl (assign o) .empty) = scriptObject o ds := ofMap_foldl_assign h

/-! ## What is left -/

theorem firstKeys_append_one (ds : List Declaration) (d : Declaration) :
    firstKeys o (ds ++ [d]) =
      if d.value = "" ∨ keyOf o d.property ∈ firstKeys o ds then firstKeys o ds
      else firstKeys o ds ++ [keyOf o d.property] := by
  by_cases hv : d.value = ""
  · rw [if_pos (.inl hv), firstKeys, List.filter_append, List.filter_cons_of_neg (by simp [hv]),
      List.filter_nil, List.append_nil, firstKeys]
  · simp only [hv, false_or]
    rw [firstKeys, List.filter_append, List.filter_cons_of_pos (by simp [hv]), List.filter_nil,
      List.map_append, List.map_singleton, eraseDups_append_one]
    simp only [firstKeys, List.mem_eraseDups]

theorem isLastValue_append_one {key value : String} (ds : List Declaration) (d : Declaration) :
    IsLastValue o (ds ++ [d]) key value ↔
      if d.value ≠ "" ∧ keyOf o d.property = key then d.value = value
      else IsLastValue o ds key value := by
  constructor
  · intro hlast
    obtain ⟨before, e, after, he, hk, hv, hne, hlater⟩ := hlast
    cases after using List.reverseRecOn with
    | nil =>
      obtain ⟨-, hde⟩ := List.append_inj' he rfl
      obtain rfl : d = e := by simpa using hde
      rw [if_pos ⟨hv ▸ hne, hk⟩]
      exact hv
    | append_singleton after f =>
      rw [← List.cons_append, ← List.append_assoc] at he
      obtain ⟨rfl, hdf⟩ := List.append_inj' he rfl
      obtain rfl : d = f := by simpa using hdf
      rw [if_neg fun h => h.1 (hlater d (by simp) h.2)]
      exact ⟨before, e, after, rfl, hk, hv, hne, fun g hg => hlater g (by simp [hg])⟩
  · intro h
    split at h
    · next hd => exact ⟨ds, d, [], rfl, hd.2, h, h ▸ hd.1, by simp⟩
    · next hd =>
      obtain ⟨before, e, after, rfl, hk, hv, hne, hlater⟩ := h
      refine ⟨before, e, after ++ [d], by simp, hk, hv, hne, fun g hg hgk => ?_⟩
      cases List.mem_append.1 hg with
      | inl hg => exact hlater g hg hgk
      | inr hg =>
        obtain rfl := List.mem_singleton.1 hg
        by_contra hgv
        exact hd ⟨hgv, hgk⟩

theorem keys_declarations (h : ∀ d ∈ ds, d.property ≠ "") :
    (ds.foldl (assign o) .empty).keys = (firstKeys o ds).filter (· ≠ "__proto__") := by
  induction ds using List.reverseRecOn with
  | nil => rfl
  | append_singleton ds d ih =>
    rw [List.forall_mem_append] at h
    rw [List.foldl_append, List.foldl_cons, List.foldl_nil, assign_eq (h.2 d (by simp)),
      firstKeys_append_one]
    by_cases hv : d.value = ""
    · rw [if_pos (.inl hv), if_pos (.inl hv), ih h.1]
    by_cases hk : keyOf o d.property = "__proto__"
    · rw [if_pos (.inr hk), ih h.1, hk]
      split <;> simp
    · have hmem : keyOf o d.property ∈ (firstKeys o ds).filter (· ≠ "__proto__") ↔
          keyOf o d.property ∈ firstKeys o ds := by simp [hk]
      rw [if_neg (by simp [hv, hk]), OrderedMap.keys_insert, ih h.1]
      by_cases hf : keyOf o d.property ∈ firstKeys o ds
      · rw [if_pos (hmem.2 hf), if_pos (.inr hf)]
      · rw [if_neg (hmem.not.2 hf), if_neg (by simp [hv, hf]), List.filter_append]
        simp [hk]

theorem get?_declarations_iff (h : ∀ d ∈ ds, d.property ≠ "") {key value : String} :
    (ds.foldl (assign o) .empty).get? key = some value ↔
      key ≠ "__proto__" ∧ IsLastValue o ds key value := by
  induction ds using List.reverseRecOn with
  | nil => simp [IsLastValue]
  | append_singleton ds d ih =>
    rw [List.forall_mem_append] at h
    rw [List.foldl_append, List.foldl_cons, List.foldl_nil, assign_eq (h.2 d (by simp)),
      isLastValue_append_one]
    by_cases hskip : d.value = "" ∨ keyOf o d.property = "__proto__"
    · rw [if_pos hskip, ih h.1]
      refine and_congr_right fun hne => ?_
      have hd : ¬ (d.value ≠ "" ∧ keyOf o d.property = key) :=
        fun hd => hskip.elim hd.1 fun hk => hne (hd.2 ▸ hk)
      rw [if_neg hd]
    · rw [if_neg hskip, OrderedMap.get?_insert]
      obtain ⟨hv, hk⟩ := not_or.1 hskip
      by_cases hkey : key = keyOf o d.property
      · rw [if_pos hkey, if_pos ⟨hv, hkey.symm⟩, Option.some.injEq, and_iff_right (hkey ▸ hk)]
      · rw [if_neg hkey, if_neg fun hd => hkey hd.2.symm, ih h.1]

theorem leaves_scriptObject (h : ∀ d ∈ ds, d.property ≠ "") :
    Leaves o ds (scriptObject o ds).entries := by
  have hkeys := keys_declarations (o := o) h
  have hperm : (scriptObject o ds).entries.Perm (ds.foldl (assign o) .empty).entries :=
    ofMap_declarations h ▸ entries_ofMap_perm
  refine ⟨(hperm.map _).nodup_iff.2 (OrderedMap.distinct _), fun key => ?_, fun key value => ?_, ?_⟩
  · have hmem : key ∈ (scriptObject o ds).entries.map Prod.fst ↔
        key ∈ (ds.foldl (assign o) .empty).keys := (hperm.map _).mem_iff
    rw [hmem, hkeys, List.mem_filter, firstKeys, List.mem_eraseDups]
    simp only [List.mem_map, List.mem_filter, decide_eq_true_eq, and_assoc]
    exact and_comm
  · rw [hperm.mem_iff, OrderedMap.mem_entries_iff, get?_declarations_iff h]
  · obtain ⟨ns, hlt, hbound, he⟩ := keys_entries_ofMap (m := ds.foldl (assign o) .empty)
    rw [ofMap_declarations h, hkeys, List.filter_filter] at he
    refine ⟨ns, hlt, hbound, he.trans (congrArg _ (List.filter_congr fun key _ => ?_))⟩
    rw [← Bool.decide_and]
    exact decide_eq_decide.2 and_comm

theorem readObject_of_ok {text : String} (o : KeyOptions) (h : readDeclarations text = .ok ds) :
    readObject o text = .ok (scriptObject o ds).entries ∧ Leaves o ds (scriptObject o ds).entries := by
  have hd := Grammar.property_ne_empty h
  refine ⟨?_, leaves_scriptObject hd⟩
  rw [readObject, h, Except.map, objectEntries, enumerate_entries, ofMap_declarations hd]

end JsxAttributes.Style
