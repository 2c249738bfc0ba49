import JsxAttributes.OrderedMap
import Mathlib.Data.List.Basic
import Mathlib.Data.List.Induction

/-! What a sequence of writes leaves in a map: each key at the place of its first write, with the
value of its last. Keys and values are followed apart; together they determine the entries. -/
namespace JsxAttributes
variable {α β : Type}

/-- The value of the last write to the key. -/
def lastValue? (key : String) (es : List (String × α)) : Option α := findEntry key es.reverse

/-- The keys in the order of their first writes, each with its last value. -/
def lastWrites (es : List (String × α)) : List (String × α) :=
  (es.map Prod.fst).eraseDups.filterMap fun key => (lastValue? key es).map (key, ·)

theorem findEntry_map (f : α → β) (key : String) (es : List (String × α)) :
    findEntry key (es.map fun e => (e.1, f e.2)) = (findEntry key es).map f := by
  induction es with
  | nil => rfl
  | cons e r ih => by_cases h : e.1 = key <;> simp [findEntry, h, ih]

theorem lastValue?_append_one (k : String) (es : List (String × α)) (e : String × α) :
    lastValue? k (es ++ [e]) = if k = e.1 then some e.2 else lastValue? k es := by
  by_cases h : k = e.1
  · simp [lastValue?, findEntry, h]
  · simp [lastValue?, findEntry, h, Ne.symm h]

theorem lastWrites_map (f : α → β) (es : List (String × α)) :
    lastWrites (es.map fun e => (e.1, f e.2)) = (lastWrites es).map fun e => (e.1, f e.2) := by
  have hv (key : String) :
      lastValue? key (es.map fun e => (e.1, f e.2)) = (lastValue? key es).map f := by
    rw [lastValue?, ← List.map_reverse, findEntry_map]; rfl
  simp only [lastWrites, List.map_map, List.map_filterMap, Function.comp_def, hv, Option.map_map]

theorem keys_putEntry (key : String) (value : α) (es : List (String × α)) :
    (putEntry key value es).map Prod.fst =
      if key ∈ es.map Prod.fst then es.map Prod.fst else es.map Prod.fst ++ [key] := by
  induction es with
  | nil => simp [putEntry]
  | cons e r ih =>
    by_cases he : e.1 = key
    · simp [putEntry, he]
    · have hn : key ≠ e.1 := Ne.symm he
      rw [putEntry, if_neg he, List.map_cons, ih]
      by_cases hr : key ∈ r.map Prod.fst
      · rw [if_pos hr, List.map_cons, if_pos (List.mem_cons_of_mem _ hr)]
      · have hall : key ∉ (e :: r).map Prod.fst := by
          rw [List.map_cons, List.mem_cons]
          exact not_or.2 ⟨hn, hr⟩
        rw [if_neg hr, if_neg hall]
        rfl

theorem putEntry_of_not_mem {key : String} {es : List (String × α)} (h : key ∉ es.map Prod.fst)
    (value : α) : putEntry key value es = es ++ [(key, value)] := by
  induction es with
  | nil => rfl
  | cons e r ih =>
    rw [List.map_cons, List.mem_cons, not_or] at h
    rw [putEntry, if_neg (Ne.symm h.1), ih h.2, List.cons_append]

theorem keys_dropEntry (key : String) (es : List (String × α)) :
    (dropEntry key es).map Prod.fst = (es.map Prod.fst).erase key := by
  induction es with
  | nil => rfl
  | cons e r ih =>
    rw [List.map_cons, List.erase_cons, dropEntry]
    by_cases he : e.1 = key
    · simp [he]
    · simp [he, ih]

/-- After an erasure the key is gone, and every other key has what it had. -/
theorem findEntry_dropEntry {es : List (String × α)} (h : (es.map Prod.fst).Nodup) (k key : String) :
    findEntry k (dropEntry key es) = if k = key then none else findEntry k es := by
  induction es with
  | nil => simp [dropEntry, findEntry]
  | cons e r ih =>
    rw [List.map_cons, List.nodup_cons] at h
    by_cases he : e.1 = key
    · rw [dropEntry, if_pos he]
      by_cases hk : k = key
      · rw [if_pos hk, findEntry_eq_none_iff, hk, ← he]
        exact h.1
      · have hne : e.1 ≠ k := fun hek => hk (hek.symm.trans he)
        rw [if_neg hk, findEntry, if_neg hne]
    · rw [dropEntry, if_neg he, findEntry, findEntry, ih h.2]
      by_cases hk : e.1 = k
      · have hne : k ≠ key := fun hkk => he (hk.trans hkk)
        rw [if_pos hk, if_pos hk, if_neg hne]
      · rw [if_neg hk, if_neg hk]

/-- Entries with distinct keys can be looked up one by one. -/
theorem eq_filterMap_findEntry {es : List (String × α)} (h : (es.map Prod.fst).Nodup) :
    es = (es.map Prod.fst).filterMap fun key => (findEntry key es).map (key, ·) := by
  induction es with
  | nil => rfl
  | cons e r ih =>
    rw [List.map_cons, List.nodup_cons] at h
    have hr : ∀ key ∈ r.map Prod.fst, (findEntry key (e :: r)).map (key, ·) =
        (findEntry key r).map (key, ·) := by
      intro key hk
      have hne : e.1 ≠ key := fun he => h.1 (he ▸ hk)
      rw [findEntry, if_neg hne]
    rw [List.map_cons, List.filterMap_cons, findEntry, if_pos rfl, Option.map_some,
      List.filterMap_congr hr, ← ih h.2]

theorem findEntry_eq_some_iff {es : List (String × α)} (h : (es.map Prod.fst).Nodup) {key : String}
    {value : α} : findEntry key es = some value ↔ (key, value) ∈ es := by
  induction es with
  | nil => simp [findEntry]
  | cons e r ih =>
    rw [List.map_cons, List.nodup_cons] at h
    rw [findEntry, List.mem_cons]
    by_cases he : e.1 = key
    · have hr : (key, value) ∉ r := fun hm => h.1 (he ▸ List.mem_map_of_mem hm)
      rw [if_pos he, Option.some.injEq, Prod.ext_iff]
      simp [hr, he, eq_comm]
    · have hne : (key, value) ≠ e := fun hk => he (congrArg Prod.fst hk).symm
      rw [if_neg he, ih h.2, or_iff_right hne]

theorem eraseDups_append_one {key : String} (keys : List String) :
    (keys ++ [key]).eraseDups = if key ∈ keys then keys.eraseDups else keys.eraseDups ++ [key] := by
  rw [List.eraseDups_append]
  by_cases h : key ∈ keys <;> simp [List.removeAll, List.eraseDups_cons, h]

namespace OrderedMap

theorem ofList_append_one (es : List (String × α)) (e : String × α) :
    ofList (es ++ [e]) = (ofList es).insert e.1 e.2 := by
  simp [ofList, List.foldl_append]

theorem length_keys (m : OrderedMap α) : m.keys.length = m.size := List.length_map ..

theorem keys_insert (m : OrderedMap α) (key : String) (value : α) :
    (m.insert key value).keys = if key ∈ m.keys then m.keys else m.keys ++ [key] :=
  keys_putEntry key value m.entries

theorem keys_erase (m : OrderedMap α) (key : String) : (m.erase key).keys = m.keys.erase key :=
  keys_dropEntry key m.entries

theorem get?_erase (m : OrderedMap α) (k key : String) :
    (m.erase key).get? k = if k = key then none else m.get? k :=
  findEntry_dropEntry m.distinct k key

theorem entries_insert (m : OrderedMap α) (key : String) (value : α) :
    (m.insert key value).entries = putEntry key value m.entries := rfl

/-- Writing distinct keys makes the entries that were written. -/
theorem entries_ofList_of_nodup {es : List (String × α)} (h : (es.map Prod.fst).Nodup) :
    (ofList es).entries = es := by
  induction es using List.reverseRecOn with
  | nil => rfl
  | append_singleton es e ih =>
    rw [List.map_append, List.map_singleton, List.nodup_append] at h
    have hnew : e.1 ∉ es.map Prod.fst := fun hm => h.2.2 e.1 hm e.1 (by simp) rfl
    rw [ofList_append_one, entries_insert, ih h.1, putEntry_of_not_mem hnew]

theorem keys_ofList (es : List (String × α)) : (ofList es).keys = (es.map Prod.fst).eraseDups := by
  induction es using List.reverseRecOn with
  | nil => rfl
  | append_singleton es e ih =>
    rw [ofList_append_one, keys_insert, ih, List.map_append, List.map_singleton,
      eraseDups_append_one]
    simp only [List.mem_eraseDups]

theorem get?_ofList (key : String) (es : List (String × α)) :
    (ofList es).get? key = lastValue? key es := by
  induction es using List.reverseRecOn with
  | nil => rfl
  | append_singleton es e ih => rw [ofList_append_one, get?_insert, ih, lastValue?_append_one]

theorem entries_eq (m : OrderedMap α) :
    m.entries = m.keys.filterMap fun key => (m.get? key).map (key, ·) :=
  eq_filterMap_findEntry m.distinct

theorem mem_entries_iff {m : OrderedMap α} {key : String} {value : α} :
    (key, value) ∈ m.entries ↔ m.get? key = some value :=
  (findEntry_eq_some_iff m.distinct).symm

/-- A map made by writes lists each key where it was first written, with its last value. -/
theorem entries_ofList (es : List (String × α)) : (ofList es).entries = lastWrites es := by
  rw [entries_eq, keys_ofList, lastWrites]
  exact List.filterMap_congr fun key _ => by rw [get?_ofList]

end OrderedMap

end JsxAttributes
