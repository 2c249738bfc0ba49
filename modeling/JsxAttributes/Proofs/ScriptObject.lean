import JsxAttributes.Proofs.OrderedMapWrites
import JsxAttributes.Style.Object
import Mathlib.Algebra.Group.Nat.Defs
import Mathlib.Data.List.Nodup
import Mathlib.Logic.Function.Basic

/-! Objects of a script: what they hold under each key, and the order in which keys were created.
Array indexes are listed first, in ascending order, and then the other keys as they were created. An
ordered map is such an object, and enumerating it lists what the object lists. -/
namespace JsxAttributes

/-! ## Array indexes -/

/-- A number from here on is no array index. -/
def indexCount : Nat := 2 ^ 32 - 1

/-- A key that is an array index, written as numbers are. -/
def IsIndex (key : String) : Prop := ∃ n < indexCount, key = toString n

namespace Style

theorem keyIndex?_eq_some_iff {key : String} {n : Nat} :
    keyIndex? key = some n ↔ n < indexCount ∧ key = toString n := by
  have hkey (n : Nat) : Nat.toDigits 10 n = key.toList ↔ key = toString n := by
    rw [← String.toList_inj, Nat.toString_eq_repr, Nat.toList_repr, eq_comm]
  simp only [keyIndex?, hkey]
  constructor
  · intro h
    split at h
    · next hn =>
      obtain rfl := Option.some.inj h
      exact hn
    · cases h
  · intro hindex
    obtain ⟨hn, rfl⟩ := hindex
    rw [Nat.toString_eq_repr, Nat.toList_repr, Nat.ofDigitChars_ten_toDigits, if_pos ⟨hn, rfl⟩]

theorem isSome_keyIndex?_iff {key : String} : (keyIndex? key).isSome = true ↔ IsIndex key := by
  simp only [Option.isSome_iff_exists, keyIndex?_eq_some_iff, IsIndex]

end Style

instance : DecidablePred IsIndex := fun _ => decidable_of_iff _ Style.isSome_keyIndex?_iff

/-! ## Objects -/

structure ScriptObject (α : Type) where
  value? : String → Option α
  /-- The keys in the order of their creation. -/
  created : List String

namespace ScriptObject
variable {α : Type}

def empty : ScriptObject α := ⟨fun _ => none, []⟩

/-- A key that is there keeps its place. -/
def define (x : ScriptObject α) (key : String) (value : α) : ScriptObject α where
  value? := Function.update x.value? key (some value)
  created := if (x.value? key).isSome then x.created else x.created ++ [key]

/-- Assigning a text to `__proto__` has no effect. -/
def assign (x : ScriptObject α) (key : String) (value : α) : ScriptObject α :=
  if key = "__proto__" then x else x.define key value

def pair? (x : ScriptObject α) (key : String) : Option (String × α) := (x.value? key).map (key, ·)

/-- The entries as a script enumerates them. -/
def entries (x : ScriptObject α) : List (String × α) :=
  (List.range indexCount).filterMap (fun n => x.pair? (toString n)) ++
    (x.created.filter (¬ IsIndex ·)).filterMap x.pair?

/-- The object that holds the entries of a map, created in their order. -/
def ofMap (m : OrderedMap α) : ScriptObject α := ⟨m.get?, m.keys⟩

theorem ofMap_insert (m : OrderedMap α) (key : String) (value : α) :
    ofMap (m.insert key value) = (ofMap m).define key value := by
  have hget : (m.insert key value).get? = Function.update m.get? key (some value) := by
    funext k
    rw [OrderedMap.get?_insert, Function.update_apply]
  have hkeys : key ∈ m.keys ↔ (m.get? key).isSome = true := by
    rw [Option.isSome_iff_ne_none, ne_eq, OrderedMap.get?_eq_none_iff, not_not]
  rw [ofMap, hget, OrderedMap.keys_insert, define]
  by_cases h : key ∈ m.keys
  · rw [if_pos h, ofMap, if_pos (hkeys.1 h)]
  · rw [if_neg h, ofMap, if_neg (hkeys.not.1 h)]

/-! ## Enumerating a map -/

theorem mem_pair?_ofMap_iff {m : OrderedMap α} {key : String} {e : String × α} :
    (ofMap m).pair? key = some e ↔ e.1 = key ∧ e ∈ m.entries := by
  obtain ⟨k, v⟩ := e
  rw [OrderedMap.mem_entries_iff, pair?, Option.map_eq_some_iff]
  simp only [Prod.mk.injEq, ofMap]
  constructor
  · intro hheld
    obtain ⟨w, hw, rfl, rfl⟩ := hheld
    exact ⟨rfl, hw⟩
  · intro hentry
    obtain ⟨rfl, hw⟩ := hentry
    exact ⟨v, hw, rfl, rfl⟩

theorem ofMap_pair?_eq (m : OrderedMap α) (e : String × α) (he : e ∈ m.entries) :
    (ofMap m).pair? e.1 = some e := mem_pair?_ofMap_iff.2 ⟨rfl, he⟩

end ScriptObject

namespace Style
open ScriptObject
variable {α : Type}

def indexOf (e : String × α) : Nat := (keyIndex? e.1).getD 0

theorem indexOf_eq {e : String × α} {n : Nat} (hn : n < indexCount) (he : e.1 = toString n) :
    indexOf e = n := by
  rw [indexOf, keyIndex?_eq_some_iff.2 ⟨hn, he⟩, Option.getD_some]

theorem pairwise_range_entries (m : OrderedMap α) :
    ((List.range indexCount).filterMap fun n => (ofMap m).pair? (toString n)).Pairwise
      (indexOf · < indexOf ·) := by
  have hrange : (List.range indexCount).Pairwise fun n k => n < k ∧ k < indexCount := by
    refine List.pairwise_lt_range.imp_of_mem fun _ hk h => ⟨h, List.mem_range.1 hk⟩
  refine hrange.filterMap _ fun n k h e he f hf => ?_
  rw [indexOf_eq (Nat.lt_trans h.1 h.2) (mem_pair?_ofMap_iff.1 he).1,
    indexOf_eq h.2 (mem_pair?_ofMap_iff.1 hf).1]
  exact h.1

/-- Sorting the entries that have an index is going through the indexes. -/
theorem mergeSort_eq_range (m : OrderedMap α) :
    (m.entries.filter fun e => (keyIndex? e.1).isSome).mergeSort (indexOf · ≤ indexOf ·) =
      (List.range indexCount).filterMap fun n => (ofMap m).pair? (toString n) := by
  have hmem (e : String × α) : e ∈ (List.range indexCount).filterMap
      (fun n => (ofMap m).pair? (toString n)) ↔ e ∈ m.entries ∧ IsIndex e.1 := by
    simp only [List.mem_filterMap, List.mem_range, mem_pair?_ofMap_iff]
    exact ⟨fun ⟨n, hn, hk, he⟩ => ⟨he, n, hn, hk⟩, fun ⟨he, n, hn, hk⟩ => ⟨n, hn, hk, he⟩⟩
  have hpairs := pairwise_range_entries m
  have hnodup : m.entries.Nodup := List.Nodup.of_map _ m.distinct
  have hperm : (m.entries.filter fun e => (keyIndex? e.1).isSome).Perm
      ((List.range indexCount).filterMap fun n => (ofMap m).pair? (toString n)) := by
    refine (List.perm_ext_iff_of_nodup (hnodup.filter _) ?_).2 fun e => ?_
    · exact hpairs.imp fun h => ne_of_apply_ne indexOf (Nat.ne_of_lt h)
    · rw [hmem, List.mem_filter, isSome_keyIndex?_iff]
  have hsorted : ((m.entries.filter fun e => (keyIndex? e.1).isSome).mergeSort
      (indexOf · ≤ indexOf ·)).Pairwise fun e f => decide (indexOf e ≤ indexOf f) = true :=
    List.pairwise_mergeSort (fun _ _ _ => by simpa using Nat.le_trans)
      (fun _ _ => by simpa using Nat.le_total _ _) _
  have hrange := hpairs.imp fun h => decide_eq_true (Nat.le_of_lt h)
  refine List.Perm.eq_of_pairwise (fun e f he hf hef hfe => ?_) hsorted hrange
    ((List.mergeSort_perm _ _).trans hperm)
  obtain ⟨hem, n, hn, hk⟩ := (hmem e).1 (hperm.subset ((List.mem_mergeSort).1 he))
  obtain ⟨hfm, k, hk', hkf⟩ := (hmem f).1 hf
  have hnk : n = k := by
    rw [decide_eq_true_eq] at hef hfe
    rw [← indexOf_eq hn hk, ← indexOf_eq hk' hkf]
    exact Nat.le_antisymm hef hfe
  have hkeys : e.1 = f.1 := by rw [hk, hkf, hnk]
  have h := ofMap_pair?_eq m e hem
  rw [hkeys, ofMap_pair?_eq m f hfm] at h
  exact (Option.some.inj h).symm

theorem enumerate_entries (m : OrderedMap α) : enumerate m.entries = (ofMap m).entries := by
  have hrest : (m.entries.filter fun e => !(keyIndex? e.1).isSome) =
      (m.keys.filter (¬ IsIndex ·)).filterMap (ofMap m).pair? := by
    rw [m.entries_eq, List.filter_filterMap, List.filterMap_filter]
    refine List.filterMap_congr fun key _ => ?_
    have hkey : (keyIndex? key).isSome = decide (IsIndex key) := by
      rw [Bool.eq_iff_iff, isSome_keyIndex?_iff, decide_eq_true_iff]
    cases h : m.get? key <;> simp [Option.filter, hkey, pair?, ofMap, h]
  exact congrArg₂ (· ++ ·) (mergeSort_eq_range m) hrest

/-- Enumerating changes nothing but the order. -/
theorem enumerate_perm (es : List (String × α)) : (enumerate es).Perm es :=
  ((List.mergeSort_perm _ _).append_right _).trans (List.filter_append_perm _ _)

end Style

namespace ScriptObject
variable {α : Type} {m : OrderedMap α}

theorem entries_ofMap_perm : (ofMap m).entries.Perm m.entries :=
  Style.enumerate_entries m ▸ Style.enumerate_perm m.entries

theorem keys_entries_ofMap : ∃ ns : List Nat, ns.Pairwise (· < ·) ∧ (∀ n ∈ ns, n < indexCount) ∧
    (ofMap m).entries.map Prod.fst = ns.map toString ++ m.keys.filter (¬ IsIndex ·) := by
  have hfst (keys : List String) : (keys.filterMap (ofMap m).pair?).map Prod.fst =
      keys.filter fun key => (m.get? key).isSome := by
    induction keys with
    | nil => rfl
    | cons key r ih =>
      cases hv : m.get? key with
      | none => simpa [pair?, ofMap, hv] using ih
      | some v => simpa [pair?, ofMap, hv] using ih
  have hkeys : (m.keys.filter (¬ IsIndex ·)).filter (fun key => (m.get? key).isSome) =
      m.keys.filter (¬ IsIndex ·) := by
    refine List.filter_eq_self.2 fun key hk => ?_
    have hmem := (List.mem_filter.1 hk).1
    rwa [Option.isSome_iff_ne_none, ne_eq, OrderedMap.get?_eq_none_iff, not_not]
  refine ⟨(List.range indexCount).filter fun n => (m.get? (toString n)).isSome,
    List.pairwise_lt_range.filter _, fun n hn => List.mem_range.1 (List.mem_of_mem_filter hn), ?_⟩
  have hrange : (List.range indexCount).filterMap (fun n => (ofMap m).pair? (toString n)) =
      ((List.range indexCount).map toString).filterMap (ofMap m).pair? := by
    rw [List.filterMap_map]
    rfl
  rw [entries, List.map_append, hrange, hfst, List.filter_map, hfst]
  exact congrArg _ hkeys

end ScriptObject
end JsxAttributes
