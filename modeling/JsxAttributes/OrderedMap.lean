/-!
Maps from text that remember the order in which their keys came. Writing a known key replaces its
value in place; a new key goes to the end.
-/
namespace JsxAttributes

variable {α : Type}

/-- Gives the key this value, in place if it is there and else at the end. -/
def putEntry (key : String) (value : α) : List (String × α) → List (String × α)
  | [] => [(key, value)]
  | e :: r => if e.1 = key then (key, value) :: r else e :: putEntry key value r

def dropEntry (key : String) : List (String × α) → List (String × α)
  | [] => []
  | e :: r => if e.1 = key then r else e :: dropEntry key r

def findEntry (key : String) : List (String × α) → Option α
  | [] => none
  | e :: r => if e.1 = key then some e.2 else findEntry key r

/-- After a write the key has the new value, and every other key what it had. -/
theorem findEntry_putEntry (k key : String) (value : α) (es : List (String × α)) :
    findEntry k (putEntry key value es) = if k = key then some value else findEntry k es := by
  induction es with
  | nil => simp [putEntry, findEntry, eq_comm]
  | cons e r ih =>
    by_cases he : e.1 = key
    · by_cases hk : k = key
      · simp [putEntry, findEntry, he, hk]
      · have hn : key ≠ k := fun h => hk h.symm
        simp [putEntry, findEntry, he, hk, hn]
    · by_cases hk : e.1 = k
      · have hn : k ≠ key := fun h => he (hk.trans h)
        simp [putEntry, findEntry, hk, hn]
      · simp only [putEntry, if_neg he, findEntry, if_neg hk, ih]

theorem findEntry_eq_none_iff {key : String} {es : List (String × α)} :
    findEntry key es = none ↔ key ∉ es.map Prod.fst := by
  induction es with
  | nil => simp [findEntry]
  | cons e r ih =>
    by_cases h : e.1 = key
    · simp [findEntry, h]
    · have hn : key ≠ e.1 := fun hk => h hk.symm
      simp only [findEntry, if_neg h, ih, List.map_cons, List.mem_cons, hn, false_or]

theorem mem_keys_putEntry {key k : String} {value : α} {es : List (String × α)} :
    k ∈ (putEntry key value es).map Prod.fst ↔ k = key ∨ k ∈ es.map Prod.fst := by
  induction es with
  | nil => simp [putEntry]
  | cons e r ih =>
    by_cases h : e.1 = key
    · simp [putEntry, h]
    · rw [putEntry, if_neg h, List.map_cons, List.mem_cons, ih, List.map_cons, List.mem_cons]
      exact or_left_comm

theorem nodup_keys_putEntry {key : String} {value : α} {es : List (String × α)}
    (h : (es.map Prod.fst).Nodup) : ((putEntry key value es).map Prod.fst).Nodup := by
  induction es with
  | nil => simp [putEntry]
  | cons e r ih =>
    rw [List.map_cons, List.nodup_cons] at h
    by_cases he : e.1 = key
    · rw [putEntry, if_pos he, List.map_cons, List.nodup_cons]
      exact ⟨he ▸ h.1, h.2⟩
    · rw [putEntry, if_neg he, List.map_cons, List.nodup_cons, mem_keys_putEntry]
      exact ⟨fun hk => hk.elim he h.1, ih h.2⟩

theorem dropEntry_sublist (key : String) (es : List (String × α)) :
    (dropEntry key es).Sublist es := by
  induction es with
  | nil => exact .slnil
  | cons e r ih =>
    by_cases he : e.1 = key
    · rw [dropEntry, if_pos he]; exact List.sublist_cons_self e r
    · rw [dropEntry, if_neg he]; exact ih.cons_cons e

/-- Entries in order, each key once. -/
structure OrderedMap (α : Type) where
  entries : List (String × α)
  distinct : (entries.map Prod.fst).Nodup

namespace OrderedMap

def empty : OrderedMap α := ⟨[], List.nodup_nil⟩

instance : Inhabited (OrderedMap α) := ⟨empty⟩

def keys (m : OrderedMap α) : List String := m.entries.map Prod.fst

def size (m : OrderedMap α) : Nat := m.entries.length

def get? (m : OrderedMap α) (key : String) : Option α := findEntry key m.entries

def contains (m : OrderedMap α) (key : String) : Bool := (m.get? key).isSome

def insert (m : OrderedMap α) (key : String) (value : α) : OrderedMap α :=
  ⟨putEntry key value m.entries, nodup_keys_putEntry m.distinct⟩

def erase (m : OrderedMap α) (key : String) : OrderedMap α :=
  ⟨dropEntry key m.entries, m.distinct.sublist ((dropEntry_sublist key m.entries).map _)⟩

/-- A repeated key keeps its first place and takes its last value. -/
def ofList (es : List (String × α)) : OrderedMap α :=
  es.foldl (fun m e => m.insert e.1 e.2) empty

@[simp] theorem get?_empty (key : String) : (empty : OrderedMap α).get? key = none := rfl

theorem get?_insert (m : OrderedMap α) (k key : String) (value : α) :
    (m.insert key value).get? k = if k = key then some value else m.get? k :=
  findEntry_putEntry k key value m.entries

theorem get?_eq_none_iff {m : OrderedMap α} {key : String} : m.get? key = none ↔ key ∉ m.keys :=
  findEntry_eq_none_iff

/-- The same keys have equal values, in whatever order. -/
def equalsBy (same : α → α → Bool) (m n : OrderedMap α) : Bool :=
  m.size == n.size && m.entries.all fun e =>
    match n.get? e.1 with
    | some value => same e.2 value
    | none => false

end OrderedMap

end JsxAttributes
