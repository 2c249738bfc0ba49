import JsxAttributes.Proofs.EntryMapping

/-! What a property map holds is told by the changes that led to it: each key by its last change, and its place by
the time from which it has been there without a break. One change moves neither the times of other keys nor their
order; a key that comes back after it was erased goes to the end. -/
namespace JsxAttributes

variable {α : Type}

inductive Change (α : Type) where
  | insert (key : String) (value : α)
  | erase (key : String)

namespace Change

def key : Change α → String
  | .insert key _ => key
  | .erase key => key

def ofEntry (e : String × α) : Change α := .insert e.1 e.2

end Change

/-! ## Histories -/

def lastChange? (key : String) (h : List (Change α)) : Option (Change α) := h.reverse.find? (·.key = key)

/-- What the last change of the key gave it, unless that erased it. -/
def lastInserted? (key : String) (h : List (Change α)) : Option α :=
  match lastChange? key h with
  | some (.insert _ value) => some value
  | _ => none

/-- The time of the first insertion of the key since it was last erased. -/
structure ComesAt (h : List (Change α)) (key : String) (time : Nat) : Prop where
  inserted : ∃ value, h[time]? = some (.insert key value)
  stays : ∀ t, time < t → h[t]? ≠ some (.erase key)
  first : ∀ t value, t < time → h[t]? = some (.insert key value) →
    ∃ s, t < s ∧ s < time ∧ h[s]? = some (.erase key)

/-- Of two keys the first one has been there longer. -/
def ComesBefore (h : List (Change α)) (key other : String) : Prop :=
  ∃ s t, ComesAt h key s ∧ ComesAt h other t ∧ s < t

variable {h : List (Change α)} {c : Change α} {key k : String} {value : α} {t : Nat}

theorem lastChange?_append_one (key : String) (h : List (Change α)) (c : Change α) :
    lastChange? key (h ++ [c]) = if c.key = key then some c else lastChange? key h := by
  rw [lastChange?, List.reverse_append, List.reverse_singleton, List.singleton_append, List.find?_cons]
  by_cases hc : c.key = key <;> simp [hc, lastChange?]

theorem lastInserted?_insert (k key : String) (value : α) (h : List (Change α)) :
    lastInserted? k (h ++ [.insert key value]) = if k = key then some value else lastInserted? k h := by
  rw [lastInserted?, lastChange?_append_one, Change.key]
  by_cases hk : k = key
  · rw [if_pos hk.symm, if_pos hk]
  · rw [if_neg (Ne.symm hk), if_neg hk, lastInserted?]

theorem lastInserted?_erase (k key : String) (h : List (Change α)) :
    lastInserted? k (h ++ [.erase key]) = if k = key then none else lastInserted? k h := by
  rw [lastInserted?, lastChange?_append_one, Change.key]
  by_cases hk : k = key
  · rw [if_pos hk.symm, if_pos hk]
  · rw [if_neg (Ne.symm hk), if_neg hk, lastInserted?]

theorem lastInserted?_eq_some_iff :
    lastInserted? key h = some value ↔ lastChange? key h = some (.insert key value) := by
  rw [lastInserted?]
  cases hc : lastChange? key h with
  | none => simp
  | some c =>
    have hkey : c.key = key := by simpa using List.find?_some hc
    cases c with
    | insert k v =>
      obtain rfl : k = key := hkey
      simp
    | erase k => simp

/-! ## One more change -/

theorem getElem?_append_one_iff {d : Change α} : (h ++ [c])[t]? = some d ↔
    h[t]? = some d ∨ t = h.length ∧ c = d := by
  rw [List.getElem?_append]
  split
  · next ht =>
    have hne : t ≠ h.length := Nat.ne_of_lt ht
    simp [hne]
  · next ht =>
    have hnone : h[t]? = none := List.getElem?_eq_none (Nat.le_of_not_lt ht)
    rw [hnone, List.getElem?_singleton]
    by_cases heq : t = h.length
    · simp [heq]
    · have hpos : t - h.length ≠ 0 := by omega
      simp [heq, hpos]

theorem lt_length_of_getElem? {d : Change α} (ht : h[t]? = some d) : t < h.length :=
  (List.getElem?_eq_some_iff.1 ht).1

/-- Since an insertion that is no longer seen the key has been erased. -/
theorem exists_erase (hk : lastInserted? key h = none) (ht : h[t]? = some (.insert key value)) :
    ∃ s, t < s ∧ h[s]? = some (.erase key) := by
  induction h using List.reverseRecOn with
  | nil => cases ht
  | append_singleton h c ih =>
    cases c with
    | insert k v =>
      rw [lastInserted?_insert] at hk
      split at hk
      · cases hk
      · next hne =>
        have hold : h[t]? = some (.insert key value) := by
          cases getElem?_append_one_iff.1 ht with
          | inl hold => exact hold
          | inr hnew => exact absurd (congrArg Change.key hnew.2).symm hne
        obtain ⟨s, hs, he⟩ := ih hk hold
        exact ⟨s, hs, getElem?_append_one_iff.2 (.inl he)⟩
    | erase k =>
      have hold : h[t]? = some (.insert key value) := by
        cases getElem?_append_one_iff.1 ht with
        | inl hold => exact hold
        | inr hnew => cases hnew.2
      rw [lastInserted?_erase] at hk
      split at hk
      · next heq =>
        subst heq
        exact ⟨h.length, lt_length_of_getElem? hold, getElem?_append_one_iff.2 (.inr ⟨rfl, rfl⟩)⟩
      · obtain ⟨s, hs, he⟩ := ih hk hold
        exact ⟨s, hs, getElem?_append_one_iff.2 (.inl he)⟩

/-- A key that is not erased has been there since the same time. -/
theorem ComesAt.append_one (hk : ComesAt h key t) (hc : c ≠ .erase key) : ComesAt (h ++ [c]) key t where
  inserted := by
    obtain ⟨v, hv⟩ := hk.inserted
    exact ⟨v, getElem?_append_one_iff.2 (.inl hv)⟩
  stays s hs he := by
    cases getElem?_append_one_iff.1 he with
    | inl hold => exact hk.stays s hs hold
    | inr hnew => exact hc hnew.2
  first s v hs hv := by
    obtain ⟨w, hw⟩ := hk.inserted
    have hold : h[s]? = some (.insert key v) := by
      cases getElem?_append_one_iff.1 hv with
      | inl hold => exact hold
      | inr hnew => exact absurd (hnew.1 ▸ hs) (Nat.lt_asymm (lt_length_of_getElem? hw))
    obtain ⟨r, hsr, hrt, he⟩ := hk.first s v hs hold
    exact ⟨r, hsr, hrt, getElem?_append_one_iff.2 (.inl he)⟩

/-- A key that is not there comes when it is inserted. -/
theorem comesAt_length (hk : lastInserted? key h = none) (value : α) :
    ComesAt (h ++ [.insert key value]) key h.length where
  inserted := ⟨value, getElem?_append_one_iff.2 (.inr ⟨rfl, rfl⟩)⟩
  stays s hs he := by
    have hlt := lt_length_of_getElem? he
    rw [List.length_append, List.length_singleton] at hlt
    omega
  first s v hs hv := by
    have hold : h[s]? = some (.insert key v) := by
      cases getElem?_append_one_iff.1 hv with
      | inl hold => exact hold
      | inr hnew => exact absurd hnew.1 (Nat.ne_of_lt hs)
    obtain ⟨r, hsr, he⟩ := exists_erase hk hold
    exact ⟨r, hsr, lt_length_of_getElem? he, getElem?_append_one_iff.2 (.inl he)⟩

theorem ComesAt.lt_length (hk : ComesAt h key t) : t < h.length := by
  obtain ⟨v, hv⟩ := hk.inserted
  exact lt_length_of_getElem? hv

theorem ComesBefore.append_one {other : String} (hk : ComesBefore h key other) (hc : c ≠ .erase key)
    (ho : c ≠ .erase other) : ComesBefore (h ++ [c]) key other := by
  obtain ⟨s, t, hs, ht, hst⟩ := hk
  exact ⟨s, t, hs.append_one hc, ht.append_one ho, hst⟩

/-! ## What a map remembers -/

namespace OrderedMap

def change (m : OrderedMap α) : Change α → OrderedMap α
  | .insert key value => m.insert key value
  | .erase key => m.erase key

/-- The map is as the history says: each key with what it was given last, in the order in which the keys came. -/
structure Follows (h : List (Change α)) (m : OrderedMap α) : Prop where
  value : ∀ key, m.get? key = lastInserted? key h
  comes : ∀ key ∈ m.keys, ∃ t, ComesAt h key t
  order : m.keys.Pairwise (ComesBefore h)

variable {m : OrderedMap α}

theorem follows_empty : (empty : OrderedMap α).Follows [] where
  value _ := rfl
  comes _ hk := by cases hk
  order := .nil

theorem Follows.insert (hm : m.Follows h) (key : String) (value : α) :
    (m.insert key value).Follows (h ++ [.insert key value]) := by
  have hnone : key ∉ m.keys → lastInserted? key h = none := fun hk => by
    rw [← hm.value, get?_eq_none_iff]
    exact hk
  have hold {k : String} (hk : k ∈ m.keys) : ∃ t, ComesAt (h ++ [.insert key value]) k t := by
    obtain ⟨t, ht⟩ := hm.comes k hk
    exact ⟨t, ht.append_one nofun⟩
  have horder := hm.order.imp fun hk => ComesBefore.append_one (c := .insert key value) hk nofun nofun
  refine ⟨fun k => ?_, ?_, ?_⟩
  · rw [get?_insert, hm.value, lastInserted?_insert]
  · rw [keys_insert]
    split
    · exact fun k hk => hold hk
    · next hk =>
      rw [List.forall_mem_append, List.forall_mem_singleton]
      exact ⟨fun k hk => hold hk, h.length, comesAt_length (hnone hk) value⟩
  · rw [keys_insert]
    split
    · exact horder
    · next hk =>
      rw [List.pairwise_append]
      refine ⟨horder, List.pairwise_singleton _ _, fun k hmem l hl => ?_⟩
      obtain rfl := List.mem_singleton.1 hl
      obtain ⟨t, ht⟩ := hm.comes k hmem
      exact ⟨t, h.length, ht.append_one nofun, comesAt_length (hnone hk) value, ht.lt_length⟩

theorem Follows.erase (hm : m.Follows h) (key : String) : (m.erase key).Follows (h ++ [.erase key]) := by
  have hmem {k : String} : k ∈ (m.erase key).keys ↔ k ≠ key ∧ k ∈ m.keys := by
    rw [keys_erase]
    exact List.Nodup.mem_erase_iff m.distinct
  have hother {k : String} (hk : k ∈ (m.erase key).keys) : Change.erase (α := α) key ≠ .erase k :=
    fun he => (hmem.1 hk).1 (Change.erase.inj he).symm
  refine ⟨fun k => ?_, fun k hk => ?_, ?_⟩
  · rw [get?_erase, hm.value, lastInserted?_erase]
  · obtain ⟨t, ht⟩ := hm.comes k (hmem.1 hk).2
    exact ⟨t, ht.append_one (hother hk)⟩
  · have hsub : (m.erase key).keys.Sublist m.keys := keys_erase m key ▸ List.erase_sublist
    exact (hm.order.sublist hsub).imp_of_mem fun hk hl hkl => hkl.append_one (hother hk) (hother hl)

theorem Follows.change (hm : m.Follows h) (c : Change α) : (m.change c).Follows (h ++ [c]) := by
  cases c with
  | insert key value => exact hm.insert key value
  | erase key => exact hm.erase key

theorem Follows.foldl_change (hm : m.Follows h) (cs : List (Change α)) :
    (cs.foldl OrderedMap.change m).Follows (h ++ cs) := by
  induction cs generalizing m h with
  | nil => rwa [List.append_nil]
  | cons c cs ih =>
    rw [List.append_cons]
    exact ih (hm.change c)

theorem ofList_eq_foldl_change (es : List (String × α)) :
    ofList es = (es.map Change.ofEntry).foldl change empty := by
  rw [List.foldl_map]
  rfl

end OrderedMap

/-! ## Property maps -/

namespace PropertyMap

/-- Changes the own entries; also tells what the key had before. -/
def change (p : PropertyMap) : Change Value → Option Value × PropertyMap
  | .insert key value => p.insert key value
  | .erase key => p.erase key

def changes (p : PropertyMap) (cs : List (Change Value)) : PropertyMap :=
  cs.foldl (fun q c => (q.change c).2) p

/-- The first map of the prototype chain that has the key itself. -/
inductive Nearest (key : String) : PropertyMap → PropertyMap → Prop where
  | own {p : PropertyMap} : p.hasOwn key = true → Nearest key p p
  | inherited {p parent q : PropertyMap} : p.hasOwn key = false → p.prototype? = some parent →
      Nearest key parent q → Nearest key p q

/-- What is seen of the own entries is what the history says. -/
structure Remembers (p : PropertyMap) (h : List (Change Value)) : Prop where
  distinct : p.keys.Nodup
  mem_keys : ∀ key, key ∈ p.keys ↔ ∃ value, lastChange? key h = some (.insert key value)
  getOwn : ∀ key value, p.getOwn? key = some value ↔ lastChange? key h = some (.insert key value)
  comes : ∀ key ∈ p.keys, ∃ t, ComesAt h key t
  order : p.keys.Pairwise (ComesBefore h)
  entries : p.entries = p.keys.filterMap fun key => (p.getOwn? key).map (key, ·)
  /-- Attributes are made in the order in which the keys came. -/
  mapped : ∀ (m : Mapper) (o : Settings) (out : List Attribute), m.map o p = .ok out →
    (m.retained o p.entries).Pairwise (fun d e => ComesBefore h d.1 e.1) ∧
      List.Forall₂ (m.Makes o) (m.retained o p.entries) out
  told : ∀ c, (p.change c).1 = p.getOwn? c.key
  size : p.size = p.keys.length

variable {p q : PropertyMap} {h : List (Change Value)}

theorem own_change (p : PropertyMap) (c : Change Value) : (p.change c).2.own = p.own.change c := by
  cases c <;> rfl

theorem inherited_change (p : PropertyMap) (c : Change Value) :
    (p.change c).2.inherited = p.inherited := by
  cases c <;> rfl

theorem own_changes (p : PropertyMap) (cs : List (Change Value)) :
    (p.changes cs).own = cs.foldl OrderedMap.change p.own := by
  induction cs generalizing p with
  | nil => rfl
  | cons c cs ih => rw [changes, List.foldl_cons, ← changes, ih, own_change, List.foldl_cons]

theorem inherited_changes (p : PropertyMap) (cs : List (Change Value)) :
    (p.changes cs).inherited = p.inherited := by
  induction cs generalizing p with
  | nil => rfl
  | cons c cs ih => rw [changes, List.foldl_cons, ← changes, ih, inherited_change]

theorem prototype?_changes (p : PropertyMap) (cs : List (Change Value)) :
    (p.changes cs).prototype? = p.prototype? := by
  rw [prototype?, inherited_changes, prototype?]

theorem remembers_of_follows (hp : p.own.Follows h) : p.Remembers h where
  distinct := p.own.distinct
  mem_keys key := by
    have hget : (∃ v, lastChange? key h = some (.insert key v)) ↔ ∃ v, p.own.get? key = some v := by
      simp only [hp.value, lastInserted?_eq_some_iff]
    rw [hget, ← Option.ne_none_iff_exists', ne_eq, OrderedMap.get?_eq_none_iff, not_not]
    rfl
  getOwn key value := by rw [getOwn?, hp.value, lastInserted?_eq_some_iff]
  comes := hp.comes
  order := hp.order
  entries := p.own.entries_eq
  mapped m o out hout := by
    have hmade := Mapper.run_outcome m o p.entries
    rw [Mapper.map] at hout
    rw [hout] at hmade
    refine ⟨List.Pairwise.sublist List.filter_sublist ?_, hmade.1⟩
    exact List.pairwise_map.1 hp.order
  told c := by cases c <;> rfl
  size := p.own.length_keys.symm

theorem remembers_changes_ofList (es : List (String × Value)) (cs : List (Change Value)) :
    ((ofList es).changes cs).Remembers (es.map Change.ofEntry ++ cs) := by
  apply remembers_of_follows
  rw [own_changes, ofList, OrderedMap.ofList_eq_foldl_change]
  exact (OrderedMap.follows_empty.foldl_change _).foldl_change cs

theorem remembers_changes_inheriting (parent : PropertyMap) (cs : List (Change Value)) :
    (parent.inheriting.changes cs).Remembers cs := by
  apply remembers_of_follows
  rw [own_changes]
  exact OrderedMap.follows_empty.foldl_change cs

theorem get?_of_hasOwn {key : String} (hp : p.hasOwn key = true) : p.get? key = p.getOwn? key := by
  rw [hasOwn, OrderedMap.contains, Option.isSome_iff_exists] at hp
  obtain ⟨value, hv⟩ := hp
  rw [get?, List.findSome?_cons, getOwn?, hv]

/-- A key that the map has not itself is looked for in the prototype. -/
theorem get?_of_not_hasOwn {key : String} (hp : p.hasOwn key = false) :
    p.get? key = p.prototype?.bind (·.get? key) := by
  rw [hasOwn, OrderedMap.contains, Option.isSome_eq_false_iff, Option.isNone_iff_eq_none] at hp
  rw [get?, List.findSome?_cons, hp, prototype?]
  cases p.inherited <;> rfl

theorem exists_nearest {key : String} {value : Value} (hv : p.get? key = some value) :
    ∃ q, Nearest key p q ∧ q.getOwn? key = some value := by
  obtain ⟨own, inherited⟩ := p
  induction inherited generalizing own with
  | nil =>
    cases hown : hasOwn ⟨own, []⟩ key with
    | true => exact ⟨_, .own hown, get?_of_hasOwn hown ▸ hv⟩
    | false =>
      rw [get?_of_not_hasOwn hown] at hv
      cases hv
  | cons parent others ih =>
    cases hown : hasOwn ⟨own, parent :: others⟩ key with
    | true => exact ⟨_, .own hown, get?_of_hasOwn hown ▸ hv⟩
    | false =>
      rw [get?_of_not_hasOwn hown] at hv
      obtain ⟨q, hq, hget⟩ := ih parent hv
      exact ⟨q, .inherited hown rfl hq, hget⟩

theorem Nearest.get?_eq {key : String} (hq : Nearest key p q) : p.get? key = q.getOwn? key := by
  induction hq with
  | own hown => exact get?_of_hasOwn hown
  | inherited hown hparent _ ih => rw [get?_of_not_hasOwn hown, hparent, Option.bind_some, ih]

/-- After any changes a map has the keys whose last change was an insertion, each with the value it was given last, in
the order in which they came; a key is looked up in the nearest map that has it, and no change reaches a prototype. -/
theorem remembers_changes :
    (∀ (es : List (String × Value)) (cs : List (Change Value)),
      ((ofList es).changes cs).Remembers (es.map Change.ofEntry ++ cs)) ∧
    (∀ (parent : PropertyMap) (cs : List (Change Value)), (parent.inheriting.changes cs).Remembers cs ∧
      (parent.inheriting.changes cs).prototype? = some parent) ∧
    (∀ (p : PropertyMap) (cs : List (Change Value)), (p.changes cs).prototype? = p.prototype?) ∧
    ∀ (p : PropertyMap) (key : String) (value : Value),
      p.get? key = some value ↔ ∃ q, Nearest key p q ∧ q.getOwn? key = some value := by
  refine ⟨remembers_changes_ofList, fun parent cs => ⟨remembers_changes_inheriting parent cs, ?_⟩,
    prototype?_changes, fun p key value => ⟨exists_nearest, fun hfound => ?_⟩⟩
  · rw [prototype?_changes]
    rfl
  · obtain ⟨q, hq, hv⟩ := hfound
    rw [hq.get?_eq, hv]

/-- A key that was erased comes back at the end. -/
example (a b c d : Value) :
    ((ofList [("x", a), ("y", b)]).changes [.insert "x" c, .erase "x", .insert "x" d]).entries =
      [("y", b), ("x", d)] := rfl

end PropertyMap

end JsxAttributes
