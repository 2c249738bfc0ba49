import JsxAttributes.Proofs.Remapping
import JsxAttributes.Proofs.ValueEquality
import Mathlib.Data.List.Perm.Basic
import Mathlib.Data.List.Perm.Subperm

/-! Equal property maps have the same keys, look up equal values and make the same attributes, but for the order.
Two maps of entries are equal if all their look-ups are, whatever the order; prototypes are compared map by map. -/
namespace JsxAttributes

namespace OrderedMap

variable {α : Type} {same : α → α → Bool} {m n l : OrderedMap α}

/-- Each key has the same in both maps, or is in neither. -/
def Agree (same : α → α → Bool) (m n : OrderedMap α) : Prop :=
  ∀ key, Option.Rel (fun v w => same v w = true) (m.get? key) (n.get? key)

theorem Agree.mem_keys_iff (h : Agree same m n) (key : String) : key ∈ m.keys ↔ key ∈ n.keys := by
  have hkey := h key
  rw [← not_iff_not, ← get?_eq_none_iff, ← get?_eq_none_iff]
  generalize m.get? key = v at hkey
  generalize n.get? key = w at hkey
  cases hkey <;> simp

theorem Agree.keys_perm (h : Agree same m n) : m.keys.Perm n.keys :=
  (List.perm_ext_iff_of_nodup m.distinct n.distinct).2 h.mem_keys_iff

theorem Agree.symm (hs : ∀ v w, same v w = true → same w v = true) (h : Agree same m n) :
    Agree same n m := by
  intro key
  have hkey := h key
  generalize m.get? key = v at hkey
  generalize n.get? key = w at hkey
  cases hkey with
  | none => exact .none
  | some hvw => exact .some (hs _ _ hvw)

theorem Agree.trans (ht : ∀ v w x, same v w = true → same w x = true → same v x = true)
    (h : Agree same m n) (h' : Agree same n l) : Agree same m l := by
  intro key
  have hkey := h key
  have hkey' := h' key
  generalize m.get? key = v at hkey
  generalize n.get? key = w at hkey hkey'
  cases hkey with
  | none => exact hkey'
  | some hvw =>
    generalize l.get? key = x at hkey'
    cases hkey' with
    | some hwx => exact .some (ht _ _ _ hvw hwx)

/-- Of as many keys none may be missing. -/
theorem agree_of_equalsBy (h : m.equalsBy same n = true) : Agree same m n := by
  rw [equalsBy, Bool.and_eq_true, List.all_eq_true] at h
  have hsize : m.keys.length = n.keys.length := by
    rw [length_keys, length_keys]
    exact eq_of_beq h.1
  have hfound {key : String} {v : α} (hv : m.get? key = some v) :
      ∃ w, n.get? key = some w ∧ same v w = true := by
    have hall := h.2 (key, v) (mem_entries_iff.2 hv)
    split at hall
    · next w hw => exact ⟨w, hw, hall⟩
    · cases hall
  have hsub : m.keys ⊆ n.keys := by
    intro key hkey
    have hsome : m.get? key ≠ none := fun hnone => get?_eq_none_iff.1 hnone hkey
    obtain ⟨v, hv⟩ := Option.ne_none_iff_exists'.1 hsome
    obtain ⟨w, hw, -⟩ := hfound hv
    by_contra hnot
    rw [get?_eq_none_iff.2 hnot] at hw
    cases hw
  have hperm : m.keys.Perm n.keys :=
    (List.Nodup.subperm m.distinct hsub).perm_of_length_le (Nat.le_of_eq hsize.symm)
  intro key
  cases hv : m.get? key with
  | none =>
    have hnone : n.get? key = none := get?_eq_none_iff.2 fun hn => get?_eq_none_iff.1 hv (hperm.mem_iff.2 hn)
    rw [hnone]
    exact .none
  | some v =>
    obtain ⟨w, hw, hsame⟩ := hfound hv
    rw [hw]
    exact .some hsame

theorem equalsBy_iff : m.equalsBy same n = true ↔ Agree same m n := by
  refine ⟨agree_of_equalsBy, fun h => ?_⟩
  rw [equalsBy, Bool.and_eq_true, List.all_eq_true]
  constructor
  · rw [← length_keys, ← length_keys, h.keys_perm.length_eq]
    exact BEq.rfl
  · intro e he
    have hkey := h e.1
    rw [mem_entries_iff.1 he] at hkey
    split
    · next w hw =>
      rw [hw] at hkey
      cases hkey with
      | some hsame => exact hsame
    · next hw =>
      rw [hw] at hkey
      cases hkey

/-- The entries of the first map, paired with those of the second one in another order. -/
theorem Agree.exists_perm (h : Agree same m n) : ∃ es, n.entries.Perm es ∧
    List.Forall₂ (fun e f => e.1 = f.1 ∧ same e.2 f.2 = true) m.entries es := by
  refine ⟨m.keys.filterMap fun key => (n.get? key).map (key, ·), ?_, ?_⟩
  · rw [entries_eq]
    exact h.keys_perm.symm.filterMap _
  · rw [entries_eq]
    refine List.rel_filterMap ?_ (List.forall₂_eq_eq_eq ▸ rfl : List.Forall₂ Eq m.keys m.keys)
    rintro key _ rfl
    have hkey := h key
    dsimp only
    generalize m.get? key = v at hkey ⊢
    generalize n.get? key = w at hkey ⊢
    cases hkey with
    | none => exact .none
    | some hsame => exact .some ⟨rfl, hsame⟩

end OrderedMap

/-! ## Chains of maps -/

namespace PropertyMap

open OrderedMap (Agree)

variable {p q r : PropertyMap} {ms ns : List (OrderedMap Value)}

theorem equalChains_iff : equals.equalChains ms ns = true ↔ List.Forall₂ (Agree Value.equals) ms ns := by
  induction ms generalizing ns with
  | nil => cases ns <;> simp [equals.equalChains]
  | cons m ms ih => cases ns <;> simp [equals.equalChains, OrderedMap.equalsBy_iff, ih]

theorem equals_iff : p.equals q = true ↔
    Agree Value.equals p.own q.own ∧ List.Forall₂ (Agree Value.equals) p.inherited q.inherited := by
  rw [equals, equalChains_iff, List.forall₂_cons]

/-- Own entries are compared key by key, prototypes by what is in them. -/
theorem equals_iff_prototype : p.equals q = true ↔
    (∀ key, Option.Rel (fun v w => v.equals w = true) (p.getOwn? key) (q.getOwn? key)) ∧
      Option.Rel (fun p' q' => p'.equals q' = true) p.prototype? q.prototype? := by
  obtain ⟨own, inherited⟩ := p
  obtain ⟨own', inherited'⟩ := q
  rw [equals_iff]
  refine and_congr Iff.rfl ?_
  cases inherited with
  | nil =>
    cases inherited' with
    | nil => exact iff_of_true .nil .none
    | cons n ns => exact iff_of_false nofun nofun
  | cons m ms =>
    cases inherited' with
    | nil => exact iff_of_false nofun nofun
    | cons n ns =>
      have hparents : equals ⟨m, ms⟩ ⟨n, ns⟩ = true ↔
          List.Forall₂ (Agree Value.equals) (m :: ms) (n :: ns) := equalChains_iff
      rw [← hparents, prototype?, prototype?, Option.rel_some_some]

theorem equals_symm (h : p.equals q = true) : q.equals p = true := by
  have hvalues : ∀ v w : Value, v.equals w = true → w.equals v = true :=
    fun _ _ hvw => Value.equals_iff.2 (Value.equals_iff.1 hvw).symm
  obtain ⟨hown, hinherited⟩ := equals_iff.1 h
  exact equals_iff.2 ⟨hown.symm hvalues, (hinherited.imp fun _ _ => Agree.symm hvalues).flip⟩

theorem equals_trans (h : p.equals q = true) (h' : q.equals r = true) : p.equals r = true := by
  have hvalues : ∀ v w x : Value, v.equals w = true → w.equals x = true → v.equals x = true :=
    fun _ _ _ hvw hwx => Value.equals_iff.2 ((Value.equals_iff.1 hvw).trans (Value.equals_iff.1 hwx))
  obtain ⟨hown, hinherited⟩ := equals_iff.1 h
  obtain ⟨hown', hinherited'⟩ := equals_iff.1 h'
  exact equals_iff.2 ⟨hown.trans hvalues hown',
    forall₂_trans (r := Agree Value.equals) (fun _ _ _ => Agree.trans hvalues) hinherited hinherited'⟩

/-- Along chains that agree map by map the nearest maps that have the key stand at one place. -/
theorem findSome?_agree (h : List.Forall₂ (Agree Value.equals) ms ns) (key : String) :
    Option.Rel (fun v w => v.equals w = true) (ms.findSome? (·.get? key)) (ns.findSome? (·.get? key)) := by
  induction h with
  | nil => exact .none
  | cons hmn _ ih =>
    have hkey := hmn key
    rw [List.findSome?_cons, List.findSome?_cons]
    generalize OrderedMap.get? _ key = v at hkey ⊢
    generalize OrderedMap.get? _ key = w at hkey ⊢
    cases hkey with
    | none => exact ih
    | some hvw => exact .some hvw

theorem get?_of_equals (h : p.equals q = true) (key : String) :
    Option.Rel (fun v w => v.equals w = true) (p.get? key) (q.get? key) :=
  findSome?_agree (equalChains_iff.1 h) key

end PropertyMap

/-! ## Attributes of equal maps -/

namespace Mapper

variable {m : Mapper} {o : Settings} {p q : PropertyMap} {e f : String × Value} {a : Attribute}

/-- Entries with one key and equal values. -/
def SameEntry (e f : String × Value) : Prop := e.1 = f.1 ∧ e.2.equals f.2 = true

theorem SameEntry.retains_eq (h : SameEntry e f) : m.retains o e = m.retains o f := by
  rw [retains, retains, h.1, (Value.equals_iff.1 h.2).omits_eq]

theorem SameEntry.makes (ho : o.hook = none) (h : SameEntry e f) (ha : m.Makes o e a) :
    m.Makes o f a := by
  have hfinal : m.finalValue o e = m.finalValue o f := by
    rw [finalValue, finalValue, ho, h.1, (Value.equals_iff.1 h.2).attributeText?_eq]
  rw [Makes, ← h.1, ← hfinal]
  exact ha

theorem retained_sameEntry {es fs : List (String × Value)} (h : List.Forall₂ SameEntry es fs) :
    List.Forall₂ SameEntry (m.retained o es) (m.retained o fs) :=
  List.rel_filter (fun _ _ hef => Eq.congr_left (SameEntry.retains_eq hef)) h

theorem makes_sameEntry (ho : o.hook = none) {es fs : List (String × Value)} {out : List Attribute}
    (h : List.Forall₂ SameEntry es fs) (hmade : List.Forall₂ (m.Makes o) es out) :
    List.Forall₂ (m.Makes o) fs out := by
  induction h generalizing out with
  | nil => exact hmade
  | cons hef _ ih =>
    cases hmade with
    | cons ha hmade => exact .cons (hef.makes ho ha) (ih hmade)

/-- No style of the one map is at fault unless an equal one of the other map is. -/
theorem exists_map_perm (ho : o.hook = none) (h : p.equals q = true) {out : List Attribute}
    (hout : m.map o p = .ok out) : ∃ out', m.map o q = .ok out' ∧ out.Perm out' := by
  obtain ⟨es, hperm, hsame⟩ := (PropertyMap.equals_iff.1 h).1.exists_perm
  have hmade := makes_sameEntry ho (retained_sameEntry hsame) (result_run_eq_ok_iff.1 hout)
  have hretained : (m.retained o q.entries).Perm (m.retained o es) := hperm.filter _
  obtain ⟨out', hmade', hout'⟩ := List.perm_comp_forall₂ hretained hmade
  exact ⟨out', result_run_eq_ok_iff.2 hmade', hout'.symm⟩

end Mapper

/-- Maps are equal if each key has equal values or none among their own entries, and their prototypes are equal.
Equality is symmetric and transitive, and nothing that reads a map tells equal maps apart: looked up along the
prototypes or not, each key has equal values or none; the keys are the same but for their order; and by the known
vocabularies and without a hook both maps make the same attributes but for their order, or neither makes any. -/
theorem PropertyMap.equals_congruence :
    (∀ p q : PropertyMap, p.equals q = true ↔
      (∀ key, Option.Rel (fun v w => v.equals w = true) (p.getOwn? key) (q.getOwn? key)) ∧
        Option.Rel (fun p' q' => p'.equals q' = true) p.prototype? q.prototype?) ∧
    (∀ p q : PropertyMap, p.equals q = true → q.equals p = true) ∧
    (∀ p q r : PropertyMap, p.equals q = true → q.equals r = true → p.equals r = true) ∧
    ∀ p q : PropertyMap, p.equals q = true →
      (∀ key, Option.Rel (fun v w => v.equals w = true) (p.get? key) (q.get? key) ∧
        Option.Rel (fun v w => v.equals w = true) (p.getOwn? key) (q.getOwn? key)) ∧
      p.keys.Perm q.keys ∧
      ∀ (spelling : Spelling) (schema : Schema),
        ((∃ out, p.toAttributes ⟨spelling, schema, none⟩ = .ok out) ↔
          ∃ out, q.toAttributes ⟨spelling, schema, none⟩ = .ok out) ∧
        ∀ out out', p.toAttributes ⟨spelling, schema, none⟩ = .ok out →
          q.toAttributes ⟨spelling, schema, none⟩ = .ok out' → out.Perm out' := by
  refine ⟨fun _ _ => equals_iff_prototype, fun _ _ => equals_symm, fun _ _ _ => equals_trans,
    fun p q h => ⟨?_, ?_, ?_⟩⟩
  · exact fun key => ⟨get?_of_equals h key, (equals_iff.1 h).1 key⟩
  · exact (equals_iff.1 h).1.keys_perm
  · intro spelling schema
    refine ⟨⟨?_, ?_⟩, ?_⟩
    · rintro ⟨out, hout⟩
      obtain ⟨out', hout', -⟩ := Mapper.exists_map_perm rfl h hout
      exact ⟨out', hout'⟩
    · rintro ⟨out', hout'⟩
      obtain ⟨out, hout, -⟩ := Mapper.exists_map_perm rfl (equals_symm h) hout'
      exact ⟨out, hout⟩
    · intro out out' hout hout'
      obtain ⟨out'', hout'', hperm⟩ := Mapper.exists_map_perm rfl h hout
      obtain rfl := Except.ok.inj (hout'.symm.trans hout'')
      exact hperm

theorem PropertyMap.equals_congruence_data :
    let p : PropertyMap := ⟨.ofList [("data-a", .text "x"), ("data-b", .text "y")],
      [.ofList [("width", .number .zero)]]⟩
    let q : PropertyMap := ⟨.ofList [("data-b", .text "y"), ("data-a", .text "x")],
      [.ofList [("width", .number (.finite true ⟨0, by decide⟩))]]⟩
    p.equals q = true ∧
      Option.Rel (fun v w => v.equals w = true) (p.get? "width") (q.get? "width") ∧
      p.toAttributes {} = .ok [⟨"dataA", .text "x"⟩, ⟨"dataB", .text "y"⟩] ∧
      ∃ out, q.toAttributes {} = .ok out ∧
        [⟨"dataA", .text "x"⟩, ⟨"dataB", .text "y"⟩].Perm out := by
  intro p q
  have h : p.equals q = true := by decide +kernel
  obtain ⟨-, -, -, hcongruence⟩ := equals_congruence
  obtain ⟨hvalues, -, hattributes⟩ := hcongruence p q h
  have ha : (PropertyMap.ofList [("data-a", .text "x")]).toAttributes {} = .ok [⟨"dataA", .text "x"⟩] :=
    toAttributes_data rfl (by decide +kernel) (by decide +kernel) (by decide +kernel) (by decide) "x"
  have hb : (PropertyMap.ofList [("data-b", .text "y")]).toAttributes {} = .ok [⟨"dataB", .text "y"⟩] :=
    toAttributes_data rfl (by decide +kernel) (by decide +kernel) (by decide +kernel) (by decide) "y"
  have hp : p.toAttributes {} = .ok [⟨"dataA", .text "x"⟩, ⟨"dataB", .text "y"⟩] :=
    Mapper.map_of_entries_append rfl ha hb
  obtain ⟨out, hout⟩ := (hattributes .react .html).1.1 ⟨_, hp⟩
  exact ⟨h, (hvalues "width").1, hp, out, hout, (hattributes .react .html).2 _ _ hp hout⟩

end JsxAttributes
