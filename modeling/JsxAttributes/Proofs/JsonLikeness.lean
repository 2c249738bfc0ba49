import JsxAttributes.Json.Record
import JsxAttributes.Proofs.ValueEquality
import Mathlib.Data.List.Perm.Basic

/-! When two JSON values are alike. As they are written they are alike only if they are the same; as values they
are alike also if members of objects stand in another order or zeros have other signs. Either way what is alike is
so member by member, whatever the members are asked for. -/
namespace JsxAttributes

open Number (Double)

namespace Json

/-- Two members of one name, with values that are related. -/
inductive MemberRel (r : Json → Json → Prop) : String × Json → String × Json → Prop where
  | named (name : String) {j k : Json} : r j k → MemberRel r (name, j) (name, k)

/-- Equality of values: the members of an object stand in any order, and the two zeros are equal. -/
inductive Alike : Json → Json → Prop where
  | null : Alike .null .null
  | bool (b : Bool) : Alike (.bool b) (.bool b)
  | int (n : Int) : Alike (.int n) (.int n)
  | double {x y : Double} : x.equals y = true → Alike (.double x) (.double y)
  | str (t : String) : Alike (.str t) (.str t)
  | arr {xs ys : List Json} : List.Forall₂ Alike xs ys → Alike (.arr xs) (.arr ys)
  | obj {ms ns ns' : List (String × Json)} : ns.Perm ns' →
      List.Forall₂ (MemberRel Alike) ms ns' → Alike (.obj ms) (.obj ns)

/-- A way for values to be alike that goes down into arrays and to the members of objects. -/
structure Likeness (r : Json → Json → Prop) : Prop where
  symm {j k : Json} : r j k → r k j
  null {k : Json} : r .null k → k = .null
  bool {b : Bool} {k : Json} : r (.bool b) k → k = .bool b
  int {n : Int} {k : Json} : r (.int n) k → k = .int n
  double {x : Double} {k : Json} : r (.double x) k → ∃ y, k = .double y ∧ (x = y ∨ x.equals y = true)
  str {t : String} {k : Json} : r (.str t) k → k = .str t
  arr {xs : List Json} {k : Json} : r (.arr xs) k → ∃ ys, k = .arr ys ∧ List.Forall₂ r xs ys
  obj {ms : List (String × Json)} {k : Json} : r (.obj ms) k → ∃ ns, k = .obj ns ∧
    ∀ name, Option.Rel (Option.Rel r) (field? name ms) (field? name ns)

namespace Likeness

variable {r : Json → Json → Prop} {ms ns : List (String × Json)}

/-- What is like an object is an object that has the same members, with like values. -/
theorem exists_members (hr : Likeness r) {k : Json} (h : r (.obj ms) k) : ∃ ns, k = .obj ns ∧
    ∀ name j, field? name ms = some (some j) → ∃ j', field? name ns = some (some j') ∧ r j j' := by
  obtain ⟨ns, hk, hfields⟩ := hr.obj h
  refine ⟨ns, hk, fun name j hj => ?_⟩
  have hname := hfields name
  rw [hj] at hname
  generalize field? name ns = f at hname
  cases hname with
  | some hname =>
    cases hname with
    | some hj => exact ⟨_, rfl, hj⟩

theorem member (hr : Likeness r) (h : r (.obj ms) (.obj ns)) (name : String) {j k : Json}
    (hj : field? name ms = some (some j)) (hk : field? name ns = some (some k)) : r j k := by
  obtain ⟨ns', hns, hmembers⟩ := hr.exists_members h
  obtain rfl := Json.obj.inj hns
  obtain ⟨j', hj', hjj'⟩ := hmembers name j hj
  obtain rfl := Option.some.inj (Option.some.inj (hk.symm.trans hj'))
  exact hjj'

end Likeness

/-! ## The same as written -/

theorem likeness_eq : Likeness Eq where
  symm h := h.symm
  null h := h.symm
  bool h := h.symm
  int h := h.symm
  double {x _} h := ⟨x, h.symm, .inl rfl⟩
  str h := h.symm
  arr {xs _} h := ⟨xs, h.symm, List.forall₂_eq_eq_eq ▸ rfl⟩
  obj {ms _} h := by
    refine ⟨ms, h.symm, fun name => ?_⟩
    generalize field? name ms = f
    cases f with
    | none => exact .none
    | some v =>
      cases v with
      | none => exact .some .none
      | some j => exact .some (.some rfl)

/-! ## The same as values -/

/-- What stands under a name does not depend on where it stands. -/
theorem rel_field? {r : Json → Json → Prop} {ms ns ns' : List (String × Json)} (hperm : ns.Perm ns')
    (h : List.Forall₂ (MemberRel r) ms ns') (name : String) :
    Option.Rel (Option.Rel r) (field? name ms) (field? name ns) := by
  have hnamed := List.rel_filter (p := (·.1 = name)) (q := (·.1 = name))
    (fun _ _ ⟨_, _⟩ => Iff.rfl) h
  have hnamedPerm := hperm.filter (·.1 = name)
  rw [field?, field?]
  generalize ms.filter (·.1 = name) = ms at hnamed
  generalize ns'.filter (·.1 = name) = ns' at hnamed hnamedPerm
  generalize ns.filter (·.1 = name) = ns at hnamedPerm
  cases hnamed with
  | nil =>
    obtain rfl := hnamedPerm.eq_nil
    exact .some .none
  | cons hmn hothers =>
    cases hothers with
    | nil =>
      obtain rfl := List.perm_singleton.1 hnamedPerm
      obtain ⟨_, hjk⟩ := hmn
      exact .some (.some hjk)
    | cons _ _ =>
      have hlength := hnamedPerm.length_eq
      rw [List.length_cons, List.length_cons] at hlength
      obtain ⟨_, ns, rfl⟩ := List.exists_cons_of_length_eq_add_one hlength
      obtain ⟨_, ns, rfl⟩ := List.exists_cons_of_length_eq_add_one (Nat.succ.inj hlength)
      exact .none

mutual

theorem alike_symm : (j : Json) → ∀ {k : Json}, Alike j k → Alike k j
  | .null, _, h => by cases h; exact .null
  | .bool b, _, h => by cases h; exact .bool b
  | .int n, _, h => by cases h; exact .int n
  | .double x, _, h => by
    cases h with
    | double h => exact .double (Double.equals_symm h)
  | .str t, _, h => by cases h; exact .str t
  | .arr items, _, h => by
    cases h with
    | arr h => exact .arr (itemsAlike_symm items h)
  | .obj members, _, h => by
    cases h with
    | obj hperm h =>
      obtain ⟨ms, hms, hperm'⟩ := List.perm_comp_forall₂ hperm (membersAlike_symm members h)
      exact .obj hperm'.symm hms

theorem itemsAlike_symm : (xs : List Json) → ∀ {ys : List Json}, List.Forall₂ Alike xs ys →
    List.Forall₂ Alike ys xs
  | [], _, h => by cases h; exact .nil
  | j :: r, _, h => by
    cases h with
    | cons hj hr => exact .cons (alike_symm j hj) (itemsAlike_symm r hr)

theorem membersAlike_symm : (ms : List (String × Json)) → ∀ {ns : List (String × Json)},
    List.Forall₂ (MemberRel Alike) ms ns →
      List.Forall₂ (MemberRel Alike) ns ms
  | [], _, h => by cases h; exact .nil
  | (key, j) :: r, _, h => by
    cases h with
    | cons hj hr =>
      obtain ⟨_, hj⟩ := hj
      exact .cons (.named key (alike_symm j hj)) (membersAlike_symm r hr)

end

theorem likeness_alike : Likeness Alike where
  symm h := alike_symm _ h
  null h := by cases h; rfl
  bool h := by cases h; rfl
  int h := by cases h; rfl
  double h := by
    cases h with
    | double h => exact ⟨_, rfl, .inr h⟩
  str h := by cases h; rfl
  arr h := by
    cases h with
    | arr h => exact ⟨_, rfl, h⟩
  obj h := by
    cases h with
    | obj hperm h => exact ⟨_, rfl, rel_field? hperm h⟩

end Json
end JsxAttributes
