import JsxAttributes.Proofs.EncodedValue
import JsxAttributes.Proofs.StyleObject
import JsxAttributes.Proofs.WorkingName

/-! A style text from its declarations to the attribute. The entries read from it have distinct keys, the
array indexes first and ascending, and `__proto__` is not among them; so neither the map that collects
them nor the object literal that is written for them changes anything, and a script that evaluates
the literal enumerates the entries again. -/
namespace JsxAttributes

/-! ## Object literals -/

namespace ScriptObject
variable {α : Type}

theorem foldl_define (es : List (String × α)) :
    es.foldl (fun x e => x.define e.1 e.2) .empty = ofMap (.ofList es) := by
  induction es using List.reverseRecOn with
  | nil => rfl
  | append_singleton es e ih =>
    rw [List.foldl_append, ih, OrderedMap.ofList_append_one, ofMap_insert]
    rfl

end ScriptObject

namespace Style
variable {α : Type}

/-- Entries that stand in the order of enumeration are not moved by it. -/
theorem enumerate_eq_self {es : List (String × α)} {ns : List Nat} {others : List String}
    (hkeys : es.map Prod.fst = ns.map toString ++ others) (hns : ns.Pairwise (· < ·))
    (hbound : ∀ n ∈ ns, n < indexCount) (hothers : ∀ key ∈ others, ¬ IsIndex key) :
    enumerate es = es := by
  obtain ⟨as, bs, rfl, has, hbs⟩ := List.map_eq_append_iff.1 hkeys
  have hindex : ∀ e ∈ as, (keyIndex? e.1).isSome = true := by
    intro e he
    have hmem : e.1 ∈ ns.map toString := has ▸ List.mem_map_of_mem he
    obtain ⟨n, hn, hk⟩ := List.mem_map.1 hmem
    exact isSome_keyIndex?_iff.2 ⟨n, hbound n hn, hk.symm⟩
  have hother : ∀ e ∈ bs, (keyIndex? e.1).isSome = false := by
    intro e he
    rw [Bool.eq_false_iff, ne_eq, isSome_keyIndex?_iff]
    exact hothers e.1 (hbs ▸ List.mem_map_of_mem he)
  have hindexes : as.map indexOf = ns := by
    have hn : ∀ n ∈ ns, (keyIndex? (toString n)).getD 0 = n := fun n hn => by
      rw [keyIndex?_eq_some_iff.2 ⟨hbound n hn, rfl⟩, Option.getD_some]
    calc
      as.map indexOf = (as.map Prod.fst).map fun key => (keyIndex? key).getD 0 := by
        rw [List.map_map]
        rfl
      _ = ns := by rw [has, List.map_map, List.map_congr_left (f := _ ∘ _) (g := id) hn, List.map_id]
  have hsorted : as.Pairwise fun e f => decide (indexOf e ≤ indexOf f) = true := by
    rw [← hindexes, List.pairwise_map] at hns
    exact hns.imp fun h => decide_eq_true (Nat.le_of_lt h)
  have hfirst : (as ++ bs).filter (fun e => (keyIndex? e.1).isSome) = as := by
    rw [List.filter_append, List.filter_eq_self.2 hindex,
      List.filter_eq_nil_iff.2 fun e he => by simp [hother e he], List.append_nil]
  have hlast : (as ++ bs).filter (fun e => !(keyIndex? e.1).isSome) = bs := by
    rw [List.filter_append, List.filter_eq_nil_iff.2 fun e he => by simp [hindex e he],
      List.filter_eq_self.2 fun e he => by simp [hother e he], List.nil_append]
  calc
    enumerate (as ++ bs) = as.mergeSort (indexOf · ≤ indexOf ·) ++ bs :=
      congrArg₂ (fun as bs => as.mergeSort (indexOf · ≤ indexOf ·) ++ bs) hfirst hlast
    _ = as ++ bs := by rw [List.mergeSort_of_pairwise hsorted]

theorem leaves_of_readObject {o : KeyOptions} {text : String} {kvs : List (String × String)}
    (h : readObject o text = .ok kvs) : ∃ ds, Leaves o ds kvs := by
  cases hr : readDeclarations text with
  | error f =>
    rw [readObject, hr] at h
    cases h
  | ok ds =>
    obtain ⟨hread, hleaves⟩ := readObject_of_ok o hr
    rw [hread, Except.ok.injEq] at h
    exact ⟨ds, h ▸ hleaves⟩

end Style

/-! ## The literal of a style -/

/-- The object that a script makes of an object literal: its properties are defined in their order. -/
def Expression.scriptObject? : Expression → Option (ScriptObject ScriptValue)
  | .object properties =>
    (evalProperties properties).map (·.foldl (fun x e => x.define e.1 e.2) .empty)
  | _ => none

/-- A literal with a plain property for each entry, from text to text. -/
def styleExpression (pairs : List (String × String)) : Expression :=
  .object (pairs.map fun e => ⟨false, .text e.1, .init, false, false, .text e.2⟩)

/-- Entries that come through collecting, encoding and evaluating unchanged. -/
structure IsStyle (kvs : List (String × String)) : Prop where
  distinct : (kvs.map Prod.fst).Nodup
  plain : ∀ e ∈ kvs, e.1 ≠ "__proto__"
  enumerated : ∀ es : List (String × ScriptValue), es.map Prod.fst = kvs.map Prod.fst →
    Style.enumerate es = es

variable {k : Style.KeyOptions} {t : String} {kvs : List (String × String)}

theorem isStyle_of_readObject (h : Style.readObject k t = .ok kvs) : IsStyle kvs := by
  obtain ⟨ds, hl⟩ := Style.leaves_of_readObject h
  obtain ⟨ns, hlt, hbound, hkeys⟩ := hl.order
  refine ⟨hl.distinct, fun e he => ((hl.keys e.1).1 (List.mem_map_of_mem he)).1, fun es hes => ?_⟩
  refine Style.enumerate_eq_self (hes.trans hkeys) hlt hbound fun key hk => ?_
  have hother := of_decide_eq_true (List.mem_filter.1 hk).2
  exact hother.2

theorem ofText_eq_plain {key : String} (h : key ≠ "__proto__") (e : Expression) :
    Property.ofText key e = ⟨false, .text key, .init, false, false, e⟩ := by
  rw [Property.ofText, beq_eq_false_iff_ne.2 h]

theorem ofMembers_texts (h : ∀ e ∈ kvs, e.1 ≠ "__proto__") :
    Expression.ofMembers (kvs.map fun e => (e.1, .str e.2)) =
      kvs.map fun e => ⟨false, .text e.1, .init, false, false, .text e.2⟩ := by
  induction kvs with
  | nil => rfl
  | cons e r ih =>
    obtain ⟨he, hr⟩ := List.forall_mem_cons.1 h
    rw [List.map_cons, Expression.ofMembers, ih hr, Expression.ofValue, ofText_eq_plain he]
    rfl

theorem IsStyle.ofValue_eq (h : IsStyle kvs) :
    Expression.ofValue (.obj (styleValue kvs).entries) = styleExpression kvs := by
  have hnodup : ((kvs.map fun e => (e.1, Json.str e.2)).map Prod.fst).Nodup := by
    rw [List.map_map]
    exact h.distinct
  rw [styleValue, OrderedMap.entries_ofList_of_nodup hnodup, Expression.ofValue,
    ofMembers_texts h.plain, styleExpression]

theorem evalProperties_texts (h : ∀ e ∈ kvs, e.1 ≠ "__proto__") :
    Expression.evalProperties
        (kvs.map fun e => ⟨false, .text e.1, .init, false, false, .text e.2⟩) =
      some (kvs.map fun e => (e.1, .text e.2)) := by
  induction kvs with
  | nil => rfl
  | cons e r ih =>
    obtain ⟨he, hr⟩ := List.forall_mem_cons.1 h
    have htext : (Expression.text e.2).eval = some (.text e.2) := by
      rw [Expression.text, Expression.eval, Literal.value]
    rw [List.map_cons, ← ofText_eq_plain he]
    exact Expression.evalProperties_ofText htext (ih hr)

/-- Evaluating the literal gives the entries, in their order. -/
theorem IsStyle.entries_scriptObject (h : IsStyle kvs) : ∃ x,
    (styleExpression kvs).scriptObject? = some x ∧
      x.entries = kvs.map fun e => (e.1, .text e.2) := by
  refine ⟨.ofMap (.ofList (kvs.map fun e => (e.1, .text e.2))), ?_, ?_⟩
  · rw [styleExpression, Expression.scriptObject?, evalProperties_texts h.plain, Option.map_some,
      ScriptObject.foldl_define]
  · have hkeys : (kvs.map fun e => (e.1, ScriptValue.text e.2)).map Prod.fst = kvs.map Prod.fst := by
      rw [List.map_map]
      rfl
    rw [← Style.enumerate_entries, OrderedMap.entries_ofList_of_nodup (hkeys ▸ h.distinct),
      h.enumerated _ hkeys]

/-! ## Mapping -/

/-- The mapper that writes the keys of styles so, and knows the vocabularies. -/
def Mapper.inline (k : Style.KeyOptions) : Mapper where
  style := .inline k

namespace Mapper

variable {m : Mapper} {o : Settings} {key : String}

/-- A style text is never skipped, and its attribute holds what the text is read to. -/
theorem result_step_style (hm : m.KnowsNames) (ho : o.hook = none)
    (hn : m.workingName o key = "style") (t : String) :
    (m.step o key (.text t)).result = (m.style.read t).map fun pairs =>
      some ⟨"style", .expression (m.express (.obj (styleValue pairs).entries))⟩ := by
  have hb : (o.schema.resolve key).shape.boolean = false := by
    apply Schema.boolean_style
    rw [← lowercased_workingName hm, hn]
    decide +kernel
  have hretained : m.retains o (key, .text t) = true := by
    simp [retains, Info.omits, hm.resolve, hb, Value.isNaN]
  have hfinal : m.finalValue o (key, .text t) = .text t := by
    rw [finalValue, ho]
    rfl
  rw [(step_of_retains hretained).2, hn, hfinal, attributeValue, if_pos rfl]
  cases m.style.read t <;> rfl

end Mapper

/-- A style text that cannot be read ends the mapping with its fault, unless an entry before it does. One
that can becomes an object literal of the entries read, and a script that evaluates the literal makes an
object that lists exactly these entries. -/
theorem map_style (k : Style.KeyOptions) (o : Settings) (p : PropertyMap)
    {before after : List (String × Value)} {key t : String} (ho : o.hook = none)
    (hp : p.entries = before ++ (key, .text t) :: after)
    (hn : (Mapper.inline k).workingName o key = "style") :
    (∀ f, Style.readObject k t = .error f → (Mapper.inline k).map o p =
      ((Mapper.inline k).run o before).result.bind fun _ => .error f) ∧
    ∀ kvs, Style.readObject k t = .ok kvs → (Mapper.inline k).map o p =
      (((Mapper.inline k).run o before).result.bind fun first =>
        ((Mapper.inline k).run o after).result.map fun others =>
          first ++ ⟨"style", .expression (styleExpression kvs)⟩ :: others) ∧
      (kvs.map Prod.fst).Nodup ∧ ∃ x, (styleExpression kvs).scriptObject? = some x ∧
        x.entries = kvs.map fun e => (e.1, .text e.2) := by
  have hstep := Mapper.result_step_style (m := .inline k) ⟨rfl, rfl⟩ ho hn t
  rw [Mapper.map, hp, Mapper.result_run_append, Mapper.result_run_cons, hstep]
  refine ⟨fun f hf => ?_, fun kvs hkvs => ?_⟩
  · have hread : (Mapper.inline k).style.read t = .error f := hf
    rw [hread]
    rfl
  · have hread : (Mapper.inline k).style.read t = .ok kvs := hkvs
    have hstyle := isStyle_of_readObject hkvs
    refine ⟨?_, hstyle.distinct, hstyle.entries_scriptObject⟩
    rw [hread, ← hstyle.ofValue_eq]
    cases ((Mapper.inline k).run o after).result <;> rfl

theorem map_style_index :
    (Mapper.inline {}).map {} (.ofList [("STYLE", .text "b-c: d; 1: e")]) =
        .ok [⟨"style", .expression (styleExpression [("1", "e"), ("bC", "d")])⟩] ∧
      ∃ x, (styleExpression [("1", "e"), ("bC", "d")]).scriptObject? = some x ∧
        x.entries = [("1", .text "e"), ("bC", .text "d")] := by
  have hn : (Mapper.inline {}).workingName {} "STYLE" = "style" :=
    Mapper.workingName_of_language (e := ("style", .plain)) ⟨rfl, rfl⟩ (by decide +kernel)
      (by decide +kernel) (by decide +kernel)
  have hread : (Style.readObject {} "b-c: d; 1: e").toOption = some [("1", "e"), ("bC", "d")] := by
    decide +kernel
  cases hobject : Style.readObject {} "b-c: d; 1: e" with
  | error f =>
    rw [hobject] at hread
    cases hread
  | ok kvs =>
    rw [hobject] at hread
    obtain rfl := Option.some.inj hread
    have hp : (PropertyMap.ofList [("STYLE", .text "b-c: d; 1: e")]).entries =
        [] ++ ("STYLE", .text "b-c: d; 1: e") :: [] := rfl
    obtain ⟨hmap, -, heval⟩ := (map_style {} {} _ rfl hp hn).2 _ hobject
    exact ⟨hmap, heval⟩

end JsxAttributes
