import JsxAttributes.Attribute.Mapper
import JsxAttributes.Proofs.OrderedMapWrites
import Mathlib.Data.List.Forall2

/-! Mapping a property map against a rule for one entry. Schema, spellings, style reader, encoder and
hook are arbitrary throughout: what a run returns, which fault ends it and what it asks the hook are
fixed by the entries that are retained, in their order. -/
namespace JsxAttributes.Mapper

/-! ## The rule for one entry -/

/-- The property, or its other spelling if React's names are asked for, the property has a namespace
and there is another spelling. -/
def workingName (m : Mapper) (o : Settings) (key : String) : String :=
  let info := m.resolve o.schema key
  match o.spelling, info.space, m.respell? info.property with
  | .react, some _, some spelling => spelling
  | _, _, _ => info.property

def retains (m : Mapper) (o : Settings) (e : String × Value) : Bool :=
  !(m.resolve o.schema e.1).omits e.2

def retained (m : Mapper) (o : Settings) (es : List (String × Value)) : List (String × Value) :=
  es.filter (m.retains o)

/-- What the hook is told of an entry. -/
def callOf (m : Mapper) (o : Settings) (e : String × Value) : HookCall :=
  ⟨m.workingName o e.1, (m.resolve o.schema e.1).attributeText? e.2, e.2⟩

/-- Each entry is told to the hook once, if there is a hook. -/
def hookCalls (m : Mapper) (o : Settings) (es : List (String × Value)) : List HookCall :=
  match o.hook with
  | none => []
  | some _ => es.map (m.callOf o)

/-- What the hook makes of an entry; without a hook, the computed text. -/
def finalValue (m : Mapper) (o : Settings) (e : String × Value) : Hooked :=
  let computed := (m.resolve o.schema e.1).attributeText? e.2
  match o.hook with
  | none => .ofText? computed
  | some hook => hook (m.workingName o e.1) computed e.2

/-- The object of a style: each key where it first stands, with its last value. -/
def styleObject (pairs : List (String × String)) : Json :=
  .obj ((lastWrites pairs).map fun e => (e.1, .str e.2))

/-- How a final value shows in an attribute of this name. -/
inductive Shows (m : Mapper) (name : String) : Hooked → AttributeValue → Prop where
  | absent : Shows m name .absent .absent
  | expression (e : Expression) : Shows m name (.expression e) (.expression e)
  | text (t : String) : name ≠ "style" → Shows m name (.text t) (.text t)
  | style (t : String) (pairs : List (String × String)) : name = "style" →
      m.style.read t = .ok pairs →
      Shows m name (.text t) (.expression (m.express (styleObject pairs)))

def Makes (m : Mapper) (o : Settings) (e : String × Value) (a : Attribute) : Prop :=
  a.name = m.workingName o e.1 ∧ m.Shows a.name (m.finalValue o e) a.value

/-- The entry is a style whose text cannot be read. -/
def Rejects (m : Mapper) (o : Settings) (e : String × Value) (f : Style.Fault) : Prop :=
  m.workingName o e.1 = "style" ∧ ∃ t, m.finalValue o e = .text t ∧ m.style.read t = .error f

/-! ## One step -/

variable {m : Mapper} {o : Settings} {e : String × Value} {es : List (String × Value)}

theorem attributeName_eq (m : Mapper) (o : Settings) (key : String) :
    m.attributeName o.spelling (m.resolve o.schema key) = m.workingName o key := by
  unfold attributeName respelling? workingName
  cases hs : o.spelling with
  | vocabulary => simp
  | react =>
    cases hn : (m.resolve o.schema key).space with
    | none => simp [hn]
    | some space => cases hr : m.respell? (m.resolve o.schema key).property <;> simp [hn, hr]

theorem styleValue_entries (pairs : List (String × String)) :
    Json.obj (styleValue pairs).entries = styleObject pairs := by
  rw [styleValue, OrderedMap.entries_ofList, styleObject, ← lastWrites_map]

theorem attributeValue_eq_ok_iff {name : String} {v : Hooked} {a : AttributeValue} :
    m.attributeValue name v = .ok a ↔ m.Shows name v a := by
  constructor
  · intro h
    cases v with
    | absent => cases h; exact .absent
    | expression e => cases h; exact .expression e
    | text t =>
      rw [attributeValue] at h
      by_cases hn : name = "style"
      · rw [if_pos hn] at h
        cases hr : m.style.read t with
        | error f => simp [hr, Except.map] at h
        | ok pairs =>
          simp only [hr, Except.map, Except.ok.injEq, styleValue_entries] at h
          exact h ▸ .style t pairs hn hr
      · rw [if_neg hn] at h
        cases h
        exact .text t hn
  · intro h
    cases h with
    | absent => rfl
    | expression e => rfl
    | text t hn => rw [attributeValue, if_neg hn]
    | style t pairs hn hr =>
      rw [attributeValue, if_pos hn, hr, Except.map, styleValue_entries]

theorem attributeValue_eq_error_iff {name : String} {v : Hooked} {f : Style.Fault} :
    m.attributeValue name v = .error f ↔
      name = "style" ∧ ∃ t, v = .text t ∧ m.style.read t = .error f := by
  cases v with
  | absent => simp [attributeValue]
  | expression e => simp [attributeValue]
  | text t =>
    by_cases hn : name = "style"
    · cases hr : m.style.read t <;> simp [attributeValue, hn, hr, Except.map]
    · simp [attributeValue, hn]

theorem step_of_omits (h : m.retains o e = false) :
    (m.step o e.1 e.2).calls = [] ∧ (m.step o e.1 e.2).result = .ok none := by
  have ho : (m.resolve o.schema e.1).omits e.2 = true := by simpa [retains] using h
  simp [step, ho]

/-- A retained entry is told to the hook and makes its attribute or its fault. -/
theorem step_of_retains (h : m.retains o e = true) :
    (m.step o e.1 e.2).calls = m.hookCalls o [e] ∧
      (m.step o e.1 e.2).result = (m.attributeValue (m.workingName o e.1) (m.finalValue o e)).map
        fun v => some ⟨m.workingName o e.1, v⟩ := by
  have ho : (m.resolve o.schema e.1).omits e.2 = false := by simpa [retains] using h
  cases hk : o.hook <;>
    simp [step, ho, hk, hookCalls, finalValue, callOf, attributeName_eq]

theorem step_eq_ok (h : m.retains o e = true) {made : Option Attribute}
    (hs : (m.step o e.1 e.2).result = .ok made) : ∃ a, made = some a ∧ m.Makes o e a := by
  rw [(step_of_retains h).2] at hs
  cases hv : m.attributeValue (m.workingName o e.1) (m.finalValue o e) with
  | error f => simp [hv, Except.map] at hs
  | ok v =>
    simp only [hv, Except.map, Except.ok.injEq] at hs
    exact ⟨_, hs.symm, rfl, attributeValue_eq_ok_iff.1 hv⟩

theorem step_eq_error (h : m.retains o e = true) {f : Style.Fault}
    (hs : (m.step o e.1 e.2).result = .error f) : m.Rejects o e f := by
  rw [(step_of_retains h).2] at hs
  cases hv : m.attributeValue (m.workingName o e.1) (m.finalValue o e) with
  | error g =>
    simp only [hv, Except.map, Except.error.injEq] at hs
    exact attributeValue_eq_error_iff.1 (hs ▸ hv)
  | ok v => simp [hv, Except.map] at hs

theorem Makes.not_rejects {a : Attribute} (h : m.Makes o e a) (f : Style.Fault) :
    ¬ m.Rejects o e f := by
  intro hrejects
  obtain ⟨hn, t, hv, hr⟩ := hrejects
  have hok := attributeValue_eq_ok_iff.2 h.2
  rw [h.1, attributeValue_eq_error_iff.2 ⟨hn, t, hv, hr⟩] at hok
  cases hok

/-! ## A run -/

theorem result_run_cons (m : Mapper) (o : Settings) (e : String × Value)
    (es : List (String × Value)) : (m.run o (e :: es)).result =
      (m.step o e.1 e.2).result.bind fun made => (m.run o es).result.map (made.toList ++ ·) := by
  rw [run]
  cases hs : (m.step o e.1 e.2).result <;> rfl

/-- The entries behind others are mapped after these, if none of these is at fault. -/
theorem result_run_append (m : Mapper) (o : Settings) (es fs : List (String × Value)) :
    (m.run o (es ++ fs)).result =
      (m.run o es).result.bind fun out => (m.run o fs).result.map (out ++ ·) := by
  induction es with
  | nil => cases hf : (m.run o fs).result <;> simp [run, hf, Except.bind, Except.map]
  | cons e es ih =>
    rw [List.cons_append, result_run_cons, result_run_cons, ih]
    cases (m.step o e.1 e.2).result with
    | error f => rfl
    | ok made =>
      cases (m.run o es).result with
      | error f => rfl
      | ok out => cases (m.run o fs).result <;> simp [Except.bind, Except.map]

theorem map_of_entries_append {p before after : PropertyMap} {out out' : List Attribute}
    (h : p.entries = before.entries ++ after.entries) (hout : m.map o before = .ok out)
    (hout' : m.map o after = .ok out') : m.map o p = .ok (out ++ out') := by
  rw [map] at hout hout'
  rw [map, h, result_run_append, hout, hout']
  rfl

/-- What a run over the entries leads to, with the hook calls beside the result. -/
def Outcome (m : Mapper) (o : Settings) (es : List (String × Value)) (calls : List HookCall) :
    Except Style.Fault (List Attribute) → Prop
  | .ok out => List.Forall₂ (m.Makes o) (m.retained o es) out ∧
      calls = m.hookCalls o (m.retained o es)
  | .error f => ∃ before e after, m.retained o es = before ++ e :: after ∧
      (∀ b ∈ before, ∀ g, ¬ m.Rejects o b g) ∧ m.Rejects o e f ∧
      calls = m.hookCalls o (before ++ [e])

theorem retained_cons_of_omits (h : m.retains o e = false) :
    m.retained o (e :: es) = m.retained o es := by
  simp [retained, h]

theorem retained_cons_of_retains (h : m.retains o e = true) :
    m.retained o (e :: es) = e :: m.retained o es := by
  simp [retained, h]

theorem hookCalls_append (es fs : List (String × Value)) :
    m.hookCalls o (es ++ fs) = m.hookCalls o es ++ m.hookCalls o fs := by
  cases hk : o.hook <;> simp [hookCalls, hk]

/-- An entry in front of others: its attribute, if it makes one, goes before theirs. -/
theorem Outcome.cons {a : Attribute} {calls : List HookCall}
    {result : Except Style.Fault (List Attribute)} (hr : m.retains o e = true)
    (ha : m.Makes o e a) (h : m.Outcome o es calls result) :
    m.Outcome o (e :: es) (m.hookCalls o [e] ++ calls) (result.map (a :: ·)) := by
  cases result with
  | ok out =>
    obtain ⟨hm, hc⟩ := h
    refine ⟨?_, ?_⟩
    · rw [retained_cons_of_retains hr]
      exact .cons ha hm
    · rw [retained_cons_of_retains hr, hc, ← hookCalls_append]
      rfl
  | error f =>
    obtain ⟨before, x, after, hs, hb, hx, hc⟩ := h
    refine ⟨e :: before, x, after, ?_, ?_, hx, ?_⟩
    · rw [retained_cons_of_retains hr, hs]
      rfl
    · intro b hmem
      cases List.mem_cons.1 hmem with
      | inl heq =>
        subst heq
        exact ha.not_rejects
      | inr hmem => exact hb b hmem
    · rw [hc, ← hookCalls_append]
      rfl

theorem run_outcome (m : Mapper) (o : Settings) (es : List (String × Value)) :
    m.Outcome o es (m.run o es).calls (m.run o es).result := by
  induction es with
  | nil => exact ⟨.nil, by cases hk : o.hook <;> simp [run, hookCalls, retained, hk]⟩
  | cons e es ih =>
    rw [run]
    cases hr : m.retains o e with
    | false =>
      obtain ⟨hc, hs⟩ := step_of_omits hr
      have hmap : (m.run o es).result.map (fun out => none.toList ++ out) = (m.run o es).result := by
        cases (m.run o es).result <;> rfl
      simp only [hc, hs, List.nil_append, hmap]
      cases hres : (m.run o es).result <;>
        simpa only [Outcome, retained_cons_of_omits hr, hres] using ih
    | true =>
      have hc := (step_of_retains hr).1
      cases hs : (m.step o e.1 e.2).result with
      | error f =>
        refine ⟨[], e, m.retained o es, retained_cons_of_retains hr, ?_, step_eq_error hr hs, hc⟩
        simp
      | ok made =>
        obtain ⟨a, rfl, ha⟩ := step_eq_ok hr hs
        simp only [hc, Option.toList_some, List.singleton_append]
        exact ih.cons hr ha

/-- Mapping succeeds exactly if no retained entry is a style that cannot be read. Then the attributes
are those of the retained entries, one for each and in their order, and the hook has seen each of them
once. Otherwise the fault is that of the first such style, and the hook has seen the retained entries
up to it. -/
theorem map_retained (m : Mapper) (o : Settings) (p : PropertyMap) :
    ((∃ out, m.map o p = .ok out) ↔ ∀ e ∈ m.retained o p.entries, ∀ f, ¬ m.Rejects o e f) ∧
    (∀ out, m.map o p = .ok out → List.Forall₂ (m.Makes o) (m.retained o p.entries) out ∧
      (m.run o p.entries).calls = m.hookCalls o (m.retained o p.entries)) ∧
    (∀ f, m.map o p = .error f → ∃ before e after,
      m.retained o p.entries = before ++ e :: after ∧
      (∀ b ∈ before, ∀ g, ¬ m.Rejects o b g) ∧ m.Rejects o e f ∧
      (m.run o p.entries).calls = m.hookCalls o (before ++ [e])) := by
  have h := run_outcome m o p.entries
  refine ⟨⟨?_, ?_⟩, ?_, ?_⟩
  · intro hmapped e he
    obtain ⟨out, hout⟩ := hmapped
    rw [map] at hout
    rw [hout] at h
    obtain ⟨i, hi, rfl⟩ := List.getElem_of_mem he
    have hl := h.1.length_eq
    exact (h.1.get hi (hl ▸ hi)).not_rejects
  · intro hno
    cases hres : m.map o p with
    | ok out => exact ⟨out, rfl⟩
    | error f =>
      rw [map] at hres
      rw [hres] at h
      obtain ⟨before, e, after, hs, -, hf, -⟩ := h
      exact absurd hf (hno e (by simp [hs]) f)
  · intro out hout
    rw [map] at hout
    rwa [hout] at h
  · intro f hf
    rw [map] at hf
    rwa [hf] at h

end JsxAttributes.Mapper
