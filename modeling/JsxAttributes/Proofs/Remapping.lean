import JsxAttributes.Proofs.WorkingName

/-! Mapping attributes again. Read back as a property map, attributes without expressions are mapped to
themselves, one for one, except where a list was joined to the empty text of a flag, which is then skipped, and
where the name of a data attribute drifts. -/
namespace JsxAttributes

/-! ## Texts of numbers -/

namespace Number

theorem positional_ne_nil {digits : List Char} (h : digits ≠ []) (keepsFraction : Bool)
    (point : Int) : positional keepsFraction digits point ≠ [] := by
  rw [positional]
  split
  · simp
  · split <;> simp [h]

theorem scientific_ne_nil (digits : List Char) (point : Int) : scientific digits point ≠ [] := by
  simp [scientific]

theorem ofDecimal_ne_nil (l : Layout) (d : Decimal) : l.ofDecimal d ≠ [] := by
  unfold Layout.ofDecimal
  extract_lets digits point
  split
  · exact positional_ne_nil Nat.toDigits_ne_nil _ _
  · exact scientific_ne_nil _ _

theorem write_ne_nil (l : Layout) (negative : Bool) (rank : Nat) : l.write negative rank ≠ [] := by
  rw [Layout.write]
  split
  · split <;> simp
  · exact List.append_ne_nil_of_right_ne_nil _ (ofDecimal_ne_nil _ _)

/-- The text of a number is never empty. -/
theorem Double.toText_ne_empty (x : Double) : x.toText ≠ "" := by
  cases x with
  | nan => decide
  | infinite negative => cases negative <;> decide
  | finite negative rank =>
    rw [Double.toText, ne_eq, String.ofList_eq_empty_iff]
    exact write_ne_nil _ negative rank

end Number

/-! ## Reading attributes back -/

/-- The value that an attribute stands for. Expressions are not read back. -/
def AttributeValue.readBack : AttributeValue → Value
  | .absent => .bool true
  | .text t => .text t
  | .expression _ => .null

def Attribute.readBack (a : Attribute) : String × Value := (a.name, a.value.readBack)

def PropertyMap.ofAttributes (out : List Attribute) : PropertyMap := .ofList (out.map (·.readBack))

/-- A flag whose value is a list that is joined to the empty text. -/
def Vanishes (o : Settings) (e : String × Value) : Prop :=
  (o.schema.resolve e.1).shape.boolean = true ∧
    ∃ tokens, e.2 = .list tokens ∧ (o.schema.resolve e.1).attributeText? e.2 = some ""

theorem entries_ofAttributes {out : List Attribute} (h : (out.map (·.name)).Nodup) :
    (PropertyMap.ofAttributes out).entries = out.map (·.readBack) := by
  apply OrderedMap.entries_ofList_of_nodup
  rw [List.map_map]
  exact h

/-- Of the values of a flag that are not skipped, only a list can have the empty text. -/
theorem exists_tokens {i : Info} {v : Value} (ho : i.omits v = false)
    (hb : i.shape.boolean = true) (ht : i.attributeText? v = some "") : ∃ tokens, v = .list tokens := by
  cases v with
  | null => cases ho
  | bool b => cases b <;> simp [Info.omits, Info.attributeText?] at ho ht
  | number x => exact absurd (Option.some.inj ht) (Number.Double.toText_ne_empty x)
  | text t =>
    obtain rfl : t = "" := Option.some.inj ht
    simp [Info.omits, hb, Value.isFalsy] at ho
  | list tokens => exact ⟨tokens, rfl⟩

namespace Mapper

variable {m : Mapper} {o : Settings} {e : String × Value} {a : Attribute}

theorem makes_rightUnique : Relator.RightUnique (m.Makes o) := by
  intro e a b ha hb
  have hname : a.name = b.name := ha.1.trans hb.1.symm
  have hav := attributeValue_eq_ok_iff.2 ha.2
  rw [hname, attributeValue_eq_ok_iff.2 hb.2, Except.ok.injEq] at hav
  cases a
  cases b
  exact congrArg₂ Attribute.mk hname hav.symm

/-- A run ends with these attributes exactly if the retained entries make them. -/
theorem result_run_eq_ok_iff {es : List (String × Value)} {out : List Attribute} :
    (m.run o es).result = .ok out ↔ List.Forall₂ (m.Makes o) (m.retained o es) out := by
  have h := run_outcome m o es
  cases hres : (m.run o es).result with
  | error f =>
    rw [hres] at h
    obtain ⟨before, x, after, hs, -, hx, -⟩ := h
    refine iff_of_false (fun he => nomatch he) fun hmade => ?_
    have hmem : x ∈ m.retained o es := by simp [hs]
    obtain ⟨i, hi, rfl⟩ := List.getElem_of_mem hmem
    exact (hmade.get hi (hmade.length_eq ▸ hi)).not_rejects f hx
  | ok out' =>
    rw [hres] at h
    rw [Except.ok.injEq]
    constructor
    · intro he
      exact he ▸ h.1
    · exact List.right_unique_forall₂' makes_rightUnique h.1

/-- The attribute, read back, is retained and makes itself. -/
def Reproduces (m : Mapper) (o : Settings) (a : Attribute) : Prop :=
  m.retains o a.readBack = true ∧ m.Makes o a.readBack a

theorem map_ofAttributes_iff {out : List Attribute} (h : (out.map (·.name)).Nodup) :
    m.map o (.ofAttributes out) = .ok out ↔ ∀ a ∈ out, m.Reproduces o a := by
  rw [map, entries_ofAttributes h, result_run_eq_ok_iff]
  have hmakes : List.Forall₂ (m.Makes o) (out.map (·.readBack)) out ↔
      ∀ a ∈ out, m.Makes o a.readBack a := by
    rw [List.forall₂_map_left_iff, List.forall₂_same]
  constructor
  · intro hmade
    have hlength : (m.retained o (out.map (·.readBack))).length =
        (out.map (·.readBack)).length := by
      rw [List.length_map]
      exact hmade.length_eq
    have hretained := List.length_filter_eq_length_iff.1 hlength
    rw [retained, List.filter_eq_self.2 hretained, hmakes] at hmade
    exact fun a ha => ⟨hretained _ (List.mem_map_of_mem ha), hmade a ha⟩
  · intro hall
    have hretained : ∀ e ∈ out.map (·.readBack), m.retains o e = true :=
      List.forall_mem_map.2 fun a ha => (hall a ha).1
    rw [retained, List.filter_eq_self.2 hretained, hmakes]
    exact fun a ha => (hall a ha).2

/-- Without a hook the value of an attribute that is no expression is the text of the entry. -/
theorem Makes.plain (ho : o.hook = none) (ha : m.Makes o e a) (hv : a.value.expression? = none) :
    (a.value = .absent ∧ (m.resolve o.schema e.1).attributeText? e.2 = none) ∨
      ∃ t, a.value = .text t ∧ a.name ≠ "style" ∧
        (m.resolve o.schema e.1).attributeText? e.2 = some t := by
  have hshown := ha.2
  rw [finalValue, ho] at hshown
  obtain ⟨name, value⟩ := a
  cases ht : (m.resolve o.schema e.1).attributeText? e.2 with
  | none =>
    simp only [ht, Hooked.ofText?] at hshown
    cases hshown
    exact .inl ⟨rfl, rfl⟩
  | some t =>
    simp only [ht, Hooked.ofText?] at hshown
    cases hshown with
    | text _ hn => exact .inr ⟨t, rfl, hn, rfl⟩
    | style _ pairs => cases hv

theorem makes_readBack_iff (ho : o.hook = none) (ha : m.Makes o e a)
    (hv : a.value.expression? = none) :
    m.Makes o a.readBack a ↔ m.workingName o a.name = a.name := by
  have hfinal : m.finalValue o a.readBack =
      .ofText? ((m.resolve o.schema a.name).attributeText? a.value.readBack) := by
    rw [finalValue, ho]
    rfl
  have hshows : m.Shows a.name (m.finalValue o a.readBack) a.value := by
    rw [hfinal]
    obtain ⟨hvalue, -⟩ | ⟨t, hvalue, hn, -⟩ := ha.plain ho hv
    · rw [hvalue]
      exact .absent
    · rw [hvalue]
      exact .text t hn
  constructor
  · intro hmakes
    exact hmakes.1.symm
  · intro hname
    exact ⟨hname.symm, hshows⟩

theorem retains_readBack_iff (hm : m.KnowsNames) (ho : o.hook = none) (hr : m.retains o e = true)
    (ha : m.Makes o e a) (hv : a.value.expression? = none) :
    m.retains o a.readBack = true ↔ ¬ Vanishes o e := by
  have homits : (o.schema.resolve e.1).omits e.2 = false := by
    simpa [retains, hm.resolve] using hr
  have hboolean : (o.schema.resolve a.name).shape.boolean =
      (o.schema.resolve e.1).shape.boolean := ha.1 ▸ boolean_workingName hm o e.1
  have hplain := ha.plain ho hv
  rw [hm.resolve] at hplain
  obtain ⟨hvalue, ht⟩ | ⟨t, hvalue, -, ht⟩ := hplain
  · have hkept : m.retains o a.readBack = true := by
      simp [retains, Attribute.readBack, hvalue, AttributeValue.readBack, Info.omits, Value.isNaN,
        Value.isFalsy]
    refine iff_of_true hkept fun hvanishes => ?_
    obtain ⟨-, tokens, -, hempty⟩ := hvanishes
    rw [ht] at hempty
    cases hempty
  · have hkept : m.retains o a.readBack = true ↔
        ¬ ((o.schema.resolve e.1).shape.boolean = true ∧ t = "") := by
      simp only [retains, Attribute.readBack, hvalue, AttributeValue.readBack, Info.omits,
        Value.isNaN, Value.isFalsy, hm.resolve, hboolean]
      cases (o.schema.resolve e.1).shape.boolean <;> simp
    rw [hkept, not_iff_not]
    constructor
    · intro hflag
      obtain ⟨hb, rfl⟩ := hflag
      obtain ⟨tokens, htokens⟩ := exists_tokens homits hb ht
      exact ⟨hb, tokens, htokens, ht⟩
    · intro hvanishes
      obtain ⟨hb, tokens, -, hempty⟩ := hvanishes
      rw [ht] at hempty
      exact ⟨hb, Option.some.inj hempty⟩

theorem reproduces_iff (hm : m.KnowsNames) (ho : o.hook = none) (hr : m.retains o e = true)
    (ha : m.Makes o e a) (hv : a.value.expression? = none) :
    m.Reproduces o a ↔ ¬ (Vanishes o e ∨ Drifts o e.1) := by
  rw [Reproduces, retains_readBack_iff hm ho hr ha hv, makes_readBack_iff ho ha hv, ha.1,
    workingName_workingName_iff hm, not_or]

/-- Attributes without expressions reproduce themselves as far as the entries they were made of neither vanish
nor drift. -/
theorem forall_reproduces_iff (hm : m.KnowsNames) (ho : o.hook = none)
    {es : List (String × Value)} {out : List Attribute} (hr : ∀ e ∈ es, m.retains o e = true)
    (hmade : List.Forall₂ (m.Makes o) es out) (hv : ∀ a ∈ out, a.value.expression? = none) :
    (∀ a ∈ out, m.Reproduces o a) ↔ ∀ e ∈ es, ¬ (Vanishes o e ∨ Drifts o e.1) := by
  induction hmade with
  | nil => simp
  | cons ha hmade ih =>
    obtain ⟨he, hes⟩ := List.forall_mem_cons.1 hr
    obtain ⟨hva, hvs⟩ := List.forall_mem_cons.1 hv
    rw [List.forall_mem_cons, List.forall_mem_cons, reproduces_iff hm ho he ha hva, ih hes hvs]

end Mapper

/-! ## One entry -/

theorem toAttributes_text {o : Settings} {key name t : String} {v : Value} (ho : o.hook = none)
    (hn : ({} : Mapper).workingName o key = name) (hs : name ≠ "style")
    (hv : (o.schema.resolve key).omits v = false)
    (ht : (o.schema.resolve key).attributeText? v = some t) :
    (PropertyMap.ofList [(key, v)]).toAttributes o = .ok [⟨name, .text t⟩] := by
  apply Mapper.result_run_eq_ok_iff.2
  have hkept : ({} : Mapper).retains o (key, v) = true := by
    rw [Mapper.retains, Bool.not_eq_true']
    exact hv
  have hfinal : ({} : Mapper).finalValue o (key, v) = .text t := by
    rw [Mapper.finalValue, ho]
    exact congrArg Hooked.ofText? ht
  have hmakes : ({} : Mapper).Makes o (key, v) ⟨name, .text t⟩ := by
    refine ⟨hn.symm, ?_⟩
    rw [hfinal]
    exact .text t hs
  have hretained : ({} : Mapper).retained o [(key, v)] = [(key, v)] :=
    List.filter_eq_self.2 (by simpa using hkept)
  rw [show (PropertyMap.ofList [(key, v)]).entries = [(key, v)] from rfl, hretained]
  exact .cons hmakes .nil

theorem toAttributes_omitted {o : Settings} {key : String} {v : Value}
    (hv : (o.schema.resolve key).omits v = true) :
    (PropertyMap.ofList [(key, v)]).toAttributes o = .ok [] := by
  apply Mapper.result_run_eq_ok_iff.2
  have hskipped : ({} : Mapper).retains o (key, v) = false := by
    rw [Mapper.retains, Bool.not_eq_false']
    exact hv
  rw [show (PropertyMap.ofList [(key, v)]).entries = [(key, v)] from rfl,
    Mapper.retained_cons_of_omits hskipped]
  exact .nil

/-- A data name outside the vocabularies, with any text. -/
theorem toAttributes_data {o : Settings} {key name : String} (ho : o.hook = none)
    (hp : dataLetters <+: (Text.lowercased key).toList)
    (hk : Text.lowercased key ≠ Text.lowercased o.schema.dataProperty)
    (hn : (Schema.unlisted key).property = name) (hs : name ≠ "style") (t : String) :
    (PropertyMap.ofList [(key, .text t)]).toAttributes o = .ok [⟨name, .text t⟩] := by
  have hresolve := Schema.resolve_data hp hk
  have hspace : (o.schema.resolve key).space = none := hresolve ▸ Schema.space_unlisted key
  have hname : ({} : Mapper).workingName o key = name := by
    rw [Mapper.workingName_eq ⟨rfl, rfl⟩, Mapper.attributeName, Mapper.respelling?, hspace,
      if_neg (by simp), hresolve, ← hn]
    rfl
  have hshape : (o.schema.resolve key).shape = {} := hresolve ▸ Schema.shape_unlisted key
  apply toAttributes_text ho hname hs
  · rw [Info.omits, hshape]
    · rfl
    · simp
    · simp
  · rfl

/-! ## Mapping once more -/

/-- Attributes without expressions that are read back and mapped once more stay what they are, each with its
name, its value and its place, exactly if no flag among the entries has a list that is joined to the
empty text and no name of a data attribute drifts. -/
theorem toAttributes_again (o : Settings) (p : PropertyMap) {out : List Attribute}
    (ho : o.hook = none) (hout : p.toAttributes o = .ok out) (hnames : (out.map (·.name)).Nodup)
    (hvalues : ∀ a ∈ out, a.value.expression? = none) :
    (PropertyMap.ofAttributes out).toAttributes o = .ok out ↔
      ∀ e ∈ ({} : Mapper).retained o p.entries, ¬ (Vanishes o e ∨ Drifts o e.1) := by
  have hmade := Mapper.result_run_eq_ok_iff.1 hout
  have hretained : ∀ e ∈ ({} : Mapper).retained o p.entries, ({} : Mapper).retains o e = true :=
    fun e he => (List.mem_filter.1 he).2
  rw [PropertyMap.toAttributes, Mapper.map_ofAttributes_iff hnames]
  exact Mapper.forall_reproduces_iff ⟨rfl, rfl⟩ ho hretained hmade hvalues

theorem toAttributes_again_data :
    (PropertyMap.ofList [("data-a", .text "x")]).toAttributes {} = .ok [⟨"dataA", .text "x"⟩] ∧
      (PropertyMap.ofAttributes [⟨"dataA", .text "x"⟩]).toAttributes {} =
        .ok [⟨"dataA", .text "x"⟩] := by
  have hout : (PropertyMap.ofList [("data-a", .text "x")]).toAttributes {} =
      .ok [⟨"dataA", .text "x"⟩] :=
    toAttributes_data rfl (by decide +kernel) (by decide +kernel) (by decide +kernel)
      (by decide) "x"
  refine ⟨hout, (toAttributes_again {} _ rfl hout (by simp) (by simp [AttributeValue.expression?])).2
    fun e he => ?_⟩
  have hmem : e ∈ [("data-a", Value.text "x")] := List.mem_of_mem_filter he
  obtain rfl := List.mem_singleton.1 hmem
  rintro (hv | hd)
  · obtain ⟨-, tokens, ht, -⟩ := hv
    cases ht
  · obtain ⟨-, r, hr, hdrift⟩ := hd
    have hrest : DataName.rest? "data-a".toList = some ['-', 'a'] := by decide +kernel
    rw [hrest, Option.some.injEq, List.cons.injEq] at hr
    obtain ⟨-, rfl⟩ := hr
    rcases hdrift with hp | hsvg
    · exact absurd hp (by decide)
    · cases hsvg.1

/-- The list of a flag that is joined to the empty text vanishes; `data--1` is written `data-1`, which is written
`data1`; and in SVG `data-type` is written `dataType`, which React spells `datatype`. -/
theorem toAttributes_again_fails :
    ((PropertyMap.ofList [("disabled", .list [])]).toAttributes {} = .ok [⟨"disabled", .text ""⟩] ∧
      (PropertyMap.ofAttributes [⟨"disabled", .text ""⟩]).toAttributes {} = .ok []) ∧
    ((PropertyMap.ofList [("data--1", .text "x")]).toAttributes {} = .ok [⟨"data-1", .text "x"⟩] ∧
      (PropertyMap.ofAttributes [⟨"data-1", .text "x"⟩]).toAttributes {} =
        .ok [⟨"data1", .text "x"⟩]) ∧
    (PropertyMap.ofList [("data-type", .text "x")]).toAttributes { schema := .svg } =
        .ok [⟨"dataType", .text "x"⟩] ∧
      (PropertyMap.ofAttributes [⟨"dataType", .text "x"⟩]).toAttributes { schema := .svg } =
        .ok [⟨"datatype", .text "x"⟩] := by
  have hknows : ({} : Mapper).KnowsNames := ⟨rfl, rfl⟩
  have hhtml : ({} : Settings).schema = .html := rfl
  have hsvg : ({ schema := .svg } : Settings).schema = .svg := rfl
  have hflag : Schema.resolve .html "disabled" = Schema.html.language.info "disabled" .bool :=
    Schema.resolve_eq (e := ("disabled", .bool)) (by decide +kernel) rfl
  have htype : Schema.resolve .svg "dataType" = Schema.dataInfo .svg :=
    Schema.resolve_eq (e := ("dataType", .plain)) (by decide +kernel) rfl
  refine ⟨⟨?_, ?_⟩, ⟨?_, ?_⟩, ?_, ?_⟩
  · have hn : ({} : Mapper).workingName {} "disabled" = "disabled" :=
      Mapper.workingName_of_language (e := ("disabled", .bool)) hknows (by decide +kernel) rfl
        (by decide +kernel)
    refine toAttributes_text rfl hn (by decide) ?_ ?_
    · rw [hhtml, hflag]
      rfl
    · rw [hhtml, hflag]
      rfl
  · apply toAttributes_omitted
    rw [hhtml, hflag]
    rfl
  · exact toAttributes_data rfl (by decide +kernel) (by decide +kernel) (by decide +kernel)
      (by decide) "x"
  · exact toAttributes_data rfl (by decide +kernel) (by decide +kernel) (by decide +kernel)
      (by decide) "x"
  · exact toAttributes_data rfl (by decide +kernel) (by decide +kernel) (by decide +kernel)
      (by decide) "x"
  · have hn : ({} : Mapper).workingName { schema := .svg } "dataType" = "datatype" := by
      rw [Mapper.workingName_eq hknows, hsvg, htype, Mapper.attributeName_dataInfo hknows]
      rfl
    refine toAttributes_text rfl hn (by decide) ?_ rfl
    rw [hsvg, htype]
    rfl

end JsxAttributes
