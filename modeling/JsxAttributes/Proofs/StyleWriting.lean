import JsxAttributes.Proofs.StyleReading

/-! Reading back the declarations that were written. What may be written is said for each property and value
alone, without regard to what stands around it; the units of a value are then units of the grammar in front of
any text, and the written text is a segmentation with one declaration for each pair. -/
namespace JsxAttributes.Style.Grammar

variable {p v rest s : List Char}

/-! ## What may be written -/

/-- A run of property characters in which no comment opens, with a bracketed part or without. -/
inductive IsName : List Char → Prop where
  | intro {name hack : List Char} : name ≠ [] → (∀ c ∈ name, isPropertyChar c = true) →
      ¬ ['/', '*'] <:+: name → (hack = [] ∨ IsHack hack) → IsName (name ++ hack)

/-- The inside of a quoted text: every quote stands directly behind a backslash, no backslash is the last
character, and the line does not end. -/
structure IsEscaped (quote : Char) (body : List Char) : Prop where
  line : ∀ c ∈ body, isLineEnd c = false
  quotes : ∀ front back, body = front ++ quote :: back → front.getLast? = some '\\'
  last : body.getLast? ≠ some '\\'

inductive IsPart : List Char → Prop where
  | char {c : Char} : ¬ EndsValue c → c ≠ '(' → ¬ IsQuote c → IsPart [c]
  | group {body : List Char} : ')' ∉ body → IsPart ('(' :: (body ++ [')']))
  | quoted {quote : Char} {body : List Char} : IsQuote quote → IsEscaped quote body →
      IsPart (quote :: (body ++ [quote]))

/-- Single characters, groups and quoted texts, without a comment and without white space around them. -/
structure IsPlainValue (v : List Char) : Prop where
  parts : ∃ parts, v = List.flatten parts ∧ ∀ part ∈ parts, IsPart part
  comment : ¬ ['/', '*'] <:+: v
  front : ∀ c ∈ v.head?, Text.isBlank c = false
  back : ∀ c ∈ v.getLast?, Text.isBlank c = false

/-! ## Values -/

theorem IsEscaped.tail_of_escape {quote : Char} {body : List Char} (hq : quote ≠ '\\')
    (h : IsEscaped quote ('\\' :: quote :: body)) : IsEscaped quote body where
  line c hc := h.line c (by simp [hc])
  quotes front back he := by
    have hlast := h.quotes ('\\' :: quote :: front) back (by rw [he]; rfl)
    cases front with
    | nil => simp [hq] at hlast
    | cons c r => simpa [List.getLast?_cons_cons] using hlast
  last hlast := by
    cases body with
    | nil => simp at hlast
    | cons c r => exact h.last (by simpa [List.getLast?_cons_cons] using hlast)

theorem IsEscaped.tail {quote c : Char} {body : List Char} (h : IsEscaped quote (c :: body))
    (he : ¬ (c = '\\' ∧ body.head? = some quote)) : IsEscaped quote body where
  line d hd := h.line d (List.mem_cons_of_mem _ hd)
  quotes front back hb := by
    have hlast := h.quotes (c :: front) back (by rw [hb]; rfl)
    cases front with
    | nil => exact absurd ⟨by simpa using hlast, by rw [hb]; rfl⟩ he
    | cons d r => simpa [List.getLast?_cons_cons] using hlast
  last hlast := by
    cases body with
    | nil => simp at hlast
    | cons d r => exact h.last (by simpa [List.getLast?_cons_cons] using hlast)

theorem IsEscaped.ne_quote {quote c : Char} {body : List Char} (h : IsEscaped quote (c :: body)) :
    c ≠ quote := by
  intro hc
  have hlast := h.quotes [] body (by rw [hc]; rfl)
  cases hlast

/-- Scanning pairs a backslash with a quote exactly where the quote is escaped. -/
theorem IsEscaped.isQuotedBody {quote : Char} (hq : quote ≠ '\\') (rest : List Char) :
    (body : List Char) → IsEscaped quote body → IsQuotedBody quote body (quote :: rest)
  | [], _ => .nil
  | [c], h => by
    have hc : c ≠ '\\' := fun hc => h.last (by rw [hc]; rfl)
    exact .char h.ne_quote (h.line c (by simp)) (fun he => hc he.1) .nil
  | c :: d :: r, h => by
    by_cases he : c = '\\' ∧ d = quote
    · obtain ⟨rfl, rfl⟩ := he
      exact .escape ((h.tail_of_escape hq).isQuotedBody hq rest r)
    · have hn : ¬ (c = '\\' ∧ (d :: r).head? = some quote) := by simpa using he
      exact .char h.ne_quote (h.line c (by simp)) hn ((h.tail hn).isQuotedBody hq rest (d :: r))

/-- A part is a unit whatever follows it. -/
theorem IsPart.isUnit {part : List Char} (h : IsPart part) (rest : List Char) :
    IsUnit part rest := by
  cases h with
  | char hc hp hq => exact .char hc (fun h => absurd h hq) fun h => absurd h hp
  | group hb => exact .group hb
  | @quoted quote body hq hb =>
    have hbody := hb.isQuotedBody hq.ne_backslash rest
    exact .quoted hq (.plain (.intro hbody))

theorem isValue_flatten {parts : List (List Char)} (h : ∀ part ∈ parts, IsPart part)
    (hr : ∀ c ∈ rest.head?, EndsValue c) : IsValue parts.flatten rest := by
  induction parts with
  | nil => exact .nil hr
  | cons part parts ih =>
    obtain ⟨hp, hps⟩ := List.forall_mem_cons.1 h
    exact .cons (hp.isUnit _) (ih hps)

/-! ## Cleaning -/

/-- Two characters of which the second is not in a text do not stand across its front. -/
theorem infix_of_infix_append {a b : Char} (hs : b ∉ s) (h : [a, b] <:+: p ++ s) : [a, b] <:+: p := by
  induction p with
  | nil => exact absurd (h.subset (by simp)) hs
  | cons c r ih =>
    rw [List.cons_append, List.infix_cons_iff] at h
    rw [List.infix_cons_iff]
    cases h with
    | inl hp =>
      cases r with
      | nil =>
        obtain ⟨t, ht⟩ := hp
        have hm : b ∈ s := by
          have he : s = b :: t := (List.cons.inj ht).2.symm
          simp [he]
        exact absurd hm hs
      | cons d r =>
        left
        obtain ⟨t, ht⟩ := hp
        simp only [List.cons_append, List.nil_append, List.cons.injEq] at ht
        obtain ⟨rfl, rfl, -⟩ := ht
        exact ⟨r, rfl⟩
    | inr hi => exact .inr (ih hi)

theorem strips_self (h : ¬ ['/', '*'] <:+: s) : Strips s s := by
  refine strips_of_not_hasComment fun hc => h ?_
  obtain ⟨front, body, back, rfl⟩ := hc
  exact ⟨front, body ++ '*' :: '/' :: back, by simp⟩

theorem trims_self (hf : ∀ c ∈ s.head?, Text.isBlank c = false)
    (hb : ∀ c ∈ s.getLast?, Text.isBlank c = false) : Trims s s :=
  ⟨[], [], by simp, by simp, by simp, hf, hb⟩

theorem IsPlainValue.clean_eq (h : IsPlainValue v) : Cursor.clean v = String.ofList v :=
  (strips_self h.comment).clean_eq (trims_self h.front h.back)

theorem IsHack.not_mem {c : Char} (h : IsHack s) (hc : isHackChar c = false)
    (hb : c ≠ '[' ∧ c ≠ ']') : c ∉ s := by
  obtain ⟨-, hin⟩ := h
  simp only [List.mem_cons, List.mem_append, List.not_mem_nil, or_false, not_or]
  refine ⟨hb.1, fun hm => ?_, hb.2⟩
  rw [hin c hm] at hc
  cases hc

theorem IsName.not_infix (h : IsName p) : ¬ ['/', '*'] <:+: p := by
  obtain ⟨-, -, hc, hh⟩ := h
  intro hi
  cases hh with
  | inl hnil =>
    subst hnil
    exact hc (by simpa using hi)
  | inr hhack => exact hc (infix_of_infix_append (hhack.not_mem (by decide) (by decide)) hi)

theorem IsName.exists_cons (h : IsName p) : ∃ c r, p = c :: r ∧ isPropertyChar c = true := by
  obtain @⟨name, hack, hne, hn, -, -⟩ := h
  cases name with
  | nil => exact absurd rfl hne
  | cons c r => exact ⟨c, r ++ hack, rfl, hn c (List.mem_cons_self ..)⟩

theorem IsName.isBlank_getLast (h : IsName p) : ∀ c ∈ p.getLast?, Text.isBlank c = false := by
  obtain ⟨hne, hn, -, hh⟩ := h
  intro c hc
  cases hh with
  | inl hnil =>
    subst hnil
    rw [List.append_nil] at hc
    exact isBlank_eq_false_of_isPropertyChar (hn c (List.mem_of_getLast? hc))
  | inr hhack =>
    obtain @⟨inner, -, -⟩ := hhack
    rw [← List.cons_append, ← List.append_assoc, List.getLast?_concat, Option.mem_some] at hc
    subst hc
    decide

theorem IsName.clean_eq (h : IsName p) : Cursor.clean p = String.ofList p := by
  refine (strips_self h.not_infix).clean_eq (trims_self (fun c hc => ?_) h.isBlank_getLast)
  obtain ⟨d, r, rfl, hd⟩ := h.exists_cons
  obtain rfl : d = c := by simpa using hc
  exact isBlank_eq_false_of_isPropertyChar hd

/-! ## Declarations -/

theorem isPropertyChar_bracket : isPropertyChar '[' = false := by decide

theorem isPropertyChar_colon : isPropertyChar ':' = false := by decide

/-- In front of a colon, property characters and a bracketed part make up a property. -/
theorem isProperty_of_chars {name hack : List Char} (hne : name ≠ [])
    (hn : ∀ c ∈ name, isPropertyChar c = true) (hh : hack = [] ∨ IsHack hack) (rest : List Char) :
    IsProperty (name ++ hack) (':' :: rest) := by
  have hblank : IsRun Text.isBlank [] (':' :: rest) := ⟨by simp, by simp [Text.isBlank]⟩
  have hrun : IsRun isPropertyChar name (hack ++ ([] ++ ':' :: rest)) := by
    refine ⟨hn, fun c hc => ?_⟩
    cases hh with
    | inl hnil =>
      subst hnil
      obtain rfl : ':' = c := by simpa using hc
      exact isPropertyChar_colon
    | inr hhack =>
      obtain ⟨-, -⟩ := hhack
      obtain rfl : '[' = c := by simpa using hc
      exact isPropertyChar_bracket
  have hbracket : IsHack hack ∨ hack = [] ∧ ∀ b r, IsHack b → [] ++ ':' :: rest ≠ b ++ r := by
    cases hh with
    | inl hnil =>
      refine .inr ⟨hnil, fun b r hb he => ?_⟩
      obtain ⟨-, -⟩ := hb
      simp at he
    | inr hhack => exact .inl hhack
  have hp := IsProperty.intro hne hrun hbracket hblank
  rwa [List.append_nil] at hp

theorem IsName.isProperty (h : IsName p) (rest : List Char) : IsProperty p (':' :: rest) := by
  obtain ⟨hne, hn, -, hh⟩ := h
  exact isProperty_of_chars hne hn hh rest

theorem IsName.not_opensComment (h : IsName p) (rest : List Char) :
    ¬ OpensComment (p ++ ':' :: rest) := by
  intro ho
  obtain ⟨c, r, rfl, -⟩ := h.exists_cons
  obtain ⟨t, ht⟩ := ho
  cases r with
  | nil => simp at ht
  | cons d r =>
    simp only [List.cons_append, List.nil_append, List.cons.injEq] at ht
    obtain ⟨rfl, rfl, -⟩ := ht
    exact h.not_infix (List.IsPrefix.isInfix ⟨r, rfl⟩)

/-- A property, a colon with a blank behind it, a value and a separator. -/
theorem isDeclaration_written {separators : List Char} (hp : IsName p) (hv : IsPlainValue v)
    (hs : IsRun Cursor.isSeparator separators rest)
    (hend : ∀ c ∈ (separators ++ rest).head?, EndsValue c) :
    IsDeclaration p v (p ++ ([] ++ ':' :: ([' '] ++ (v ++ separators)))) rest := by
  obtain ⟨parts, hparts, hpart⟩ := hv.parts
  have hvalue : IsValue v (separators ++ rest) := hparts ▸ isValue_flatten hpart hend
  have hblank : IsRun Text.isBlank [' '] (v ++ (separators ++ rest)) := by
    refine ⟨List.all_eq_true.1 rfl, fun c hc => ?_⟩
    cases v with
    | nil =>
      rcases hend c hc with rfl | rfl <;> decide
    | cons d r => exact hv.front c hc
  exact .intro (hp.isProperty _) (.inl rfl) hblank hvalue hs

/-! ## The whole text -/

/-- The declarations one after the other, with a semicolon and a blank between them. -/
def written : List (List Char × List Char) → List Char
  | [] => []
  | [(p, v)] => p ++ ':' :: ' ' :: v
  | (p, v) :: r => p ++ ':' :: ' ' :: (v ++ ';' :: ' ' :: written r)

theorem written_eq_intercalate (pairs : List (List Char × List Char)) :
    written pairs = [';', ' '].intercalate (pairs.map fun d => d.1 ++ ':' :: ' ' :: d.2) := by
  fun_induction written pairs with
  | case1 => rfl
  | case2 p v => simp
  | case3 p v r hr ih =>
    cases r with
    | nil => simp at hr
    | cons d r => simp [ih]

theorem isSeparator_of_isPropertyChar {c : Char} (h : isPropertyChar c = true) :
    Cursor.isSeparator c = false := by
  have hn : c ≠ ';' := by
    intro hc
    subst hc
    cases h
  simp [Cursor.isSeparator, hn, isBlank_eq_false_of_isPropertyChar h]

theorem written_head {pairs : List (List Char × List Char)} (h : ∀ d ∈ pairs, IsName d.1) :
    ∀ c ∈ (written pairs).head?, isPropertyChar c = true := by
  intro c hc
  cases pairs with
  | nil => cases hc
  | cons d r =>
    obtain ⟨p, v⟩ := d
    obtain ⟨b, t, rfl, hb⟩ := (h _ (List.mem_cons_self ..)).exists_cons
    have hcb : b = c := by cases r <;> simpa [written] using hc
    exact hcb ▸ hb

/-- The written text is a segmentation with a declaration for each pair, and nothing is left. -/
theorem segments_written {pairs : List (List Char × List Char)}
    (h : ∀ d ∈ pairs, IsName d.1 ∧ IsPlainValue d.2) (before : List Char) :
    ∃ ds, Segments before (written pairs) ds [] ∧
      ds.map (fun d => (d.property, d.value)) =
        pairs.map fun d => (String.ofList d.1, String.ofList d.2) := by
  fun_induction written pairs generalizing before with
  | case1 => exact ⟨[], .nil, rfl⟩
  | case2 p v =>
    obtain ⟨hp, hv⟩ := h (p, v) (by simp)
    have hrun : IsRun Cursor.isSeparator [] [] := ⟨by simp, by simp⟩
    have hd : IsDeclaration p v (p ++ ([] ++ ':' :: ([' '] ++ (v ++ [])))) ([] ++ ([] ++ [])) :=
      isDeclaration_written hp hv hrun (by simp)
    have ho : ¬ OpensComment (p ++ ([] ++ ':' :: ([' '] ++ (v ++ []))) ++ ([] ++ ([] ++ []))) := by
      simpa using hp.not_opensComment (' ' :: v)
    have hs : Segments before _ _ _ := .cons ho hd (describes_iff.2 rfl) .nil .nil
    refine ⟨_, by simpa using hs, ?_⟩
    simp [hp.clean_eq, hv.clean_eq]
  | case3 p v r hr ih =>
    obtain ⟨⟨hp, hv⟩, hrest⟩ := List.forall_mem_cons.1 h
    have hrun : IsRun Cursor.isSeparator [';', ' '] ([] ++ (written r ++ [])) := by
      refine ⟨List.all_eq_true.1 rfl, fun c hc => isSeparator_of_isPropertyChar ?_⟩
      exact written_head (fun d hd => (hrest d hd).1) c (by simpa using hc)
    have hd : IsDeclaration p v (p ++ ([] ++ ':' :: ([' '] ++ (v ++ [';', ' ']))))
        ([] ++ (written r ++ [])) :=
      isDeclaration_written hp hv hrun (by simp [EndsValue])
    have ho : ¬ OpensComment (p ++ ([] ++ ':' :: ([' '] ++ (v ++ [';', ' ']))) ++
        ([] ++ (written r ++ []))) := by
      simpa using hp.not_opensComment (' ' :: (v ++ ';' :: ' ' :: written r))
    obtain ⟨ds, hs, hds⟩ := ih hrest _
    have hall : Segments before _ _ _ := .cons ho hd (describes_iff.2 rfl) .nil hs
    refine ⟨_, by simpa using hall, ?_⟩
    simp [hp.clean_eq, hv.clean_eq, hds]

/-- The text of declarations: each as its property, a colon and its value. -/
def writeDeclarations (pairs : List (String × String)) : String :=
  "; ".intercalate (pairs.map fun d => d.1 ++ ": " ++ d.2)

theorem toList_writeDeclarations (pairs : List (String × String)) :
    (writeDeclarations pairs).toList = written (pairs.map fun d => (d.1.toList, d.2.toList)) := by
  rw [writeDeclarations, String.toList_intercalate, written_eq_intercalate, List.map_map,
    List.map_map]
  congr 1
  refine List.map_congr_left fun d _ => ?_
  simp

/-- Reading the text of declarations gives these declarations, whatever parentheses, quotes and
separators their values hold. -/
theorem readDeclarations_written (pairs : List (String × String))
    (h : ∀ d ∈ pairs, IsName d.1.toList ∧ IsPlainValue d.2.toList) :
    (readDeclarations (writeDeclarations pairs)).map (·.map fun d => (d.property, d.value)) =
      .ok pairs := by
  let texts := pairs.map fun d => (d.1.toList, d.2.toList)
  have htexts : ∀ d ∈ texts, IsName d.1 ∧ IsPlainValue d.2 := by
    intro d hd
    obtain ⟨e, he, rfl⟩ := List.mem_map.1 hd
    exact h e he
  obtain ⟨ds, hs, hds⟩ := segments_written htexts []
  have hblank : IsRun Text.isBlank [] (written texts) := by
    refine ⟨by simp, fun c hc => ?_⟩
    have hp := written_head (fun d hd => (htexts d hd).1) c hc
    exact isBlank_eq_false_of_isPropertyChar hp
  have hseg : Segmentation ([] ++ ([] ++ written texts)) ds [] :=
    .intro (by simpa using hblank) .nil hs
  have hfinal : IsFinal [] := by simp [IsFinal, OpensComment]
  have htext : (writeDeclarations pairs).toList = written texts ++ [] := by
    rw [toList_writeDeclarations, List.append_nil]
  rw [hseg.readDeclarations_eq htext hfinal.readOn_eq]
  simp only [Except.map, hds, texts, List.map_map]
  congr 1
  refine (List.map_congr_left fun d _ => ?_).trans (List.map_id pairs)
  simp

theorem readDeclarations_written_quoted :
    (readDeclarations (writeDeclarations
        [("a[-b]", "u(\"; \x7d)"), ("--c", ""), ("d", "\"\\\"\x7d;\"")])).map
          (·.map fun d => (d.property, d.value)) =
      .ok [("a[-b]", "u(\"; \x7d)"), ("--c", ""), ("d", "\"\\\"\x7d;\"")] := by
  refine readDeclarations_written _ fun d hd => ?_
  simp only [List.mem_cons, List.not_mem_nil, or_false] at hd
  obtain rfl | rfl | rfl := hd
  · have hhack : IsHack ('[' :: (['-', 'b'] ++ [']'])) :=
      .intro (by decide) (List.all_eq_true.1 rfl)
    have hname : IsName (['a'] ++ ['[', '-', 'b', ']']) :=
      .intro (by decide) (List.all_eq_true.1 rfl) (by decide) (.inr hhack)
    have hgroup : IsPart ('(' :: (['"', ';', ' ', '}'] ++ [')'])) := .group (by decide)
    have hparts : ∀ part ∈ [['u'], ['(', '"', ';', ' ', '}', ')']], IsPart part :=
      List.forall_mem_cons.2
        ⟨.char (by simp [EndsValue]) (by decide) (by simp [IsQuote]), by simpa using hgroup⟩
    exact ⟨hname, ⟨⟨_, rfl, hparts⟩, by decide, by simp [Text.isBlank], by simp [Text.isBlank]⟩⟩
  · have hname : IsName (['-', '-', 'c'] ++ []) :=
      .intro (by decide) (List.all_eq_true.1 rfl) (by decide) (.inl rfl)
    exact ⟨hname, ⟨⟨[], rfl, by simp⟩, by decide, by simp, by simp⟩⟩
  · have hname : IsName (['d'] ++ []) :=
      .intro (by decide) (List.all_eq_true.1 rfl) (by decide) (.inl rfl)
    have hbody : IsEscaped '"' ['\\', '"', '}', ';'] := by
      refine ⟨fun c hc => ?_, fun front back he => ?_, by decide⟩
      · simp only [List.mem_cons, List.not_mem_nil, or_false] at hc
        rcases hc with rfl | rfl | rfl | rfl <;> decide
      · rcases front with _ | ⟨a, _ | ⟨b, _ | ⟨c, _ | ⟨d, r⟩⟩⟩⟩ <;> simp_all [eq_comm]
    have hquoted : IsPart ('"' :: (['\\', '"', '}', ';'] ++ ['"'])) :=
      .quoted (.inr rfl) hbody
    have hparts : ∀ part ∈ [['"', '\\', '"', '}', ';', '"']], IsPart part := by
      simpa using hquoted
    exact ⟨hname, ⟨⟨_, rfl, hparts⟩, by decide, by simp [Text.isBlank], by simp [Text.isBlank]⟩⟩

end JsxAttributes.Style.Grammar
