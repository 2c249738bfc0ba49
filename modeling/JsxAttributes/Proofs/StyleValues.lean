import JsxAttributes.Proofs.StyleTokens

/-! The scanners find values as the grammar has them. A scan of a quoted text is compared with all places
where it could be closed; units and values then follow from left to right. -/
namespace JsxAttributes.Style.Grammar

variable {rest s : List Char}

/-! ## Quoted texts -/

section
variable {quote c : Char} {closing body : List Char}

theorem Closes.eq (h : Closes quote closing s body rest) : s = body ++ (closing ++ rest) := by
  cases h
  rfl

theorem closes_nil (h : closing ++ rest = s) : Closes quote closing s [] rest :=
  h ▸ @Closes.intro _ _ [] _ .nil

theorem Closes.prefix_of_nil (h : Closes quote closing s [] rest) : closing <+: s :=
  ⟨rest, h.eq.symm⟩

theorem Closes.escape (h : Closes quote closing s body rest) :
    Closes quote closing ('\\' :: quote :: s) ('\\' :: quote :: body) rest := by
  obtain ⟨hb⟩ := h
  exact .intro (.escape hb)

/-- Behind an escaped quote the inside goes on, unless the closing stands there already. -/
theorem Closes.of_escape (h : Closes quote closing ('\\' :: quote :: s) body rest) :
    body = [] ∨ ∃ b, body = '\\' :: quote :: b ∧ Closes quote closing s b rest := by
  generalize ht : '\\' :: quote :: s = t at h
  obtain ⟨hb⟩ := h
  cases hb with
  | nil => exact .inl rfl
  | @escape b _ hb =>
    simp only [List.cons_append, List.cons.injEq, true_and] at ht
    exact .inr ⟨b, rfl, ht ▸ .intro hb⟩
  | char hc hl he hb =>
    simp only [List.cons_append, List.cons.injEq] at ht
    exact absurd ⟨ht.1.symm, by simp [← ht.2]⟩ he

theorem closes_escape_iff (hno : ¬ closing <+: '\\' :: quote :: s) :
    Closes quote closing ('\\' :: quote :: s) body rest ↔
      ∃ b, body = '\\' :: quote :: b ∧ Closes quote closing s b rest := by
  constructor
  · intro h
    refine h.of_escape.resolve_left ?_
    intro hnil
    subst hnil
    exact hno h.prefix_of_nil
  · intro hbody
    obtain ⟨b, rfl, h⟩ := hbody
    exact h.escape

theorem closes_char_iff (hc : c ≠ quote) (hl : isLineEnd c = false)
    (he : ¬ (c = '\\' ∧ s.head? = some quote)) (hno : ¬ closing <+: c :: s) :
    Closes quote closing (c :: s) body rest ↔
      ∃ b, body = c :: b ∧ Closes quote closing s b rest := by
  constructor
  · intro h
    generalize ht : c :: s = t at h hno
    obtain ⟨hb⟩ := h
    cases hb with
    | nil => exact absurd ⟨rest, rfl⟩ hno
    | escape hb =>
      simp only [List.cons_append, List.cons.injEq] at ht
      exact absurd ⟨ht.1, by simp [ht.2]⟩ he
    | @char _ b _ _ _ _ hb =>
      simp only [List.cons_append, List.cons.injEq] at ht
      obtain ⟨rfl, rfl⟩ := ht
      exact ⟨b, rfl, .intro hb⟩
  · intro hbody
    obtain ⟨b, rfl, h⟩ := hbody
    obtain ⟨hb⟩ := h
    exact .intro (.char hc hl he hb)

/-- The inside goes over neither the quote nor the end of a line. -/
theorem Closes.of_stop (hc : c = quote ∨ isLineEnd c = true) (hn : c ≠ '\\')
    (h : Closes quote closing (c :: s) body rest) : body = [] := by
  generalize ht : c :: s = t at h
  obtain ⟨hb⟩ := h
  cases hb with
  | nil => rfl
  | escape hb => exact absurd (List.cons.inj ht).1 hn
  | char hq hl _ hb =>
    rw [← (List.cons.inj ht).1] at hq hl
    cases hc with
    | inl hc => exact absurd hc hq
    | inr hc =>
      rw [hc] at hl
      cases hl

/-- How a scan of the inside of a quoted text ends: at the quote that closes it, else behind the last
escaped quote, else where it had got to before. -/
inductive ScanEnds (quote : Char) (count : Nat) (before : Option Nat) (s : List Char) :
    Option Nat → Prop where
  | plain {b r : List Char} : Closes quote [quote] s b r →
      (∀ b' r', Closes quote [quote] s b' r' → b' = b) →
      ScanEnds quote count before s (some (count + b.length + 1))
  | escaped {b r : List Char} : (∀ b' r', ¬ Closes quote [quote] s b' r') →
      Closes quote ['\\', quote] s b r →
      (∀ b' r', Closes quote ['\\', quote] s b' r' → b'.length ≤ b.length) →
      ScanEnds quote count before s (some (count + b.length + 2))
  | unclosed : (∀ b' r', ¬ Closes quote [quote] s b' r') →
      (∀ b' r', ¬ Closes quote ['\\', quote] s b' r') → ScanEnds quote count before s before

variable {count : Nat} {before found : Option Nat}

theorem not_closes_of {t : List Char}
    (h : ∀ b r, Closes quote closing t b r → ∃ b', Closes quote closing s b' r)
    (hno : ∀ b r, ¬ Closes quote closing s b r) (b r : List Char) : ¬ Closes quote closing t b r := by
  intro hb
  obtain ⟨b', hb'⟩ := h b r hb
  exact hno b' r hb'

/-- An escaped quote is passed over, and is a place where the text may be closed. -/
theorem ScanEnds.escape (hq : quote ≠ '\\')
    (h : ScanEnds quote (count + 2) (some (count + 2)) s found) :
    ScanEnds quote count before ('\\' :: quote :: s) found := by
  have hplain (b t : List Char) : Closes quote [quote] ('\\' :: quote :: s) b t ↔
      ∃ b', b = '\\' :: quote :: b' ∧ Closes quote [quote] s b' t :=
    closes_escape_iff (by simpa using hq)
  have hnone (hno : ∀ b t, ¬ Closes quote [quote] s b t) :=
    not_closes_of (fun b t hb => ((hplain b t).1 hb).imp fun _ h => h.2) hno
  cases h with
  | @plain b r hb hu =>
    have hlen : count + 2 + b.length + 1 = count + ('\\' :: quote :: b).length + 1 := by
      simp only [List.length_cons]
      omega
    rw [hlen]
    refine .plain hb.escape fun b' t h' => ?_
    obtain ⟨b'', rfl, h''⟩ := (hplain b' t).1 h'
    rw [hu b'' t h'']
  | @escaped b r hno hb hm =>
    have hlen : count + 2 + b.length + 2 = count + ('\\' :: quote :: b).length + 2 := by
      simp only [List.length_cons]
      omega
    rw [hlen]
    refine .escaped (hnone hno) hb.escape fun b' t h' => ?_
    cases h'.of_escape with
    | inl hnil => simp [hnil]
    | inr hcons =>
      obtain ⟨b'', rfl, h''⟩ := hcons
      simpa using hm b'' t h''
  | unclosed hno hno' =>
    have hnil : Closes quote ['\\', quote] ('\\' :: quote :: s) [] s := closes_nil rfl
    refine ScanEnds.escaped (hnone hno) hnil fun b' t h' => ?_
    cases h'.of_escape with
    | inl hnil => simp [hnil]
    | inr hcons =>
      obtain ⟨b'', -, h''⟩ := hcons
      exact absurd h'' (hno' b'' t)

/-- Any other character that may stand inside is passed over. -/
theorem ScanEnds.char (hc : c ≠ quote) (hl : isLineEnd c = false)
    (he : ¬ (c = '\\' ∧ s.head? = some quote)) (h : ScanEnds quote (count + 1) before s found) :
    ScanEnds quote count before (c :: s) found := by
  have hplain (b t : List Char) : Closes quote [quote] (c :: s) b t ↔
      ∃ b', b = c :: b' ∧ Closes quote [quote] s b' t :=
    closes_char_iff hc hl he (by simpa using Ne.symm hc)
  have hescaped (b t : List Char) : Closes quote ['\\', quote] (c :: s) b t ↔
      ∃ b', b = c :: b' ∧ Closes quote ['\\', quote] s b' t := by
    refine closes_char_iff hc hl he fun hp => he ?_
    obtain ⟨t, ht⟩ := hp
    simp only [List.cons_append, List.nil_append, List.cons.injEq] at ht
    exact ⟨ht.1.symm, by simp [← ht.2]⟩
  have hnone (hno : ∀ b t, ¬ Closes quote [quote] s b t) :=
    not_closes_of (fun b t hb => ((hplain b t).1 hb).imp fun _ h => h.2) hno
  cases h with
  | @plain b r hb hu =>
    have hlen : count + 1 + b.length + 1 = count + (c :: b).length + 1 := by
      simp only [List.length_cons]
      omega
    rw [hlen]
    refine .plain ((hplain _ r).2 ⟨b, rfl, hb⟩) fun b' t h' => ?_
    obtain ⟨b'', rfl, h''⟩ := (hplain b' t).1 h'
    rw [hu b'' t h'']
  | @escaped b r hno hb hm =>
    have hlen : count + 1 + b.length + 2 = count + (c :: b).length + 2 := by
      simp only [List.length_cons]
      omega
    rw [hlen]
    refine .escaped (hnone hno) ((hescaped _ r).2 ⟨b, rfl, hb⟩) fun b' t h' => ?_
    obtain ⟨b'', rfl, h''⟩ := (hescaped b' t).1 h'
    simpa using hm b'' t h''
  | unclosed hno hno' =>
    exact .unclosed (hnone hno)
      (not_closes_of (fun b t hb => ((hescaped b t).1 hb).imp fun _ h => h.2) hno')

theorem ScanEnds.closed (hq : quote ≠ '\\') (s : List Char) :
    ScanEnds quote count before (quote :: s) (some (count + 1)) := by
  have hnil : Closes quote [quote] (quote :: s) [] s := closes_nil rfl
  exact .plain hnil fun b' r' h => h.of_stop (.inl rfl) hq

/-- The scan stops where nothing of the inside can stand. -/
theorem ScanEnds.stop (hq : ¬ [quote] <+: s) (he : ¬ ['\\', quote] <+: s)
    (h : ∀ closing b r, closing ≠ [] → Closes quote closing s b r → b = []) :
    ScanEnds quote count before s before := by
  refine .unclosed (fun b r hb => hq ?_) fun b r hb => he ?_
  · exact Closes.prefix_of_nil (h _ b r (by simp) hb ▸ hb)
  · exact Closes.prefix_of_nil (h _ b r (by simp) hb ▸ hb)

theorem scanEnds_quotedEnd (hq : quote ≠ '\\') (count : Nat) (before : Option Nat) (s : List Char) :
    ScanEnds quote count before s (quotedEnd quote count before s) := by
  fun_induction quotedEnd quote count before s with
  | case1 count before =>
    refine .stop (by simp) (by simp) fun closing b r _ h => ?_
    exact (List.append_eq_nil_iff.1 h.eq.symm).1
  | case2 count before => exact .closed hq []
  | case3 count before c hc =>
    refine .stop (by simpa using Ne.symm hc) (by simp) fun closing b r hcl h => ?_
    have hlen := congrArg List.length h.eq
    have hpos := List.length_pos_iff.2 hcl
    simp only [List.length_append, List.length_singleton] at hlen
    exact List.length_eq_zero_iff.1 (by omega)
  | case4 count before d r => exact .closed hq (d :: r)
  | case5 count before c d r hc hl =>
    have hn : c ≠ '\\' := by
      intro h
      subst h
      cases hl
    exact .stop (by simpa using Ne.symm hc) (by simp [Ne.symm hn])
      fun closing b t _ h => h.of_stop (.inr hl) hn
  | case6 count before c d r hc hl he ih =>
    obtain ⟨rfl, rfl⟩ := he
    exact ih.escape hq
  | case7 count before c d r hc hl he ih =>
    exact ih.char hc (by simpa using hl) (by simpa using he)

theorem IsQuoted.exists_cons {quoted : List Char} (h : IsQuoted quote quoted rest) :
    ∃ t, quoted = quote :: t := by
  cases h <;> exact ⟨_, rfl⟩

theorem IsQuoted.quotedEnd_eq (hq : quote ≠ '\\') (h : IsQuoted quote (quote :: s) rest) :
    quotedEnd quote 0 none (s ++ rest) = some s.length := by
  generalize hw : quote :: s = w at h
  have hscan := scanEnds_quotedEnd hq 0 none (s ++ rest)
  generalize quotedEnd quote 0 none (s ++ rest) = found at hscan ⊢
  cases h with
  | @plain t body _ hc =>
    obtain rfl := (List.cons.inj hw).2
    have ht : body ++ [quote] ++ rest = t := by rw [hc.eq, List.append_assoc]
    rw [ht] at hscan
    cases hscan with
    | plain _ hu =>
      rw [← hu body rest hc]
      simp
    | escaped hno _ _ => exact absurd hc (hno body rest)
    | unclosed hno _ => exact absurd hc (hno body rest)
  | @escaped t body _ hno hc hm =>
    obtain rfl := (List.cons.inj hw).2
    have ht : body ++ ['\\', quote] ++ rest = t := by rw [hc.eq, List.append_assoc]
    rw [ht] at hscan
    cases hscan with
    | @plain b r hp _ => exact absurd hp (hno b r)
    | @escaped b r _ hb hm' =>
      have hlen : b.length = body.length := Nat.le_antisymm (hm b r hb) (hm' body rest hc)
      rw [hlen]
      simp
    | unclosed _ hno' => exact absurd hc (hno' body rest)

theorem quotedEnd_eq_none (hq : quote ≠ '\\')
    (h : ∀ u r, IsQuoted quote u r → quote :: s ≠ u ++ r) : quotedEnd quote 0 none s = none := by
  have hscan := scanEnds_quotedEnd hq 0 none s
  generalize quotedEnd quote 0 none s = found at hscan ⊢
  cases hscan with
  | @plain _ r hc _ => exact absurd (by simp [hc.eq]) (h _ r (.plain hc))
  | @escaped _ r hno hc hm => exact absurd (by simp [hc.eq]) (h _ r (.escaped hno hc hm))
  | unclosed _ _ => rfl

end

/-! ## Values -/

theorem IsQuote.ne_backslash {c : Char} (h : IsQuote c) : c ≠ '\\' := by
  intro heq
  subst heq
  rcases h with h | h <;> cases h

theorem groupEnd_append {body : List Char} (h : ')' ∉ body) :
    groupEnd (body ++ ')' :: rest) = some (body.length + 1) := by
  have hb : body.findIdx? (· = ')') = none := by
    rw [List.findIdx?_eq_none_iff]
    intro c hc
    simpa using ne_of_mem_of_not_mem hc h
  rw [groupEnd, List.findIdx?_append, hb]
  simp [List.findIdx?_cons]

theorem groupEnd_eq_none (h : ')' ∉ s) : groupEnd s = none := by
  rw [groupEnd, Option.map_eq_none_iff, List.findIdx?_eq_none_iff]
  intro c hc
  simpa using ne_of_mem_of_not_mem hc h

theorem unitRest_of_isQuote {c : Char} (h : IsQuote c) (r : List Char) :
    unitRest c r = (quotedEnd c 0 none r).getD 0 := if_pos h

theorem unitRest_of_not_isQuote {c : Char} (h : ¬ IsQuote c) (r : List Char) :
    unitRest c r = if c = '(' then (groupEnd r).getD 0 else 0 := if_neg h

theorem valueEnd_of_endsValue {c : Char} (h : EndsValue c) (r : List Char) :
    valueEnd (c :: r) = 0 := by
  rw [valueEnd]
  exact if_pos h

theorem valueEnd_cons {c : Char} (h : ¬ EndsValue c) (r : List Char) :
    valueEnd (c :: r) = 1 + unitRest c r + valueEnd (r.drop (unitRest c r)) := by
  rw [valueEnd]
  exact if_neg h

/-- The first character of a unit tells how long the unit is. -/
theorem IsUnit.unitRest_eq {unit : List Char} (h : IsUnit unit rest) :
    ∃ c t, unit = c :: t ∧ ¬ EndsValue c ∧ unitRest c (t ++ rest) = t.length := by
  cases h with
  | @quoted quote _ _ hq hu =>
    obtain ⟨t, rfl⟩ := hu.exists_cons
    refine ⟨quote, t, rfl, ?_, ?_⟩
    · rcases hq with rfl | rfl <;> simp [EndsValue]
    · rw [unitRest_of_isQuote hq, hu.quotedEnd_eq hq.ne_backslash, Option.getD_some]
  | @group body _ hb =>
    refine ⟨'(', body ++ [')'], rfl, by simp [EndsValue], ?_⟩
    rw [unitRest_of_not_isQuote (by simp [IsQuote]), if_pos rfl, List.append_assoc,
      List.singleton_append, groupEnd_append hb]
    simp
  | @char c _ hc hq hp =>
    refine ⟨c, [], rfl, hc, ?_⟩
    rw [List.nil_append, List.length_nil]
    by_cases hquote : IsQuote c
    · rw [unitRest_of_isQuote hquote, quotedEnd_eq_none hquote.ne_backslash (hq hquote),
        Option.getD_none]
    · rw [unitRest_of_not_isQuote hquote]
      split
      · next hpar => rw [groupEnd_eq_none (hp hpar), Option.getD_none]
      · rfl

theorem exists_isUnit {c : Char} (hc : ¬ EndsValue c) (s : List Char) :
    ∃ unit rest, c :: s = unit ++ rest ∧ IsUnit unit rest := by
  by_cases hq : IsQuote c ∧ ∃ u r, IsQuoted c u r ∧ c :: s = u ++ r
  · obtain ⟨hquote, u, r, hu, he⟩ := hq
    exact ⟨u, r, he, .quoted hquote hu⟩
  · by_cases hp : c = '(' ∧ ')' ∈ s
    · obtain ⟨rfl, hm⟩ := hp
      obtain ⟨body, r, rfl, hb⟩ := List.eq_append_cons_of_mem hm
      exact ⟨'(' :: (body ++ [')']), r, by simp, .group hb⟩
    · refine ⟨[c], s, rfl, .char hc (fun hquote u r hu he => hq ⟨hquote, u, r, hu, he⟩) ?_⟩
      exact fun hpar hm => hp ⟨hpar, hm⟩

theorem IsValue.valueEnd_eq {value : List Char} (h : IsValue value rest) :
    valueEnd (value ++ rest) = value.length := by
  induction h with
  | @nil rest hr =>
    cases rest with
    | nil => rw [List.nil_append, valueEnd]; rfl
    | cons c r => exact valueEnd_of_endsValue (hr c rfl) r
  | @cons unit value rest hu _ ih =>
    obtain ⟨c, t, rfl, hc, hl⟩ := hu.unitRest_eq
    rw [List.cons_append, List.cons_append, valueEnd_cons hc, List.append_assoc, hl,
      List.drop_left, ih]
    simp only [List.length_cons, List.length_append]
    omega

theorem exists_isValue (s : List Char) : ∃ value rest, s = value ++ rest ∧ IsValue value rest := by
  induction hn : s.length using Nat.strong_induction_on generalizing s with
  | _ n ih =>
    cases s with
    | nil => exact ⟨[], [], rfl, .nil (by simp)⟩
    | cons c r =>
      by_cases hc : EndsValue c
      · exact ⟨[], c :: r, rfl, .nil (by simpa using hc)⟩
      · obtain ⟨unit, t, he, hu⟩ := exists_isUnit hc r
        obtain ⟨d, u, rfl, -, -⟩ := hu.unitRest_eq
        have hl := congrArg List.length he
        simp only [List.length_cons, List.length_append] at hl hn
        obtain ⟨value, rest, rfl, hv⟩ := ih t.length (by omega) t rfl
        exact ⟨_, rest, by rw [he, List.append_assoc], .cons hu hv⟩

end JsxAttributes.Style.Grammar
