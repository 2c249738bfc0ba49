import JsxAttributes.Proofs.StyleWriting

/-! Texts of one declaration: what is left of a quoted text or a group that is the value, and where in a
declaration a comment may stand without changing it. Values are delimited without regard to comments, and
comments are taken out without regard to quotes. -/
namespace JsxAttributes.Style

def Declaration.pair (d : Declaration) : String × String := (d.property, d.value)

/-- The properties and values of a style text, without their positions. -/
def readPairs (text : String) : Except Fault (List (String × String)) :=
  (readDeclarations text).map (·.map Declaration.pair)

namespace Grammar

variable {p v s t read rest property value whole : List Char} {c : Char} {ds : List Declaration}

theorem Segmentation.readPairs_eq (h : Segmentation read ds rest) (hf : IsFinal rest) :
    readPairs (String.ofList (read ++ rest)) = .ok (ds.map Declaration.pair) := by
  rw [readPairs, h.readDeclarations_eq (by simp) hf.readOn_eq]
  rfl

/-! ## Cleaning -/

theorem Strips.length_lt (h : Strips s t) (hc : HasComment s) : t.length < s.length := by
  induction h with
  | nil =>
    obtain ⟨front, body, back, he⟩ := hc
    simp at he
  | comment _ hs _ =>
    have := hs.sublist.length_le
    simp only [List.length_cons, List.length_append]
    omega
  | @char c s t hno _ ih =>
    obtain ⟨front, body, back, he⟩ := hc
    cases front with
    | nil => exact absurd he (hno body back)
    | cons d front => simpa using ih ⟨front, body, back, (List.cons.inj he).2⟩

theorem withoutComments_eq_self_iff : withoutComments s = s ↔ ¬ HasComment s := by
  constructor
  · intro h hc
    have := (strips_withoutComments s).length_lt hc
    rw [h] at this
    omega
  · exact fun h => (strips_of_not_hasComment h).withoutComments_eq

/-- In front of a character that is no star, a text without an opening stays as it is. -/
theorem Strips.append_left (h : Strips (c :: s) t) (hc : c ≠ '*') (hp : ¬ ['/', '*'] <:+: p) :
    Strips (p ++ c :: s) (p ++ t) := by
  induction p with
  | nil => exact h
  | cons d r ih =>
    refine .char (fun body back he => ?_) (ih fun hr => hp (hr.trans (List.suffix_cons d r).isInfix))
    change d :: (r ++ c :: s) = _ at he
    cases r with
    | nil => exact hc (List.cons.inj (List.cons.inj he).2).1
    | cons e r =>
      simp only [List.cons_append, List.cons.injEq] at he
      obtain ⟨rfl, rfl, -⟩ := he
      exact hp (List.IsPrefix.isInfix ⟨r, rfl⟩)

/-- A character that is no slash ends no comment. -/
theorem exists_eq_closing {front back : List Char} (h : s ++ [c] = front ++ '*' :: '/' :: back)
    (hc : c ≠ '/') : ∃ r, s = front ++ '*' :: '/' :: r := by
  obtain rfl | ⟨r, e, rfl⟩ := back.eq_nil_or_concat
  · have he : s ++ [c] = (front ++ ['*']) ++ ['/'] := by simpa using h
    exact absurd (List.cons.inj (List.append_inj' he rfl).2).1 hc
  · have he : s ++ [c] = (front ++ '*' :: '/' :: r) ++ [e] := by simpa using h
    exact ⟨r, (List.append_inj' he rfl).1⟩

theorem Strips.concat (h : Strips s t) (hc : c ≠ '/') : Strips (s ++ [c]) (t ++ [c]) := by
  induction h with
  | nil => exact .char (fun body back he => by simp at he) .nil
  | comment hb _ ih => simpa using Strips.comment hb ih
  | @char d s t hno _ ih =>
    refine .char (fun body back he => ?_) ih
    have hclose : (d :: s) ++ [c] = ('/' :: '*' :: body) ++ '*' :: '/' :: back := he
    obtain ⟨r, hr⟩ := exists_eq_closing hclose hc
    exact hno body r hr

/-! ## Texts of one declaration -/

theorem IsDeclaration.segmentation (h : IsDeclaration property value whole rest)
    (ho : ¬ OpensComment (whole ++ rest)) :
    Segmentation whole [⟨Cursor.clean property, Cursor.clean value, .start⟩] rest := by
  have hstart : Segmentation [] [] (whole ++ ([] ++ rest)) := by
    obtain @⟨_, _, _, _, _, hp, -⟩ := h
    obtain ⟨c, r, rfl, hc⟩ := hp.exists_cons
    exact segmentation_nil (by simpa using isBlank_eq_false_of_isPropertyChar hc)
  simpa using hstart.concat ho h .nil

theorem isFinal_nil : IsFinal [] := by simp [IsFinal, OpensComment]

theorem IsDeclaration.readPairs_eq (h : IsDeclaration property value whole [])
    (ho : ¬ OpensComment whole) :
    readPairs (String.ofList whole) = .ok [(Cursor.clean property, Cursor.clean value)] := by
  simpa [Declaration.pair] using (h.segmentation (by simpa using ho)).readPairs_eq isFinal_nil

/-- ASCII letters and dashes. -/
def IsWord (p : List Char) : Prop := p ≠ [] ∧ ∀ c ∈ p, c.isAlpha = true ∨ c = '-'

theorem IsWord.isPropertyChar (h : IsWord p) : ∀ c ∈ p, isPropertyChar c = true := by
  intro c hc
  rcases h.2 c hc with ha | rfl
  · simp [Style.isPropertyChar, Char.isAlphanum, ha]
  · decide

theorem IsWord.not_mem (h : IsWord p) : '/' ∉ p := by
  intro hm
  rcases h.2 _ hm with ha | ha <;> cases ha

theorem IsWord.not_infix (h : IsWord p) : ¬ ['/', '*'] <:+: p :=
  fun hi => h.not_mem (hi.subset (List.mem_cons_self ..))

theorem IsWord.not_opensComment (h : IsWord p) (rest : List Char) : ¬ OpensComment (p ++ rest) := by
  obtain ⟨c, r, rfl⟩ := List.exists_cons_of_ne_nil h.1
  intro ho
  obtain ⟨t, ht⟩ := ho
  exact h.not_mem ((List.cons.inj ht).1 ▸ List.mem_cons_self ..)

theorem IsWord.isName (h : IsWord p) : IsName p := by
  have hn : IsName (p ++ []) := .intro h.1 h.isPropertyChar h.not_infix (.inl rfl)
  rwa [List.append_nil] at hn

/-! ## Quoted texts and groups -/

/-- A quoted text without its quote and without a backslash inside, or a group, with its two ends. -/
inductive IsEnclosed : (opening : Char) → (body : List Char) → (closing : Char) → Prop where
  | quoted {quote : Char} {body : List Char} : IsQuote quote → quote ∉ body → '\\' ∉ body →
      (∀ c ∈ body, isLineEnd c = false) → IsEnclosed quote body quote
  | group {body : List Char} : ')' ∉ body → IsEnclosed '(' body ')'

section
variable {opening closing : Char} {body : List Char}

theorem IsEnclosed.isPart (h : IsEnclosed opening body closing) :
    IsPart (opening :: (body ++ [closing])) := by
  cases h with
  | quoted hq hb hs hl =>
    refine .quoted hq ⟨hl, fun front back he => ?_, fun hlast => hs (List.mem_of_getLast? hlast)⟩
    exact absurd (he ▸ List.mem_append_right front (List.mem_cons_self ..)) hb
  | group hb => exact .group hb

theorem IsQuote.not_special {c : Char} (h : IsQuote c) : c ≠ '/' ∧ Text.isBlank c = false := by
  rcases h with rfl | rfl <;> decide

theorem IsEnclosed.not_special (h : IsEnclosed opening body closing) :
    (opening ≠ '/' ∧ Text.isBlank opening = false) ∧ closing ≠ '/' ∧ Text.isBlank closing = false := by
  cases h with
  | quoted hq => exact ⟨hq.not_special, hq.not_special⟩
  | group => decide

/-- The ends of the text stay, and inside it every complete comment is taken out. -/
theorem IsEnclosed.clean_eq (h : IsEnclosed opening body closing) :
    Cursor.clean (opening :: (body ++ [closing])) =
      String.ofList (opening :: (withoutComments body ++ [closing])) := by
  obtain ⟨⟨hslash, hblank⟩, hslash', hblank'⟩ := h.not_special
  have hs : Strips (opening :: (body ++ [closing])) (opening :: (withoutComments body ++ [closing])) :=
    .char (fun _ _ he => hslash (List.cons.inj he).1) ((strips_withoutComments body).concat hslash')
  refine hs.clean_eq (trims_self (by simpa using hblank) ?_)
  simpa [← List.cons_append, -List.cons_append_fun] using hblank'

/-- A declaration whose value is one quoted text or one group is read to one pair, in which the comments
inside are missing; the value survives verbatim exactly if there is no complete comment in it. -/
theorem readPairs_enclosed (hp : IsWord p) (hv : IsEnclosed opening body closing) :
    readPairs (String.ofList (p ++ ':' :: ' ' :: opening :: (body ++ [closing]))) =
        .ok [(String.ofList p, String.ofList (opening :: (withoutComments body ++ [closing])))] ∧
      (readPairs (String.ofList (p ++ ':' :: ' ' :: opening :: (body ++ [closing]))) =
        .ok [(String.ofList p, String.ofList (opening :: (body ++ [closing])))] ↔
        ¬ HasComment body) := by
  have hvalue : IsValue ([opening :: (body ++ [closing])].flatten) ([] ++ []) :=
    isValue_flatten (by simpa using hv.isPart) (by simp)
  have hblank : IsRun Text.isBlank [' '] ([opening :: (body ++ [closing])].flatten ++ ([] ++ [])) :=
    ⟨List.all_eq_true.1 rfl, by simpa using hv.not_special.1.2⟩
  have hd : IsDeclaration p _ _ [] :=
    .intro (hp.isName.isProperty _) (.inl rfl) hblank hvalue ⟨by simp, by simp⟩
  have hread := hd.readPairs_eq (hp.not_opensComment _)
  have htext : p ++ ([] ++ ':' :: ([' '] ++ ([opening :: (body ++ [closing])].flatten ++ []))) =
      p ++ ':' :: ' ' :: opening :: (body ++ [closing]) := by simp
  rw [htext, hp.isName.clean_eq, List.flatten_singleton, hv.clean_eq] at hread
  refine ⟨hread, ?_⟩
  rw [hread, ← withoutComments_eq_self_iff]
  simp [String.ofList_inj]

theorem readPairs_enclosed_group :
    readPairs "a: (/*;\x7d'\n)" = .ok [("a", "(/*;\x7d'\n)")] := by
  have hbody : ')' ∉ ['/', '*', ';', '\x7d', '\x27', '\n'] := by decide
  have hno : ¬ HasComment ['/', '*', ';', '\x7d', '\x27', '\n'] :=
    withoutComments_eq_self_iff.1 (by decide +kernel)
  have hp : IsWord ['a'] := ⟨by simp, List.forall_mem_singleton.2 (by decide)⟩
  exact (readPairs_enclosed hp (.group hbody)).2.2 hno

theorem readPairs_enclosed_comment : readPairs "content: '/**/'" = .ok [("content", "''")] := by
  decide +kernel

end

/-! ## Comments inside a declaration -/

section
variable {body separators blank : List Char}

def commentOf (body : List Char) : List Char := '/' :: '*' :: (body ++ ['*', '/'])

theorem strips_commentOf (hb : ¬ ['*', '/'] <:+: body) : Strips (commentOf body) [] :=
  .comment (isCommentBody_iff.2 hb) .nil

/-- Plain characters: no quote, no group, no comment and no end of a value, and no white space around. -/
structure IsPlainText (v : List Char) : Prop where
  plain : ∀ c ∈ v, ¬ IsQuote c ∧ c ≠ '(' ∧ ¬ EndsValue c
  comment : ¬ ['/', '*'] <:+: v
  front : ∀ c ∈ v.head?, Text.isBlank c = false
  back : ∀ c ∈ v.getLast?, Text.isBlank c = false

theorem IsValue.append_plain (h : IsValue value rest)
    (hv : ∀ c ∈ v, ¬ IsQuote c ∧ c ≠ '(' ∧ ¬ EndsValue c) : IsValue (v ++ value) rest := by
  induction v with
  | nil => exact h
  | cons c r ih =>
    obtain ⟨hc, hr⟩ := List.forall_mem_cons.1 hv
    exact @IsValue.cons [c] _ _ ((IsPart.char hc.2.2 hc.2.1 hc.1).isUnit _) (ih hr)

theorem IsPlainText.clean_eq (h : IsPlainText v) : Cursor.clean v = String.ofList v :=
  (strips_self h.comment).clean_eq (trims_self h.front h.back)

/-- A comment of property characters belongs to the property in front of it, and is taken out of it. -/
theorem readPairs_comment_before_colon (hp : IsWord p) (hv : IsPlainText v)
    (hb : ¬ ['*', '/'] <:+: body) (hchars : ∀ c ∈ body, isPropertyChar c = true) :
    readPairs (String.ofList (p ++ (commentOf body ++ ':' :: v))) =
      .ok [(String.ofList p, String.ofList v)] := by
  have hname : ∀ c ∈ p ++ commentOf body, isPropertyChar c = true := by
    intro c hc
    simp only [commentOf, List.mem_append, List.mem_cons, List.not_mem_nil, or_false] at hc
    rcases hc with hc | rfl | rfl | hc | rfl | rfl
    · exact hp.isPropertyChar c hc
    · decide
    · decide
    · exact hchars c hc
    · decide
    · decide
  have hvalue : IsValue (v ++ []) ([] ++ []) := .append_plain (.nil (by simp)) hv.plain
  have hd : IsDeclaration (p ++ commentOf body) v
      (p ++ commentOf body ++ ([] ++ ':' :: ([] ++ (v ++ [])))) [] := by
    have hp := isProperty_of_chars (by simp [commentOf]) hname (.inl rfl) (v ++ [])
    rw [List.append_nil] at hp
    refine .intro hp (.inl rfl) ⟨by simp, ?_⟩ ?_ ⟨by simp, by simp⟩
    · simpa using hv.front
    · simpa using hvalue
  have hclean : Cursor.clean (p ++ commentOf body) = String.ofList p := by
    have hs : Strips (p ++ commentOf body) (p ++ []) :=
      (strips_commentOf hb).append_left (by decide) hp.not_infix
    rw [List.append_nil] at hs
    refine hs.clean_eq (trims_self (fun c hc => ?_) fun c hc => ?_)
    · exact isBlank_eq_false_of_isPropertyChar (hp.isPropertyChar c (List.mem_of_head? hc))
    · exact isBlank_eq_false_of_isPropertyChar (hp.isPropertyChar c (List.mem_of_getLast? hc))
  have hread := hd.readPairs_eq (by rw [List.append_assoc]; exact hp.not_opensComment _)
  rw [hclean, hv.clean_eq] at hread
  simpa using hread

/-- White space in front of a value is no part of it. -/
theorem clean_append_left (h : ∀ c ∈ blank, Text.isBlank c = true) (s : List Char) :
    Cursor.clean (blank ++ s) = Cursor.clean s := by
  obtain ⟨u, hs, front, back, rfl, hf, hb⟩ := strips_trims_iff.2 (Eq.refl (Cursor.clean s))
  have hstrips : Strips (blank ++ s) (blank ++ (front ++ (Cursor.clean s).toList ++ back)) := by
    clear hf hb
    induction blank with
    | nil => exact hs
    | cons c r ih =>
      obtain ⟨hc, hr⟩ := List.forall_mem_cons.1 h
      refine .char (fun body t he => ?_) (ih hr)
      obtain rfl := (List.cons.inj he).1
      cases hc
  refine (strips_trims_iff.1 ⟨_, hstrips, blank ++ front, back, by simp, fun c hc => ?_, hb⟩).symm
  exact (List.mem_append.1 hc).elim (h c) (hf c)

/-- Behind the colon comes the value with the opening of the comment, as far as the scan goes. -/
theorem exists_isDeclaration_opened (hp : IsWord p) (hv : IsPlainText v)
    (hval : IsValue value (separators ++ rest)) (hs : IsRun Cursor.isSeparator separators rest) :
    ∃ raw, IsDeclaration p raw
        (p ++ ':' :: (v ++ ' ' :: '/' :: '*' :: (value ++ separators))) rest ∧
      Cursor.clean raw = Cursor.clean (v ++ ' ' :: '/' :: '*' :: value) := by
  have hopened : IsValue (['/', '*'] ++ value) (separators ++ rest) :=
    .append_plain hval (by simp [IsQuote, EndsValue])
  cases v with
  | nil =>
    have hblank : IsRun Text.isBlank [' '] (['/', '*'] ++ value ++ (separators ++ rest)) :=
      ⟨List.all_eq_true.1 rfl, by simp [Text.isBlank]⟩
    refine ⟨['/', '*'] ++ value, ?_, (clean_append_left hblank.1 _).symm⟩
    have hd : IsDeclaration p _
        (p ++ ([] ++ ':' :: ([' '] ++ (['/', '*'] ++ value ++ separators)))) rest :=
      .intro (hp.isName.isProperty _) (.inl rfl) hblank hopened hs
    simpa using hd
  | cons c r =>
    have hvalue : IsValue (c :: r ++ ([' '] ++ (['/', '*'] ++ value))) (separators ++ rest) :=
      .append_plain (.append_plain hopened (by simp [IsQuote, EndsValue])) hv.plain
    have hblank : IsRun Text.isBlank []
        (c :: r ++ ([' '] ++ (['/', '*'] ++ value)) ++ (separators ++ rest)) :=
      ⟨by simp, fun d hd => hv.front d (by simpa using hd)⟩
    refine ⟨c :: r ++ ([' '] ++ (['/', '*'] ++ value)), ?_, rfl⟩
    have hd : IsDeclaration p _
        (p ++ ([] ++ ':' :: ([] ++ (c :: r ++ ([' '] ++ (['/', '*'] ++ value)) ++ separators)))) rest :=
      .intro (hp.isName.isProperty _) (.inl rfl) hblank hvalue hs
    simpa using hd

theorem IsPlainText.clean_append_comment (hv : IsPlainText v) (hb : ¬ ['*', '/'] <:+: body) :
    Cursor.clean (v ++ ' ' :: commentOf body) = String.ofList v := by
  have hs : Strips (v ++ ' ' :: commentOf body) (v ++ [' ']) :=
    (Strips.char (by simp) (strips_commentOf hb)).append_left (by decide) hv.comment
  exact hs.clean_eq ⟨[], [' '], by simp, by simp, List.all_eq_true.1 rfl, hv.front, hv.back⟩

/-- An opening that is not closed stays. -/
theorem strips_opening (hn : ¬ ['*', '/'] <:+: s) : Strips ('/' :: '*' :: s) ('/' :: '*' :: s) := by
  refine strips_of_not_hasComment fun hc => hn ?_
  obtain ⟨front, body, back, he⟩ := hc
  rcases front with _ | ⟨c, _ | ⟨d, front⟩⟩
  · obtain rfl : s = body ++ '*' :: '/' :: back := by simpa using he
    exact ⟨body, back, by simp⟩
  · simp at he
  · obtain ⟨-, -, rfl⟩ : _ ∧ _ ∧ s = front ++ '/' :: '*' :: (body ++ '*' :: '/' :: back) := by
      simpa using he
    exact ⟨front ++ '/' :: '*' :: body, back, by simp⟩

/-- Where there is no comment to take out, cleaning keeps every slash. -/
theorem count_clean (h : Strips s s) : (Cursor.clean s).toList.count '/' = s.count '/' := by
  obtain ⟨u, hs, front, back, rfl, hf, hb, -⟩ := strips_trims_iff.2 (Eq.refl (Cursor.clean s))
  have hblank (t : List Char) (ht : ∀ c ∈ t, Text.isBlank c = true) : t.count '/' = 0 :=
    List.count_eq_zero.2 fun hm => by cases ht _ hm
  have hcount := congrArg (List.count '/') (h.withoutComments_eq.symm.trans hs.withoutComments_eq)
  simpa [hblank front hf, hblank back hb] using hcount.symm

theorem IsPlainText.clean_append_opening (hv : IsPlainText v) (hn : ¬ ['*', '/'] <:+: value) :
    Cursor.clean (v ++ ' ' :: '/' :: '*' :: value) ≠ String.ofList v := by
  have hs := (Strips.char (by simp) (strips_opening hn)).append_left (by decide : ' ' ≠ '*') hv.comment
  intro heq
  have hcount := count_clean hs
  rw [heq] at hcount
  simp at hcount

/-- The first declaration makes the first pair, whatever comes behind it. -/
theorem IsDeclaration.exists_pairs (h : IsDeclaration property value whole rest)
    (ho : ¬ OpensComment (whole ++ rest)) {pairs : List (String × String)}
    (hread : readPairs (String.ofList (whole ++ rest)) = .ok pairs) :
    ∃ others, pairs = (Cursor.clean property, Cursor.clean value) :: others := by
  rw [readPairs, readDeclarations, String.toList_ofList, (h.segmentation ho).ofText_eq] at hread
  simp only [prepend, Except.map] at hread
  split at hread
  · cases hread
  · next he =>
    split at he
    · cases he
    · cases he
      cases hread
      exact ⟨_, rfl⟩

/-- A comment behind the value is taken out of it exactly if the scan of the value goes over all of it. -/
theorem readPairs_comment_behind_value_iff (hp : IsWord p) (hv : IsPlainText v)
    (hb : ¬ ['*', '/'] <:+: body) :
    readPairs (String.ofList (p ++ ':' :: (v ++ ' ' :: commentOf body))) =
      .ok [(String.ofList p, String.ofList v)] ↔ IsValue (body ++ ['*', '/']) [] := by
  constructor
  · intro hread
    obtain ⟨value, t, he, hval⟩ := exists_isValue (body ++ ['*', '/'])
    obtain ⟨separators, rest, rfl, hs⟩ := exists_isRun Cursor.isSeparator t
    obtain ⟨raw, hd, hclean⟩ := exists_isDeclaration_opened hp hv hval hs
    have htext : p ++ ':' :: (v ++ ' ' :: commentOf body) =
        p ++ ':' :: (v ++ ' ' :: '/' :: '*' :: (value ++ separators)) ++ rest := by
      simp [commentOf, he]
    have ho := hp.not_opensComment (':' :: (v ++ ' ' :: commentOf body))
    rw [htext] at hread ho
    obtain ⟨others, hpairs⟩ := hd.exists_pairs ho hread
    rw [hclean] at hpairs
    by_cases hnil : separators ++ rest = []
    · rw [hnil, List.append_nil] at he
      rw [he]
      rwa [hnil] at hval
    · -- the scan has stopped inside the comment, in front of its closing
      have hn : ¬ ['*', '/'] <:+: value := by
        obtain ⟨r, c, hr⟩ := List.eq_nil_or_concat (separators ++ rest) |>.resolve_left hnil
        have hinit : body ++ ['*'] = value ++ r := by
          have heq : (body ++ ['*']) ++ ['/'] = (value ++ r) ++ [c] := by simpa [hr] using he
          exact (List.append_inj' heq rfl).1
        refine fun hi => isCommentBody_iff.2 hb ?_
        rw [hinit]
        exact hi.trans (List.prefix_append ..).isInfix
      exact absurd (Prod.mk.inj (List.cons.inj hpairs).1).2.symm (hv.clean_append_opening hn)
  · intro hval
    have hend : IsRun Cursor.isSeparator [] [] := ⟨by simp, by simp⟩
    obtain ⟨raw, hd, hclean⟩ := exists_isDeclaration_opened hp hv hval hend
    have hcomment : Cursor.clean raw = String.ofList v := hclean.trans (hv.clean_append_comment hb)
    have hread := hd.readPairs_eq (hp.not_opensComment _)
    rw [hcomment, hp.isName.clean_eq] at hread
    simpa [commentOf] using hread

/-- Behind its property characters a property has no slash. -/
theorem IsProperty.exists_tail {name back : List Char} (h : IsProperty property rest)
    (hn : IsRun isPropertyChar name back) (he : property ++ rest = name ++ back) :
    ∃ tail, property = name ++ tail ∧ '/' ∉ tail := by
  obtain @⟨name', hack, gap, _, -, hn', hhack, hgap⟩ := h
  obtain rfl : name' = name := by
    rw [← hn.takeWhile_eq, ← he, List.append_assoc, List.append_assoc, hn'.takeWhile_eq]
  refine ⟨hack ++ gap, rfl, fun hm => ?_⟩
  cases List.mem_append.1 hm with
  | inl hm =>
    cases hhack with
    | inl hh => exact hh.not_mem (by decide) (by decide) hm
    | inr hnone => simp [hnone.1] at hm
  | inr hm => cases hgap.1 _ hm

/-- A text that is read and starts with a property character starts with a declaration, its first pair. -/
theorem exists_isDeclaration_of_ok {pairs : List (String × String)} (ho : ¬ OpensComment s)
    (hc : s.head? = some c) (hp : isPropertyChar c = true) (hread : readPairs (String.ofList s) = .ok pairs) :
    ∃ property value whole rest others, s = whole ++ rest ∧ IsDeclaration property value whole rest ∧
      pairs = (Cursor.clean property, Cursor.clean value) :: others := by
  have hstart : Segmentation [] [] s :=
    segmentation_nil (by simpa [hc] using isBlank_eq_false_of_isPropertyChar hp)
  obtain (hf | ⟨q, hl⟩ | ⟨q, hl⟩) | ⟨property, value, whole, rest, rfl, -, hd⟩ := declaration_cases ho []
  · have := hf.2 c hc
    rw [hp] at this
    cases this
  · rw [readPairs, hstart.readDeclarations_eq (by simp) hl.readOn_eq] at hread
    cases hread
  · rw [readPairs, hstart.readDeclarations_eq (by simp) hl.readOn_eq] at hread
    cases hread
  · obtain ⟨others, hpairs⟩ := hd.exists_pairs ho hread
    exact ⟨property, value, whole, rest, others, rfl, hd, hpairs⟩

/-- A comment between a property and its colon, without white space, is no part of the property exactly if it
is all of property characters. -/
theorem readPairs_comment_before_colon_iff (hp : IsWord p) (hv : IsPlainText v)
    (hb : ¬ ['*', '/'] <:+: body) :
    readPairs (String.ofList (p ++ (commentOf body ++ ':' :: v))) =
      .ok [(String.ofList p, String.ofList v)] ↔ ∀ c ∈ body, isPropertyChar c = true := by
  refine ⟨fun hread => ?_, readPairs_comment_before_colon hp hv hb⟩
  obtain ⟨inner, r, rfl, hrun⟩ := exists_isRun isPropertyChar body
  by_contra hchars
  have hr : r ≠ [] := fun hnil => hchars (by simpa [hnil] using hrun.1)
  obtain ⟨x, r, rfl⟩ := List.exists_cons_of_ne_nil hr
  -- the property starts with the name, the opening and what of the body can belong to it
  have hname : IsRun isPropertyChar (p ++ '/' :: '*' :: inner) (x :: (r ++ '*' :: '/' :: ':' :: v)) := by
    refine ⟨fun c hc => ?_, fun c hc => hrun.2 c (by simpa using hc)⟩
    simp only [List.mem_append, List.mem_cons] at hc
    rcases hc with hc | rfl | rfl | hc
    · exact hp.isPropertyChar c hc
    · decide
    · decide
    · exact hrun.1 c hc
  obtain ⟨c, q, hq⟩ := List.exists_cons_of_ne_nil hp.1
  obtain ⟨property, value, whole, rest, others, hwhole, hd, hpairs⟩ :=
    exists_isDeclaration_of_ok (hp.not_opensComment _) (by rw [hq]; rfl)
      (hp.isPropertyChar c (hq ▸ List.mem_cons_self ..)) hread
  have hclean := (Prod.mk.inj (List.cons.inj hpairs).1).1
  obtain ⟨hproperty, -⟩ := hd
  obtain ⟨tail, rfl, hslash⟩ := hproperty.exists_tail hname (by simpa [commentOf] using hwhole.symm)
  have hclose : ¬ ['*', '/'] <:+: inner ++ tail :=
    fun hi => hb ((infix_of_infix_append hslash hi).trans (List.prefix_append ..).isInfix)
  have hcount := count_clean ((strips_opening hclose).append_left (by decide) hp.not_infix)
  have hsame : p ++ '/' :: '*' :: inner ++ tail = p ++ '/' :: '*' :: (inner ++ tail) := by simp
  rw [← hsame, ← hclean] at hcount
  simp at hcount

/-- A comment directly behind a property is transparent exactly if it is all of property characters: the
property goes on over slashes and stars. A comment behind the value is, exactly if every semicolon and every
closing brace in it stands in a quoted text or a group: the value is delimited before comments are taken out
of it. -/
theorem comment_in_declaration (hp : IsWord p) (hv : IsPlainText v) (hb : ¬ ['*', '/'] <:+: body) :
    (readPairs (String.ofList (p ++ (commentOf body ++ ':' :: v))) =
      .ok [(String.ofList p, String.ofList v)] ↔ ∀ c ∈ body, isPropertyChar c = true) ∧
    (readPairs (String.ofList (p ++ ':' :: (v ++ ' ' :: commentOf body))) =
      .ok [(String.ofList p, String.ofList v)] ↔ IsValue (body ++ ['*', '/']) []) :=
  ⟨readPairs_comment_before_colon_iff hp hv hb, readPairs_comment_behind_value_iff hp hv hb⟩

theorem comment_in_declaration_word :
    readPairs "-a/*b-*/:c d" = .ok [("-a", "c d")] ∧ readPairs "-a:c d /*b-*/" = .ok [("-a", "c d")] := by
  have hp : IsWord ['-', 'a'] := ⟨by simp, by simp⟩
  have hv : IsPlainText ['c', ' ', 'd'] :=
    ⟨by simp [IsQuote, EndsValue], by decide, by simp [Text.isBlank], by simp [Text.isBlank]⟩
  have hb : ¬ ['*', '/'] <:+: ['b', '-'] := by decide
  have hvalue : IsValue (['b', '-', '*', '/'] ++ []) [] :=
    .append_plain (.nil (by simp)) (by simp [IsQuote, EndsValue])
  obtain ⟨hbefore, hbehind⟩ := comment_in_declaration hp hv hb
  exact ⟨hbefore.2 (List.all_eq_true.1 rfl), hbehind.2 hvalue⟩

/-- A blank ends the property inside the comment, and a semicolon or a brace ends the value there. -/
theorem comment_in_declaration_fails :
    readPairs "color/* x */:red" = .error ⟨.colonMissing, ⟨1, 9⟩⟩ ∧
      readPairs "color:red /*;*/" = .error ⟨.colonMissing, ⟨1, 16⟩⟩ ∧
      readPairs "color:red /*\x7d*/" = .ok [("color", "red /*")] := by
  decide +kernel

end

end Grammar

end JsxAttributes.Style
