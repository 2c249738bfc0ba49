import JsxAttributes.Proofs.StyleSingle
import JsxAttributes.Proofs.StyleLookahead

/-! Comments between declarations. A comment behind a semicolon that ends a declaration keeps what is read,
unless it closes a quote or a parenthesis that stands open in front of it, or separators behind it keep the
next property from starting: a comment ends the separators of a declaration, and none may follow it. -/
namespace JsxAttributes.Style.Grammar

variable {before read rest property value whole comments : List Char}
variable {bare passed left after front middle back behind s : List Char}
variable {ds ds' : List Declaration} {opening : Char}

/-! ## Segmentations move -/

/-- Only positions depend on where a segmentation starts. -/
theorem Segments.exists_moved (h : Segments before read ds rest) (start : List Char) :
    ∃ ds', Segments start read ds' rest ∧ ds'.map Declaration.pair = ds.map Declaration.pair := by
  induction h generalizing start with
  | nil => exact ⟨[], .nil, rfl⟩
  | @cons before property value whole comments read rest d ds ho hd hs hc _ ih =>
    obtain ⟨ds', hsegs, hpairs⟩ := ih (start ++ (whole ++ comments))
    refine ⟨_ :: ds', .cons ho hd (describes_iff.2 rfl) hc hsegs, ?_⟩
    rw [describes_iff.1 hs]
    simpa [Declaration.pair] using hpairs

/-- The segmentation that reading follows is the only one that goes to the end. -/
theorem Segmentation.eq_of_ok (h : Segmentation read ds rest) (hend : Ends read rest)
    (hread : readDeclarations (String.ofList (read ++ rest)) = .ok ds') :
    ds = ds' ∧ IsFinal rest := by
  obtain hf | ⟨p, ho⟩ | ⟨p, hl⟩ := hend
  · rw [h.readDeclarations_eq (by simp) hf.readOn_eq] at hread
    cases hread
    exact ⟨rfl, hf⟩
  · rw [h.readDeclarations_eq (by simp) ho.readOn_eq] at hread
    cases hread
  · rw [h.readDeclarations_eq (by simp) hl.readOn_eq] at hread
    cases hread

/-! ## What stands open in a text -/

/-- A value of the text leaves an opening open, and `behind` is what stands behind it. -/
inductive Awaiting (opening : Char) : (text behind : List Char) → Prop where
  | intro {read property value bare rest behind : List Char} {ds : List Declaration} :
      Segmentation read ds (bare ++ rest) → ¬ OpensComment (bare ++ rest) →
      IsBare property value bare rest → Awaits opening value rest behind →
      Awaiting opening (read ++ (bare ++ rest)) behind

/-- A piece of text closes nothing that stands open at the place where it is put in. -/
def ClosesNothing (before after middle : List Char) : Prop :=
  ∀ opening t, Awaiting opening (before ++ after) (t ++ after) → ¬ IsClosedIn opening (t ++ middle)

theorem Awaiting.not_isClosedIn {text : List Char} (h : Awaiting opening text behind) :
    ¬ IsClosedIn opening behind := by
  obtain ⟨-, -, -, h⟩ := h
  exact h.not_isClosedIn

theorem Awaiting.mem {text : List Char} (h : Awaiting opening text behind) : opening ∈ text := by
  obtain ⟨-, -, ⟨-, -, -, -⟩, h⟩ := h
  simp [h.mem]

/-- A text that closes nothing in itself of what occurs around it closes nothing there. -/
theorem closesNothing_of (h : ∀ c ∈ before ++ after, ¬ IsClosedIn c middle) :
    ClosesNothing before after middle := by
  intro opening t hawait hclosed
  have hsplit : IsClosedIn opening ([] ++ (t ++ middle)) := hclosed
  cases hsplit.of_append with
  | inl ht => exact hawait.not_isClosedIn (ht.append_right after)
  | inr hm => exact h opening hawait.mem hm

/-! ## What stands in front of the place -/

theorem IsBare.insert_awaiting (h : IsBare property value bare (front ++ back)) (hf : front ≠ [])
    (ho : ¬ OpensComment (bare ++ (front ++ back)))
    (hread : Segmentation before ds (bare ++ (front ++ back)))
    (hn : ClosesNothing (before ++ (bare ++ front)) back middle) :
    IsBare property value bare (front ++ (middle ++ back)) ∧
      ¬ OpensComment (bare ++ (front ++ (middle ++ back))) := by
  refine ⟨h.insert hf fun opening t ht => hn opening t ?_, fun hopen => ho (hopen.of_append h.length_le _)⟩
  simpa using Awaiting.intro hread ho h ht

theorem Segments.insert (h : Segments before read ds (front ++ back)) (hf : front ≠ [])
    (hread : Segmentation before ds' (read ++ (front ++ back)))
    (hn : ClosesNothing (before ++ (read ++ front)) back middle) :
    Segments before read ds (front ++ (middle ++ back)) := by
  generalize hr : front ++ back = rest at h
  induction h generalizing ds' with
  | nil => exact .nil
  | @cons before property value whole comments read _ d ds ho hd hs hc _ ih =>
    subst hr
    have hhead (s : List Char) : (s ++ (front ++ (middle ++ back))).head? = (s ++ (front ++ back)).head? :=
      head?_append_congr (head?_insert hf) s
    obtain ⟨bare, separators, rfl, hbare, hsep⟩ := isDeclaration_iff.1 hd
    have hbehind (s : List Char) : bare ++ separators ++ (comments ++ (read ++ (front ++ s))) =
      bare ++ (separators ++ (comments ++ (read ++ front)) ++ s) := by simp
    have hbare' : IsBare property value bare (separators ++ (comments ++ (read ++ front)) ++ back) := by
      simpa using hbare
    have hstart : Segmentation before ds' (bare ++ separators ++ (comments ++ (read ++ (front ++ back)))) := by
      simpa using hread
    rw [hbehind] at ho
    obtain ⟨hinsert, hopens⟩ := hbare'.insert_awaiting (by simp [hf]) ho (by simpa using hread)
      (by simpa using hn)
    have hdecl : IsDeclaration property value (bare ++ separators)
        (comments ++ (read ++ (front ++ (middle ++ back)))) := by
      refine isDeclaration_iff.2 ⟨bare, separators, rfl, by simpa using hinsert, hsep.of_rest ?_⟩
      simpa using hhead (comments ++ read)
    have hsegs' := ih (hstart.concat (by simpa using ho) hd hc) (by simpa using hn) rfl
    exact .cons (by rwa [hbehind]) hdecl hs (hc.of_rest (hhead read)) hsegs'

theorem Segmentation.insert (h : Segmentation read ds (front ++ back)) (hf : front ≠ [])
    (hn : ClosesNothing (read ++ front) back middle) :
    Segmentation read ds (front ++ (middle ++ back)) := by
  obtain @⟨blank, comments, read, _, _, hb, hc, hs⟩ := h
  have hstart : Segmentation (blank ++ (comments ++ [])) [] (read ++ (front ++ back)) :=
    .intro hb hc .nil
  have hhead (s : List Char) : (s ++ (front ++ (middle ++ back))).head? = (s ++ (front ++ back)).head? :=
    head?_append_congr (head?_insert hf) s
  rw [List.append_nil] at hstart
  refine .intro (hb.of_rest ?_) (hc.of_rest (hhead read)) (hs.insert hf hstart (by simpa using hn))
  simpa using hhead (comments ++ read)

/-! ## Places between declarations -/

section
variable {body : List Char} {count : Nat}

/-- A place where a comment may stand: at the start, or behind a value and at least one semicolon, in the
separators that follow it. Of these `left` stands behind the place; in front of it are `count` declarations. -/
inductive IsGap : (before left after : List Char) → (count : Nat) → Prop where
  | start {text : List Char} : IsGap [] [] text 0
  | behind {read property value bare passed left after : List Char} {ds : List Declaration} :
      Segmentation read ds (bare ++ (passed ++ (left ++ after))) →
      ¬ OpensComment (bare ++ (passed ++ (left ++ after))) →
      IsBare property value bare (passed ++ (left ++ after)) → ';' ∈ passed →
      IsRun Cursor.isSeparator (passed ++ left) after →
      IsGap (read ++ (bare ++ passed)) left after (ds.length + 1)

theorem isComment_commentOf {blank : List Char} (hb : ¬ ['*', '/'] <:+: body)
    (hblank : IsRun Text.isBlank blank rest) : IsComment (commentOf body ++ blank) rest := by
  have h := IsComment.intro (isCommentBody_iff.2 hb) hblank
  simpa [commentOf] using h

/-- Behind the comment the declaration in front of it has ended, and reading goes on. -/
theorem Segmentation.insert_comment (h : Segmentation read ds (bare ++ (passed ++ back)))
    (ho : ¬ OpensComment (bare ++ (passed ++ back))) (hbare : IsBare property value bare (passed ++ back))
    (hne : passed ≠ []) (hp : ∀ c ∈ passed, Cursor.isSeparator c = true)
    (hn : ClosesNothing (read ++ (bare ++ passed)) back (commentOf body))
    (he : commentOf body ++ back = comments ++ rest) (hc : IsComments comments rest) :
    Segmentation (read ++ (bare ++ passed ++ comments))
      (ds ++ [⟨Cursor.clean property, Cursor.clean value, Position.start.after read⟩]) rest := by
  obtain ⟨hinsert, hopens⟩ := hbare.insert_awaiting hne ho h hn
  have hread : Segmentation read ds (bare ++ passed ++ (commentOf body ++ back)) :=
    Segmentation.insert (by simpa using h) (by simp [hne]) hn
  have hd : IsDeclaration property value (bare ++ passed) (commentOf body ++ back) :=
    isDeclaration_iff.2 ⟨bare, passed, rfl, hinsert, hp, by simp [commentOf]; decide⟩
  rw [← List.append_assoc] at hopens
  rw [he] at hread hd hopens
  exact hread.concat hopens hd hc

theorem isRun_blank_of_separators (h : ∀ c ∈ s, Cursor.isSeparator c = true) (hs : ';' ∉ s)
    (hr : ∀ c ∈ rest.head?, Text.isBlank c = false) : IsRun Text.isBlank s rest := by
  refine ⟨fun c hc => ?_, hr⟩
  simpa [Cursor.isSeparator, ne_of_mem_of_not_mem hc hs] using h c hc

theorem isFinal_semicolon (s : List Char) : IsFinal (';' :: s) := by
  simp [IsFinal, OpensComment]
  decide

theorem readPairs_comment_start (hb : ¬ ['*', '/'] <:+: body)
    (hread : readDeclarations (String.ofList s) = .ok ds) :
    readPairs (String.ofList (commentOf body ++ s)) = .ok (ds.map Declaration.pair) := by
  obtain ⟨read, rest, ht, hs, hf⟩ := exists_segmentation_of_ok hread
  rw [String.toList_ofList] at ht
  subst ht
  obtain @⟨blank, comments, read, _, _, hblank, hc, hs⟩ := hs
  obtain ⟨ds', hs', hpairs⟩ := hs.exists_moved ([] ++ (commentOf body ++ blank ++ comments))
  have hseg : Segmentation ([] ++ (commentOf body ++ blank ++ comments ++ read)) ds' rest :=
    .intro ⟨by simp, by simp [commentOf]; decide⟩ (.cons (isComment_commentOf hb hblank) hc) hs'
  have hnew := hseg.readPairs_eq hf
  rw [hpairs] at hnew
  simpa using hnew

/-- What is read of a text goes on behind each of its declarations. -/
theorem Segmentation.exists_behind (h : Segmentation read ds (whole ++ rest))
    (ho : ¬ OpensComment (whole ++ rest)) (hd : IsDeclaration property value whole rest)
    (hread : readDeclarations (String.ofList (read ++ (whole ++ rest))) = .ok ds') :
    ∃ comments read' others rest', rest = comments ++ (read' ++ rest') ∧
      IsComments comments (read' ++ rest') ∧
      Segments (read ++ (whole ++ comments)) read' others rest' ∧ IsFinal rest' ∧
      ds' = ds ++ [⟨Cursor.clean property, Cursor.clean value, Position.start.after read⟩] ++ others := by
  obtain ⟨comments, u, rfl, hc, hcs⟩ := exists_isComments rest
  obtain ⟨read', others, rest', rfl, hsegs, hend⟩ := exists_segments hcs (read ++ (whole ++ comments))
  obtain ⟨rfl, hf⟩ := ((h.concat ho hd hc).append hsegs).eq_of_ok hend (by simpa using hread)
  exact ⟨comments, read', others, rest', rfl, hc, hsegs, hf, rfl⟩

/-- What stands behind the place is read as before if no semicolon of the separators is left there, and else
not at all. -/
theorem IsGap.readPairs_insert (hg : IsGap before left after count)
    (hread : readDeclarations (String.ofList (before ++ (left ++ after))) = .ok ds)
    (hb : ¬ ['*', '/'] <:+: body) (hn : ClosesNothing before (left ++ after) (commentOf body)) :
    readPairs (String.ofList (before ++ (commentOf body ++ (left ++ after)))) =
      .ok ((if ';' ∈ left then ds.take count else ds).map Declaration.pair) := by
  cases hg with
  | start => simpa using readPairs_comment_start hb hread
  | @behind read property value bare passed _ _ ds₀ hstart ho hbare hsemi hsep =>
    have hne : passed ≠ [] := List.ne_nil_of_mem hsemi
    obtain ⟨hpassed, hleft⟩ := List.forall_mem_append.1 hsep.1
    have hd : IsDeclaration property value (bare ++ (passed ++ left)) after :=
      isDeclaration_iff.2 ⟨bare, _, rfl, by simpa using hbare, hsep⟩
    obtain ⟨comments, read', others, rest, rfl, hc, hsegs, hf, rfl⟩ :=
      Segmentation.exists_behind (by simpa using hstart) (by simpa using ho) hd (by simpa using hread)
    split
    · next hm =>
      -- the comment and the blanks behind it end in front of the next semicolon
      obtain ⟨blank, r, rfl, hno⟩ := List.eq_append_cons_of_mem hm
      have hblank : IsRun Text.isBlank blank (';' :: (r ++ (comments ++ (read' ++ rest)))) :=
        isRun_blank_of_separators (List.forall_mem_append.1 hleft).1 hno (by simp; decide)
      have hcomments : IsComments (commentOf body ++ blank ++ []) _ :=
        .cons (isComment_commentOf hb hblank) .nil
      have hnew := hstart.insert_comment ho hbare hne hpassed hn (by simp) hcomments
      rw [List.take_left' (by simp)]
      simpa using hnew.readPairs_eq (isFinal_semicolon _)
    · next hm =>
      have hblank : IsRun Text.isBlank left (comments ++ (read' ++ rest)) := by
        refine isRun_blank_of_separators hleft hm fun c hc => ?_
        exact (Bool.or_eq_false_iff.1 (hsep.2 c hc)).2
      have hcomments : IsComments (commentOf body ++ left ++ comments) (read' ++ rest) :=
        .cons (isComment_commentOf hb hblank) hc
      have hnew := hstart.insert_comment ho hbare hne hpassed hn (by simp) hcomments
      obtain ⟨others', hmoved, hpairs⟩ :=
        hsegs.exists_moved (read ++ (bare ++ passed ++ (commentOf body ++ left ++ comments)))
      simpa [hpairs] using (hnew.append hmoved).readPairs_eq hf

/-- A comment that closes nothing in front of it, at the start or behind a declaration that a semicolon has
ended, leaves the pairs as they are exactly if no semicolon stands between it and a further declaration. -/
theorem comment_between_declarations (hg : IsGap before left after count)
    (hread : readDeclarations (String.ofList (before ++ (left ++ after))) = .ok ds)
    (hb : ¬ ['*', '/'] <:+: body) (hn : ClosesNothing before (left ++ after) (commentOf body)) :
    readPairs (String.ofList (before ++ (commentOf body ++ (left ++ after)))) =
        .ok (ds.map Declaration.pair) ↔ (';' ∈ left → ds.length ≤ count) := by
  rw [hg.readPairs_insert hread hb hn, Except.ok.injEq]
  by_cases hm : ';' ∈ left
  · rw [if_pos hm]
    refine ⟨fun h _ => ?_, fun h => by rw [List.take_of_length_le (h hm)]⟩
    have hlen := congrArg List.length h
    simp only [List.length_map, List.length_take] at hlen
    omega
  · simp [hm]

theorem comment_between_declarations_quote :
    readPairs "a:it's;/*\")*/ b:c" = .ok [("a", "it's"), ("b", "c")] := by
  have hquote : ¬ IsClosedIn '\x27' ['s', ';', ' ', 'b', ':', 'c'] := by
    rintro (⟨-, hm⟩ | ⟨hp, -⟩)
    · exact absurd hm (by decide)
    · cases hp
  have hunit : IsUnit ['\x27'] ['s', ';', ' ', 'b', ':', 'c'] :=
    isUnit_of_unitRest (by simp [EndsValue]) (unitRest_eq_zero_iff.2 hquote)
  have hvalue : IsValue (['i', 't'] ++ (['\x27'] ++ (['s'] ++ []))) [';', ' ', 'b', ':', 'c'] := by
    refine .append_plain (.cons hunit (.append_plain (.nil ?_) ?_)) ?_ <;> simp [IsQuote, EndsValue]
  have hbare : IsBare ['a'] _ (['a'] ++ ([] ++ ':' :: ([] ++ ['i', 't', '\x27', 's'])))
      ([';'] ++ ([' '] ++ ['b', ':', 'c'])) :=
    .intro (@isProperty_of_chars ['a'] [] (by simp) (by simp; decide) (.inl rfl) _) (.inl rfl)
      ⟨by simp, by simp [Text.isBlank]⟩ hvalue
  have hstart : Segmentation [] [] ("a:it's".toList ++ ([';'] ++ ([' '] ++ ['b', ':', 'c']))) :=
    segmentation_nil (by simp [Text.isBlank])
  have hg : IsGap "a:it's;".toList [' '] ['b', ':', 'c'] 1 :=
    .behind hstart (by simp [OpensComment]) hbare (by simp)
      ⟨List.all_eq_true.1 rfl, by simp [Cursor.isSeparator, Text.isBlank]⟩
  have hread : readDeclarations "a:it's; b:c" =
      .ok [⟨"a", "it's", ⟨1, 1⟩⟩, ⟨"b", "c", ⟨1, 9⟩⟩] := by decide +kernel
  have hn : ClosesNothing "a:it's;".toList ([' '] ++ ['b', ':', 'c']) (commentOf ['"', ')']) := by
    refine closesNothing_of fun c hc => ?_
    rintro (⟨rfl | rfl, hm⟩ | ⟨rfl, -⟩)
    · exact absurd hm (by decide)
    · exact absurd hc (by decide)
    · exact absurd hc (by decide)
  exact (comment_between_declarations hg hread (by decide) hn).2 (by simp)

/-- A semicolon behind the comment keeps later declarations from being read, and so does a comment that closes a
quote. -/
theorem comment_between_declarations_fails :
    (Reading.ofText "a:b;;c:d".toList).ending = .ok [] ∧
      readPairs "a:b;;c:d" = .ok [("a", "b"), ("c", "d")] ∧
      readPairs "a:b;/**/;c:d" = .ok [("a", "b")] ∧
      (Reading.ofText "a:it's;b:c".toList).ending = .ok [] ∧
      readPairs "a:it's;b:c" = .ok [("a", "it's"), ("b", "c")] ∧
      readPairs "a:it's;/*'*/b:c" = .ok [("a", "it's;b:c")] := by
  decide +kernel

end

end JsxAttributes.Style.Grammar
