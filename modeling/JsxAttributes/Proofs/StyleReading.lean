import JsxAttributes.Proofs.StyleSegmentation

/-! Reading a style text is reading by the grammar: the declarations are those of the segmentation that
goes to the end, and the two faults are the two ways in which a segmentation can be stopped. -/
namespace JsxAttributes.Style.Grammar

variable {property comment t read rest : List Char} {ds : List Declaration}

/-! ## Segmentations go on -/

section
variable {before read' value whole comments : List Char} {ds' : List Declaration}

theorem segmentation_nil (h : ∀ c ∈ rest.head?, Text.isBlank c = false) : Segmentation [] [] rest :=
  @Segmentation.intro [] [] [] rest [] ⟨by simp, h⟩ .nil .nil

theorem Segments.trans (h : Segments before read ds (read' ++ rest))
    (h' : Segments (before ++ read) read' ds' rest) :
    Segments before (read ++ read') (ds ++ ds') rest := by
  generalize hr : read' ++ rest = u at h
  induction h with
  | nil => simpa using h'
  | @cons before property value whole comments read _ d ds ho hd hs hc _ ih =>
    subst hr
    have hread : read ++ (read' ++ rest) = (read ++ read') ++ rest := by simp
    rw [hread] at ho hd hc
    have hsegs : Segments before (whole ++ (comments ++ (read ++ read'))) (d :: (ds ++ ds')) rest :=
      .cons ho hd hs hc (ih (by simpa using h') rfl)
    simpa using hsegs

theorem Segmentation.append (h : Segmentation read ds (read' ++ rest))
    (h' : Segments read read' ds' rest) : Segmentation (read ++ read') (ds ++ ds') rest := by
  obtain @⟨blank, comments, read, _, _, hb, hc, hs⟩ := h
  have hread : read ++ (read' ++ rest) = (read ++ read') ++ rest := by simp
  rw [hread] at hb hc
  have hseg : Segmentation (blank ++ (comments ++ (read ++ read'))) (ds ++ ds') rest :=
    .intro hb hc (hs.trans (by simpa using h'))
  simpa using hseg

theorem Segmentation.concat
    (h : Segmentation before ds (whole ++ (comments ++ rest)))
    (ho : ¬ OpensComment (whole ++ (comments ++ rest)))
    (hd : IsDeclaration property value whole (comments ++ rest)) (hc : IsComments comments rest) :
    Segmentation (before ++ (whole ++ comments))
      (ds ++ [⟨Cursor.clean property, Cursor.clean value, Position.start.after before⟩]) rest := by
  have hs : Segments before (whole ++ (comments ++ [])) _ rest :=
    .cons ho hd (describes_iff.2 rfl) hc .nil
  rw [List.append_nil] at hs
  rw [← List.append_assoc] at h
  exact h.append hs

end

/-! ## Every text has a segmentation -/

/-- A segmentation has got to a place where reading ends. -/
def Ends (read rest : List Char) : Prop :=
  IsFinal rest ∨ (∃ p, LeavesOpen read rest p) ∨ ∃ p, LacksColon read rest p

theorem exists_isComments (s : List Char) : ∃ comments rest, s = comments ++ rest ∧
    IsComments comments rest ∧ (¬ OpensComment rest ∨ IsUnclosed rest) := by
  induction hn : s.length using Nat.strong_induction_on generalizing s with
  | _ n ih =>
    obtain ho | ⟨comment, u, rfl, hc⟩ | hu := comment_cases s
    · exact ⟨[], s, rfl, .nil, .inl ho⟩
    · have hpos := List.length_pos_iff.2 hc.ne_nil
      rw [List.length_append] at hn
      obtain ⟨comments, rest, rfl, hcs, hend⟩ := ih u.length (by omega) u rfl
      exact ⟨comment ++ comments, rest, by simp, .cons hc hcs, hend⟩
    · exact ⟨[], s, rfl, .nil, .inr hu⟩

theorem exists_isDeclaration (hp : IsProperty property (comment ++ ':' :: t))
    (hc : comment = [] ∨ IsComment comment (':' :: t)) : ∃ value whole rest,
      property ++ (comment ++ ':' :: t) = whole ++ rest ∧ IsDeclaration property value whole rest := by
  obtain ⟨blank, u, rfl, hb⟩ := exists_isRun Text.isBlank t
  obtain ⟨value, w, rfl, hv⟩ := exists_isValue u
  obtain ⟨separators, rest, rfl, hs⟩ := exists_isRun Cursor.isSeparator w
  exact ⟨value, _, rest, by simp, .intro hp hc hb hv hs⟩

/-- Where no comment opens there is a declaration, or reading ends. -/
theorem declaration_cases {s : List Char} (ho : ¬ OpensComment s) (read : List Char) :
    Ends read s ∨ ∃ property value whole rest, s = whole ++ rest ∧ whole ≠ [] ∧
      IsDeclaration property value whole rest := by
  cases hs : s.head? with
  | none => exact .inl (.inl ⟨ho, by simp [hs]⟩)
  | some c =>
    cases hc : isPropertyChar c with
    | false => exact .inl (.inl ⟨ho, by simpa [hs] using hc⟩)
    | true =>
      obtain ⟨property, r, rfl, hp⟩ := exists_isProperty hs hc
      have hcolon (comment u : List Char) (hr : r = comment ++ u)
          (hcomment : comment = [] ∧ ¬ OpensComment u ∨ IsComment comment u) :
          Ends read (property ++ r) ∨ ∃ property' value whole rest, property ++ r = whole ++ rest ∧
            whole ≠ [] ∧ IsDeclaration property' value whole rest := by
        subst hr
        by_cases hn : u.head? = some ':'
        · obtain ⟨t, rfl⟩ := List.head?_eq_some_iff.1 hn
          obtain ⟨value, whole, rest, he, hd⟩ := exists_isDeclaration hp (hcomment.imp_left And.left)
          refine .inr ⟨property, value, whole, rest, he, ?_, hd⟩
          obtain ⟨hp', -⟩ := hd
          simp [hp'.ne_nil]
        · exact .inl (.inr (.inr ⟨_, .intro ho hp hcomment hn⟩))
      obtain hr | ⟨comment, u, rfl, hcm⟩ | hu := comment_cases r
      · exact hcolon [] r rfl (.inl ⟨rfl, hr⟩)
      · exact hcolon comment u rfl (.inr hcm)
      · exact .inl (.inr (.inl ⟨_, .property ho hp hu⟩))

theorem exists_segments {s : List Char} (hs : ¬ OpensComment s ∨ IsUnclosed s) (before : List Char) :
    ∃ read ds rest, s = read ++ rest ∧ Segments before read ds rest ∧ Ends (before ++ read) rest := by
  induction hn : s.length using Nat.strong_induction_on generalizing s before with
  | _ n ih =>
    cases hs with
    | inl ho =>
      cases declaration_cases ho (before ++ []) with
      | inl hend => exact ⟨[], [], s, rfl, .nil, hend⟩
      | inr hdeclared =>
        obtain ⟨property, value, whole, t, rfl, hne, hd⟩ := hdeclared
        obtain ⟨comments, u, rfl, hc, hcs⟩ := exists_isComments t
        have hpos := List.length_pos_iff.2 hne
        simp only [List.length_append] at hn
        obtain ⟨read, ds, rest, rfl, hr, hend⟩ :=
          ih u.length (by omega) hcs (before ++ (whole ++ comments)) rfl
        refine ⟨whole ++ (comments ++ read), _ :: ds, rest, by simp,
          .cons ho hd (describes_iff.2 rfl) hc hr, ?_⟩
        simpa using hend
    | inr hu => exact ⟨[], [], s, rfl, .nil, .inr (.inl ⟨_, .comment hu⟩)⟩

/-- Every text has a segmentation that ends where reading ends. -/
theorem exists_segmentation (text : List Char) : ∃ read ds rest,
    text = read ++ rest ∧ Segmentation read ds rest ∧ Ends read rest := by
  obtain ⟨blank, t, rfl, hb⟩ := exists_isRun Text.isBlank text
  obtain ⟨comments, u, rfl, hc, hcs⟩ := exists_isComments t
  obtain ⟨read, ds, rest, rfl, hs, hend⟩ := exists_segments hcs (blank ++ comments)
  exact ⟨_, ds, rest, by simp, .intro hb hc hs, by simpa using hend⟩

/-! ## Reading follows it -/

theorem Segmentation.readDeclarations_eq {text : String} {e : Except Fault (List Char)}
    (h : Segmentation read ds rest) (ht : text.toList = read ++ rest)
    (he : readOn ⟨Position.start.after read, rest⟩ = ⟨[], e⟩) :
    readDeclarations text = e.map fun _ => ds := by
  rw [readDeclarations, ht, h.ofText_eq, he]
  simp [prepend]

/-- A text with its segmentation, how that ends and what reading makes of it. -/
theorem reading_cases (text : String) : ∃ read ds rest, text.toList = read ++ rest ∧
    Segmentation read ds rest ∧
    (IsFinal rest ∧ readDeclarations text = .ok ds ∨
      (∃ p, LeavesOpen read rest p ∧ readDeclarations text = .error ⟨.commentUnclosed, p⟩) ∨
      ∃ p, LacksColon read rest p ∧ readDeclarations text = .error ⟨.colonMissing, p⟩) := by
  obtain ⟨read, ds, rest, ht, hs, hend⟩ := exists_segmentation text.toList
  refine ⟨read, ds, rest, ht, hs, ?_⟩
  obtain hf | ⟨p, ho⟩ | ⟨p, hl⟩ := hend
  · exact .inl ⟨hf, hs.readDeclarations_eq ht hf.readOn_eq⟩
  · exact .inr (.inl ⟨p, ho, hs.readDeclarations_eq ht ho.readOn_eq⟩)
  · exact .inr (.inr ⟨p, hl, hs.readDeclarations_eq ht hl.readOn_eq⟩)

theorem exists_segmentation_of_ok {text : String} (h : readDeclarations text = .ok ds) :
    ∃ read rest, text.toList = read ++ rest ∧ Segmentation read ds rest ∧ IsFinal rest := by
  obtain ⟨read, ds', rest, ht, hs, hend⟩ := reading_cases text
  obtain ⟨hf, hr⟩ | ⟨p, -, hr⟩ | ⟨p, -, hr⟩ := hend
  · rw [h] at hr
    cases hr
    exact ⟨read, rest, ht, hs, hf⟩
  · rw [h] at hr
    cases hr
  · rw [h] at hr
    cases hr

/-- A text is read to declarations exactly if it has a segmentation into these declarations behind which
neither a comment nor a property starts. Reading meets an unclosed comment, or a property without a colon,
exactly if the segmentation comes to one, and at that place. -/
theorem readDeclarations_grammar (text : String) :
    (∀ ds, readDeclarations text = .ok ds ↔ ∃ read rest, text.toList = read ++ rest ∧
      Segmentation read ds rest ∧ IsFinal rest) ∧
    (∀ p, readDeclarations text = .error ⟨.commentUnclosed, p⟩ ↔
      ∃ read ds rest, text.toList = read ++ rest ∧ Segmentation read ds rest ∧
        LeavesOpen read rest p) ∧
    ∀ p, readDeclarations text = .error ⟨.colonMissing, p⟩ ↔
      ∃ read ds rest, text.toList = read ++ rest ∧ Segmentation read ds rest ∧
        LacksColon read rest p := by
  obtain ⟨read, ds, rest, ht, hs, hend⟩ := reading_cases text
  refine ⟨fun ds' => ⟨exists_segmentation_of_ok, ?_⟩, fun p => ⟨fun h => ?_, ?_⟩,
    fun p => ⟨fun h => ?_, ?_⟩⟩
  · intro hends
    obtain ⟨read, rest, ht, hs, hf⟩ := hends
    exact hs.readDeclarations_eq ht hf.readOn_eq
  · rcases hend with ⟨-, hr⟩ | ⟨q, ho, hr⟩ | ⟨q, -, hr⟩ <;> rw [h] at hr <;> cases hr
    exact ⟨read, ds, rest, ht, hs, ho⟩
  · intro hends
    obtain ⟨read, ds, rest, ht, hs, ho⟩ := hends
    exact hs.readDeclarations_eq ht ho.readOn_eq
  · rcases hend with ⟨-, hr⟩ | ⟨q, -, hr⟩ | ⟨q, hl, hr⟩ <;> rw [h] at hr <;> cases hr
    exact ⟨read, ds, rest, ht, hs, hl⟩
  · intro hends
    obtain ⟨read, ds, rest, ht, hs, hl⟩ := hends
    exact hs.readDeclarations_eq ht hl.readOn_eq

/-! ## What is left of a property -/

theorem isBlank_eq_false_of_isPropertyChar {c : Char} (h : isPropertyChar c = true) :
    Text.isBlank c = false := by
  have hc : 0x20 < c.toNat ∧ c.toNat < 0x85 := by
    delta isPropertyChar Char.isAlphanum Char.isAlpha Char.isUpper Char.isLower Char.isDigit at h
    simp only [Bool.or_eq_true, Bool.and_eq_true, decide_eq_true_eq, beq_iff_eq, ge_iff_le,
      UInt32.le_iff_toNat_le] at h
    rcases h with (((((((h | h) | h) | rfl) | rfl) | rfl) | rfl) | rfl) | rfl <;>
      first | decide | (simp at h; exact ⟨by omega, by omega⟩)
  simp [Text.isBlank]
  omega

theorem IsProperty.exists_cons (h : IsProperty property rest) :
    ∃ c r, property = c :: r ∧ isPropertyChar c = true := by
  obtain @⟨name, hack, blank, _, hne, hn, -, -⟩ := h
  cases name with
  | nil => exact absurd rfl hne
  | cons c r => exact ⟨c, r ++ (hack ++ blank), rfl, hn.1 c (List.mem_cons_self ..)⟩

/-- Where no comment opens, cleaning a property leaves its first character. -/
theorem IsProperty.clean_ne_empty (hp : IsProperty property rest)
    (ho : ¬ OpensComment property) : Cursor.clean property ≠ "" := by
  obtain ⟨c, r, rfl, hc⟩ := hp.exists_cons
  intro he
  obtain ⟨u, hs, front, back, hu, hf, hb, -⟩ := strips_trims_iff.2 he.symm
  have hblank : ∀ d ∈ u, Text.isBlank d = true := by
    subst hu
    simpa [or_imp, forall_and] using ⟨hf, hb⟩
  cases hs with
  | comment _ _ => exact ho ⟨_, rfl⟩
  | char _ _ =>
    have hcb := hblank c (List.mem_cons_self ..)
    rw [isBlank_eq_false_of_isPropertyChar hc] at hcb
    cases hcb

/-- Each declaration says what was written somewhere, and no comment opens there. -/
theorem Segments.exists_isDeclaration {before : List Char} (h : Segments before read ds rest) :
    ∀ d ∈ ds, ∃ before property value whole rest, ¬ OpensComment (whole ++ rest) ∧
      IsDeclaration property value whole rest ∧ Describes d before property value := by
  induction h with
  | nil => simp
  | cons ho hd hdesc _ _ ih => exact List.forall_mem_cons.2 ⟨⟨_, _, _, _, _, ho, hd, hdesc⟩, ih⟩

theorem exists_isDeclaration_of_read {text : String} (h : readDeclarations text = .ok ds) :
    ∀ d ∈ ds, ∃ before property value whole rest, ¬ OpensComment (whole ++ rest) ∧
      IsDeclaration property value whole rest ∧ Describes d before property value := by
  obtain ⟨read, rest, -, ⟨-, -, hs⟩, -⟩ := exists_segmentation_of_ok h
  exact hs.exists_isDeclaration

theorem IsDeclaration.clean_ne_empty {value whole : List Char} (h : IsDeclaration property value whole rest)
    (ho : ¬ OpensComment (whole ++ rest)) : Cursor.clean property ≠ "" := by
  obtain ⟨hp, -⟩ := h
  refine hp.clean_ne_empty fun hopens => ho ?_
  rw [List.append_assoc]
  exact hopens.trans (List.prefix_append ..)

theorem property_ne_empty {text : String} (h : readDeclarations text = .ok ds) :
    ∀ d ∈ ds, d.property ≠ "" := by
  intro d hd
  obtain ⟨before, property, value, whole, rest, ho, hdeclared, hdesc⟩ := exists_isDeclaration_of_read h d hd
  rw [describes_iff.1 hdesc]
  exact hdeclared.clean_ne_empty ho

end JsxAttributes.Style.Grammar
