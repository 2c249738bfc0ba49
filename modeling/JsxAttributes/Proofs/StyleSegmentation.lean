import JsxAttributes.Proofs.StyleCleaning
import JsxAttributes.Proofs.StyleValues

/-! Reading a style text follows its segmentation. Wherever a segmentation ends, the reader gets there with
the same declarations and goes on from there; every text has a segmentation that ends in one of the three
ways in which reading can end. Both together fix the result. -/
namespace JsxAttributes.Style.Grammar

variable {pos : Position} {rest property value whole comments comment read before : List Char}
variable {d : Declaration} {ds : List Declaration}

/-! ## Steps of the reader -/

theorem skipComments_of_none {c : Cursor} (h : c.skipComment? = .ok none) :
    c.skipComments = .ok c := by
  rw [Cursor.skipComments]
  split <;> simp_all

theorem skipComments_of_some {c e : Cursor} (h : c.skipComment? = .ok (some e)) :
    c.skipComments = e.skipComments := by
  rw [Cursor.skipComments]
  split <;> simp_all

theorem skipComments_of_error {c : Cursor} {f : Fault} (h : c.skipComment? = .error f) :
    c.skipComments = .error f := by
  rw [Cursor.skipComments]
  split <;> simp_all

/-- Reads on where comments and declarations may stand. -/
def readOn (c : Cursor) : Reading :=
  match c.skipComments with
  | .error f => ⟨[], .error f⟩
  | .ok next => next.readAll

/-- Puts declarations in front of what is read. -/
def prepend (ds : List Declaration) (r : Reading) : Reading := ⟨ds ++ r.declarations, r.ending⟩

theorem ofText_eq (text : List Char) :
    Reading.ofText text = readOn (Cursor.start text).skipBlank := rfl

theorem readAll_of_none {c : Cursor} (h : c.readDeclaration = .ok none) :
    c.readAll = ⟨[], .ok c.rest⟩ := by
  rw [Cursor.readAll]
  split <;> simp_all

theorem readAll_of_error {c : Cursor} {f : Fault} (h : c.readDeclaration = .error f) :
    c.readAll = ⟨[], .error f⟩ := by
  rw [Cursor.readAll]
  split <;> simp_all

theorem readAll_of_some {c behind : Cursor} (h : c.readDeclaration = .ok (some (d, behind))) :
    c.readAll = prepend [d] (readOn behind) := by
  rw [Cursor.readAll, readOn]
  split
  · simp_all
  · simp_all
  · next d' behind' h' =>
    rw [h] at h'
    simp only [Except.ok.injEq, Option.some.injEq, Prod.mk.injEq] at h'
    obtain ⟨rfl, rfl⟩ := h'
    split <;> simp_all [prepend]

theorem readOn_of_not_opens (h : ¬ OpensComment rest) :
    readOn ⟨pos, rest⟩ = (Cursor.mk pos rest).readAll := by
  rw [readOn, skipComments_of_none (skipComment?_of_not_opens h)]

theorem IsComments.readOn_eq (h : IsComments comments rest) :
    readOn ⟨pos, comments ++ rest⟩ = readOn ⟨pos.after comments, rest⟩ := by
  induction h generalizing pos with
  | nil => rfl
  | cons hc _ ih =>
    rw [List.append_assoc, readOn, skipComments_of_some hc.skipComment?_eq,
      Position.after_append, ← ih, readOn]

/-! ## Declarations -/

/-- A property, and the comment behind it if there is one. -/
theorem IsProperty.skipProperty_eq (hp : IsProperty property (comment ++ rest))
    (hc : comment = [] ∧ ¬ OpensComment rest ∨ IsComment comment rest) :
    (Cursor.mk pos (property ++ (comment ++ rest))).skipProperty =
      .ok ⟨pos.after (property ++ comment), rest⟩ := by
  rw [Cursor.skipProperty]
  simp only [hp.propertyEnd_eq, skip_append]
  cases hc with
  | inl hnone =>
    obtain ⟨rfl, ho⟩ := hnone
    rw [List.nil_append, skipComment?_of_not_opens ho, List.append_nil]
    rfl
  | inr hc =>
    rw [hc.skipComment?_eq, Position.after_append]
    rfl

theorem IsProperty.skipProperty_eq_error (hp : IsProperty property rest) (hu : IsUnclosed rest) :
    (Cursor.mk pos (property ++ rest)).skipProperty =
      .error ⟨.commentUnclosed, pos.after property⟩ := by
  rw [Cursor.skipProperty]
  simp only [hp.propertyEnd_eq, skip_append, hu.skipComment?_eq]
  rfl

theorem IsProperty.propertyEnd_ne_zero (hp : IsProperty property rest) :
    propertyEnd (property ++ rest) ≠ 0 := by
  rw [hp.propertyEnd_eq]
  exact fun h => hp.ne_nil (List.length_eq_zero_iff.1 h)

theorem IsDeclaration.readDeclaration_eq (h : IsDeclaration property value whole rest) :
    (Cursor.mk pos (whole ++ rest)).readDeclaration =
      .ok (some (⟨Cursor.clean property, Cursor.clean value, pos⟩, ⟨pos.after whole, rest⟩)) := by
  obtain @⟨comment, blank, _, separators, _, hp, hc, hb, hv, hs⟩ := h
  have hc' : comment = [] ∧ ¬ OpensComment (':' :: (blank ++ (value ++ (separators ++ rest)))) ∨
      IsComment comment (':' :: (blank ++ (value ++ (separators ++ rest)))) :=
    hc.imp_left fun h => ⟨h, by simp [OpensComment]⟩
  have htext : property ++ (comment ++ ':' :: (blank ++ (value ++ separators))) ++ rest =
      property ++ (comment ++ ':' :: (blank ++ (value ++ (separators ++ rest)))) := by simp
  have hcolon (t : List Char) :
      (Cursor.mk (pos.after (property ++ comment)) (':' :: t)).skip 1 =
        ⟨pos.after (property ++ comment ++ [':']), t⟩ := by
    rw [Position.after_append pos (property ++ comment)]
    exact skip_append [':'] t
  rw [htext, Cursor.readDeclaration, if_neg hp.propertyEnd_ne_zero, hp.skipProperty_eq hc']
  simp only [List.head?_cons, if_true, hcolon, Cursor.skipBlank, hb.skipWhile_eq, hv.valueEnd_eq,
    skip_append, hs.skipWhile_eq, hp.propertyEnd_eq, List.take_left, ← Position.after_append]
  simp

theorem readDeclaration_eq_none (h : ∀ c ∈ rest.head?, isPropertyChar c = false) :
    (Cursor.mk pos rest).readDeclaration = .ok none := by
  rw [Cursor.readDeclaration, if_pos (propertyEnd_eq_zero h)]

/-! ## The reader follows a segmentation -/

theorem Segments.readOn_eq (h : Segments before read ds rest) :
    readOn ⟨Position.start.after before, read ++ rest⟩ =
      prepend ds (readOn ⟨Position.start.after (before ++ read), rest⟩) := by
  induction h with
  | nil => simp [prepend]
  | @cons before property value whole comments read rest d ds ho hd hs hc _ ih =>
    have htext : whole ++ (comments ++ read) ++ rest = whole ++ (comments ++ (read ++ rest)) := by
      simp
    have hafter : ((Position.start.after before).after whole).after comments =
        Position.start.after (before ++ (whole ++ comments)) := by
      simp only [Position.after_append]
    rw [htext, readOn_of_not_opens ho, readAll_of_some hd.readDeclaration_eq, hc.readOn_eq, hafter,
      ih, describes_iff.1 hs]
    simp [prepend]

theorem Segmentation.ofText_eq (h : Segmentation read ds rest) :
    Reading.ofText (read ++ rest) = prepend ds (readOn ⟨Position.start.after read, rest⟩) := by
  obtain @⟨blank, comments, read, _, _, hb, hc, hs⟩ := h
  have htext : blank ++ (comments ++ read) ++ rest = blank ++ (comments ++ (read ++ rest)) := by simp
  rw [Grammar.ofText_eq, htext, Cursor.start, Cursor.skipBlank, hb.skipWhile_eq, hc.readOn_eq,
    ← Position.after_append, hs.readOn_eq, List.append_assoc]

/-! ## How reading ends -/

theorem IsFinal.readOn_eq (h : IsFinal rest) : readOn ⟨pos, rest⟩ = ⟨[], .ok rest⟩ := by
  rw [readOn_of_not_opens h.1, readAll_of_none (readDeclaration_eq_none h.2)]

theorem IsProperty.readDeclaration_eq_error (hp : IsProperty property rest) (hu : IsUnclosed rest) :
    (Cursor.mk pos (property ++ rest)).readDeclaration =
      .error ⟨.commentUnclosed, pos.after property⟩ := by
  rw [Cursor.readDeclaration, if_neg hp.propertyEnd_ne_zero, hp.skipProperty_eq_error hu]

theorem IsProperty.readDeclaration_eq_error_of_no_colon (hp : IsProperty property (comment ++ rest))
    (hc : comment = [] ∧ ¬ OpensComment rest ∨ IsComment comment rest)
    (hn : rest.head? ≠ some ':') :
    (Cursor.mk pos (property ++ (comment ++ rest))).readDeclaration =
      .error ⟨.colonMissing, pos.after (property ++ comment)⟩ := by
  rw [Cursor.readDeclaration, if_neg hp.propertyEnd_ne_zero, hp.skipProperty_eq hc]
  simp only [if_neg hn]

theorem LeavesOpen.readOn_eq {p : Position} (h : LeavesOpen read rest p) :
    readOn ⟨Position.start.after read, rest⟩ = ⟨[], .error ⟨.commentUnclosed, p⟩⟩ := by
  cases h with
  | comment hu => rw [readOn, skipComments_of_error hu.skipComment?_eq]
  | property ho hp hu =>
    rw [readOn_of_not_opens ho, readAll_of_error (hp.readDeclaration_eq_error hu),
      Position.after_append]

theorem LacksColon.readOn_eq {p : Position} (h : LacksColon read rest p) :
    readOn ⟨Position.start.after read, rest⟩ = ⟨[], .error ⟨.colonMissing, p⟩⟩ := by
  obtain ⟨ho, hp, hc, hn⟩ := h
  rw [readOn_of_not_opens ho, readAll_of_error (hp.readDeclaration_eq_error_of_no_colon hc hn),
    ← Position.after_append]

end JsxAttributes.Style.Grammar
