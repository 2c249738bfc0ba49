import JsxAttributes.Proofs.StyleReading
import Mathlib.Data.List.DropRight
import Mathlib.Logic.Relation

/-! Positions are exact. The reader keeps a line and a column while it passes over pieces of different kinds;
in every state that it can get to they are what counting in the text up to there gives, so they are right for
each declaration and each fault. -/
namespace JsxAttributes.Style.Grammar

variable {pos : Position} {s text read rest property value whole comments comment before : List Char}
variable {d : Declaration} {ds : List Declaration} {a b c : Cursor}

/-- The place of an offset, by counting: one line more than lines end before it, and one column more than
there are characters since the last of these ends. -/
def placeOf (text : List Char) (offset : Nat) : Position :=
  ⟨1 + (text.take offset).count '\n', 1 + ((text.take offset).rtakeWhile (· ≠ '\n')).length⟩

theorem after_start (s : List Char) : Position.start.after s =
    ⟨1 + s.count '\n', 1 + (s.rtakeWhile (· ≠ '\n')).length⟩ := by
  induction s using List.reverseRecOn with
  | nil => rfl
  | append_singleton s c ih =>
    rw [Position.after_append, ih]
    by_cases hc : c = '\n'
    · subst hc
      simp [Position.next, Nat.add_assoc]
    · simp [Position.next, hc, Nat.add_assoc]

theorem placeOf_append (before rest : List Char) :
    placeOf (before ++ rest) before.length = Position.start.after before := by
  rw [placeOf, List.take_left, after_start]

/-! ## States of the reader -/

/-- One move of the reader: over white space, a comment, the property in front, a colon, the value in front,
or separators. -/
inductive Moves : Cursor → Cursor → Prop where
  | blank {c : Cursor} : Moves c c.skipBlank
  | comment {c d : Cursor} : c.skipComment? = .ok (some d) → Moves c d
  | property {c : Cursor} : Moves c (c.skip (propertyEnd c.rest))
  | colon {c : Cursor} : c.rest.head? = some ':' → Moves c (c.skip 1)
  | value {c : Cursor} : Moves c (c.skip (valueEnd c.rest))
  | separators {c : Cursor} : Moves c (c.skipWhile Cursor.isSeparator)

def Reaches : Cursor → Cursor → Prop := Relation.ReflTransGen Moves

/-- A piece of text lies between two states, and the second has the place where the piece ends. -/
def Passes (a b : Cursor) : Prop :=
  ∃ piece, a.rest = piece ++ b.rest ∧ b.position = a.position.after piece

theorem Passes.refl (a : Cursor) : Passes a a := ⟨[], rfl, rfl⟩

theorem Passes.trans (h : Passes a b) (h' : Passes b c) : Passes a c := by
  obtain ⟨s, hs, hp⟩ := h
  obtain ⟨t, ht, hq⟩ := h'
  exact ⟨s ++ t, by rw [hs, ht, List.append_assoc], by rw [hq, hp, Position.after_append]⟩

theorem passes_skip (c : Cursor) (count : Nat) : Passes c (c.skip count) :=
  ⟨c.rest.take count, (List.take_append_drop ..).symm, Position.advance_eq_after ..⟩

/-- The columns of the opening and the closing are added by hand, whatever lines end in between. -/
theorem passes_skipComment? (h : a.skipComment? = .ok (some b)) : Passes a b := by
  obtain ⟨pos, s⟩ := a
  obtain ho | ⟨comment, rest, rfl, hc⟩ | hu := comment_cases s
  · rw [skipComment?_of_not_opens ho] at h
    cases h
  · rw [hc.skipComment?_eq] at h
    cases h
    exact ⟨comment, rfl, rfl⟩
  · rw [hu.skipComment?_eq] at h
    cases h

theorem Moves.passes (h : Moves a b) : Passes a b := by
  cases h with
  | blank => exact passes_skip ..
  | comment h => exact passes_skipComment? h
  | property => exact passes_skip ..
  | colon => exact passes_skip ..
  | value => exact passes_skip ..
  | separators => exact passes_skip ..

theorem Reaches.passes (h : Reaches a b) : Passes a b := by
  induction h with
  | refl => exact .refl _
  | tail _ hm ih => exact ih.trans hm.passes

/-- In a state that can be reached, the position is that of the text consumed so far. -/
theorem exists_offset (h : Reaches (Cursor.start text) c) :
    ∃ offset, offset ≤ text.length ∧ c = ⟨placeOf text offset, text.drop offset⟩ := by
  obtain ⟨piece, hs, hp⟩ := h.passes
  obtain ⟨pos, rest⟩ := c
  obtain rfl : text = piece ++ rest := hs
  refine ⟨piece.length, by simp, ?_⟩
  rw [placeOf_append, List.drop_left]
  exact congrArg (Cursor.mk · rest) hp

/-! ## The pieces of a segmentation are moves -/

theorem IsRun.moves_blank {blank : List Char} (h : IsRun Text.isBlank blank rest) :
    Moves ⟨pos, blank ++ rest⟩ ⟨pos.after blank, rest⟩ :=
  h.skipWhile_eq ▸ .blank

theorem IsProperty.moves (h : IsProperty property rest) :
    Moves ⟨pos, property ++ rest⟩ ⟨pos.after property, rest⟩ := by
  have hm := Moves.property (c := ⟨pos, property ++ rest⟩)
  rwa [h.propertyEnd_eq, skip_append] at hm

theorem IsValue.moves (h : IsValue value rest) :
    Moves ⟨pos, value ++ rest⟩ ⟨pos.after value, rest⟩ := by
  have hm := Moves.value (c := ⟨pos, value ++ rest⟩)
  rwa [h.valueEnd_eq, skip_append] at hm

theorem IsRun.moves_separators {separators : List Char}
    (h : IsRun Cursor.isSeparator separators rest) :
    Moves ⟨pos, separators ++ rest⟩ ⟨pos.after separators, rest⟩ :=
  h.skipWhile_eq ▸ .separators

theorem moves_colon : Moves ⟨pos, ':' :: rest⟩ ⟨pos.after [':'], rest⟩ := by
  have hm : Moves ⟨pos, ':' :: rest⟩ ((Cursor.mk pos (':' :: rest)).skip 1) := .colon rfl
  rwa [show (Cursor.mk pos (':' :: rest)).skip 1 = _ from skip_append [':'] rest] at hm

theorem IsComment.moves (h : IsComment comment rest) :
    Moves ⟨pos, comment ++ rest⟩ ⟨pos.after comment, rest⟩ := .comment h.skipComment?_eq

theorem reaches_optional (h : comment = [] ∨ IsComment comment rest) :
    Reaches ⟨pos, comment ++ rest⟩ ⟨pos.after comment, rest⟩ := by
  cases h with
  | inl hnil =>
    subst hnil
    exact .refl
  | inr hc => exact .single hc.moves

theorem IsComments.reaches (h : IsComments comments rest) :
    Reaches ⟨pos, comments ++ rest⟩ ⟨pos.after comments, rest⟩ := by
  induction h generalizing pos with
  | nil => exact .refl
  | cons hc _ ih =>
    rw [List.append_assoc, Position.after_append]
    exact .head hc.moves ih

theorem IsDeclaration.reaches (h : IsDeclaration property value whole rest) :
    Reaches ⟨pos, whole ++ rest⟩ ⟨pos.after whole, rest⟩ := by
  obtain ⟨hp, hc, hb, hv, hs⟩ := h
  simp only [List.append_assoc, List.cons_append, Position.after_append, Position.after_cons]
  exact .trans (.single hp.moves) <| .trans (reaches_optional hc) <| .trans (.single moves_colon) <|
    .trans (.single hb.moves_blank) <| .trans (.single hv.moves) (.single hs.moves_separators)

theorem Segments.reaches (h : Segments before read ds rest) :
    Reaches ⟨pos, read ++ rest⟩ ⟨pos.after read, rest⟩ := by
  induction h generalizing pos with
  | nil => exact .refl
  | cons _ hd _ hc _ ih =>
    simp only [List.append_assoc, Position.after_append]
    exact .trans hd.reaches (.trans hc.reaches ih)

theorem Segmentation.reaches (h : Segmentation read ds rest) :
    Reaches (Cursor.start (read ++ rest)) ⟨Position.start.after read, rest⟩ := by
  obtain ⟨hb, hc, hs⟩ := h
  simp only [List.append_assoc, Position.after_append]
  exact .trans (.single hb.moves_blank) (.trans hc.reaches hs.reaches)

/-! ## Declarations and faults -/

/-- The reader gets to an offset, and the declaration that starts there is this one. -/
inductive StartsAt (text : List Char) (d : Declaration) (offset : Nat) : Prop where
  | intro {property value whole rest : List Char} :
      Reaches (Cursor.start text) ⟨d.position, text.drop offset⟩ →
      text.drop offset = whole ++ rest → ¬ OpensComment (whole ++ rest) →
      IsDeclaration property value whole rest → Describes d (text.take offset) property value →
      d.position = placeOf text offset → StartsAt text d offset

theorem IsDeclaration.ne_nil (h : IsDeclaration property value whole rest) : whole ≠ [] := by
  obtain ⟨hp, -⟩ := h
  simp [hp.ne_nil]

/-- The declarations of a segmentation start one behind the other. -/
theorem Segments.exists_offsets (h : Segments before read ds rest)
    (hr : Reaches (Cursor.start (before ++ (read ++ rest)))
      ⟨Position.start.after before, read ++ rest⟩) :
    ∃ offsets : List Nat, (∀ o ∈ offsets, before.length ≤ o) ∧ offsets.Pairwise (· < ·) ∧
      List.Forall₂ (StartsAt (before ++ (read ++ rest))) ds offsets := by
  induction h with
  | nil => exact ⟨[], by simp, .nil, .nil⟩
  | @cons before property value whole comments read rest d ds ho hd hdesc hc hs ih =>
    have htext : before ++ (whole ++ (comments ++ read) ++ rest) =
        (before ++ (whole ++ comments)) ++ (read ++ rest) := by simp
    have hrest : whole ++ (comments ++ read) ++ rest = whole ++ (comments ++ (read ++ rest)) := by simp
    have hnext : Reaches ⟨Position.start.after before, whole ++ (comments ++ (read ++ rest))⟩
        ⟨Position.start.after (before ++ (whole ++ comments)), read ++ rest⟩ := by
      simp only [Position.after_append]
      exact hd.reaches.trans hc.reaches
    obtain ⟨offsets, hle, hlt, hall⟩ := ih (htext ▸ .trans hr (hrest ▸ hnext))
    have hbehind : ∀ o ∈ offsets, before.length < o := by
      intro o hm
      have hwhole := List.length_pos_iff.2 hd.ne_nil
      have := hle o hm
      simp only [List.length_append] at this
      omega
    refine ⟨before.length :: offsets, ?_, List.pairwise_cons.2 ⟨hbehind, hlt⟩, .cons ?_ (htext ▸ hall)⟩
    · exact List.forall_mem_cons.2 ⟨le_rfl, fun o hm => (hbehind o hm).le⟩
    · refine @StartsAt.intro _ _ _ property value whole _ ?_ ?_ ho hd ?_ ?_
      · rw [hdesc.1, List.drop_left]
        exact hr
      · rw [List.drop_left, hrest]
      · rwa [List.take_left]
      · rw [hdesc.1, placeOf_append]

theorem Segmentation.exists_offsets (h : Segmentation read ds rest) :
    ∃ offsets : List Nat, offsets.Pairwise (· < ·) ∧
      List.Forall₂ (StartsAt (read ++ rest)) ds offsets := by
  obtain @⟨blank, comments, read, _, _, hb, hc, hs⟩ := h
  have hr : Reaches (Cursor.start (blank ++ comments ++ (read ++ rest)))
      ⟨Position.start.after (blank ++ comments), read ++ rest⟩ := by
    rw [List.append_assoc, Position.after_append]
    exact .trans (.single hb.moves_blank) hc.reaches
  obtain ⟨offsets, -, hlt, hall⟩ := hs.exists_offsets hr
  simp only [List.append_assoc] at hall ⊢
  exact ⟨offsets, hlt, hall⟩

/-- What is wrong where a fault is found: a comment that is never closed, where a declaration or a colon was to
come, or no colon behind a property and the comment that may follow it. -/
inductive IsFault : (before rest : List Char) → Cause → Prop where
  | comment {read rest : List Char} {ds : List Declaration} : Segmentation read ds rest →
      IsUnclosed rest → IsFault read rest .commentUnclosed
  | property {read property rest : List Char} {ds : List Declaration} :
      Segmentation read ds (property ++ rest) → ¬ OpensComment (property ++ rest) →
      IsProperty property rest → IsUnclosed rest → IsFault (read ++ property) rest .commentUnclosed
  | colon {read property comment rest : List Char} {ds : List Declaration} :
      Segmentation read ds (property ++ (comment ++ rest)) →
      ¬ OpensComment (property ++ (comment ++ rest)) → IsProperty property (comment ++ rest) →
      (comment = [] ∧ ¬ OpensComment rest ∨ IsComment comment rest) → rest.head? ≠ some ':' →
      IsFault (read ++ (property ++ comment)) rest .colonMissing

/-- The reader gets to an offset, and there it finds the fault. -/
inductive DetectedAt (text : List Char) (f : Fault) (offset : Nat) : Prop where
  | intro : Reaches (Cursor.start text) ⟨f.position, text.drop offset⟩ →
      IsFault (text.take offset) (text.drop offset) f.cause → f.position = placeOf text offset →
      DetectedAt text f offset

theorem IsFault.detectedAt {cause : Cause} (h : IsFault before rest cause)
    (hr : Reaches (Cursor.start (before ++ rest)) ⟨Position.start.after before, rest⟩) :
    DetectedAt (before ++ rest) ⟨cause, Position.start.after before⟩ before.length := by
  refine .intro ?_ ?_ (placeOf_append ..).symm
  · rwa [List.drop_left]
  · rwa [List.take_left, List.drop_left]

theorem LeavesOpen.exists_detectedAt {p : Position} (h : LeavesOpen read rest p)
    (hs : Segmentation read ds rest) :
    ∃ offset, DetectedAt (read ++ rest) ⟨.commentUnclosed, p⟩ offset := by
  cases h with
  | comment hu => exact ⟨_, (IsFault.comment hs hu).detectedAt hs.reaches⟩
  | @property property rest ho hp hu =>
    have hr := hs.reaches.tail hp.moves
    rw [← Position.after_append, ← List.append_assoc] at hr
    rw [← List.append_assoc]
    exact ⟨_, (IsFault.property hs ho hp hu).detectedAt hr⟩

theorem LacksColon.exists_detectedAt {p : Position} (h : LacksColon read rest p)
    (hs : Segmentation read ds rest) :
    ∃ offset, DetectedAt (read ++ rest) ⟨.colonMissing, p⟩ offset := by
  obtain @⟨property, comment, rest, ho, hp, hc, hn⟩ := h
  have hr := (hs.reaches.tail hp.moves).trans (reaches_optional (hc.imp_left And.left))
  rw [← Position.after_append, ← Position.after_append] at hr
  have htext : read ++ (property ++ (comment ++ rest)) = read ++ (property ++ comment) ++ rest := by simp
  rw [htext] at hr ⊢
  exact ⟨_, (IsFault.colon hs ho hp hc hn).detectedAt hr⟩

/-- In every state of the reader the position is the one that counting gives for the text consumed so far.
Each declaration has the position of the offset at which it starts, these offsets increase, and a fault has
the position of the offset at which it is found. -/
theorem positions_exact (text : String) :
    (∀ c, Reaches (Cursor.start text.toList) c → ∃ offset, offset ≤ text.toList.length ∧
      c = ⟨placeOf text.toList offset, text.toList.drop offset⟩) ∧
    (∀ ds, readDeclarations text = .ok ds → ∃ offsets : List Nat, offsets.Pairwise (· < ·) ∧
      List.Forall₂ (StartsAt text.toList) ds offsets) ∧
    ∀ f, readDeclarations text = .error f → ∃ offset, DetectedAt text.toList f offset := by
  obtain ⟨read, ds, rest, ht, hs, hend⟩ := reading_cases text
  refine ⟨fun c hc => exists_offset hc, fun ds' h => ?_, fun f h => ?_⟩
  · obtain ⟨read, rest, ht, hs, -⟩ := exists_segmentation_of_ok h
    rw [ht]
    exact hs.exists_offsets
  · rw [ht]
    obtain ⟨-, hread⟩ | ⟨p, ho, hread⟩ | ⟨p, hl, hread⟩ := hend
    · rw [h] at hread
      cases hread
    · rw [h] at hread
      cases hread
      exact ho.exists_detectedAt hs
    · rw [h] at hread
      cases hread
      exact hl.exists_detectedAt hs

end JsxAttributes.Style.Grammar
