import JsxAttributes.Proofs.StyleTokens

/-! What a declaration keeps of the text it was written as: no complete comment, and no white space at
the two ends. -/
namespace JsxAttributes.Style.Grammar

variable {p : Char → Bool} {run rest s t : List Char}

theorem IsRun.dropWhile_eq (h : IsRun p run rest) : (run ++ rest).dropWhile p = rest := by
  have hs := List.takeWhile_append_dropWhile (p := p) (l := run ++ rest)
  rw [h.takeWhile_eq] at hs
  exact List.append_cancel_left hs

/-! ## Comments -/

theorem IsCommentBody.comment?_eq {body : List Char} (h : IsCommentBody body) :
    comment? ('/' :: '*' :: (body ++ '*' :: '/' :: s)) = some (body, s) :=
  h.closeComment_eq

theorem isCommentBody_of_comment? {body : List Char} (h : comment? s = some (body, rest)) :
    IsCommentBody body := by
  have hs := comment?_eq h
  subst hs
  obtain ⟨b, r, he, hb⟩ := exists_isCommentBody (s := body ++ '*' :: '/' :: rest) ⟨body, rest, by simp⟩
  have hc := hb.comment?_eq (s := r)
  rw [← he, h] at hc
  obtain ⟨rfl, -⟩ := Prod.mk.inj (Option.some.inj hc)
  exact hb

theorem Strips.withoutComments_eq (h : Strips s t) : withoutComments s = t := by
  induction h with
  | nil => rw [withoutComments]
  | comment hb _ ih => rw [withoutComments, hb.comment?_eq]; exact ih
  | @char c s t hno _ ih =>
    have hc : comment? (c :: s) = none := by
      cases hc : comment? (c :: s) with
      | none => rfl
      | some split => exact absurd (comment?_eq hc) (hno split.1 split.2)
    rw [withoutComments, hc, ih]

theorem strips_withoutComments (s : List Char) : Strips s (withoutComments s) := by
  fun_induction withoutComments s with
  | case1 => exact .nil
  | case2 c r body rest h ih =>
    rw [comment?_eq h]
    exact .comment (isCommentBody_of_comment? h) ih
  | case3 c r h ih =>
    refine .char (fun body t he => ?_) ih
    obtain ⟨b, u, he', hb⟩ := exists_isCommentBody (s := body ++ '*' :: '/' :: t) ⟨body, t, by simp⟩
    rw [he, he', hb.comment?_eq] at h
    cases h

/-- Nothing is added and nothing changes its place. -/
theorem Strips.sublist (h : Strips s t) : t.Sublist s := by
  induction h with
  | nil => exact .slnil
  | @comment body s t _ _ ih =>
    have hs : s <:+ '/' :: '*' :: (body ++ '*' :: '/' :: s) := ⟨'/' :: '*' :: (body ++ ['*', '/']), by simp⟩
    exact ih.trans hs.sublist
  | char _ _ ih => exact ih.cons_cons _

/-- A complete comment stands somewhere in the text. -/
def HasComment (s : List Char) : Prop :=
  ∃ front body back, s = front ++ '/' :: '*' :: (body ++ '*' :: '/' :: back)

theorem HasComment.cons (h : HasComment s) (c : Char) : HasComment (c :: s) := by
  obtain ⟨front, body, back, rfl⟩ := h
  exact ⟨c :: front, body, back, rfl⟩

theorem strips_of_not_hasComment (h : ¬ HasComment s) : Strips s s := by
  induction s with
  | nil => exact .nil
  | cons c r ih => exact .char (fun body back he => h ⟨[], body, back, he⟩) (ih fun hr => h (hr.cons c))

/-! ## White space -/

theorem trimStart_append {front : List Char} (h : IsRun Text.isBlank front rest) :
    Text.trimStart (front ++ rest) = rest := h.dropWhile_eq

theorem trimEnd_append {back : List Char} (hb : ∀ c ∈ back, Text.isBlank c = true)
    (ht : ∀ c ∈ t.getLast?, Text.isBlank c = false) : Text.trimEnd (t ++ back) = t := by
  have hr : IsRun Text.isBlank back.reverse t.reverse := ⟨by simpa using hb, by simpa using ht⟩
  rw [Text.trimEnd, List.reverse_append, hr.dropWhile_eq, List.reverse_reverse]

theorem trim_eq_nil (h : ∀ c ∈ s, Text.isBlank c = true) : Text.trim s = [] := by
  have hs : Text.trimStart s = [] := List.dropWhile_eq_nil_iff.2 h
  rw [Text.trim, hs]
  rfl

theorem Trims.trim_eq (h : Trims s t) : Text.trim s = t := by
  obtain ⟨front, back, rfl, hf, hb, hh, hl⟩ := h
  cases t with
  | nil =>
    refine trim_eq_nil fun c hc => ?_
    cases List.mem_append.1 hc with
    | inl hc => exact hf c (by simpa using hc)
    | inr hc => exact hb c hc
  | cons c r =>
    have hr : IsRun Text.isBlank front (c :: r ++ back) := ⟨hf, hh⟩
    rw [Text.trim, List.append_assoc, trimStart_append hr, trimEnd_append hb hl]

theorem trims_trim (s : List Char) : Trims s (Text.trim s) := by
  obtain ⟨front, t, rfl, hf⟩ := exists_isRun Text.isBlank s
  obtain ⟨back, u, hu, hb⟩ := exists_isRun Text.isBlank t.reverse
  obtain rfl : t = u.reverse ++ back.reverse := by
    rw [← List.reverse_append, ← hu, List.reverse_reverse]
  have hl : ∀ c ∈ u.reverse.getLast?, Text.isBlank c = false := by simpa using hb.2
  have ht : Text.trim (front ++ (u.reverse ++ back.reverse)) = u.reverse := by
    rw [Text.trim, trimStart_append hf, trimEnd_append (by simpa using hb.1) hl]
  rw [ht]
  refine ⟨front, back.reverse, by simp, hf.1, by simpa using hb.1, fun c hc => ?_, hl⟩
  exact hf.2 c (List.mem_head?_append_of_mem_head? hc)

/-! ## Declarations -/

theorem strips_trims_iff {d : String} :
    (∃ u, Strips s u ∧ Trims u d.toList) ↔ d = Cursor.clean s := by
  constructor
  · intro hclean
    obtain ⟨u, hs, ht⟩ := hclean
    rw [Cursor.clean, hs.withoutComments_eq, ht.trim_eq, String.ofList_toList]
  · intro heq
    subst heq
    refine ⟨_, strips_withoutComments s, ?_⟩
    rw [Cursor.clean, String.toList_ofList]
    exact trims_trim _

theorem Strips.clean_eq {u : List Char} (hs : Strips s t) (ht : Trims t u) :
    Cursor.clean s = String.ofList u := by
  refine (strips_trims_iff.1 ⟨t, hs, ?_⟩).symm
  rwa [String.toList_ofList]

/-- A declaration is determined by what was written and where. -/
theorem describes_iff {d : Declaration} {before property value : List Char} :
    Describes d before property value ↔
      d = ⟨Cursor.clean property, Cursor.clean value, Position.start.after before⟩ := by
  rw [Describes, strips_trims_iff, strips_trims_iff]
  cases d
  simp only [Declaration.mk.injEq]
  exact ⟨fun ⟨hp, hn, hv⟩ => ⟨hn, hv, hp⟩, fun ⟨hn, hv, hp⟩ => ⟨hp, hn, hv⟩⟩

end JsxAttributes.Style.Grammar
