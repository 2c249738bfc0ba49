import JsxAttributes.Proofs.StyleGrammar
import Mathlib.Data.List.Infix
import Mathlib.Data.List.TakeWhile

/-! The scanners find runs, comments and properties as the grammar has them. For each piece: a text that
starts with it can be split behind it, and the scanner stops there. -/
namespace JsxAttributes.Style.Grammar

variable {p : Char → Bool} {run rest s : List Char} {pos : Position}

/-! ## Runs -/

theorem isRun_takeWhile (p : Char → Bool) (s : List Char) :
    IsRun p (s.takeWhile p) (s.dropWhile p) := by
  refine ⟨fun c hc => List.mem_takeWhile_imp hc, fun c hc => ?_⟩
  have h := List.head?_dropWhile_not p s
  rw [Option.mem_def] at hc
  rwa [hc] at h

theorem exists_isRun (p : Char → Bool) (s : List Char) :
    ∃ run rest, s = run ++ rest ∧ IsRun p run rest :=
  ⟨_, _, List.takeWhile_append_dropWhile.symm, isRun_takeWhile p s⟩

theorem IsRun.takeWhile_eq (h : IsRun p run rest) : (run ++ rest).takeWhile p = run := by
  rw [List.takeWhile_append_of_pos h.1]
  cases rest with
  | nil => simp
  | cons c r => simp [h.2 c rfl]

theorem skip_append (piece rest : List Char) :
    (Cursor.mk pos (piece ++ rest)).skip piece.length = ⟨pos.after piece, rest⟩ := by
  simp [Cursor.skip, Position.advance_eq_after]

theorem IsRun.skipWhile_eq (h : IsRun p run rest) :
    (Cursor.mk pos (run ++ rest)).skipWhile p = ⟨pos.after run, rest⟩ := by
  rw [Cursor.skipWhile, h.takeWhile_eq, skip_append]

/-! ## Comments -/

theorem isCommentBody_nil : IsCommentBody [] := by
  simp [IsCommentBody, List.infix_cons_iff]

theorem isCommentBody_cons_iff {c : Char} {body : List Char} :
    IsCommentBody (c :: body) ↔ ¬ (c = '*' ∧ body.head? = some '/') ∧ IsCommentBody body := by
  rw [IsCommentBody, List.cons_append, List.infix_cons_iff, not_or, IsCommentBody]
  refine and_congr_left fun _ => not_congr ?_
  cases body with
  | nil => simp
  | cons d r => simp [eq_comm]

theorem isCommentBody_iff {body : List Char} : IsCommentBody body ↔ ¬ ['*', '/'] <:+: body := by
  induction body with
  | nil => simp [isCommentBody_nil]
  | cons c r ih =>
    rw [isCommentBody_cons_iff, List.infix_cons_iff, not_or, ih]
    refine and_congr_left fun _ => not_congr ?_
    cases r <;> simp [eq_comm]

/-- A text that is closed somewhere is closed at a first place. -/
theorem exists_isCommentBody (h : ['*', '/'] <:+: s) :
    ∃ body rest, s = body ++ '*' :: '/' :: rest ∧ IsCommentBody body := by
  induction s with
  | nil => simp at h
  | cons c t ih =>
    by_cases hp : ['*', '/'] <+: c :: t
    · obtain ⟨rest, hr⟩ := hp
      exact ⟨[], rest, hr.symm, isCommentBody_nil⟩
    · obtain ⟨body, rest, rfl, hb⟩ := ih ((List.infix_cons_iff.1 h).resolve_left hp)
      refine ⟨c :: body, rest, rfl, isCommentBody_cons_iff.2 ⟨?_, hb⟩⟩
      intro hclosed
      obtain ⟨rfl, hd⟩ := hclosed
      obtain ⟨r, rfl⟩ : ∃ r, body = '/' :: r := by
        cases body <;> simp_all
      exact hp ⟨_, rfl⟩

theorem IsCommentBody.closeComment_eq {body : List Char} (h : IsCommentBody body) :
    closeComment (body ++ '*' :: '/' :: rest) = some (body, rest) := by
  induction body with
  | nil => rfl
  | cons c b ih =>
    obtain ⟨hc, hb⟩ := isCommentBody_cons_iff.1 h
    have hi := ih hb
    cases b with
    | nil =>
      rw [List.singleton_append, closeComment, if_neg (by simp)]
      exact congrArg (Option.map _) hi
    | cons d r =>
      have hn : ¬ (c = '*' ∧ d = '/') := by simpa using hc
      rw [List.cons_append, List.cons_append, closeComment, if_neg hn]
      exact congrArg (Option.map _) hi

theorem closeComment_eq_none (h : ¬ ['*', '/'] <:+: s) : closeComment s = none := by
  cases hc : closeComment s with
  | none => rfl
  | some split =>
    exact absurd ⟨split.1, split.2, by simpa using Style.closeComment_eq hc⟩ h

theorem openComment?_eq_none (h : ¬ OpensComment s) : openComment? s = none := by
  cases ho : openComment? s with
  | none => rfl
  | some r => exact absurd ⟨r, (openComment?_eq ho).symm⟩ h

theorem openComment?_cons (r : List Char) : openComment? ('/' :: '*' :: r) = some r := rfl

/-- Either no comment opens, or one does and is closed, or it never is. -/
theorem comment_cases (s : List Char) : ¬ OpensComment s ∨
    (∃ comment rest, s = comment ++ rest ∧ IsComment comment rest) ∨ IsUnclosed s := by
  by_cases ho : OpensComment s
  · obtain ⟨inner, rfl⟩ := ho
    by_cases hi : ['*', '/'] <:+: inner
    · obtain ⟨body, t, rfl, hb⟩ := exists_isCommentBody hi
      obtain ⟨blank, rest, rfl, hr⟩ := exists_isRun Text.isBlank t
      exact .inr (.inl ⟨_, rest, by simp, .intro hb hr⟩)
    · exact .inr (.inr (.intro hi))
  · exact .inl ho

theorem skipComment?_of_not_opens (h : ¬ OpensComment s) :
    (Cursor.mk pos s).skipComment? = .ok none := by
  rw [Cursor.skipComment?, openComment?_eq_none h]

theorem IsComment.skipComment?_eq {comment : List Char} (h : IsComment comment rest) :
    (Cursor.mk pos (comment ++ rest)).skipComment? = .ok (some ⟨pos.after comment, rest⟩) := by
  obtain @⟨body, blank, _, hb, hr⟩ := h
  have hc : closeComment (body ++ '*' :: '/' :: (blank ++ rest)) = some (body, blank ++ rest) :=
    hb.closeComment_eq
  have ho : openComment? ('/' :: '*' :: (body ++ '*' :: '/' :: blank) ++ rest) =
      some (body ++ '*' :: '/' :: (blank ++ rest)) := by
    rw [List.cons_append, List.cons_append, openComment?_cons]
    simp
  have hopen : pos.right 2 = pos.after ['/', '*'] := pos.right_eq_after (s := ['/', '*']) (by decide)
  have hclose (p : Position) : p.right 2 = p.after ['*', '/'] :=
    p.right_eq_after (s := ['*', '/']) (by decide)
  have hpos : ((pos.right 2).advance body).right 2 = pos.after (['/', '*'] ++ (body ++ ['*', '/'])) := by
    rw [hclose, hopen, Position.advance_eq_after, Position.after_append, Position.after_append]
  rw [Cursor.skipComment?, ho]
  simp only [hc]
  rw [hpos, Cursor.skipBlank, hr.skipWhile_eq, ← Position.after_append]
  simp

theorem IsUnclosed.skipComment?_eq (h : IsUnclosed s) :
    (Cursor.mk pos s).skipComment? = .error ⟨.commentUnclosed, pos⟩ := by
  obtain ⟨hi⟩ := h
  simp only [Cursor.skipComment?, openComment?_cons, closeComment_eq_none hi]

theorem IsComment.opensComment {comment : List Char} (h : IsComment comment rest) :
    OpensComment (comment ++ rest) := by
  obtain ⟨_, _⟩ := h
  exact ⟨_, rfl⟩

theorem IsUnclosed.opensComment (h : IsUnclosed s) : OpensComment s := by
  obtain ⟨_⟩ := h
  exact ⟨_, rfl⟩

theorem IsComment.ne_nil {comment : List Char} (h : IsComment comment rest) : comment ≠ [] := by
  obtain ⟨_, _⟩ := h
  simp

/-! ## Properties -/

theorem isHackChar_close : isHackChar ']' = false := by decide

theorem IsHack.hackEnd_eq {hack : List Char} (h : IsHack hack) :
    hackEnd (hack ++ rest) = hack.length := by
  obtain @⟨inner, hne, hin⟩ := h
  have hr : IsRun isHackChar inner (']' :: rest) := ⟨hin, by simp [isHackChar_close]⟩
  have ht : (inner ++ ']' :: rest).takeWhile isHackChar = inner := hr.takeWhile_eq
  simp [hackEnd, ht, hne]

theorem hackEnd_eq_zero (h : ∀ hack r, IsHack hack → s ≠ hack ++ r) : hackEnd s = 0 := by
  cases s with
  | nil => rfl
  | cons c t =>
    obtain ⟨inner, r, rfl, hr⟩ := exists_isRun isHackChar t
    rw [hackEnd]
    simp only [hr.takeWhile_eq, List.drop_left]
    refine if_neg ?_
    intro hbracket
    obtain ⟨rfl, hne, hd⟩ := hbracket
    obtain ⟨u, rfl⟩ := List.head?_eq_some_iff.1 hd
    exact h _ u (.intro hne hr.1) (by simp)

theorem IsProperty.ne_nil {property : List Char} (h : IsProperty property rest) :
    property ≠ [] := by
  obtain ⟨hn, -, -, -⟩ := h
  simp [hn]

theorem IsProperty.propertyEnd_eq {property : List Char} (h : IsProperty property rest) :
    propertyEnd (property ++ rest) = property.length := by
  obtain @⟨name, hack, blank, _, hne, hname, hhack, hblank⟩ := h
  have hs : name ++ (hack ++ blank) ++ rest = name ++ (hack ++ (blank ++ rest)) := by simp
  have hh : hackEnd (hack ++ (blank ++ rest)) = hack.length := by
    cases hhack with
    | inl hi => exact hi.hackEnd_eq
    | inr hnone =>
      obtain ⟨rfl, hno⟩ := hnone
      exact hackEnd_eq_zero hno
  have hd : (name ++ (hack ++ (blank ++ rest))).drop (name.length + hack.length) = blank ++ rest := by
    rw [← List.append_assoc, ← List.length_append, List.drop_left]
  rw [hs, propertyEnd, hname.takeWhile_eq, if_neg (by simpa using hne), List.drop_left, hh]
  simp only [hd, hblank.takeWhile_eq, List.length_append, Nat.add_assoc]

theorem propertyEnd_eq_zero (h : ∀ c ∈ s.head?, isPropertyChar c = false) : propertyEnd s = 0 := by
  have hr : IsRun isPropertyChar [] s := ⟨by simp, h⟩
  have ht : s.takeWhile isPropertyChar = [] := hr.takeWhile_eq
  rw [propertyEnd, ht]
  rfl

theorem exists_isProperty {c : Char} (hc : s.head? = some c) (hp : isPropertyChar c = true) :
    ∃ property rest, s = property ++ rest ∧ IsProperty property rest := by
  obtain ⟨name, t, rfl, hname⟩ := exists_isRun isPropertyChar s
  have hne : name ≠ [] := by
    intro hnil
    subst hnil
    have hf := hname.2 c hc
    rw [hp] at hf
    cases hf
  by_cases hh : ∃ hack r, IsHack hack ∧ t = hack ++ r
  · obtain ⟨hack, r, hi, rfl⟩ := hh
    obtain ⟨blank, rest, rfl, hblank⟩ := exists_isRun Text.isBlank r
    exact ⟨_, rest, by simp, .intro hne hname (.inl hi) hblank⟩
  · obtain ⟨blank, rest, rfl, hblank⟩ := exists_isRun Text.isBlank t
    have hno : ∀ h r, IsHack h → blank ++ rest ≠ h ++ r := fun h r hi he => hh ⟨h, r, hi, he⟩
    refine ⟨_, rest, by simp, @IsProperty.intro _ [] _ _ hne hname (.inr ⟨rfl, hno⟩) hblank⟩

end JsxAttributes.Style.Grammar
