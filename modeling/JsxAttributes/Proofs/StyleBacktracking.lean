import JsxAttributes.Proofs.PatternMatching
import JsxAttributes.Proofs.StyleValues

/-! The scanner of values against the pattern of values. The scanner goes over a quoted text once and keeps the last
escaped quote in mind; backtracking goes on behind such a quote and comes back to it where no other quote closes the
text. Both come to the same end. -/
namespace JsxAttributes.Style

/-- Inside a quoted text: preferably a backslash and the quote, else any character that stays on the line. -/
def quotedUnit (quote : Char) : Pattern :=
  .either (.seq (.char (· == '\\')) (.char (· == quote))) (.char (!isLineEnd ·))

/-- What stands behind the opening quote. -/
def quotedRest (quote : Char) : Pattern := .seq (.few (quotedUnit quote)) (.char (· == quote))

def quotedPattern (quote : Char) : Pattern := .seq (.char (· == quote)) (quotedRest quote)

/-- What stands behind the opening parenthesis. -/
def groupRest : Pattern := .seq (.many (.char (· != ')'))) (.char (· == ')'))

def groupPattern : Pattern := .seq (.char (· == '(')) groupRest

/-- In this order: a quoted text of one kind or the other, a group, and a character that ends no value. -/
def valueUnit : Pattern :=
  .either (quotedPattern '\x27') (.either (quotedPattern '"') (.either groupPattern
    (.char fun c => c != ';' && c != '\x7d')))

def valuePattern : Pattern := .many valueUnit

namespace Grammar
open Pattern

variable {quote c : Char} {s : List Char}

/-! ## Quoted texts -/

theorem consumes_quotedUnit (quote : Char) : Consumes (quotedUnit quote) :=
  .either ((consumes_char _).seq _) (consumes_char _)

theorem first?_quotedRest (quote : Char) (s : List Char) : (quotedRest quote).first? s =
    ((char (· == quote)).first? s).or
      (((seq (char (· == '\\')) (seq (char (· == quote)) (quotedRest quote))).first? s).or
        ((seq (char (!isLineEnd ·)) (quotedRest quote)).first? s)) := by
  rw [quotedRest, first?_seq_few (consumes_quotedUnit quote), ← quotedRest, quotedUnit, first?_seq_either,
    first?_seq_assoc]

theorem first?_quotedRest_nil : (quotedRest quote).first? [] = none := by
  rw [first?_quotedRest]
  rfl

theorem first?_quotedRest_quote (s : List Char) : (quotedRest quote).first? (quote :: s) = some 1 := by
  rw [first?_quotedRest, first?_char_cons, if_pos (beq_self_eq_true quote)]
  rfl

/-- An escaped quote is passed over; it closes the text if nothing behind it does. -/
theorem first?_quotedRest_escape (hq : quote ≠ '\\') (s : List Char) :
    (quotedRest quote).first? ('\\' :: quote :: s) =
      (((quotedRest quote).first? s).map (2 + ·)).or (some 2) := by
  rw [first?_quotedRest, first?_char_cons, first?_seq_char_cons, first?_seq_char_cons, first?_seq_char_cons,
    first?_quotedRest_quote]
  cases (quotedRest quote).first? s <;> simp [Ne.symm hq, isLineEnd, ← Nat.add_assoc]

theorem first?_quotedRest_char (hc : c ≠ quote) (hl : isLineEnd c = false)
    (he : ¬ (c = '\\' ∧ s.head? = some quote)) :
    (quotedRest quote).first? (c :: s) = ((quotedRest quote).first? s).map (1 + ·) := by
  have hescape : (seq (char (· == '\\')) (seq (char (· == quote)) (quotedRest quote))).first? (c :: s) = none := by
    rw [first?_seq_char_cons]
    cases s with
    | nil => rw [first?_seq_char_nil, Option.map_none, ite_self]
    | cons d r =>
      have hd : c = '\\' → d ≠ quote := by simpa using he
      rw [first?_seq_char_cons]
      by_cases hb : c = '\\'
      · simp [hb, hd hb]
      · simp [hb]
  rw [first?_quotedRest, hescape, first?_char_cons, first?_seq_char_cons]
  simp [hc, hl]

theorem first?_quotedRest_lineEnd (hc : c ≠ quote) (hl : isLineEnd c = true) (s : List Char) :
    (quotedRest quote).first? (c :: s) = none := by
  have hb : c ≠ '\\' := by
    intro hb
    subst hb
    cases hl
  rw [first?_quotedRest, first?_char_cons, first?_seq_char_cons, first?_seq_char_cons]
  simp [hc, hb, hl]

/-- The place that the scan keeps in mind is the one that backtracking comes back to. -/
theorem quotedEnd_eq_or (hq : quote ≠ '\\') (count : Nat) (escaped : Option Nat) (s : List Char) :
    quotedEnd quote count escaped s = (((quotedRest quote).first? s).map (count + ·)).or escaped := by
  fun_induction quotedEnd quote count escaped s with
  | case1 => rw [first?_quotedRest_nil]; rfl
  | case2 count => rw [first?_quotedRest_quote]; rfl
  | case3 count escaped c hc =>
    cases hl : isLineEnd c with
    | true => rw [first?_quotedRest_lineEnd hc hl]; rfl
    | false => rw [first?_quotedRest_char hc hl (by simp), first?_quotedRest_nil]; rfl
  | case4 count => rw [first?_quotedRest_quote]; rfl
  | case5 count escaped c d r hc hl => rw [first?_quotedRest_lineEnd hc hl]; rfl
  | case6 count escaped c d r hc hl he ih =>
    obtain ⟨rfl, rfl⟩ := he
    rw [ih, first?_quotedRest_escape hq]
    cases (quotedRest d).first? r <;> simp [Nat.add_assoc]
  | case7 count escaped c d r hc hl he ih =>
    rw [ih, first?_quotedRest_char hc (by simpa using hl) (by simpa using he)]
    cases (quotedRest quote).first? (d :: r) <;> simp [Nat.add_assoc]

theorem first?_quotedPattern (hq : quote ≠ '\\') (c : Char) (s : List Char) :
    (quotedPattern quote).first? (c :: s) =
      if c = quote then (quotedEnd quote 0 none s).map (1 + ·) else none := by
  rw [quotedPattern, first?_seq_char_cons, quotedEnd_eq_or hq]
  simp

/-! ## Groups -/

theorem first?_groupRest (s : List Char) : groupRest.first? s = groupEnd s := by
  induction s with
  | nil =>
    rw [groupRest, first?_seq_many (consumes_char _)]
    rfl
  | cons c s ih =>
    rw [groupRest, first?_seq_many (consumes_char _), ← groupRest, first?_seq_char_cons, first?_char_cons, ih,
      groupEnd, groupEnd, List.findIdx?_cons]
    by_cases hc : c = ')'
    · simp [hc]
    · cases s.findIdx? (· = ')') <;> simp [hc, Nat.add_comm]

theorem first?_groupPattern (c : Char) (s : List Char) : groupPattern.first? (c :: s) =
    if c = '(' then (groupEnd s).map (1 + ·) else none := by
  rw [groupPattern, first?_seq_char_cons, first?_groupRest]
  simp

/-! ## Values -/

theorem consumes_valueUnit : Consumes valueUnit := by
  have hfirst (p : Char → Bool) (next : Pattern) : Consumes (seq (char p) next) := (consumes_char p).seq next
  exact .either (hfirst _ _) (.either (hfirst _ _) (.either (hfirst _ _) (consumes_char _)))

theorem first?_valueUnit_nil : valueUnit.first? [] = none := by
  simp only [valueUnit, first?_either]
  rfl

theorem first?_valueUnit_of_endsValue (h : EndsValue c) (s : List Char) : valueUnit.first? (c :: s) = none := by
  rcases h with rfl | rfl <;>
    simp [valueUnit, first?_either, first?_quotedPattern, first?_groupPattern, first?_char_cons]

theorem first?_valueUnit (h : ¬ EndsValue c) (s : List Char) :
    valueUnit.first? (c :: s) = some (1 + unitRest c s) := by
  have hchar : (char fun c => c != ';' && c != '\x7d').first? (c :: s) = some 1 := by
    rw [first?_char_cons]
    exact if_pos (by simpa [EndsValue] using h)
  rw [valueUnit, first?_either, first?_either, first?_either, hchar, first?_quotedPattern (by decide),
    first?_quotedPattern (by decide), first?_groupPattern]
  by_cases hquote : IsQuote c
  · rw [unitRest_of_isQuote hquote]
    rcases hquote with rfl | rfl
    · cases quotedEnd '\x27' 0 none s <;> simp
    · cases quotedEnd '"' 0 none s <;> simp
  · obtain ⟨hsingle, hdouble⟩ := not_or.1 hquote
    rw [unitRest_of_not_isQuote hquote, if_neg hsingle, if_neg hdouble]
    by_cases hgroup : c = '('
    · cases groupEnd s <;> simp [hgroup]
    · simp [hgroup]

theorem first?_valuePattern (s : List Char) : valuePattern.first? s = some (valueEnd s) := by
  fun_induction valueEnd s with
  | case1 =>
    rw [valuePattern, first?_many consumes_valueUnit, first?_valueUnit_nil]
    rfl
  | case2 c r hc =>
    rw [valuePattern, first?_many consumes_valueUnit, first?_valueUnit_of_endsValue hc]
    rfl
  | case3 c r hc ih =>
    rw [valuePattern, first?_many consumes_valueUnit, first?_valueUnit hc, Option.bind_some, Nat.add_comm 1,
      List.drop_succ_cons, ← valuePattern, ih]
    rfl

/-- The scanner of values ends where backtracking ends with the pattern of values. The scan of a quoted text ends
where backtracking ends behind the opening quote, and has no end exactly if there is no match at all. -/
theorem valueEnd_backtracking :
    (∀ s, valuePattern.first? s = some (valueEnd s)) ∧
    ∀ quote, quote ≠ '\\' → ∀ s,
      (quotedPattern quote).first? (quote :: s) = (quotedEnd quote 0 none s).map (1 + ·) ∧
      (quotedEnd quote 0 none s = none ↔ (quotedPattern quote).ends (quote :: s) = []) := by
  have hquoted (quote : Char) (hq : quote ≠ '\\') (s : List Char) :
      (quotedPattern quote).first? (quote :: s) = (quotedEnd quote 0 none s).map (1 + ·) := by
    rw [first?_quotedPattern hq, if_pos rfl]
  refine ⟨first?_valuePattern, fun quote hq s => ⟨hquoted quote hq s, ?_⟩⟩
  rw [← first?_eq_none_iff, hquoted quote hq, Option.map_eq_none_iff]

/-- Two escaped quotes and no other: backtracking comes back to the second one. -/
theorem valueEnd_backtracking_escaped :
    '"' ≠ '\\' ∧ (quotedPattern '"').first? "\"a\\\"'b\\\"c".toList = some 8 := by
  have hq : '"' ≠ '\\' := by decide
  exact ⟨hq, (valueEnd_backtracking.2 '"' hq "a\\\"'b\\\"c".toList).1⟩

end Grammar

end JsxAttributes.Style
