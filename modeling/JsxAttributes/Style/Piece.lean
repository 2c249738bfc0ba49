import JsxAttributes.Text.Blank

/-!
The pieces of a style text: comments, properties and values. Each function finds where its piece
ends, at the front of a text. Pieces are maximal: a property goes on over slashes and stars, and a
value over quoted texts and groups in parentheses, whatever stands in them.
-/
namespace JsxAttributes.Style

/-- Splits a text at the end of a comment whose opening has been read: into the body and what
follows the closing star and slash. -/
def closeComment : List Char → Option (List Char × List Char)
  | [] => none
  | [_] => none
  | c :: d :: r =>
    if c = '*' ∧ d = '/' then some ([], r)
    else (closeComment (d :: r)).map fun (body, rest) => (c :: body, rest)

/-- The closing of a comment and its body make up the text. -/
theorem closeComment_eq {s body rest : List Char} (h : closeComment s = some (body, rest)) :
    body ++ '*' :: '/' :: rest = s := by
  fun_induction closeComment s generalizing body rest with
  | case1 => simp at h
  | case2 => simp at h
  | case3 c d r hc =>
    obtain ⟨rfl, rfl⟩ := hc
    simp only [Option.some.injEq, Prod.mk.injEq] at h
    obtain ⟨rfl, rfl⟩ := h
    rfl
  | case4 c d r hc ih =>
    simp only [Option.map_eq_some_iff, Prod.exists, Prod.mk.injEq] at h
    obtain ⟨b, t, hb, rfl, rfl⟩ := h
    rw [List.cons_append, ih hb]

/-- What follows the opening of a comment, if the text starts with one. -/
def openComment? : List Char → Option (List Char)
  | c :: d :: r => if c = '/' ∧ d = '*' then some r else none
  | _ => none

theorem openComment?_eq {s r : List Char} (h : openComment? s = some r) : s = '/' :: '*' :: r := by
  unfold openComment? at h
  split at h
  · split at h
    · simp_all
    · simp at h
  · simp at h

/-- Splits a text behind the complete comment it starts with: into the body and the rest. -/
def comment? (s : List Char) : Option (List Char × List Char) := (openComment? s).bind closeComment

theorem comment?_eq {s body rest : List Char} (h : comment? s = some (body, rest)) :
    s = '/' :: '*' :: (body ++ '*' :: '/' :: rest) := by
  obtain ⟨inner, ho, hc⟩ := Option.bind_eq_some_iff.1 h
  rw [closeComment_eq hc, openComment?_eq ho]

theorem comment?_length {s body rest : List Char} (h : comment? s = some (body, rest)) :
    rest.length + 4 ≤ s.length := by
  have := congrArg List.length (comment?_eq h)
  simp only [List.length_append, List.length_cons] at this
  omega

def withoutComments : List Char → List Char
  | [] => []
  | c :: r =>
    match _h : comment? (c :: r) with
    | some (_, rest) => withoutComments rest
    | none => c :: withoutComments r
termination_by s => s.length
decreasing_by
  · have := comment?_length _h
    simp only [List.length_cons] at this ⊢
    omega
  · simp

/-- An ASCII letter or digit, or one of `_`, `-`, `#`, `/`, `*` and the backslash. -/
def isPropertyChar (c : Char) : Bool :=
  c.isAlphanum || c == '_' || c == '-' || c == '#' || c == '/' || c == '*' || c == '\\'

/-- What may stand in the brackets behind a property. -/
def isHackChar (c : Char) : Bool := c.isDigit || c.isLower || c == '_' || c == '-'

/-- How long the bracketed part is, such as `[hack]`; 0 if there is none. -/
def hackEnd : List Char → Nat
  | [] => 0
  | c :: r =>
    let inner := r.takeWhile isHackChar
    if c = '[' ∧ inner ≠ [] ∧ (r.drop inner.length).head? = some ']' then inner.length + 2 else 0

/-- How long the property at the front is, with its bracketed part and the white space behind it;
0 if no property starts here. -/
def propertyEnd (s : List Char) : Nat :=
  let name := (s.takeWhile isPropertyChar).length
  if name = 0 then 0
  else
    let whole := name + hackEnd (s.drop name)
    whole + ((s.drop whole).takeWhile Text.isBlank).length

/-- Ends a line, in which a quoted text has to stay. -/
def isLineEnd (c : Char) : Bool := c == '\n' || c == '\r' || c == '\u2028' || c == '\u2029'

/-- Where a quoted text ends whose opening quote has been read. A quote behind a backslash closes
it only if no other quote does, and then the last such quote. `count` characters have been passed
over, and `escaped` is the end at the last such quote. -/
def quotedEnd (quote : Char) (count : Nat) (escaped : Option Nat) : List Char → Option Nat
  | [] => escaped
  | [c] => if c = quote then some (count + 1) else escaped
  | c :: d :: r =>
    if c = quote then some (count + 1)
    else if isLineEnd c then escaped
    else if c = '\\' ∧ d = quote then quotedEnd quote (count + 2) (some (count + 2)) r
    else quotedEnd quote (count + 1) escaped (d :: r)

/-- How far a group in parentheses goes behind its opening; there are no groups inside groups. -/
def groupEnd (s : List Char) : Option Nat := (s.findIdx? (· = ')')).map (· + 1)

/-- How many of the characters behind `c` belong to it: those of the quoted text or of the group
that it opens. A quote or parenthesis that is never closed stands for itself. -/
def unitRest (c : Char) (r : List Char) : Nat :=
  if c = '\x27' ∨ c = '"' then (quotedEnd c 0 none r).getD 0
  else if c = '(' then (groupEnd r).getD 0
  else 0

/-- How long the value at the front is. It ends before a semicolon or a closing brace that stands
in no quoted text and no group. -/
def valueEnd : List Char → Nat
  | [] => 0
  | c :: r =>
    if c = ';' ∨ c = '\x7d' then 0
    else 1 + unitRest c r + valueEnd (r.drop (unitRest c r))
termination_by s => s.length
decreasing_by simp only [List.length_drop, List.length_cons]; omega

end JsxAttributes.Style
