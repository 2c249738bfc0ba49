/-!
Places in a text, by line and column; both count from one, and columns count characters. A piece of
text is passed over at once, by the ends of lines in it; character by character the same place is
reached.
-/
namespace JsxAttributes.Style

structure Position where
  line : Nat
  column : Nat
  deriving DecidableEq

namespace Position

def start : Position := ⟨1, 1⟩

/-- So many columns further, on the same line. -/
def right (p : Position) (count : Nat) : Position := { p with column := p.column + count }

/-- Where a piece of text ends that starts here. If a line ends in it, its last end of a line is
column zero. -/
def advance (p : Position) (s : List Char) : Position where
  line := p.line + s.count '\n'
  column :=
    match s.reverse.findIdx? (· = '\n') with
    | some behind => behind + 1
    | none => p.column + s.length

def next (p : Position) (c : Char) : Position :=
  if c = '\n' then ⟨p.line + 1, 1⟩ else ⟨p.line, p.column + 1⟩

def after (p : Position) (s : List Char) : Position := s.foldl next p

@[simp] theorem after_nil (p : Position) : p.after [] = p := rfl

@[simp] theorem after_cons (p : Position) (c : Char) (s : List Char) :
    p.after (c :: s) = (p.next c).after s := rfl

theorem after_append (p : Position) (s t : List Char) :
    p.after (s ++ t) = (p.after s).after t := List.foldl_append

theorem advance_cons (p : Position) (c : Char) (s : List Char) :
    p.advance (c :: s) = (p.next c).advance s := by
  by_cases hc : c = '\n'
  · subst hc
    cases hs : s.reverse.findIdx? (· = '\n') <;>
      simp [advance, next, List.findIdx?_append, hs] <;> omega
  · cases hs : s.reverse.findIdx? (· = '\n') with
    | none => simp [advance, next, List.findIdx?_append, hs, hc]; omega
    | some behind => simp [advance, next, List.findIdx?_append, hs, hc]

theorem advance_eq_after (p : Position) (s : List Char) : p.advance s = p.after s := by
  induction s generalizing p with
  | nil => rfl
  | cons c s ih => rw [advance_cons, ih, after_cons]

theorem right_eq_after (p : Position) {s : List Char} (h : '\n' ∉ s) :
    p.right s.length = p.after s := by
  rw [← advance_eq_after]
  have hs : s.reverse.findIdx? (· = '\n') = none := by
    rw [List.findIdx?_eq_none_iff]
    intro c hc
    simpa using ne_of_mem_of_not_mem (List.mem_reverse.1 hc) h
  simp [advance, right, hs, List.count_eq_zero.2 h]

end Position

end JsxAttributes.Style
