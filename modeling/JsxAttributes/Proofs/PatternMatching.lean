/-! Matching by backtracking. A pattern has a list of matches at the front of a text, in the order in which
backtracking comes to them: a repetition prefers many units or few, and what stands behind a pattern is tried behind
each of its matches in turn. The first match of the whole is the one that is found, and is described by laws that
follow the pattern. -/
namespace JsxAttributes

inductive Pattern where
  | char (p : Char → Bool)
  | seq (first next : Pattern)
  /-- The second one is tried where the first one, or what stands behind it, has no match. -/
  | either (preferred other : Pattern)
  | many (unit : Pattern)
  | few (unit : Pattern)

namespace Pattern

/-! ## The matches in their order -/

def charEnds (p : Char → Bool) : List Char → List Nat
  | [] => []
  | c :: _ => if p c then [1] else []

def seqEnds (first next : List Char → List Nat) (s : List Char) : List Nat :=
  (first s).flatMap fun n => (next (s.drop n)).map (n + ·)

/-- One more unit is tried before the repetition is left. An empty unit is not repeated. -/
def manyEnds (unit : List Char → List Nat) (s : List Char) : List Nat :=
  ((unit s).flatMap fun n =>
    if _h : (s.drop n).length < s.length then (manyEnds unit (s.drop n)).map (n + ·) else []) ++ [0]
termination_by s.length
decreasing_by exact _h

/-- The repetition is left before one more unit is tried. -/
def fewEnds (unit : List Char → List Nat) (s : List Char) : List Nat :=
  0 :: (unit s).flatMap fun n =>
    if _h : (s.drop n).length < s.length then (fewEnds unit (s.drop n)).map (n + ·) else []
termination_by s.length
decreasing_by exact _h

/-- Where the matches at the front of a text end, in the order in which they are tried. -/
def ends : Pattern → List Char → List Nat
  | char p => charEnds p
  | seq first next => seqEnds first.ends next.ends
  | either preferred other => fun s => preferred.ends s ++ other.ends s
  | many unit => manyEnds unit.ends
  | few unit => fewEnds unit.ends

/-- Where the match ends that is found. -/
def first? (p : Pattern) (s : List Char) : Option Nat := (p.ends s).head?

variable {p : Char → Bool} {a b unit next : Pattern} {c : Char} {s : List Char} {n : Nat}

theorem first?_eq_none_iff : a.first? s = none ↔ a.ends s = [] := List.head?_eq_none_iff

/-! ## Characters, sequences and alternatives -/

theorem ends_seq (a b : Pattern) (s : List Char) :
    (seq a b).ends s = (a.ends s).flatMap fun n => (b.ends (s.drop n)).map (n + ·) := rfl

theorem first?_char_cons : (char p).first? (c :: s) = if p c then some 1 else none := by
  rw [first?, ends, charEnds]
  split <;> rfl

theorem first?_seq_char_nil : (seq (char p) next).first? [] = none := rfl

theorem first?_seq_char_cons :
    (seq (char p) next).first? (c :: s) = if p c then (next.first? s).map (1 + ·) else none := by
  rw [first?, ends_seq, ends, charEnds]
  split
  · rw [List.flatMap_singleton, List.head?_map]
    rfl
  · rfl

theorem first?_either (a b : Pattern) (s : List Char) :
    (either a b).first? s = (a.first? s).or (b.first? s) := List.head?_append

theorem first?_seq_either (a b next : Pattern) (s : List Char) :
    (seq (either a b) next).first? s = ((seq a next).first? s).or ((seq b next).first? s) := by
  rw [first?, ends_seq, ends, List.flatMap_append, List.head?_append]
  rfl

theorem ends_seq_assoc (a b next : Pattern) (s : List Char) :
    (seq (seq a b) next).ends s = (seq a (seq b next)).ends s := by
  simp only [ends_seq, List.flatMap_assoc, List.flatMap_map, List.map_flatMap, List.map_map, Function.comp_def,
    List.drop_drop, Nat.add_assoc]

theorem first?_seq_assoc (a b next : Pattern) (s : List Char) :
    (seq (seq a b) next).first? s = (seq a (seq b next)).first? s := by
  rw [first?, ends_seq_assoc, first?]

/-- Where what follows always has a match, no other match of the first pattern is tried. -/
theorem first?_seq_of_exists (h : ∀ t, ∃ m, next.first? t = some m) (a : Pattern) (s : List Char) :
    (seq a next).first? s = (a.first? s).bind fun n => (next.first? (s.drop n)).map (n + ·) := by
  rw [first?, ends_seq, first?]
  cases a.ends s with
  | nil => rfl
  | cons n others =>
    obtain ⟨m, hm⟩ := h (s.drop n)
    rw [List.flatMap_cons, List.head?_append, List.head?_map, ← first?, hm]
    simp [hm]

/-! ## Repetitions -/

/-- No match is empty. -/
def Consumes (a : Pattern) : Prop := ∀ s, ∀ n ∈ a.ends s, (s.drop n).length < s.length

theorem consumes_char (p : Char → Bool) : Consumes (char p) := by
  intro s n hn
  cases s with
  | nil => cases hn
  | cons c s =>
    rw [ends, charEnds] at hn
    split at hn
    · rw [List.mem_singleton.1 hn]
      simp
    · cases hn

theorem Consumes.seq (h : Consumes a) (b : Pattern) : Consumes (seq a b) := by
  intro s n hn
  rw [ends_seq, List.mem_flatMap] at hn
  obtain ⟨k, hk, hn⟩ := hn
  obtain ⟨m, -, rfl⟩ := List.mem_map.1 hn
  have hlt := h s k hk
  rw [List.length_drop] at hlt ⊢
  omega

theorem Consumes.either (ha : Consumes a) (hb : Consumes b) : Consumes (either a b) := by
  intro s n hn
  rcases List.mem_append.1 hn with hn | hn
  · exact ha s n hn
  · exact hb s n hn

theorem flatMap_dite_of_consumes (h : Consumes unit) (s : List Char) (f : List Char → List Nat) :
    ((unit.ends s).flatMap fun n => if _h : (s.drop n).length < s.length then (f (s.drop n)).map (n + ·) else []) =
      seqEnds unit.ends f s := by
  rw [seqEnds]
  simp only [List.flatMap_def]
  refine congrArg List.flatten (List.map_congr_left fun n hn => ?_)
  rw [dif_pos (h s n hn)]

theorem ends_many (h : Consumes unit) (s : List Char) :
    (many unit).ends s = (seq unit (many unit)).ends s ++ [0] := by
  change manyEnds unit.ends s = _
  rw [manyEnds, flatMap_dite_of_consumes h]
  rfl

theorem ends_few (h : Consumes unit) (s : List Char) :
    (few unit).ends s = 0 :: (seq unit (few unit)).ends s := by
  change fewEnds unit.ends s = _
  rw [fewEnds, flatMap_dite_of_consumes h]
  rfl

/-- A repetition that prefers many units goes on before what follows it is tried. -/
theorem first?_seq_many (h : Consumes unit) (next : Pattern) (s : List Char) : (seq (many unit) next).first? s =
    ((seq unit (seq (many unit) next)).first? s).or (next.first? s) := by
  rw [← first?_seq_assoc, first?, ends_seq, ends_many h, List.flatMap_append, List.head?_append]
  simp [first?, ends_seq]

/-- A repetition that prefers few units goes on where what follows it has no match. -/
theorem first?_seq_few (h : Consumes unit) (next : Pattern) (s : List Char) : (seq (few unit) next).first? s =
    (next.first? s).or ((seq unit (seq (few unit) next)).first? s) := by
  rw [← first?_seq_assoc, first?, ends_seq, ends_few h, List.flatMap_cons, List.head?_append]
  simp [first?, ends_seq]

theorem exists_first?_many (h : Consumes unit) (s : List Char) : ∃ m, (many unit).first? s = some m := by
  rw [← Option.isSome_iff_exists, first?, ends_many h, List.head?_append]
  cases ((seq unit (many unit)).ends s).head? <;> rfl

/-- Nothing follows the repetition that could make it give a unit back. -/
theorem first?_many (h : Consumes unit) (s : List Char) : (many unit).first? s =
    ((unit.first? s).bind fun n => ((many unit).first? (s.drop n)).map (n + ·)).or (some 0) := by
  rw [← first?_seq_of_exists (exists_first?_many h), first?, ends_many h, List.head?_append]
  rfl

end Pattern

end JsxAttributes
