import JsxAttributes.Style.Fault
import JsxAttributes.Style.Piece

/-!
Reading a style text into its declarations. Comments may stand before a declaration and once
between a property and its colon. Reading ends without a fault where no property starts, and keeps
what it has read so far when it meets a fault.
-/
namespace JsxAttributes.Style

structure Declaration where
  /-- As written, without comments. -/
  property : String
  /-- Without comments and without white space around it; may be empty. -/
  value : String
  /-- Where the property starts. -/
  position : Position
  deriving DecidableEq

/-- What has not been read yet, and where it starts. -/
structure Cursor where
  position : Position
  rest : List Char

namespace Cursor

def start (text : List Char) : Cursor := ⟨.start, text⟩

def skip (c : Cursor) (count : Nat) : Cursor :=
  ⟨c.position.advance (c.rest.take count), c.rest.drop count⟩

def skipWhile (c : Cursor) (p : Char → Bool) : Cursor := c.skip (c.rest.takeWhile p).length

def skipBlank (c : Cursor) : Cursor := c.skipWhile Text.isBlank

theorem skip_length (c : Cursor) (count : Nat) :
    (c.skip count).rest.length = c.rest.length - count := by
  simp [skip]

theorem skipWhile_length_le (c : Cursor) (p : Char → Bool) :
    (c.skipWhile p).rest.length ≤ c.rest.length := by
  rw [skipWhile, skip_length]; omega

/-- Passes over a comment and the white space behind it, if the text starts with one. -/
def skipComment? (c : Cursor) : Except Fault (Option Cursor) :=
  match openComment? c.rest with
  | none => .ok none
  | some inner =>
    match closeComment inner with
    | none => .error ⟨.commentUnclosed, c.position⟩
    | some (body, rest) =>
      .ok (some (Cursor.mk (((c.position.right 2).advance body).right 2) rest).skipBlank)

theorem skipComment?_length {c d : Cursor} (h : c.skipComment? = .ok (some d)) :
    d.rest.length < c.rest.length := by
  unfold skipComment? at h
  split at h
  · simp at h
  · next inner ho =>
    split at h
    · simp at h
    · next body rest hc =>
      simp only [Except.ok.injEq, Option.some.injEq] at h
      have hl := congrArg List.length (openComment?_eq ho)
      rw [← closeComment_eq hc] at hl
      simp only [List.length_cons, List.length_append] at hl
      subst h
      have hs (p : Position) : (Cursor.mk p rest).skipBlank.rest.length ≤ rest.length :=
        skipWhile_length_le _ _
      exact Nat.lt_of_le_of_lt (hs _) (by omega)

def skipComments (c : Cursor) : Except Fault Cursor :=
  match _h : c.skipComment? with
  | .error f => .error f
  | .ok none => .ok c
  | .ok (some d) => d.skipComments
termination_by c.rest.length
decreasing_by exact skipComment?_length _h

theorem skipComments_length_le {c d : Cursor} (h : c.skipComments = .ok d) :
    d.rest.length ≤ c.rest.length := by
  fun_induction skipComments c with
  | case1 => simp at h
  | case2 => simp only [Except.ok.injEq] at h; subst h; exact Nat.le_refl _
  | case3 c e he ih => exact Nat.le_trans (ih h) (Nat.le_of_lt (skipComment?_length he))

/-- Stands between two declarations, as often as it likes. -/
def isSeparator (c : Char) : Bool := c == ';' || Text.isBlank c

def clean (s : List Char) : String := String.ofList (Text.trim (withoutComments s))

/-- Passes over a property, behind which one comment may stand. -/
def skipProperty (c : Cursor) : Except Fault Cursor :=
  let named := c.skip (propertyEnd c.rest)
  named.skipComment?.map (·.getD named)

/-- Reads one declaration with the separators behind it, if a property starts here. -/
def readDeclaration (c : Cursor) : Except Fault (Option (Declaration × Cursor)) :=
  if propertyEnd c.rest = 0 then .ok none
  else
    match c.skipProperty with
    | .error f => .error f
    | .ok named =>
      if named.rest.head? = some ':' then
        let value := (named.skip 1).skipBlank
        let length := valueEnd value.rest
        .ok (some (
          ⟨clean (c.rest.take (propertyEnd c.rest)), clean (value.rest.take length), c.position⟩,
          (value.skip length).skipWhile isSeparator))
      else .error ⟨.colonMissing, named.position⟩

theorem skipProperty_length_le {c d : Cursor} (h : c.skipProperty = .ok d) :
    d.rest.length ≤ c.rest.length - propertyEnd c.rest := by
  unfold skipProperty at h
  cases hc : (c.skip (propertyEnd c.rest)).skipComment? with
  | error f => simp [hc, Except.map] at h
  | ok o =>
    cases o with
    | none =>
      simp only [hc, Except.map, Option.getD_none, Except.ok.injEq] at h
      subst h; exact Nat.le_of_eq (skip_length _ _)
    | some e =>
      simp only [hc, Except.map, Option.getD_some, Except.ok.injEq] at h
      have := skipComment?_length hc
      rw [skip_length] at this
      rw [← h]; omega

theorem readDeclaration_length {c next : Cursor} {d : Declaration}
    (h : c.readDeclaration = .ok (some (d, next))) : next.rest.length < c.rest.length := by
  unfold readDeclaration at h
  split at h
  · simp at h
  · next hp =>
    split at h
    · simp at h
    · next named hn =>
      split at h
      · simp only [Except.ok.injEq, Option.some.injEq, Prod.mk.injEq] at h
        have h1 := skipProperty_length_le hn
        have h2 : 0 < named.rest.length := by
          cases hr : named.rest with
          | nil => simp_all
          | cons => simp
        have h3 := skipWhile_length_le (named.skip 1) Text.isBlank
        rw [skip_length] at h3
        have h4 := skipWhile_length_le
          ((named.skip 1).skipBlank.skip (valueEnd (named.skip 1).skipBlank.rest)) isSeparator
        rw [skip_length] at h4
        rw [← h.2]
        show (skipWhile _ _).rest.length < _
        unfold skipBlank at h4 ⊢
        omega
      · simp at h

end Cursor

/-- The declarations read, and how reading ended: with an unread rest or with a fault. -/
structure Reading where
  declarations : List Declaration
  ending : Except Fault (List Char)

/-- Reads declarations, with the comments behind each, as long as a property starts. -/
def Cursor.readAll (c : Cursor) : Reading :=
  match _h : c.readDeclaration with
  | .error f => ⟨[], .error f⟩
  | .ok none => ⟨[], .ok c.rest⟩
  | .ok (some (d, behind)) =>
    match _hc : behind.skipComments with
    | .error f => ⟨[d], .error f⟩
    | .ok next =>
      let others := next.readAll
      ⟨d :: others.declarations, others.ending⟩
termination_by c.rest.length
decreasing_by exact Nat.lt_of_le_of_lt (skipComments_length_le _hc) (readDeclaration_length _h)

def Reading.ofText (text : List Char) : Reading :=
  match (Cursor.start text).skipBlank.skipComments with
  | .error f => ⟨[], .error f⟩
  | .ok c => c.readAll

/-- The declarations of a style text in their order, or the first fault. -/
def readDeclarations (text : String) : Except Fault (List Declaration) :=
  let reading := Reading.ofText text.toList
  reading.ending.map fun _ => reading.declarations

end JsxAttributes.Style
