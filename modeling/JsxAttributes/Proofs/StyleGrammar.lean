import JsxAttributes.Style.Declaration

/-! The grammar of style texts. Every relation speaks of a piece and of the text behind it, because a
piece is taken as long as possible; the text read so far is the pieces put together, and fixes the
positions. A segmentation may end between any two declarations: what stands there tells how reading
ends. -/
namespace JsxAttributes.Style.Grammar

/-- A run of characters of a class, which the text behind it does not go on with. -/
def IsRun (p : Char → Bool) (run rest : List Char) : Prop :=
  (∀ c ∈ run, p c = true) ∧ ∀ c ∈ rest.head?, p c = false

/-! ## Comments -/

def OpensComment (s : List Char) : Prop := ['/', '*'] <+: s

/-- The first star and slash stand directly behind the body. -/
def IsCommentBody (body : List Char) : Prop := ¬ ['*', '/'] <:+: body ++ ['*']

/-- A comment with the white space behind it. -/
inductive IsComment : (comment rest : List Char) → Prop where
  | intro {body blank rest : List Char} : IsCommentBody body → IsRun Text.isBlank blank rest →
      IsComment ('/' :: '*' :: (body ++ '*' :: '/' :: blank)) rest

/-- A comment opens here and is never closed. -/
inductive IsUnclosed : List Char → Prop where
  | intro {inner : List Char} : ¬ ['*', '/'] <:+: inner → IsUnclosed ('/' :: '*' :: inner)

inductive IsComments : (comments rest : List Char) → Prop where
  | nil {rest : List Char} : IsComments [] rest
  | cons {comment comments rest : List Char} : IsComment comment (comments ++ rest) →
      IsComments comments rest → IsComments (comment ++ comments) rest

/-! ## Properties and values -/

/-- A bracketed part such as `[hack]`. -/
inductive IsHack : List Char → Prop where
  | intro {inner : List Char} : inner ≠ [] → (∀ c ∈ inner, isHackChar c = true) →
      IsHack ('[' :: (inner ++ [']']))

/-- A property with the white space behind it; a bracketed part that is there belongs to it. -/
inductive IsProperty : (property rest : List Char) → Prop where
  | intro {name hack blank rest : List Char} : name ≠ [] →
      IsRun isPropertyChar name (hack ++ (blank ++ rest)) →
      (IsHack hack ∨ hack = [] ∧ ∀ h r, IsHack h → blank ++ rest ≠ h ++ r) →
      IsRun Text.isBlank blank rest → IsProperty (name ++ (hack ++ blank)) rest

/-- The inside of a quoted text: pairs of a backslash and the quote, and single characters other than
the quote that stay on the line. -/
inductive IsQuotedBody (quote : Char) : (body rest : List Char) → Prop where
  | nil {rest : List Char} : IsQuotedBody quote [] rest
  | escape {body rest : List Char} : IsQuotedBody quote body rest →
      IsQuotedBody quote ('\\' :: quote :: body) rest
  | char {c : Char} {body rest : List Char} : c ≠ quote → isLineEnd c = false →
      ¬ (c = '\\' ∧ (body ++ rest).head? = some quote) → IsQuotedBody quote body rest →
      IsQuotedBody quote (c :: body) rest

/-- A closing stands where the inside may end. -/
inductive Closes (quote : Char) (closing : List Char) : (s body rest : List Char) → Prop where
  | intro {body rest : List Char} : IsQuotedBody quote body (closing ++ rest) →
      Closes quote closing (body ++ (closing ++ rest)) body rest

/-- A text between quotes. A quote that belongs to no backslash closes it, or else, if there is none,
the last quote that does. -/
inductive IsQuoted (quote : Char) : (quoted rest : List Char) → Prop where
  | plain {s body rest : List Char} : Closes quote [quote] s body rest →
      IsQuoted quote (quote :: (body ++ [quote])) rest
  | escaped {s body rest : List Char} : (∀ b r, ¬ Closes quote [quote] s b r) →
      Closes quote ['\\', quote] s body rest →
      (∀ b r, Closes quote ['\\', quote] s b r → b.length ≤ body.length) →
      IsQuoted quote (quote :: (body ++ ['\\', quote])) rest

def IsQuote (c : Char) : Prop := c = '\x27' ∨ c = '"'

def EndsValue (c : Char) : Prop := c = ';' ∨ c = '\x7d'

/-- What a value is made of. A quote or a parenthesis that is not closed is a character like
others. -/
inductive IsUnit : (unit rest : List Char) → Prop where
  | quoted {quote : Char} {quoted rest : List Char} : IsQuote quote → IsQuoted quote quoted rest →
      IsUnit quoted rest
  | group {body rest : List Char} : ')' ∉ body → IsUnit ('(' :: (body ++ [')'])) rest
  | char {c : Char} {rest : List Char} : ¬ EndsValue c →
      (IsQuote c → ∀ u r, IsQuoted c u r → c :: rest ≠ u ++ r) → (c = '(' → ')' ∉ rest) →
      IsUnit [c] rest

inductive IsValue : (value rest : List Char) → Prop where
  | nil {rest : List Char} : (∀ c ∈ rest.head?, EndsValue c) → IsValue [] rest
  | cons {unit value rest : List Char} : IsUnit unit (value ++ rest) → IsValue value rest →
      IsValue (unit ++ value) rest

/-! ## Declarations -/

/-- A declaration: its property and value as written, all of it, and the rest. -/
inductive IsDeclaration : (property value whole rest : List Char) → Prop where
  | intro {property comment blank value separators rest : List Char} :
      IsProperty property (comment ++ ':' :: (blank ++ (value ++ (separators ++ rest)))) →
      (comment = [] ∨ IsComment comment (':' :: (blank ++ (value ++ (separators ++ rest))))) →
      IsRun Text.isBlank blank (value ++ (separators ++ rest)) →
      IsValue value (separators ++ rest) → IsRun Cursor.isSeparator separators rest →
      IsDeclaration property value
        (property ++ (comment ++ ':' :: (blank ++ (value ++ separators)))) rest

/-- The text without its complete comments. -/
inductive Strips : List Char → List Char → Prop where
  | nil : Strips [] []
  | comment {body s t : List Char} : IsCommentBody body → Strips s t →
      Strips ('/' :: '*' :: (body ++ '*' :: '/' :: s)) t
  | char {c : Char} {s t : List Char} :
      (∀ body r, c :: s ≠ '/' :: '*' :: (body ++ '*' :: '/' :: r)) → Strips s t →
      Strips (c :: s) (c :: t)

/-- The text without the white space at its two ends. -/
def Trims (s t : List Char) : Prop :=
  ∃ front back, s = front ++ t ++ back ∧ (∀ c ∈ front, Text.isBlank c = true) ∧
    (∀ c ∈ back, Text.isBlank c = true) ∧ (∀ c ∈ t.head?, Text.isBlank c = false) ∧
    ∀ c ∈ t.getLast?, Text.isBlank c = false

/-- The declaration says what was written, and where. -/
def Describes (d : Declaration) (before property value : List Char) : Prop :=
  d.position = Position.start.after before ∧
    (∃ t, Strips property t ∧ Trims t d.property.toList) ∧
    ∃ t, Strips value t ∧ Trims t d.value.toList

/-- Declarations with the comments behind each. No comment opens where a property starts. -/
inductive Segments :
    (before read : List Char) → List Declaration → (rest : List Char) → Prop where
  | nil {before rest : List Char} : Segments before [] [] rest
  | cons {before property value whole comments read rest : List Char} {d : Declaration}
      {ds : List Declaration} : ¬ OpensComment (whole ++ (comments ++ (read ++ rest))) →
      IsDeclaration property value whole (comments ++ (read ++ rest)) →
      Describes d before property value → IsComments comments (read ++ rest) →
      Segments (before ++ (whole ++ comments)) read ds rest →
      Segments before (whole ++ (comments ++ read)) (d :: ds) rest

/-- White space, comments and declarations from the start of a text up to an unread rest. -/
inductive Segmentation : (read : List Char) → List Declaration → (rest : List Char) → Prop where
  | intro {blank comments read rest : List Char} {ds : List Declaration} :
      IsRun Text.isBlank blank (comments ++ (read ++ rest)) →
      IsComments comments (read ++ rest) → Segments (blank ++ comments) read ds rest →
      Segmentation (blank ++ (comments ++ read)) ds rest

/-! ## How a segmentation ends -/

/-- Neither a comment nor a property starts. -/
def IsFinal (rest : List Char) : Prop :=
  ¬ OpensComment rest ∧ ∀ c ∈ rest.head?, isPropertyChar c = false

/-- A comment that is never closed starts here, or behind the property that starts here. -/
inductive LeavesOpen (read : List Char) : (rest : List Char) → Position → Prop where
  | comment {rest : List Char} : IsUnclosed rest →
      LeavesOpen read rest (Position.start.after read)
  | property {property rest : List Char} : ¬ OpensComment (property ++ rest) →
      IsProperty property rest → IsUnclosed rest →
      LeavesOpen read (property ++ rest) (Position.start.after (read ++ property))

/-- A property starts here, and no colon follows it and the comment behind it. -/
inductive LacksColon (read : List Char) : (rest : List Char) → Position → Prop where
  | intro {property comment rest : List Char} : ¬ OpensComment (property ++ (comment ++ rest)) →
      IsProperty property (comment ++ rest) →
      (comment = [] ∧ ¬ OpensComment rest ∨ IsComment comment rest) → rest.head? ≠ some ':' →
      LacksColon read (property ++ (comment ++ rest))
        (Position.start.after (read ++ (property ++ comment)))

end JsxAttributes.Style.Grammar
