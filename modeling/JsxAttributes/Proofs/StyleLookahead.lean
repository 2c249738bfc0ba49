import JsxAttributes.Proofs.StyleReading

/-! How far reading looks ahead. Most pieces of a style text depend on the next character behind them only. A
value depends on more: a quote or a parenthesis that nothing closes stands for itself, so what comes behind
the value must not close it. -/
namespace JsxAttributes.Style.Grammar

variable {p : Char → Bool} {run rest rest' property value bare comment comments unit s t : List Char}
variable {opening quote : Char}

/-! ## Pieces that look one character ahead -/

theorem head?_append_congr (h : rest'.head? = rest.head?) (s : List Char) :
    (s ++ rest').head? = (s ++ rest).head? := by
  rw [List.head?_append, List.head?_append, h]

theorem IsRun.of_rest (h : IsRun p run rest) (hr : rest'.head? = rest.head?) : IsRun p run rest' :=
  ⟨h.1, hr ▸ h.2⟩

theorem IsComment.of_rest (h : IsComment comment rest) (hr : rest'.head? = rest.head?) :
    IsComment comment rest' := by
  obtain ⟨hb, hblank⟩ := h
  exact .intro hb (hblank.of_rest hr)

theorem IsComments.of_rest (h : IsComments comments rest) (hr : rest'.head? = rest.head?) :
    IsComments comments rest' := by
  induction h with
  | nil => exact .nil
  | cons hc _ ih => exact .cons (hc.of_rest (head?_append_congr hr _)) (ih hr)

theorem OpensComment.of_append (h : OpensComment (s ++ rest)) (hs : 2 ≤ s.length) (rest' : List Char) :
    OpensComment (s ++ rest') :=
  (List.prefix_of_prefix_length_le h (List.prefix_append ..) hs).trans (List.prefix_append ..)

/-- No bracket follows the property, so none can become a part of it. -/
theorem IsProperty.of_rest (h : IsProperty property rest) (hr : rest'.head? = rest.head?)
    (hb : rest.head? ≠ some '[') : IsProperty property rest' := by
  obtain @⟨name, hack, blank, _, hne, hn, hh, hblank⟩ := h
  refine .intro hne (hn.of_rest ?_) ?_ (hblank.of_rest hr)
  · exact head?_append_congr (head?_append_congr hr _) _
  · refine hh.imp_right fun hnone => ⟨hnone.1, fun b r hi he => ?_⟩
    obtain ⟨-, -⟩ := hi
    have hbracket := congrArg List.head? he
    cases blank with
    | nil => exact hb (by simpa [hr] using hbracket)
    | cons c blank =>
      obtain rfl : c = '[' := by simpa using hbracket
      cases hblank.1 _ (List.mem_cons_self ..)

/-! ## Quotes and parentheses that a later character could close -/

theorem IsQuote.isLineEnd_eq {c : Char} (h : IsQuote c) : isLineEnd c = false := by
  rcases h with rfl | rfl <;> decide

section
variable {body : List Char} {count : Nat} {before : Option Nat}

theorem quotedEnd_of_not_mem (h : quote ∉ s.takeWhile (!isLineEnd ·)) (hq : IsQuote quote)
    (count : Nat) (before : Option Nat) : quotedEnd quote count before s = before := by
  have hl := hq.isLineEnd_eq
  fun_induction quotedEnd quote count before s with
  | case1 => rfl
  | case2 => simp [hl] at h
  | case3 => rfl
  | case4 => simp [hl] at h
  | case5 => rfl
  | case6 count before c d r hc hn he =>
    obtain ⟨rfl, rfl⟩ := he
    simp [hn, hl] at h
  | case7 count before c d r hc hn he ih => exact ih fun hm => h (by simp [hn, hm])

theorem exists_quotedEnd_of_mem (h : quote ∈ s.takeWhile (!isLineEnd ·)) (hq : IsQuote quote)
    (count : Nat) (before : Option Nat) :
    ∃ found, count < found ∧ quotedEnd quote count before s = some found := by
  fun_induction quotedEnd quote count before s with
  | case1 => simp at h
  | case2 count => exact ⟨_, count.lt_succ_self, rfl⟩
  | case3 count before c hc =>
    exact absurd (List.mem_singleton.1 ((List.takeWhile_prefix _).mem h)).symm hc
  | case4 count => exact ⟨_, count.lt_succ_self, rfl⟩
  | case5 count before c d r hc hn => simp [hn] at h
  | case6 count before c d r hc hn he ih =>
    by_cases hm : quote ∈ r.takeWhile (!isLineEnd ·)
    · obtain ⟨found, hlt, hf⟩ := ih hm
      exact ⟨found, by omega, hf⟩
    · exact ⟨count + 2, by omega, quotedEnd_of_not_mem hm hq _ _⟩
  | case7 count before c d r hc hn he ih =>
    obtain ⟨found, hlt, hf⟩ := ih (by simpa [hn, Ne.symm hc] using h)
    exact ⟨found, by omega, hf⟩

theorem IsQuotedBody.of_rest (h : IsQuotedBody quote body rest) (hr : rest'.head? = rest.head?) :
    IsQuotedBody quote body rest' := by
  induction h with
  | nil => exact .nil
  | escape _ ih => exact .escape (ih hr)
  | char hc hl he _ ih => exact .char hc hl (by rwa [head?_append_congr hr]) (ih hr)

theorem quotedEnd_escape (hq : IsQuote quote) (s : List Char) :
    quotedEnd quote count before ('\\' :: quote :: s) =
      quotedEnd quote (count + 2) (some (count + 2)) s := by
  rw [quotedEnd, if_neg hq.ne_backslash.symm, if_neg (by decide), if_pos ⟨rfl, rfl⟩]

theorem quotedEnd_char {c : Char} (hc : c ≠ quote) (hl : isLineEnd c = false)
    (he : ¬ (c = '\\' ∧ s.head? = some quote)) :
    quotedEnd quote count before (c :: s) = quotedEnd quote (count + 1) before s := by
  cases s with
  | nil => simp [quotedEnd, hc]
  | cons d r => rw [quotedEnd, if_neg hc, hl, if_neg (by simp), if_neg (by simpa using he)]

/-- The scan goes over the inside of a quoted text to what stands behind it. -/
theorem IsQuotedBody.quotedEnd_eq (h : IsQuotedBody quote body rest) (hq : IsQuote quote)
    (count : Nat) (before : Option Nat) :
    ∃ found, quotedEnd quote count before (body ++ rest) =
      quotedEnd quote (count + body.length) found rest := by
  induction h generalizing count before with
  | nil => exact ⟨before, rfl⟩
  | @escape body rest _ ih =>
    obtain ⟨found, h⟩ := ih (count + 2) (some (count + 2))
    have hlen : count + 2 + body.length = count + ('\\' :: quote :: body).length := by
      simp only [List.length_cons]
      omega
    exact ⟨found, by rw [List.cons_append, List.cons_append, quotedEnd_escape hq, h, hlen]⟩
  | @char c body rest hc hl he _ ih =>
    obtain ⟨found, h⟩ := ih (count + 1) before
    have hlen : count + 1 + body.length = count + (c :: body).length := by
      simp only [List.length_cons]
      omega
    exact ⟨found, by rw [List.cons_append, quotedEnd_char hc hl he, h, hlen]⟩

/-- Behind a backslash and the quote the scan goes on, and may come back to this place. -/
theorem IsQuotedBody.quotedEnd_escape (h : IsQuotedBody quote body ('\\' :: quote :: rest))
    (hq : IsQuote quote) : quotedEnd quote 0 none (body ++ '\\' :: quote :: rest) =
      quotedEnd quote (body.length + 2) (some (body.length + 2)) rest := by
  obtain ⟨found, hfound⟩ := h.quotedEnd_eq hq 0 none
  rw [hfound, Grammar.quotedEnd_escape hq, Nat.zero_add]

/-- A backslash in front of the closing quote would belong to it. -/
theorem IsQuotedBody.getLast?_ne (h : IsQuotedBody quote body (quote :: rest)) (hq : IsQuote quote) :
    body.getLast? ≠ some '\\' := by
  generalize ht : quote :: rest = t at h
  induction h with
  | nil => simp
  | @escape body rest _ ih =>
    cases body with
    | nil => simpa using hq.ne_backslash
    | cons => simpa using ih ht
  | @char c body rest _ _ he _ ih =>
    cases body with
    | nil => simpa [← ht] using he
    | cons => simpa using ih ht

end

/-- A quote of the kind stands here before the line ends, or a parenthesis closes the opening one. -/
def IsClosedIn (opening : Char) (s : List Char) : Prop :=
  IsQuote opening ∧ opening ∈ s.takeWhile (!isLineEnd ·) ∨ opening = '(' ∧ ')' ∈ s

theorem mem_takeWhile_append {c : Char} :
    c ∈ (s ++ t).takeWhile p ↔ c ∈ s.takeWhile p ∨ (∀ d ∈ s, p d = true) ∧ c ∈ t.takeWhile p := by
  induction s with
  | nil => simp
  | cons d r ih =>
    cases hd : p d with
    | false => simp [hd]
    | true => simp [hd, ih, or_assoc]

theorem IsClosedIn.of_append {a b : List Char} (h : IsClosedIn opening (s ++ (a ++ b))) :
    IsClosedIn opening (s ++ a) ∨ IsClosedIn opening (s ++ b) := by
  simp only [IsClosedIn, mem_takeWhile_append, List.mem_append] at h ⊢
  tauto

theorem IsClosedIn.append_right (h : IsClosedIn opening s) (t : List Char) :
    IsClosedIn opening (s ++ t) := by
  simp only [IsClosedIn, mem_takeWhile_append, List.mem_append] at h ⊢
  tauto

theorem unitRest_eq_zero_iff {c : Char} : unitRest c s = 0 ↔ ¬ IsClosedIn c s := by
  by_cases hq : IsQuote c
  · have hpar : c ≠ '(' := by rcases hq with rfl | rfl <;> decide
    rw [unitRest_of_isQuote hq, IsClosedIn]
    by_cases hm : c ∈ s.takeWhile (!isLineEnd ·)
    · obtain ⟨found, hlt, hfound⟩ := exists_quotedEnd_of_mem hm hq 0 none
      simp [hfound, hq, hm]
      omega
    · simp [quotedEnd_of_not_mem hm hq, hm, hpar]
  · rw [unitRest_of_not_isQuote hq, IsClosedIn]
    by_cases hm : c = '(' ∧ ')' ∈ s
    · obtain ⟨rfl, hm⟩ := hm
      obtain ⟨body, back, rfl, hb⟩ := List.eq_append_cons_of_mem hm
      simp [groupEnd_append hb]
    · split
      · next hc => simp [groupEnd_eq_none fun h => hm ⟨hc, h⟩, hq, hm]
      · simp [hq, hm]

/-- A unit is fixed by its first character and by how many characters belong to it. -/
theorem isUnit_of_unitRest {c : Char} (hc : ¬ EndsValue c) (h : unitRest c (t ++ rest) = t.length) :
    IsUnit (c :: t) rest := by
  obtain ⟨unit, r, he, hu⟩ := exists_isUnit hc (t ++ rest)
  obtain ⟨d, u, rfl, -, hl⟩ := hu.unitRest_eq
  obtain ⟨rfl, htail⟩ : c = d ∧ t ++ rest = u ++ r := by simpa using he
  rw [← htail, h] at hl
  obtain ⟨rfl, rfl⟩ := List.append_inj htail hl
  exact hu

/-- A unit whose quote or parenthesis is left open, or is closed by an escaped quote only. -/
def IsOpen (opening : Char) (unit : List Char) : Prop :=
  unit = [opening] ∨ ['\\', opening] <:+ unit

theorem isOpen_escaped (body : List Char) : IsOpen quote (quote :: (body ++ ['\\', quote])) :=
  .inr ⟨quote :: body, rfl⟩

theorem IsOpen.mem (h : IsOpen opening unit) : opening ∈ unit := by
  rcases h with rfl | h
  · exact List.mem_cons_self ..
  · exact h.subset (by simp)

theorem eq_of_escaped_suffix {c : Char} (h : ['\\', opening] <:+ s ++ [c]) :
    opening = c ∧ s.getLast? = some '\\' := by
  obtain ⟨front, hfront⟩ := h
  have he : (front ++ ['\\']) ++ [opening] = s ++ [c] := by simpa using hfront
  obtain ⟨rfl, hc⟩ := List.append_inj' he rfl
  exact ⟨by simpa using hc, by simp⟩

/-- A quoted text that ends with an escaped quote is closed by no other. -/
theorem IsQuoted.not_isClosedIn {quoted : List Char} (hu : IsQuoted quote quoted rest)
    (hq : IsQuote quote) (h : ['\\', opening] <:+ quoted) : ¬ IsClosedIn opening rest := by
  cases hu with
  | @plain _ body _ hc =>
    obtain ⟨hb⟩ := hc
    have hlast := (eq_of_escaped_suffix (s := quote :: body) h).2
    cases body with
    | nil => exact absurd (by simpa using hlast) hq.ne_backslash
    | cons => exact absurd (by simpa using hlast) (hb.getLast?_ne hq)
  | @escaped _ body _ hno hc hm =>
    obtain ⟨hb⟩ := hc
    change IsQuotedBody quote body ('\\' :: quote :: rest) at hb
    have hsuffix : ['\\', opening] <:+ (quote :: (body ++ ['\\'])) ++ [quote] := by simpa using h
    obtain rfl := (eq_of_escaped_suffix hsuffix).1
    have hend : quotedEnd opening 0 none (body ++ '\\' :: opening :: rest) = some (body.length + 2) := by
      simpa using IsQuoted.quotedEnd_eq hq.ne_backslash (.escaped hno (.intro hb) hm)
    rintro (⟨-, hmem⟩ | ⟨rfl, -⟩)
    · -- the scan would have gone on to this quote
      obtain ⟨found, hlt, hfound⟩ := exists_quotedEnd_of_mem
        hmem hq (body.length + 2) (some (body.length + 2))
      have hsame := (hb.quotedEnd_escape hq).symm.trans hend
      rw [hfound, Option.some_inj] at hsame
      omega
    · simp [IsQuote] at hq

/-- What closes an opening stands nowhere behind it. -/
theorem IsOpen.not_isClosedIn (h : IsOpen opening unit) (hu : IsUnit unit rest) :
    ¬ IsClosedIn opening rest := by
  cases h with
  | inl h =>
    obtain ⟨c, t, rfl, -, hl⟩ := hu.unitRest_eq
    obtain ⟨rfl, rfl⟩ := List.cons.inj h
    exact unitRest_eq_zero_iff.1 hl
  | inr h =>
    cases hu with
    | quoted hq hu => exact hu.not_isClosedIn hq h
    | @group body _ _ =>
      obtain rfl := (eq_of_escaped_suffix (s := '(' :: body) h).1
      simp [IsClosedIn, IsQuote]
    | char => simpa using h.length_le

/-- A unit stays one as long as nothing behind it closes what it leaves open. -/
theorem IsUnit.of_rest (h : IsUnit unit rest)
    (hn : ∀ opening, IsOpen opening unit → ¬ IsClosedIn opening rest') : IsUnit unit rest' := by
  cases h with
  | @quoted quote _ _ hq hu =>
    cases hu with
    | plain hc =>
      obtain ⟨hb⟩ := hc
      exact .quoted hq (.plain (.intro (hb.of_rest rfl)))
    | @escaped _ body _ hno hc hm =>
      obtain ⟨hb⟩ := hc
      refine isUnit_of_unitRest (by rcases hq with rfl | rfl <;> simp [EndsValue]) ?_
      have hmem : quote ∉ rest'.takeWhile (!isLineEnd ·) :=
        fun hmem => hn quote (isOpen_escaped body) (.inl ⟨hq, hmem⟩)
      have hb' : IsQuotedBody quote body ('\\' :: quote :: rest') := hb.of_rest rfl
      have hscan := hb'.quotedEnd_escape hq
      rw [quotedEnd_of_not_mem hmem hq] at hscan
      rw [unitRest_of_isQuote hq, List.append_assoc]
      simp [hscan]
  | group hb => exact .group hb
  | char hc _ _ => exact isUnit_of_unitRest hc (unitRest_eq_zero_iff.2 (hn _ (.inl rfl)))

/-! ## Values -/

/-- The value leaves an opening open, and `behind` is what stands behind it. -/
inductive Awaits (opening : Char) : (value rest behind : List Char) → Prop where
  | here {unit value rest : List Char} : IsUnit unit (value ++ rest) → IsOpen opening unit →
      IsValue value rest → Awaits opening (unit ++ value) rest (value ++ rest)
  | there {unit value rest behind : List Char} : IsUnit unit (value ++ rest) →
      Awaits opening value rest behind → Awaits opening (unit ++ value) rest behind

theorem Awaits.not_isClosedIn {behind : List Char} (h : Awaits opening value rest behind) :
    ¬ IsClosedIn opening behind := by
  induction h with
  | here hu ho _ => exact ho.not_isClosedIn hu
  | there _ _ ih => exact ih

theorem Awaits.mem {behind : List Char} (h : Awaits opening value rest behind) : opening ∈ value := by
  induction h with
  | here _ ho _ => exact List.mem_append_left _ ho.mem
  | there _ _ ih => exact List.mem_append_right _ ih

section
variable {front middle back : List Char}

theorem head?_insert (h : front ≠ []) :
    (front ++ (middle ++ back)).head? = (front ++ back).head? := by
  cases front with
  | nil => exact absurd rfl h
  | cons => rfl

/-- A piece of text may be put in behind a value, unless it closes what the value leaves open. -/
theorem IsValue.insert (h : IsValue value (front ++ back)) (hf : front ≠ [])
    (hn : ∀ opening t, Awaits opening value (front ++ back) (t ++ back) →
      ¬ IsClosedIn opening (t ++ middle)) : IsValue value (front ++ (middle ++ back)) := by
  generalize hr : front ++ back = rest at h hn
  induction h with
  | nil he => exact .nil (by rwa [head?_insert hf, hr])
  | @cons unit value rest hu hv ih =>
    subst hr
    refine .cons (hu.of_rest fun opening ho hclosed => ?_) (ih rfl fun o t ht => hn o t (.there hu ht))
    have hbehind : Awaits opening (unit ++ value) (front ++ back) ((value ++ front) ++ back) := by
      simpa using Awaits.here hu ho hv
    rw [← List.append_assoc] at hclosed
    cases hclosed.of_append with
    | inl hmiddle => exact hn opening _ hbehind hmiddle
    | inr hback => exact hbehind.not_isClosedIn hback

/-! ## Declarations -/

/-- A declaration up to the end of its value, without the separators behind it. -/
inductive IsBare : (property value bare rest : List Char) → Prop where
  | intro {property comment blank value rest : List Char} :
      IsProperty property (comment ++ ':' :: (blank ++ (value ++ rest))) →
      (comment = [] ∨ IsComment comment (':' :: (blank ++ (value ++ rest)))) →
      IsRun Text.isBlank blank (value ++ rest) → IsValue value rest →
      IsBare property value (property ++ (comment ++ ':' :: (blank ++ value))) rest

theorem isDeclaration_iff {whole : List Char} : IsDeclaration property value whole rest ↔
    ∃ bare separators, whole = bare ++ separators ∧ IsBare property value bare (separators ++ rest) ∧
      IsRun Cursor.isSeparator separators rest := by
  constructor
  · intro h
    obtain ⟨hp, hc, hb, hv, hs⟩ := h
    exact ⟨_, _, by simp, .intro hp hc hb hv, hs⟩
  · intro h
    obtain ⟨_, separators, rfl, ⟨hp, hc, hb, hv⟩, hs⟩ := h
    simpa using IsDeclaration.intro hp hc hb hv hs

theorem IsBare.length_le (h : IsBare property value bare rest) : 2 ≤ bare.length := by
  obtain ⟨hp, -⟩ := h
  have := List.length_pos_iff.2 hp.ne_nil
  simp only [List.length_append, List.length_cons]
  omega

theorem IsBare.insert (h : IsBare property value bare (front ++ back)) (hf : front ≠ [])
    (hn : ∀ opening t, Awaits opening value (front ++ back) (t ++ back) →
      ¬ IsClosedIn opening (t ++ middle)) : IsBare property value bare (front ++ (middle ++ back)) := by
  obtain @⟨comment, blank, _, _, hp, hc, hb, hv⟩ := h
  have hcolon (s t : List Char) : (comment ++ ':' :: s).head? = (comment ++ ':' :: t).head? :=
    head?_append_congr (by rfl) comment
  refine .intro (hp.of_rest (hcolon _ _) ?_) (hc.imp_right (·.of_rest rfl))
    (hb.of_rest (head?_append_congr (head?_insert hf) _)) (hv.insert hf hn)
  obtain rfl | hc := hc
  · simp
  · obtain ⟨-, -⟩ := hc
    simp

end

end JsxAttributes.Style.Grammar
