import JsxAttributes.Proofs.Remapping
import JsxAttributes.Proofs.StyleCleaning

/-! The text of a list of tokens tells the tokens. Split at its commas, or at its spaces, it gives their texts
back; an empty last token is seen by the comma behind it. -/
namespace JsxAttributes

namespace Token

def chars (t : Token) : List Char := t.toText.toList

/-- No comma, and no white space at the two ends. -/
structure FitsCommas (t : Token) : Prop where
  comma : ',' ∉ t.chars
  front : ∀ c ∈ t.chars.head?, Text.isBlank c = false
  back : ∀ c ∈ t.chars.getLast?, Text.isBlank c = false

/-- Not empty, and no white space. -/
structure FitsSpaces (t : Token) : Prop where
  nonempty : t.chars ≠ []
  blank : ∀ c ∈ t.chars, Text.isBlank c = false

end Token

/-- The texts in front of, between and behind the commas, without white space in front of each. Behind a comma at
the end there is none. -/
def splitAtCommas (s : List Char) : List (List Char) :=
  let pieces := s.splitOn ','
  (if pieces.getLast? = some [] then pieces.dropLast else pieces).map Text.trimStart

def splitAtSpaces (s : List Char) : List (List Char) := (s.splitOn ' ').filter (· ≠ [])

/-! ## Joining lists -/

section Joining

variable {sep t u : List Char} {ts : List (List Char)}

theorem intercalate_comma_space (t : List Char) (ts : List (List Char)) :
    [',', ' '].intercalate (t :: ts) = [','].intercalate (t :: ts.map (' ' :: ·)) := by
  induction ts generalizing t with
  | nil => rw [List.map_nil, List.intercalate_singleton, List.intercalate_singleton]
  | cons u ts ih =>
    rw [List.intercalate_cons_cons, ih, List.map_cons, List.intercalate_cons_cons,
      List.intercalate_cons_cons_left]
    simp

/-- An empty list at the end leaves the separator in front of it. -/
theorem intercalate_append_nil (h : ts ≠ []) :
    sep.intercalate (ts ++ [[]]) = sep.intercalate ts ++ sep := by
  induction ts with
  | nil => exact absurd rfl h
  | cons t ts ih =>
    cases ts with
    | nil => simp [List.intercalate_cons_cons]
    | cons u ts =>
      have hu := ih (List.cons_ne_nil u ts)
      rw [List.cons_append, List.cons_append, List.intercalate_cons_cons, ← List.cons_append, hu,
        List.intercalate_cons_cons, List.append_assoc (t ++ sep)]

theorem getLast?_intercalate (h : ts.getLast? = some u) (hu : u ≠ []) :
    (sep.intercalate ts).getLast? = u.getLast? := by
  induction ts with
  | nil => cases h
  | cons t ts ih =>
    cases ts with
    | nil =>
      have ht : t = u := Option.some.inj h
      rw [List.intercalate_singleton, ht]
    | cons v ts =>
      rw [List.getLast?_cons_cons] at h
      have hlast := ih h
      rw [List.intercalate_cons_cons, List.getLast?_append, hlast, List.getLast?_eq_some_getLast hu,
        Option.some_or]

theorem head?_intercalate_comma (hf : ∀ c ∈ t.head?, Text.isBlank c = false) (hne : t :: ts ≠ [[]]) :
    ∀ c ∈ ([',', ' '].intercalate (t :: ts)).head?, Text.isBlank c = false := by
  cases ts with
  | nil =>
    rw [List.intercalate_singleton]
    exact hf
  | cons u ts =>
    rw [List.intercalate_cons_cons]
    cases t with
    | nil => simp [Text.isBlank]
    | cons c r => simpa using hf

theorem head?_intercalate_append_comma (hf : ∀ c ∈ t.head?, Text.isBlank c = false) :
    ∀ c ∈ ([',', ' '].intercalate (t :: ts) ++ [',']).head?, Text.isBlank c = false := by
  by_cases hne : t :: ts = [[]]
  · rw [hne]
    rintro c ⟨⟩
    decide
  · intro c hc
    rw [List.head?_append] at hc
    cases hh : ([',', ' '].intercalate (t :: ts)).head? with
    | none =>
      rw [hh, Option.none_or] at hc
      obtain rfl := Option.some.inj hc
      decide
    | some d =>
      rw [hh, Option.some_or] at hc
      obtain rfl := Option.some.inj hc
      exact head?_intercalate_comma hf hne d hh

end Joining

/-! ## Joining tokens -/

theorem toList_joinTokens (separator : String) (tokens : List Token) :
    (joinTokens separator tokens).toList = separator.toList.intercalate (tokens.map Token.chars) := by
  rw [joinTokens, String.toList_intercalate, List.map_map]
  rfl

/-- Only a text can be empty, no number. -/
theorem endsEmpty_iff (tokens : List Token) :
    endsEmpty tokens = true ↔ (tokens.map Token.chars).getLast? = some [] := by
  rw [endsEmpty, List.getLast?_map]
  cases tokens.getLast? with
  | none => simp
  | some t =>
    cases t with
    | number x =>
      have hne : x.toText.toList ≠ [] := fun h =>
        Number.Double.toText_ne_empty x (String.toList_eq_nil_iff.1 h)
      simpa [Token.chars, Token.toText] using hne
    | text t => simp [Token.chars, Token.toText, String.isEmpty_iff]

/-- The pieces between the commas of a text of tokens. -/
def commaPieces : List (List Char) → List (List Char)
  | [] => []
  | t :: ts => t :: ts.map (' ' :: ·) ++ if (t :: ts).getLast? = some [] then [[]] else []

theorem trim_joined {t : List Char} {ts : List (List Char)}
    (hf : ∀ c ∈ t.head?, Text.isBlank c = false)
    (hb : ∀ u ∈ t :: ts, ∀ c ∈ u.getLast?, Text.isBlank c = false) :
    Text.trim ([',', ' '].intercalate (t :: ts) ++
        if (t :: ts).getLast? = some [] then [',', ' '] else []) =
      [','].intercalate (commaPieces (t :: ts)) := by
  rw [commaPieces]
  split
  · next hlast =>
    have hcons : t :: ts.map (' ' :: ·) ≠ [] := List.cons_ne_nil _ _
    rw [intercalate_append_nil hcons, ← intercalate_comma_space]
    -- Of the added separator the comma stays.
    exact Style.Grammar.Trims.trim_eq ⟨[], [' '], by simp, nofun, List.all_eq_true.1 rfl,
      head?_intercalate_append_comma hf, by simp; decide⟩
  · next hlast =>
    obtain ⟨u, hu⟩ : ∃ u, (t :: ts).getLast? = some u :=
      ⟨_, List.getLast?_eq_some_getLast (List.cons_ne_nil t ts)⟩
    have hne : u ≠ [] := fun he => hlast (he ▸ hu)
    rw [List.append_nil, List.append_nil, ← intercalate_comma_space]
    refine Style.Grammar.Trims.trim_eq ⟨[], [], by simp, by simp, by simp, ?_, ?_⟩
    · refine head?_intercalate_comma hf fun he => hlast ?_
      rw [he]
      rfl
    · rw [getLast?_intercalate hu hne]
      exact hb u (List.mem_of_getLast? hu)

theorem toList_textByCommas {tokens : List Token} (h : ∀ t ∈ tokens, t.FitsCommas) :
    (textByCommas tokens).toList = [','].intercalate (commaPieces (tokens.map Token.chars)) := by
  have hjoined : (if endsEmpty tokens then joinTokens ", " tokens ++ ", "
      else joinTokens ", " tokens).toList = [',', ' '].intercalate (tokens.map Token.chars) ++
        if (tokens.map Token.chars).getLast? = some [] then [',', ' '] else [] := by
    simp only [endsEmpty_iff]
    split
    · rw [String.toList_append, toList_joinTokens]
      rfl
    · rw [toList_joinTokens, List.append_nil]
      rfl
  rw [textByCommas, String.toList_ofList, hjoined]
  cases tokens with
  | nil => rfl
  | cons t ts =>
    obtain ⟨ht, -⟩ := List.forall_mem_cons.1 h
    exact trim_joined ht.front (List.forall_mem_map.2 fun u hu => (h u hu).back)

theorem trimStart_eq_self {u : List Char} (h : ∀ c ∈ u.head?, Text.isBlank c = false) :
    Text.trimStart u = u := by
  cases u with
  | nil => rfl
  | cons c r => exact List.dropWhile_cons_of_neg (by simp [h c rfl])

theorem map_trimStart {t : List Char} {ts : List (List Char)}
    (h : ∀ u ∈ t :: ts, ∀ c ∈ u.head?, Text.isBlank c = false) :
    (t :: ts.map (' ' :: ·)).map Text.trimStart = t :: ts := by
  obtain ⟨ht, hts⟩ := List.forall_mem_cons.1 h
  have hspaces : ts.map (Text.trimStart ∘ (' ' :: ·)) = ts.map id :=
    List.map_congr_left fun u hu => trimStart_eq_self (hts u hu)
  rw [List.map_cons, trimStart_eq_self ht, List.map_map, hspaces, List.map_id]

theorem splitAtCommas_commaPieces {t : List Char} {ts : List (List Char)}
    (hc : ∀ u ∈ t :: ts, ',' ∉ u) (hf : ∀ u ∈ t :: ts, ∀ c ∈ u.head?, Text.isBlank c = false) :
    splitAtCommas ([','].intercalate (commaPieces (t :: ts))) = t :: ts := by
  have hpieces : ∀ u ∈ commaPieces (t :: ts), ',' ∉ u := by
    obtain ⟨ht, hts⟩ := List.forall_mem_cons.1 hc
    simp only [commaPieces, List.mem_append, List.mem_cons, List.mem_map]
    rintro u ((rfl | ⟨v, hv, rfl⟩) | hu)
    · exact ht
    · simpa using hts v hv
    · split at hu <;> simp_all
  rw [splitAtCommas, List.splitOn_intercalate ',' hpieces (by simp [commaPieces]), commaPieces]
  split
  · next hlast =>
    rw [List.getLast?_concat, if_pos rfl, List.dropLast_concat, map_trimStart hf]
  · next hlast =>
    have hne : (t :: ts.map (' ' :: ·)).getLast? ≠ some [] := by
      intro he
      cases ts with
      | nil => exact hlast he
      | cons u ts =>
        rw [List.map_cons, List.getLast?_cons_cons, ← List.map_cons] at he
        obtain ⟨v, -, hv⟩ := List.mem_map.1 (List.mem_of_getLast? he)
        cases hv
    rw [List.append_nil, if_neg hne, map_trimStart hf]

/-- Split at its commas, a text gives its tokens back. -/
theorem splitAtCommas_textByCommas {tokens : List Token} (h : ∀ t ∈ tokens, t.FitsCommas) :
    splitAtCommas (textByCommas tokens).toList = tokens.map Token.chars := by
  rw [toList_textByCommas h]
  cases tokens with
  | nil => rfl
  | cons t ts =>
    have hc : ∀ u ∈ (t :: ts).map Token.chars, ',' ∉ u :=
      List.forall_mem_map.2 fun u hu => (h u hu).comma
    have hf : ∀ u ∈ (t :: ts).map Token.chars, ∀ c ∈ u.head?, Text.isBlank c = false :=
      List.forall_mem_map.2 fun u hu => (h u hu).front
    exact splitAtCommas_commaPieces hc hf

theorem toList_textBySpaces {tokens : List Token} (h : ∀ t ∈ tokens, t.FitsSpaces) :
    (textBySpaces tokens).toList = [' '].intercalate (tokens.map Token.chars) := by
  rw [textBySpaces, String.toList_ofList, toList_joinTokens]
  cases tokens with
  | nil => rfl
  | cons t ts =>
    obtain ⟨u, hu⟩ : ∃ u, (t :: ts).getLast? = some u :=
      ⟨_, List.getLast?_eq_some_getLast (List.cons_ne_nil t ts)⟩
    have hfits := h u (List.mem_of_getLast? hu)
    have hchars : ((t :: ts).map Token.chars).getLast? = some u.chars := by
      rw [List.getLast?_map, hu]
      rfl
    refine Style.Grammar.Trims.trim_eq ⟨[], [], by simp, by simp, by simp, ?_, ?_⟩
    · obtain ⟨ht, -⟩ := List.forall_mem_cons.1 h
      obtain ⟨c, r, hc⟩ := List.exists_cons_of_ne_nil ht.nonempty
      rw [List.map_cons, hc, List.intercalate_cons_cons_left]
      exact fun d hd => ht.blank d (hc ▸ Option.some.inj hd ▸ List.mem_cons_self ..)
    · rw [getLast?_intercalate hchars hfits.nonempty]
      exact fun c hc => hfits.blank c (List.mem_of_getLast? hc)

/-- Split at its spaces, a text gives its tokens back. -/
theorem splitAtSpaces_textBySpaces {tokens : List Token} (h : ∀ t ∈ tokens, t.FitsSpaces) :
    splitAtSpaces (textBySpaces tokens).toList = tokens.map Token.chars := by
  have hall : ∀ u ∈ tokens.map Token.chars, u ≠ [] ∧ ' ' ∉ u := by
    refine List.forall_mem_map.2 fun t ht => ⟨(h t ht).nonempty, fun hm => ?_⟩
    have hblank := (h t ht).blank ' ' hm
    cases hblank
  rw [toList_textBySpaces h, splitAtSpaces]
  by_cases hne : tokens.map Token.chars = []
  · rw [hne]
    rfl
  · rw [List.splitOn_intercalate ' ' (fun u hu => (hall u hu).2) hne]
    exact List.filter_eq_self.2 fun u hu => decide_eq_true (hall u hu).1

/-! ## Telling tokens apart -/

theorem map_toText_of_chars {xs ys : List Token} (h : xs.map Token.chars = ys.map Token.chars) :
    xs.map Token.toText = ys.map Token.toText := by
  have hchars (zs : List Token) : zs.map Token.chars = (zs.map Token.toText).map String.toList := by
    rw [List.map_map]
    rfl
  rw [hchars, hchars] at h
  exact List.map_injective_iff.2 (fun _ _ => String.toList_injective) h

theorem fitsCommas_empty : (Token.text "").FitsCommas := ⟨by decide, nofun, nofun⟩

/-- Lists of tokens with the same text by commas, or by spaces, have the same texts in the same order; so the
number of empty tokens at the end shows, and one empty token is not none. -/
theorem texts_of_joined_eq :
    (∀ xs ys : List Token, (∀ t ∈ xs, t.FitsCommas) → (∀ t ∈ ys, t.FitsCommas) →
      textByCommas xs = textByCommas ys →
      xs.length = ys.length ∧ xs.map Token.toText = ys.map Token.toText) ∧
    (∀ xs ys : List Token, (∀ t ∈ xs, t.FitsSpaces) → (∀ t ∈ ys, t.FitsSpaces) →
      textBySpaces xs = textBySpaces ys →
      xs.length = ys.length ∧ xs.map Token.toText = ys.map Token.toText) ∧
    (∀ (xs : List Token) (m n : Nat), (∀ t ∈ xs, t.FitsCommas) → m ≠ n →
      textByCommas (xs ++ List.replicate m (.text "")) ≠
        textByCommas (xs ++ List.replicate n (.text ""))) ∧
    textByCommas [] ≠ textByCommas [.text ""] := by
  have hlength {xs ys : List Token} (h : xs.map Token.chars = ys.map Token.chars) :
      xs.length = ys.length := by simpa using congrArg List.length h
  have hcommas (xs ys : List Token) (hx : ∀ t ∈ xs, t.FitsCommas) (hy : ∀ t ∈ ys, t.FitsCommas)
      (h : textByCommas xs = textByCommas ys) : xs.map Token.chars = ys.map Token.chars := by
    rw [← splitAtCommas_textByCommas hx, h, splitAtCommas_textByCommas hy]
  refine ⟨fun xs ys hx hy h => ?_, fun xs ys hx hy h => ?_, fun xs m n hx hmn h => ?_, by decide⟩
  · exact ⟨hlength (hcommas xs ys hx hy h), map_toText_of_chars (hcommas xs ys hx hy h)⟩
  · have hchars : xs.map Token.chars = ys.map Token.chars := by
      rw [← splitAtSpaces_textBySpaces hx, h, splitAtSpaces_textBySpaces hy]
    exact ⟨hlength hchars, map_toText_of_chars hchars⟩
  · have hfits (k : Nat) : ∀ t ∈ xs ++ List.replicate k (.text ""), t.FitsCommas := by
      intro t ht
      cases List.mem_append.1 ht with
      | inl ht => exact hx t ht
      | inr ht => exact List.eq_of_mem_replicate ht ▸ fitsCommas_empty
    have hsame := hlength (hcommas _ _ (hfits m) (hfits n) h)
    simp only [List.length_append, List.length_replicate] at hsame
    omega

theorem texts_of_joined_eq_number :
    (textByCommas [.number (.ofInt 1), .text ""] = textByCommas [.text "1", .text ""] ∧
      [Token.number (.ofInt 1), .text ""].map Token.toText = [Token.text "1", .text ""].map Token.toText) ∧
    (textBySpaces [.number (.ofInt 1)] = textBySpaces [.text "1"] ∧
      [Token.number (.ofInt 1)].map Token.toText = [Token.text "1"].map Token.toText) ∧
    textByCommas [.text "1", .text ""] ≠ textByCommas [.text "1", .text "", .text ""] := by
  have hnumber : (Token.number (.ofInt 1)).chars = ['1'] := by decide +kernel
  have hcommas (t : Token) (h : t.chars = ['1']) : t.FitsCommas := by
    constructor <;> simp +decide [h]
  have hspaces (t : Token) (h : t.chars = ['1']) : t.FitsSpaces := by
    constructor <;> simp +decide [h]
  have hpair (t : Token) (h : t.chars = ['1']) : ∀ u ∈ [t, .text ""], u.FitsCommas := by
    rw [List.forall_mem_cons, List.forall_mem_singleton]
    exact ⟨hcommas t h, fitsCommas_empty⟩
  have hbycommas : textByCommas [.number (.ofInt 1), .text ""] = textByCommas [.text "1", .text ""] := by
    decide +kernel
  have hbyspaces : textBySpaces [.number (.ofInt 1)] = textBySpaces [.text "1"] := by decide +kernel
  refine ⟨⟨hbycommas, ?_⟩, ⟨hbyspaces, ?_⟩, ?_⟩
  · exact (texts_of_joined_eq.1 _ _ (hpair _ hnumber) (hpair _ rfl) hbycommas).2
  · exact (texts_of_joined_eq.2.1 _ _ (List.forall_mem_singleton.2 (hspaces _ hnumber))
      (List.forall_mem_singleton.2 (hspaces _ rfl)) hbyspaces).2
  · exact texts_of_joined_eq.2.2.1 [.text "1"] 1 2 (List.forall_mem_singleton.2 (hcommas _ rfl))
      (by decide)

end JsxAttributes
