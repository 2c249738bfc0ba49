import JsxAttributes.Proofs.TokenTexts

/-! Equal values cannot be told apart by what is made of them. Equality is identity except that the two zeros are equal
and `NaN` equals nothing; zeros are printed without their sign, and a list shows nothing but the texts of its tokens. -/
namespace JsxAttributes

open Number (Double)

/-! ## Numbers -/

namespace Number.Double

variable {x y z : Double}

theorem equals_iff : x.equals y = true ↔
    (x = y ∧ x.isNaN = false) ∨ (x.isZero = true ∧ y.isZero = true) := by
  cases x <;> cases y <;> grind [equals, isNaN, isZero]

theorem equals_symm (h : x.equals y = true) : y.equals x = true := by
  rw [equals_iff] at h ⊢
  cases h with
  | inl hsame => exact .inl ⟨hsame.1.symm, hsame.1 ▸ hsame.2⟩
  | inr hzeros => exact .inr hzeros.symm

theorem equals_trans (h : x.equals y = true) (h' : y.equals z = true) : x.equals z = true := by
  rw [equals_iff] at h h' ⊢
  cases h with
  | inl hsame => exact hsame.1 ▸ h'
  | inr hzeros =>
    cases h' with
    | inl hsame => exact .inr ⟨hzeros.1, hsame.1 ▸ hzeros.2⟩
    | inr hzeros' => exact .inr ⟨hzeros.1, hzeros'.2⟩

theorem isNaN_of_isZero (h : x.isZero = true) : x.isNaN = false := by
  cases x with
  | nan => cases h
  | _ => rfl

theorem toText_of_isZero (h : x.isZero = true) : x.toText = "0" := by
  cases x with
  | finite negative rank =>
    have hrank : rank.val = 0 := eq_of_beq h
    rw [toText, Layout.write, if_pos hrank]
    rfl
  | infinite negative => cases h
  | nan => cases h

theorem isNaN_of_equals (h : x.equals y = true) : x.isNaN = y.isNaN := by
  cases equals_iff.1 h with
  | inl hsame => rw [hsame.1]
  | inr hzeros => rw [isNaN_of_isZero hzeros.1, isNaN_of_isZero hzeros.2]

theorem isZero_of_equals (h : x.equals y = true) : x.isZero = y.isZero := by
  cases equals_iff.1 h with
  | inl hsame => rw [hsame.1]
  | inr hzeros => rw [hzeros.1, hzeros.2]

/-- The sign of a zero is not printed. -/
theorem toText_of_equals (h : x.equals y = true) : x.toText = y.toText := by
  cases equals_iff.1 h with
  | inl hsame => rw [hsame.1]
  | inr hzeros => rw [toText_of_isZero hzeros.1, toText_of_isZero hzeros.2]

end Number.Double

/-! ## Tokens -/

theorem forall₂_trans {α : Type} {r : α → α → Prop} (hr : ∀ a b c, r a b → r b c → r a c)
    {as bs cs : List α} (hab : List.Forall₂ r as bs) (hbc : List.Forall₂ r bs cs) :
    List.Forall₂ r as cs := by
  induction hab generalizing cs with
  | nil => exact hbc
  | cons h _ ih =>
    cases hbc with
    | cons h' hbc => exact .cons (hr _ _ _ h h') (ih hbc)

namespace Token

/-- Two numbers or two texts that are equal. -/
inductive Equal : Token → Token → Prop where
  | number {x y : Double} : x.equals y = true → Equal (.number x) (.number y)
  | text (t : String) : Equal (.text t) (.text t)

variable {t u v : Token}

theorem equals_iff : t.equals u = true ↔ Equal t u := by
  constructor
  · intro h
    cases t <;> cases u
    · exact .number h
    · cases h
    · cases h
    · obtain rfl := eq_of_beq h
      exact .text _
  · intro h
    cases h with
    | number h => exact h
    | text t => exact BEq.rfl

theorem Equal.symm (h : Equal t u) : Equal u t := by
  cases h with
  | number h => exact .number (Double.equals_symm h)
  | text t => exact .text t

theorem Equal.trans (h : Equal t u) (h' : Equal u v) : Equal t v := by
  cases h with
  | number h =>
    cases h' with
    | number h' => exact .number (Double.equals_trans h h')
  | text t => exact h'

theorem Equal.toText_eq (h : Equal t u) : t.toText = u.toText := by
  cases h with
  | number h => exact Double.toText_of_equals h
  | text t => rfl

end Token

/-! ## Values -/

namespace Value

/-- Two values of one kind that are equal; lists are equal token by token. -/
inductive Equal : Value → Value → Prop where
  | null : Equal .null .null
  | bool (b : Bool) : Equal (.bool b) (.bool b)
  | number {x y : Double} : x.equals y = true → Equal (.number x) (.number y)
  | text (t : String) : Equal (.text t) (.text t)
  | list {xs ys : List Token} : List.Forall₂ Token.Equal xs ys → Equal (.list xs) (.list ys)

variable {v w x : Value}

theorem equalTokens_iff {xs ys : List Token} :
    equalTokens xs ys = true ↔ List.Forall₂ Token.Equal xs ys := by
  induction xs generalizing ys with
  | nil => cases ys <;> simp [equalTokens]
  | cons t xs ih => cases ys <;> simp [equalTokens, Token.equals_iff, ih]

theorem equals_iff : v.equals w = true ↔ Equal v w := by
  constructor
  · intro h
    unfold equals at h
    split at h
    · exact .null
    · obtain rfl := eq_of_beq h
      exact .bool _
    · exact .number h
    · obtain rfl := eq_of_beq h
      exact .text _
    · exact .list (equalTokens_iff.1 h)
    · cases h
  · intro h
    cases h with
    | null => rfl
    | bool b => exact BEq.rfl
    | number h => exact h
    | text t => exact BEq.rfl
    | list h => exact equalTokens_iff.2 h

theorem Equal.symm (h : Equal v w) : Equal w v := by
  cases h with
  | null => exact .null
  | bool b => exact .bool b
  | number h => exact .number (Double.equals_symm h)
  | text t => exact .text t
  | list h => exact .list (h.imp fun _ _ => Token.Equal.symm).flip

theorem Equal.trans (h : Equal v w) (h' : Equal w x) : Equal v x := by
  cases h with
  | null => exact h'
  | bool b => exact h'
  | text t => exact h'
  | number h =>
    cases h' with
    | number h' => exact .number (Double.equals_trans h h')
  | list h =>
    cases h' with
    | list h' => exact .list (forall₂_trans (r := Token.Equal) (fun _ _ _ => Token.Equal.trans) h h')

/-! ## What is made of a value -/

theorem Equal.isNaN_eq (h : Equal v w) : v.isNaN = w.isNaN := by
  cases h with
  | number h => exact Double.isNaN_of_equals h
  | _ => rfl

theorem Equal.isFalsy_eq (h : Equal v w) : v.isFalsy = w.isFalsy := by
  cases h with
  | number h => rw [isFalsy, isFalsy, Double.isZero_of_equals h, Double.isNaN_of_equals h]
  | _ => rfl

end Value

theorem map_toText_eq {xs ys : List Token} (h : List.Forall₂ Token.Equal xs ys) :
    xs.map Token.toText = ys.map Token.toText := by
  induction h with
  | nil => rfl
  | cons ht _ ih => rw [List.map_cons, List.map_cons, ht.toText_eq, ih]

theorem textBySpaces_eq {xs ys : List Token} (h : xs.map Token.toText = ys.map Token.toText) :
    textBySpaces xs = textBySpaces ys := by
  rw [textBySpaces, joinTokens, h, textBySpaces, joinTokens]

/-- The mark of an empty last token is set by its text, too. -/
theorem textByCommas_eq {xs ys : List Token} (h : xs.map Token.toText = ys.map Token.toText) :
    textByCommas xs = textByCommas ys := by
  have hchars : xs.map Token.chars = ys.map Token.chars := by
    have hmap := congrArg (List.map String.toList) h
    rwa [List.map_map, List.map_map] at hmap
  have hends : endsEmpty xs = endsEmpty ys := by
    rw [Bool.eq_iff_iff, endsEmpty_iff, endsEmpty_iff, hchars]
  rw [textByCommas, joinTokens, h, hends, textByCommas, joinTokens]

namespace Value

variable {v w : Value}

theorem Equal.toText_eq (h : Equal v w) : v.toText = w.toText := by
  cases h with
  | number h => exact Double.toText_of_equals h
  | list h => rw [toText, joinTokens, map_toText_eq h, toText, joinTokens]
  | _ => rfl

theorem Equal.attributeText?_eq (h : Equal v w) (i : Info) : i.attributeText? v = i.attributeText? w := by
  cases h with
  | number h => exact congrArg some (Double.toText_of_equals h)
  | list h =>
    have htexts := map_toText_eq h
    rw [Info.attributeText?, Info.attributeText?, textByCommas_eq htexts, textBySpaces_eq htexts]
  | _ => rfl

theorem omits_number (i : Info) (x : Double) : i.omits (.number x) =
    ((number x).isNaN || (i.shape.boolean && (number x).isFalsy)) := rfl

theorem Equal.omits_eq (h : Equal v w) (i : Info) : i.omits v = i.omits w := by
  have hnan := h.isNaN_eq
  have hfalsy := h.isFalsy_eq
  cases h with
  | number h => rw [omits_number, hnan, hfalsy, omits_number]
  | _ => rfl

end Value

end JsxAttributes
