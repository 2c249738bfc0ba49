/-!
Names of several words, spelled with dashes (`font-size`) or with capitals (`fontSize`). A dash
joins two words only where a small ASCII letter follows it.
-/
namespace JsxAttributes.Text

/-- Writes each dash with the small letter after it as the capital letter. -/
def dashesToCapitals : List Char → List Char
  | [] => []
  | [c] => [c]
  | c :: d :: r =>
    if c = '-' ∧ d.isLower then d.toUpper :: dashesToCapitals r else c :: dashesToCapitals (d :: r)

/-- Writes each capital as a dash and the small letter. -/
def capitalsToDashes : List Char → List Char
  | [] => []
  | c :: r => if c.isUpper then '-' :: c.toLower :: capitalsToDashes r else c :: capitalsToDashes r

/-- Some dash has a small letter after it. -/
def hasWordDash : List Char → Bool
  | [] => false
  | [_] => false
  | c :: d :: r => (c = '-' ∧ d.isLower) || hasWordDash (d :: r)

/-- A name without a joining dash is folded to itself. -/
theorem dashesToCapitals_of_not_hasWordDash {s : List Char} (h : hasWordDash s = false) :
    dashesToCapitals s = s := by
  fun_induction hasWordDash s with
  | case1 => rfl
  | case2 => rfl
  | case3 c d r ih =>
    simp only [Bool.or_eq_false_iff, decide_eq_false_iff_not] at h
    rw [dashesToCapitals, if_neg h.1, ih h.2]

end JsxAttributes.Text
