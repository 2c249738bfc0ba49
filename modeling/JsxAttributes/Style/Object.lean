import JsxAttributes.OrderedMap
import JsxAttributes.Style.Declaration
import JsxAttributes.Style.Key

/-!
The object that a style text describes. Its entries are those of a script object to which the
declarations are assigned one after the other: a declaration without a value is passed over, an
assignment to `__proto__` defines nothing, and keys that are array indexes are listed first.
-/
namespace JsxAttributes.Style

/-- The array index that a key is: a number below 2³² - 1, written as numbers are. -/
def keyIndex? (key : String) : Option Nat :=
  let n := Nat.ofDigitChars 10 key.toList 0
  if n < 1 <<< 32 - 1 ∧ Nat.toDigits 10 n = key.toList then some n else none

/-- The order in which a script lists the entries of an object: array indexes ascending, then the
other keys as they came. -/
def enumerate {α : Type} (es : List (String × α)) : List (String × α) :=
  let isIndex (e : String × α) : Bool := (keyIndex? e.1).isSome
  let index (e : String × α) : Nat := (keyIndex? e.1).getD 0
  (es.filter isIndex).mergeSort (fun e f => index e ≤ index f) ++ es.filter (!isIndex ·)

inductive Assignment where
  | empty
  | proto
  | entry (key value : String)

def Declaration.assignment (o : KeyOptions) (d : Declaration) : Assignment :=
  if d.property = "" ∨ d.value = "" then .empty
  else
    let key := keyOf o d.property
    if key = "__proto__" then .proto else .entry key d.value

def assign (o : KeyOptions) (m : OrderedMap String) (d : Declaration) : OrderedMap String :=
  match d.assignment o with
  | .entry key value => m.insert key value
  | _ => m

/-- The entries of the object that the declarations make. -/
def objectEntries (o : KeyOptions) (ds : List Declaration) : List (String × String) :=
  enumerate (ds.foldl (assign o) .empty).entries

/-- The entries of the object that a style text describes, or the first fault in it. -/
def readObject (o : KeyOptions) (text : String) : Except Fault (List (String × String)) :=
  (readDeclarations text).map (objectEntries o)

end JsxAttributes.Style
