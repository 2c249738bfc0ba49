import JsxAttributes.Expression.Basic
import JsxAttributes.Proofs.OrderedMapWrites

/-! What expressions evaluate to in a script, as far as this library makes them: literals, the two numbers
that have names, the minus, and arrays and objects of such. -/
namespace JsxAttributes

open Number (Double)

/-- A value of a script. An object has its properties in the order in which they were defined. -/
inductive ScriptValue where
  | null
  | bool (value : Bool)
  | number (value : Double)
  | text (value : String)
  | array (items : List ScriptValue)
  | object (entries : List (String × ScriptValue))

namespace ScriptValue

def text? : ScriptValue → Option String
  | .text t => some t
  | _ => none

def negated? : ScriptValue → Option ScriptValue
  | .number x => some (.number x.negate)
  | _ => none

end ScriptValue

def Literal.value : Literal → ScriptValue
  | .null => .null
  | .bool b => .bool b
  | .number x => .number x
  | .text t => .text t

def globalNumber? (name : String) : Option Double :=
  if name = "NaN" then some .nan else if name = "Infinity" then some (.infinite false) else none

/-- What a property defines. Where the key `__proto__` is not computed, it sets the prototype and defines
nothing. -/
def definedEntries (computed : Bool) (key : String) (value : ScriptValue) :
    List (String × ScriptValue) :=
  if key = "__proto__" ∧ computed = false then [] else [(key, value)]

namespace Expression

mutual

/-- The value of an expression of the kinds above. Properties are defined one after the other, and a
repeated key keeps its place. -/
def eval : Expression → Option ScriptValue
  | .literal v => some v.value
  | .identifier name => (globalNumber? name).map .number
  | .array elements => (evalElements elements).map .array
  | .object properties =>
    (evalProperties properties).map fun es => .object (OrderedMap.ofList es).entries
  | .unary operator prefixed argument =>
    if operator = .minus ∧ prefixed = true then (eval argument).bind ScriptValue.negated? else none
  | .other _ => none

def evalElements : List (Option Expression) → Option (List ScriptValue)
  | [] => some []
  | none :: _ => none
  | some e :: r => do return (← eval e) :: (← evalElements r)

def evalProperties : List (Property Expression) → Option (List (String × ScriptValue))
  | [] => some []
  | ⟨computed, key, kind, method, shorthand, value⟩ :: r =>
    if kind = .init ∧ method = false ∧ shorthand = false then do
      let name ← (← eval key).text?
      return definedEntries computed name (← eval value) ++ (← evalProperties r)
    else none

end

/-- A property with a text as its key defines that key, whatever it is. -/
theorem evalProperties_ofText {key : String} {e : Expression} {v : ScriptValue}
    {ps : List (Property Expression)} {es : List (String × ScriptValue)} (he : e.eval = some v)
    (hps : evalProperties ps = some es) :
    evalProperties (Property.ofText key e :: ps) = some ((key, v) :: es) := by
  have hd : definedEntries (key == "__proto__") key v = [(key, v)] := by
    rw [definedEntries, if_neg]
    simp
  simp only [Property.ofText, evalProperties, eval, text, Literal.value, ScriptValue.text?, he, hps]
  simp [hd]

end Expression
end JsxAttributes
