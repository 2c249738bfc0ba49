import JsxAttributes.PropertyMap.Value

/-!
The properties of an element: its own entries in the order in which they came, and behind them the
maps it inherits from.
-/
namespace JsxAttributes

structure PropertyMap where
  own : OrderedMap Value
  /-- The maps of the prototype chain, the nearest first. -/
  inherited : List (OrderedMap Value)
  deriving Inhabited

namespace PropertyMap

def empty : PropertyMap := ⟨.empty, []⟩

/-- A repeated key keeps its first place and takes its last value. -/
def ofList (es : List (String × Value)) : PropertyMap := ⟨.ofList es, []⟩

/-- An empty map that inherits from another one. -/
def inheriting (parent : PropertyMap) : PropertyMap := ⟨.empty, parent.own :: parent.inherited⟩

def prototype? (p : PropertyMap) : Option PropertyMap :=
  match p.inherited with
  | [] => none
  | parent :: others => some ⟨parent, others⟩

def entries (p : PropertyMap) : List (String × Value) := p.own.entries

def keys (p : PropertyMap) : List String := p.own.keys

def size (p : PropertyMap) : Nat := p.own.size

def isEmpty (p : PropertyMap) : Bool := p.entries.isEmpty

def getOwn? (p : PropertyMap) (key : String) : Option Value := p.own.get? key

def hasOwn (p : PropertyMap) (key : String) : Bool := p.own.contains key

/-- The value in the nearest map of the chain that has the key. -/
def get? (p : PropertyMap) (key : String) : Option Value :=
  (p.own :: p.inherited).findSome? (·.get? key)

/-- Sets an own entry; also tells its value before. -/
def insert (p : PropertyMap) (key : String) (value : Value) : Option Value × PropertyMap :=
  (p.getOwn? key, { p with own := p.own.insert key value })

/-- Takes an own entry away; also tells its value before. -/
def erase (p : PropertyMap) (key : String) : Option Value × PropertyMap :=
  (p.getOwn? key, { p with own := p.own.erase key })

/-- The own entries are equal in any order, and so are those of each map of the chains. -/
def equals (p q : PropertyMap) : Bool :=
  equalChains (p.own :: p.inherited) (q.own :: q.inherited)
where
  equalChains : List (OrderedMap Value) → List (OrderedMap Value) → Bool
    | [], [] => true
    | m :: ms, n :: ns => m.equalsBy Value.equals n && equalChains ms ns
    | _, _ => false

/-- The members of an object become own entries. -/
def ofJson? : Json → Option PropertyMap
  | .obj members => do
    return ofList (← members.mapM fun (key, j) => return (key, ← Value.ofJson? j))
  | _ => none

end PropertyMap

end JsxAttributes
