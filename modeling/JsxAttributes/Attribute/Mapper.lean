import JsxAttributes.Attribute.Basic
import JsxAttributes.Attribute.Settings
import JsxAttributes.Expression.OfValue
import JsxAttributes.PropertyMap.Basic
import JsxAttributes.Style.Event
import JsxAttributes.Vocabulary.Resolve

/-!
Mapping the properties of an element to JSX attributes. A mapper resolves and respells names, reads
styles and turns values into expressions by functions that can be replaced. A run maps one entry
after the other and stops at the first style that cannot be read; beside the attributes it records
which calls the hook got and what was noted on the way.
-/
namespace JsxAttributes

/-- Reads a style text into the entries of an object, and tells what it notes meanwhile. -/
structure StyleReader where
  read : String → Except Style.Fault (List (String × String))
  events : String → List Style.Event := fun _ => []

def StyleReader.inline (o : Style.KeyOptions) : StyleReader where
  read := Style.readObject o
  events := Style.objectEvents o

structure Mapper where
  resolve : Schema → String → Info := Schema.resolve
  respell? : String → Option String := reactSpelling?
  style : StyleReader := .inline {}
  express : Json → Expression := Expression.ofValue

inductive Event where
  | respelled (property spelling : String)
  | skipped (key : String)
  | hooked (name : String) (value : Hooked)
  | style (event : Style.Event)
  /-- A style text has become an object of so many entries. -/
  | expanded (size : Nat)

/-- What a hook was called with. -/
structure HookCall where
  name : String
  computed : Option String
  stored : Value

/-- Whether a value makes no attribute: null, false and `NaN` never do, and for a boolean attribute
no falsy value does. -/
def Info.omits (i : Info) : Value → Bool
  | .null => true
  | .bool false => true
  | v => v.isNaN || (i.shape.boolean && v.isFalsy)

def textBySpaces (tokens : List Token) : String :=
  String.ofList (Text.trim (joinTokens " " tokens).toList)

/-- An empty text is the last token. -/
def endsEmpty (tokens : List Token) : Bool :=
  match tokens.getLast? with
  | some (.text t) => t.isEmpty
  | _ => false

/-- Tokens separated by commas. An empty last token shows as a comma behind it. -/
def textByCommas (tokens : List Token) : String :=
  let joined := joinTokens ", " tokens
  String.ofList (Text.trim (if endsEmpty tokens then joined ++ ", " else joined).toList)

/-- The text of an attribute; true has none. -/
def Info.attributeText? (i : Info) : Value → Option String
  | .list tokens =>
    some (if i.shape.commaSeparated then textByCommas tokens else textBySpaces tokens)
  | .bool true => none
  | v => some v.toText

/-- The entries of a style object as a value; a repeated key keeps its first place and takes its
last value. -/
def styleValue (pairs : List (String × String)) : OrderedMap Json :=
  .ofList (pairs.map fun (key, value) => (key, .str value))

namespace Mapper

/-- The spelling that replaces the name of a property: React's, for properties that have a
namespace. -/
def respelling? (m : Mapper) (s : Spelling) (i : Info) : Option String :=
  if s = .react ∧ i.space.isSome then m.respell? i.property else none

def attributeName (m : Mapper) (s : Spelling) (i : Info) : String :=
  (m.respelling? s i).getD i.property

/-- The value of an attribute; the text of a style becomes an object. -/
def attributeValue (m : Mapper) (name : String) : Hooked → Except Style.Fault AttributeValue
  | .absent => .ok .absent
  | .expression e => .ok (.expression e)
  | .text t =>
    if name = "style" then
      (m.style.read t).map fun pairs => .expression (m.express (.obj (styleValue pairs).entries))
    else .ok (.text t)

def valueEvents (m : Mapper) (name : String) : Hooked → List Event
  | .text t =>
    if name = "style" then
      (m.style.events t).map .style ++
        match m.style.read t with
        | .ok pairs => [.expanded (styleValue pairs).size]
        | .error _ => []
    else []
  | _ => []

structure Step where
  calls : List HookCall
  events : List Event
  /-- The attribute, unless the entry is skipped. -/
  result : Except Style.Fault (Option Attribute)

def step (m : Mapper) (o : Settings) (key : String) (stored : Value) : Step :=
  let info := m.resolve o.schema key
  let named := (m.respelling? o.spelling info).toList.map (Event.respelled info.property)
  if info.omits stored then ⟨[], named ++ [.skipped key], .ok none⟩
  else
    let name := m.attributeName o.spelling info
    let computed := info.attributeText? stored
    let made (value : Hooked) : Except Style.Fault (Option Attribute) :=
      (m.attributeValue name value).map fun v => some ⟨name, v⟩
    match o.hook with
    | some hook =>
      let value := hook name computed stored
      ⟨[⟨name, computed, stored⟩], named ++ .hooked name value :: m.valueEvents name value,
        made value⟩
    | none =>
      let value := .ofText? computed
      ⟨[], named ++ m.valueEvents name value, made value⟩

structure Run where
  calls : List HookCall
  events : List Event
  result : Except Style.Fault (List Attribute)

/-- Maps entries in their order, up to the first fault. -/
def run (m : Mapper) (o : Settings) : List (String × Value) → Run
  | [] => ⟨[], [], .ok []⟩
  | (key, stored) :: r =>
    let first := m.step o key stored
    match first.result with
    | .error f => ⟨first.calls, first.events, .error f⟩
    | .ok made =>
      let others := m.run o r
      ⟨first.calls ++ others.calls, first.events ++ others.events,
        others.result.map (made.toList ++ ·)⟩

/-- The attributes of the own entries in their order, or the first fault. -/
def map (m : Mapper) (o : Settings) (p : PropertyMap) : Except Style.Fault (List Attribute) :=
  (m.run o p.entries).result

end Mapper

/-- The attributes of a map by the known vocabularies. -/
def PropertyMap.toAttributes (p : PropertyMap) (o : Settings) :
    Except Style.Fault (List Attribute) :=
  ({} : Mapper).map o p

end JsxAttributes
