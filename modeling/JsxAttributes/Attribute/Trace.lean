import JsxAttributes.Attribute.Mapper
import JsxAttributes.Json.Writer

/-!
The lines of the trace log, one for each thing noted. Names and transformed values are quoted,
what comes from a style text is not. Every line of a mapping carries the schema and the number of
entries that it maps.
-/
namespace JsxAttributes

namespace Trace

def quoteChar (c : Char) : List Char :=
  if c = '"' then ['\\', '"']
  else if c = '\\' then ['\\', '\\']
  else if c = '\n' then ['\\', 'n']
  else if c = '\r' then ['\\', 'r']
  else if c = '\t' then ['\\', 't']
  else [c]

def quote (text : String) : String :=
  String.ofList ('"' :: (text.toList.flatMap quoteChar ++ ['"']))

def field (name value : String) : String := " " ++ name ++ "=" ++ value

/-- What stands around each line of one mapping. -/
structure Span where
  schema : Schema
  count : Nat

def line (message : String) : String := "TRACE " ++ message

def Span.line (s : Span) (message : String) : String :=
  "TRACE map_properties: " ++ message ++ field "space" s.schema.name ++
    field "count" (toString s.count)

end Trace

open Trace

def Style.Event.message : Style.Event → String
  | .read d => "hast_jsx_style::parser: parsed declaration" ++ field "property" d.property ++
      field "value" d.value ++ field "line" (toString d.position.line)
  | .skippedEmpty property =>
    "hast_jsx_style::object: skipping empty declaration" ++ field "property" property
  | .droppedProto => "hast_jsx_style::object: dropping __proto__ declaration"

def Hooked.describe : Hooked → String
  | .absent => "None"
  | .text t => "Text(" ++ quote t ++ ")"
  | .expression e => "Expression(" ++ e.toJson.toText ++ ")"

def Event.message : Event → String
  | .respelled property spelling => "hast_jsx::mapper: using alternate spelling" ++
      field "property" (quote property) ++ field "alternate" (quote spelling)
  | .skipped key => "hast_jsx::mapper: skipping property" ++ field "key" (quote key)
  | .hooked name value => "hast_jsx::mapper: transformed value" ++ field "name" (quote name) ++
      field "transformed" value.describe
  | .style event => event.message
  | .expanded size => "hast_jsx::mapper: expanded style" ++ field "declarations" (toString size)

def Style.traceLines (events : List Style.Event) : List String :=
  events.map fun e => line e.message

def Mapper.traceLines (o : Settings) (p : PropertyMap) (r : Run) : List String :=
  r.events.map fun e => Span.line ⟨o.schema, p.size⟩ e.message

end JsxAttributes
