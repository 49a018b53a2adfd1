import StateActions.Json.Basic
import StateActions.Log.Event
import StateActions.Number.Timestamp
import StateActions.Preferences

namespace StateActions.Log

def Origin.text (o : Origin) : String := o.path ++ ":" ++ toString o.line

namespace Event

-- `[LEVEL] CODE - message at position N [path:line]`.
def line (e : Event) : String :=
  "[" ++ e.level.name ++ "] " ++ e.code.name ++ " - " ++ e.message ++
    (e.span.map fun s => s!" at position {s.start.offset}").getD "" ++
    (e.source.map fun s => " [" ++ s.text ++ "]").getD ""

def entryLines (entry : Entry) : String :=
  s!"\n  Recoverable: {entry.isRecoverable}\n  Requires halt: {entry.requiresHalt}" ++
    "\n  Description: " ++ entry.description ++ "\n  Recommended action: " ++ entry.advice

def contextLines (context : List (String × String)) : String :=
  if context.isEmpty then ""
  else "\n  Context:" ++
    String.join (context.map fun pair => "\n    " ++ pair.1 ++ ": " ++ pair.2)

def detailed (e : Event) : String :=
  e.line ++ "\n  Category: " ++ e.code.category ++ "\n  Severity: " ++ e.code.severity.name ++
    (e.entry?.map entryLines).getD "" ++ contextLines e.context

def spanJson (s : Span) : Json :=
  .object [("start_offset", .nat s.start.offset), ("end_offset", .nat s.stop.offset),
    ("line", .nat s.start.line.toNat), ("column", .nat s.start.column.toNat)]

def sourceJson (o : Origin) : Json :=
  .object [("origin", .string o.path), ("line", .nat o.line)]

def entryJson (entry : Entry) : Json :=
  .object [("recoverable", .bool entry.isRecoverable), ("requires_halt", .bool entry.requiresHalt),
    ("description", .string entry.description), ("recommended_action", .string entry.advice)]

def toJson (e : Event) (time : Timestamp) : Json :=
  .object (
    [("timestamp", .string time.text), ("level", .string e.level.name),
      ("code", .string e.code.name), ("message", .string e.message),
      ("category", .string e.code.category), ("severity", .string e.code.severity.name)] ++
    (e.entry?.map fun entry => ("error_metadata", entryJson entry)).toList ++
    (e.span.map fun span => ("span", spanJson span)).toList ++
    (e.source.map fun source => ("source", sourceJson source)).toList ++
    if e.context.isEmpty then []
    else [("context", .object (e.context.map fun pair => (pair.1, .string pair.2)))])

end Event

inductive Channel
  | out
  | err
deriving DecidableEq, Repr, Inhabited

structure Output where
  channel : Channel
  line : String
deriving DecidableEq, Repr, Inhabited

def Event.output? (e : Event) (p : Preferences.Logging) (time : Timestamp) : Option Output :=
  if p.console then
    if p.structured then some ⟨.err, (e.toJson time).compact⟩
    else some ⟨if e.isError then .err else .out, e.line⟩
  else if e.requiresHalt then some ⟨.err, e.line⟩
  else none

end StateActions.Log
