import StateActions.Limits
import StateActions.Log.Event

namespace StateActions.Log

-- Files are kept in the order of their paths, each once.
structure Collector where
  events : List (String × List Event) := []
  total : Nat := 0
  dropped : Nat := 0
deriving Repr, Inhabited

structure Summary where
  sources : Nat := 0
  sourcesWithErrors : Nat := 0
  errors : Nat := 0
  warnings : Nat := 0
  dropped : Nat := 0
deriving DecidableEq, Repr, Inhabited

def Summary.hasErrors (s : Summary) : Bool := s.errors > 0

namespace Collector

-- The parts of a path by which it is ordered and compared: a leading slash is a part of its own,
-- further slashes only divide, and a dot counts only at the front.
def components (path : String) : List String :=
  let parts := (path.toList.splitOn '/').map String.ofList
  let named := (parts.drop 1).filter (fun part => part != "" && part != ".")
  match parts with
  | "" :: _ :: _ => "/" :: named
  | "" :: _ => named
  | first :: _ => first :: named
  | [] => []

def samePath (p q : String) : Bool := components p == components q

-- Part by part; a root comes before a dot at the front, and a dot before any name.
def partRank (part : String) : Nat :=
  if part == "/" then 0 else if part == "." then 1 else if part == ".." then 2 else 3

def partBefore (p q : String) : Bool :=
  partRank p < partRank q || (partRank p == partRank q && p < q)

def pathBefore (p q : String) : Bool := go (components p) (components q)
where
  go : List String → List String → Bool
    | [], [] => false
    | [], _ :: _ => true
    | _ :: _, [] => false
    | a :: as, b :: bs => partBefore a b || (a == b && go as bs)

def eventsOf (c : Collector) (path : String) : List Event :=
  ((c.events.find? fun held => samePath held.1 path).map (·.2)).getD []

def errorsOf (c : Collector) (path : String) : List Event := (c.eventsOf path).filter (·.isError)

def insert (path : String) (event : Event) : List (String × List Event) → List (String × List Event)
  | [] => [(path, [event])]
  | (held, events) :: rest =>
    if samePath held path then (held, events ++ [event]) :: rest
    else if pathBefore path held then (path, [event]) :: (held, events) :: rest
    else (held, events) :: insert path event rest

def place (path : String) : List (String × List Event) → List (String × List Event)
  | [] => [(path, [])]
  | (held, events) :: rest =>
    if pathBefore path held then (path, []) :: (held, events) :: rest
    else (held, events) :: place path rest

def entered (path : String) (files : List (String × List Event)) : List (String × List Event) :=
  if files.any fun held => samePath held.1 path then files else place path files

-- Keeps an event or counts it as dropped. Where there is room for any event at all, the list of its
-- file is set up before it is looked at.
def record (c : Collector) (path : String) (event : Event) : Collector :=
  if c.total ≥ Limits.collectedEvents then { c with dropped := c.dropped + 1 }
  else if (c.eventsOf path).length ≥ Limits.eventsPerSource then
    { c with events := entered path c.events, dropped := c.dropped + 1 }
  else { c with events := insert path event c.events, total := c.total + 1 }

def clear (_ : Collector) : Collector := {}

def summary (c : Collector) : Summary :=
  { sources := c.events.length
    sourcesWithErrors := (c.events.filter fun held => held.2.any (·.isError)).length
    errors := (c.events.flatMap (·.2)).countP (·.isError)
    warnings := (c.events.flatMap (·.2)).countP (·.isWarning)
    dropped := c.dropped }

def location (path : String) (e : Event) : String :=
  match e.source, e.span with
  | some source, some span => " --> " ++ path ++ s!":{source.line}:{span.start.column}"
  | some source, none => " --> " ++ path ++ s!":{source.line}"
  | none, _ => ""

def eventText (path : String) (e : Event) : String :=
  let label := if e.isError then "error" else "warning"
  label ++ "[" ++ e.code.name ++ "]: " ++ e.message ++ location path e ++ "\n" ++
    (e.entry?.map fun entry =>
      "  = severity: " ++ entry.severity.name ++ ", category: " ++ entry.category ++
        "\n  = help: " ++ entry.advice ++ "\n").getD ""

def sourceText (path : String) (events : List Event) : String :=
  "Checking " ++ path ++ "...\n" ++
    String.join ((events.filter fun e => e.isError || e.isWarning).map (eventText path)) ++ "\n"

def report (c : Collector) : String :=
  let s := c.summary
  String.join (c.events.map fun held => sourceText held.1 held.2) ++
    (if s.errors > 0 then s!"Total errors: {s.errors}\n" else "") ++
    (if s.warnings > 0 then s!"Total warnings: {s.warnings}\n" else "") ++
    (if s.dropped > 0 then s!"Dropped events: {s.dropped}\n" else "")

end Collector

end StateActions.Log
