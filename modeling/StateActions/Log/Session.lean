import StateActions.Log.Collector
import StateActions.Preferences
import StateActions.Text.Basic

namespace StateActions.Log

structure Stamp where
  preferences : Preferences.Logging := {}
  context : Option Origin := none
deriving DecidableEq, Repr, Inhabited

namespace Stamp

-- Clips the message, and marks the event if it is about an action and marking is wanted. The mark
-- replaces one that the event has.
def apply (s : Stamp) (e : Event) : Event :=
  let e := { e with message := Text.clip Limits.messageLength e.message }
  match s.context with
  | some origin => if s.preferences.sourceContext then e.withSource origin else e
  | none => e

def collect (s : Stamp) (c : Collector) (e : Event) : Collector :=
  match s.context with
  | some origin => if e.isError || e.isWarning then c.record origin.path e else c
  | none => c

end Stamp

structure Note where
  origin : Option Origin := none
  event : Event
deriving DecidableEq, Repr, Inhabited

structure Session where
  preferences : Preferences.Logging := {}
  sink : Option Level := none
  context : Option Origin := none
  collector : Collector := {}
  -- What reached the sink, the last event first.
  delivered : List Event := []
deriving Repr, Inhabited

namespace Session

def stamp (s : Session) : Stamp := ⟨s.preferences, s.context⟩

def isStarted (s : Session) : Bool := s.sink.isSome

def deliver (s : Session) (e : Event) : Session :=
  if s.sink.any (·.admits e.level) then { s with delivered := e :: s.delivered } else s

-- There is nothing to collect into before logging is started.
def dispatch (s : Session) (e : Event) : Session :=
  let e := s.stamp.apply e
  { s with
    collector := if s.isStarted then s.stamp.collect s.collector e else s.collector }.deliver e

def dispatchAll (s : Session) (events : List Event) : Session := events.foldl dispatch s

def setContext (s : Session) (origin : Origin) : Session := { s with context := some origin }

def clearContext (s : Session) : Session := { s with context := none }

def within {α : Type} (s : Session) (origin : Origin) (part : Session → α × Session) :
    α × Session :=
  let (a, after) := part (s.setContext origin)
  (a, { after with context := s.context })

def note (s : Session) (n : Note) : Session :=
  match n.origin with
  | some origin => (s.within origin fun s => ((), s.dispatch n.event)).2
  | none => s.dispatch n.event

def noteAll (s : Session) (notes : List Note) : Session := notes.foldl note s

def debugEnabled (s : Session) : Bool := s.sink.any (·.admits .debug)

-- Logs an error as it is, without clipping, marking or collecting. Without a sink the line to show
-- instead is given.
def safeError (s : Session) (code : Code) (message : String) : Option String × Session :=
  if s.isStarted then (none, s.deliver (Event.error code message))
  else (some ("[ERROR] FALLBACK: [" ++ code.name ++ "] " ++ message), s)

def configProblem? (s : Session) : Option String :=
  if Limits.bufferedEvents < 100 ∨ Limits.bufferedEvents > 100000 then
    some s!"Log buffer size out of range: {Limits.bufferedEvents}"
  else if Limits.eventsPerSource > Limits.collectedEvents then
    some "Max log events per source exceeds total error collection"
  else s.preferences.problem?

def start (s : Session) (level : Level) : Except String Session :=
  match s.configProblem? with
  | some problem => .error ("Configuration validation failed: " ++ problem)
  | none =>
    if s.isStarted then .error "Global logger already initialized"
    else .ok ({ s with sink := some level }.deliver
      (Event.success .loggingReady "Global logging system initialized"))

def preferencesProblem (preferences : Preferences.Logging) : String :=
  preferences.problem?.getD "Runtime preferences already initialized"

def diagnostics (s : Session) : String :=
  let summary := s.collector.summary
  "=== Logging System Diagnostics ===\n" ++ s!"Initialized: {s.isStarted}\n" ++
    s!"Sources with events: {summary.sources}\n" ++ s!"Total errors: {summary.errors}\n" ++
    s!"Total warnings: {summary.warnings}\n\n" ++ s.preferences.summary

end Session

end StateActions.Log
