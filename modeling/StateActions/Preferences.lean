import StateActions.Limits
import StateActions.Log.Event

namespace StateActions

namespace Preferences

structure Lexical where
  detailedMetrics : Bool := true
  tokenStatistics : Bool := false
deriving DecidableEq, Repr, Inhabited

structure Parser where
  maxDepth : Nat := Limits.parseDepth
  parseEvents : Bool := true
  sourceSnippet : Bool := true
deriving DecidableEq, Repr, Inhabited

def Parser.depth (p : Parser) : Nat := Limits.depth p.maxDepth

structure Batch where
  maxThreads : Nat := 1
  failFast : Bool := false
  progress : Bool := false
deriving DecidableEq, Repr, Inhabited

def Batch.threads (b : Batch) : Nat := Limits.threads b.maxThreads

structure Logging where
  structured : Bool := false
  console : Bool := false
  minLevel : Log.Level := .info
  sourceContext : Bool := true
deriving DecidableEq, Repr, Inhabited

namespace Logging

-- A filter may not hide warnings.
def problem? (l : Logging) : Option String :=
  if Limits.securityLevel ≥ 1 && l.minLevel.number < Log.Level.warning.number then
    some ("Minimum log level " ++ l.minLevel.name ++
      s!" is below the security floor (level {Limits.securityLevel})")
  else none

def summary (l : Logging) : String :=
  "\n".intercalate
    ["Logging Configuration:",
      "=== Compile-time Limits ===",
      s!"- Log buffer size: {Limits.bufferedEvents}",
      s!"- Max events per source: {Limits.eventsPerSource}",
      s!"- Max collected events: {Limits.collectedEvents}",
      s!"- Max message length: {Limits.messageLength}",
      s!"- Security min level: {Limits.securityLevel}",
      "=== Runtime Preferences ===",
      "- Min log level: " ++ l.minLevel.name,
      s!"- Structured logging: {l.structured}",
      s!"- Console logging: {l.console}",
      s!"- Include source context: {l.sourceContext}"]

end Logging

end Preferences

structure Preferences where
  lexical : Preferences.Lexical := {}
  parser : Preferences.Parser := {}
  batch : Preferences.Batch := {}
  logging : Preferences.Logging := {}
deriving DecidableEq, Repr, Inhabited

end StateActions
