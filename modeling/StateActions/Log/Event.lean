import StateActions.Log.Code
import StateActions.Source.Position

namespace StateActions.Log

inductive Level
  | error
  | warning
  | info
  | debug
deriving DecidableEq, Repr, Inhabited

namespace Level

def number : Level → Nat
  | .error => 0
  | .warning => 1
  | .info => 2
  | .debug => 3

def name : Level → String
  | .error => "ERROR"
  | .warning => "WARN"
  | .info => "INFO"
  | .debug => "DEBUG"

def admits (floor level : Level) : Bool := level.number ≤ floor.number

-- A level by its name in any ASCII case, by `warn`, or by its number.
def ofText? (text : String) : Option Level :=
  match text.map Char.toLower with
  | "error" | "0" => some .error
  | "warning" | "warn" | "1" => some .warning
  | "info" | "2" => some .info
  | "debug" | "3" => some .debug
  | _ => none

def unknown (text : String) : String := "unknown log level '" ++ text ++ "'"

theorem ofText?_name (l : Level) : ofText? l.name = some l := by cases l <;> decide +kernel

end Level

structure Origin where
  path : String
  line : Nat
deriving DecidableEq, Repr, Inhabited

structure Event where
  level : Level
  code : Code
  message : String
  span : Option Span := none
  source : Option Origin := none
  context : List (String × String) := []
deriving DecidableEq, Repr, Inhabited

namespace Event

def error (code : Code) (message : String) : Event := { level := .error, code, message }

def warning (message : String) : Event := { level := .warning, code := .warning, message }

def info (message : String) : Event := { level := .info, code := .info, message }

def success (code : Code) (message : String) : Event := { level := .info, code, message }

def debug (message : String) : Event := { level := .debug, code := .debug, message }

def withSpan (e : Event) (span : Span) : Event := { e with span := some span }

def withSource (e : Event) (source : Origin) : Event := { e with source := some source }

-- Strings are compared by code point, which is also their order as bytes.
def insertKey (key value : String) : List (String × String) → List (String × String)
  | [] => [(key, value)]
  | (k, v) :: rest =>
    if key < k then (key, value) :: (k, v) :: rest
    else if key = k then (key, value) :: rest
    else (k, v) :: insertKey key value rest

def addContext (e : Event) (key value : String) : Event :=
  { e with context := insertKey key value e.context }

def withContext (e : Event) (pairs : List (String × String)) : Event :=
  pairs.foldl (fun e pair => e.addContext pair.1 pair.2) e

def isError (e : Event) : Bool := e.level == .error

def isWarning (e : Event) : Bool := e.level == .warning

def isInfo (e : Event) : Bool := e.level == .info

def isDebug (e : Event) : Bool := e.level == .debug

-- The registry's entry of an error. Other events have none, whatever their code.
def entry? (e : Event) : Option Entry := if e.isError then e.code.entry? else none

def requiresHalt (e : Event) : Bool := (e.entry?.map (·.requiresHalt)).getD false

end Event

end StateActions.Log
