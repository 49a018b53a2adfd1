import StateActions.Limits
import StateActions.Log.Event

namespace StateActions.Log

structure Buffer where
  floor : Level
  events : Array Event := #[]
deriving Repr, Inhabited

namespace Buffer

def admits (b : Buffer) (level : Level) : Bool := b.floor.admits level

def log (b : Buffer) (e : Event) : Buffer :=
  if !b.admits e.level then b
  else if b.events.size < Limits.bufferedEvents then { b with events := b.events.push e }
  else { b with events := (b.events.extract 1 b.events.size).push e }

def size (b : Buffer) : Nat := b.events.size

def isEmpty (b : Buffer) : Bool := b.events.isEmpty

def clear (b : Buffer) : Buffer := { b with events := #[] }

def codes (b : Buffer) : List Code := b.events.toList.map (·.code)

def errors (b : Buffer) : List Event := b.events.toList.filter (·.isError)

def hasError (b : Buffer) (code : Code) : Bool := b.events.any fun e => e.isError && e.code == code

end Buffer

end StateActions.Log
