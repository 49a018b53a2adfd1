import StateActions.Grammar.Error
import StateActions.Token.Stream

namespace StateActions

structure Cursor where
  stream : Stream
  maxDepth : Nat := Limits.parseDepth
  depth : Nat := 0
  contexts : List String := []
  suppressed : Nat := 0
  entered : List (String × Nat) := []
  crashed : Bool := false
deriving DecidableEq, Repr, Inhabited

-- A step of a parse. The state stays as it was reached, also after an error.
abbrev Parser (α : Type) := ExceptT ParseError (StateM Cursor) α

def Parser.runAt {α : Type} (p : Parser α) (c : Cursor) : Except ParseError α × Cursor :=
  (ExceptT.run p).run c

namespace Cursor

def start (stream : Stream) (maxDepth : Nat) : Cursor :=
  { stream, maxDepth := Limits.depth maxDepth }

def advance (c : Cursor) : Cursor := { c with stream := c.stream.advance }

def moveTo (c : Cursor) (n : Nat) : Cursor := { c with stream := c.stream.moveTo n }

-- The open constructs and the position are saved; the count of unremembered ones is not.
structure Checkpoint where
  position : Nat
  depth : Nat
  contexts : List String
deriving DecidableEq, Repr, Inhabited

def save (c : Cursor) : Checkpoint := ⟨c.stream.position, c.depth, c.contexts⟩

def restore (c : Cursor) (saved : Checkpoint) : Cursor :=
  { c with
    stream := c.stream.moveTo saved.position, depth := saved.depth, contexts := saved.contexts }

def context (c : Cursor) : String :=
  " -> ".intercalate c.contexts.reverse ++
    if c.suppressed > 0 then s!" -> ... ({c.suppressed} more)" else ""

def lookahead (c : Cursor) (count : Nat) : List Token :=
  (c.stream.lookahead (min count Limits.lookahead)).map (·.token)

def diagnostic (c : Cursor) : String :=
  c.stream.diagnostic ++ s!", depth {c.depth}/{c.maxDepth}, context [" ++ c.context ++ "]"

def opened (c : Cursor) (context : String) : Cursor :=
  let depth := c.depth + 1
  let c := { c with depth, entered := (context, depth) :: c.entered }
  if c.contexts.length < Limits.contextStack then { c with contexts := context :: c.contexts }
  else { c with suppressed := c.suppressed + 1 }

def closed (c : Cursor) : Cursor :=
  let c := { c with depth := c.depth - 1 }
  if c.suppressed > 0 then { c with suppressed := c.suppressed - 1 }
  else { c with contexts := c.contexts.tail }

def mismatch (c : Cursor) (expected : String) : ParseError :=
  .lexicalMismatch expected c.stream.current.describe c.stream.currentSpan

def structural (c : Cursor) (expected : String) : ParseError :=
  .structuralMismatch expected c.stream.current.describe c.stream.currentSpan

def missing (c : Cursor) (expected : String) (committed : Bool) : ParseError :=
  if committed then c.structural expected else c.mismatch expected

def tooDeep (c : Cursor) : ParseError :=
  .limitExceeded .nestingDepth (c.depth + 1) c.maxDepth c.stream.currentSpan

end Cursor

namespace Parser

def current : Parser Token := do return (← get).stream.current

def advance : Parser Unit := modify Cursor.advance

def fail {α : Type} (error : Cursor → ParseError) : Parser α := do throw (error (← get))

def expectToken (token : Token) (committed : Bool) : Parser Unit := do
  if (← current) = token then advance else fail (·.missing token.describe committed)

def expectIdentifier (expected : String) (committed : Bool) : Parser String := do
  match ← current with
  | .identifier name => advance; return name
  | _ => fail (·.missing expected committed)

def enter (context : String) : Parser Unit := do
  let c ← get
  if c.depth ≥ c.maxDepth then throw c.tooDeep else set (c.opened context)

def exit : Parser Unit := modify Cursor.closed

-- Runs a step inside a construct and closes the construct however the step ends.
def nested {α : Type} (context : String) (inner : Parser α) : Parser α := do
  enter context
  let outcome ← ExceptT.lift (ExceptT.run inner)
  exit
  liftExcept outcome

-- Runs a step and goes back if it fails or if its end is not wanted.
def attempt {α : Type} (p : Parser α) (wanted : Cursor → Bool) : Parser (Option α) := do
  let saved := (← get).stream
  match ← ExceptT.lift (ExceptT.run p) with
  | .ok a =>
    if wanted (← get) then return some a
    else modify ({ · with stream := saved }); return none
  | .error _ => modify ({ · with stream := saved }); return none

end Parser

end StateActions
