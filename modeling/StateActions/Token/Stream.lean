import StateActions.Token.Lexer

namespace StateActions

structure Stream where
  passed : List PlacedToken
  ahead : List PlacedToken
  endSpan : Span
deriving DecidableEq, Repr, Inhabited

namespace Stream

def closed (tokens : List PlacedToken) : List PlacedToken :=
  match tokens.getLast? with
  | none => [⟨.eof, .point .start⟩]
  | some last => if last.token.isEof then tokens else tokens ++ [⟨.eof, .point last.span.stop⟩]

def ofTokens (tokens : List PlacedToken) : Stream :=
  let all := closed tokens
  ⟨[], all.filter (·.token.isSignificant), ((all.getLast?).map (·.span)).getD (.point .start)⟩

def ofPieces (pieces : List (Token × String)) : Stream :=
  let place := fun (found : List PlacedToken × Position) (piece : Token × String) =>
    let stop := found.2.advanceText piece.2
    (⟨piece.1, ⟨found.2, stop⟩⟩ :: found.1, stop)
  ofTokens (pieces.foldl place ([], .start)).1.reverse

def all (s : Stream) : List PlacedToken := s.passed.reverse ++ s.ahead

def position (s : Stream) : Nat := s.passed.length

def size (s : Stream) : Nat := s.passed.length + s.ahead.length

def isEmpty (s : Stream) : Bool := s.size ≤ 1

def peek? (s : Stream) (n : Nat) : Option PlacedToken := s.ahead[n]?

def peek (s : Stream) (n : Nat) : Token := ((s.peek? n).map (·.token)).getD .eof

def current? (s : Stream) : Option PlacedToken := s.ahead.head?

def current (s : Stream) : Token := ((s.current?).map (·.token)).getD .eof

def currentSpan (s : Stream) : Span := ((s.current?).map (·.span)).getD s.endSpan

def atEnd (s : Stream) : Bool := s.current.isEof

def advance (s : Stream) : Stream :=
  match s.ahead with
  | [] => s
  | t :: rest => if t.token.isEof then s else { s with passed := t :: s.passed, ahead := rest }

def consumeIf (s : Stream) (p : Token → Bool) : Option PlacedToken × Stream :=
  if p s.current && !s.atEnd then (s.current?, s.advance) else (none, s)

-- Moves to the `n`-th significant token, or to the last one if there are fewer.
def moveTo (s : Stream) (n : Nat) : Stream :=
  let tokens := s.all
  let n := min n (tokens.length - 1)
  { s with passed := (tokens.take n).reverse, ahead := tokens.drop n }

def previousSpan (s : Stream) : Span :=
  match s.passed with
  | [] => .point s.currentSpan.start
  | t :: _ => t.span

-- From the `n`-th token to the last one passed, or the start of the `n`-th if it is not passed yet.
def spanFrom (s : Stream) (n : Nat) : Span :=
  let first := ((s.all[n]?).map (·.span)).getD s.endSpan
  if s.position > n then first.merge s.previousSpan else .point first.start

def remaining (s : Stream) : Nat := s.size - s.position - 1

def lookahead (s : Stream) (count : Nat) : List PlacedToken := s.ahead.take count

def diagnostic (s : Stream) : String :=
  let next := ", ".intercalate ((s.lookahead 3).map (·.token.describe))
  s!"position {s.position}/{s.size} at offset {s.currentSpan.start.offset}, next: [{next}]"

@[simp] theorem all_advance (s : Stream) : s.advance.all = s.all := by
  unfold advance
  split
  · rfl
  · next t rest ahead =>
    split
    · rfl
    · simp [all, ahead]

@[simp] theorem all_moveTo (s : Stream) (n : Nat) : (s.moveTo n).all = s.all := by
  simp [moveTo, all]

end Stream

end StateActions
