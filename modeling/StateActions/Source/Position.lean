namespace StateActions

-- The offset counts bytes; the line and the column, in characters, count from one.
structure Position where
  offset : Nat
  line : UInt32
  column : UInt32
deriving DecidableEq, Repr, Inhabited

namespace Position

def start : Position := ⟨0, 1, 1⟩

def ofCounts (offset lines characters : Nat) : Position :=
  ⟨offset, .ofNat lines + 1, .ofNat characters + 1⟩

def advance (p : Position) (c : Char) : Position :=
  if c = '\n' then ⟨p.offset + 1, p.line + 1, 1⟩
  else ⟨p.offset + c.utf8Size, p.line, p.column + 1⟩

def advanceList (p : Position) (text : List Char) : Position := text.foldl advance p

def advanceText (p : Position) (text : String) : Position := p.advanceList text.toList

-- With overflow checks no number comes after the largest.
def successor? (n : UInt32) : Option UInt32 :=
  if n.toNat + 1 < UInt32.size then some (n + 1) else none

def ofCounts? (offset lines characters : Nat) : Option Position := do
  return ⟨offset, ← successor? (.ofNat lines), ← successor? (.ofNat characters)⟩

def advance? (p : Position) (c : Char) : Option Position :=
  if c = '\n' then (successor? p.line).map fun line => ⟨p.offset + 1, line, 1⟩
  else (successor? p.column).map fun column => ⟨p.offset + c.utf8Size, p.line, column⟩

def advanceList? (p : Position) (text : List Char) : Option Position := text.foldlM advance? p

def advanceText? (p : Position) (text : String) : Option Position := p.advanceList? text.toList

@[simp] theorem advanceList_nil (p : Position) : p.advanceList [] = p := rfl

@[simp] theorem advanceList_cons (p : Position) (c : Char) (rest : List Char) :
    p.advanceList (c :: rest) = (p.advance c).advanceList rest := rfl

@[simp] theorem advanceList_append (p : Position) (left right : List Char) :
    p.advanceList (left ++ right) = (p.advanceList left).advanceList right :=
  List.foldl_append

def before (p q : Position) : Bool :=
  p.offset < q.offset ||
    (p.offset == q.offset && (p.line < q.line || (p.line == q.line && p.column < q.column)))

def earlier (p q : Position) : Position := if q.before p then q else p

def later (p q : Position) : Position := if q.before p then p else q

def text (p : Position) : String := s!"{p.line}:{p.column}"

end Position

structure Span where
  start : Position
  stop : Position
deriving DecidableEq, Repr, Inhabited

namespace Span

def point (p : Position) : Span := ⟨p, p⟩

def merge (s t : Span) : Span := ⟨s.start.earlier t.start, s.stop.later t.stop⟩

def isEmpty (s : Span) : Bool := s.start.offset == s.stop.offset

end Span

end StateActions
