import StateActions.Source.Position
import StateActions.Text.Basic

namespace StateActions

structure LineTable where
  source : List Char
  starts : List Nat

namespace LineTable

open Text

def feeds (offset : Nat) : List Char → List Nat → List Nat
  | [], found => found.reverse
  | c :: rest, found =>
    let next := offset + c.utf8Size
    feeds next rest (if c = '\n' then next :: found else found)

def ofList (source : List Char) : LineTable := ⟨source, 0 :: feeds 0 source []⟩

def ofText (source : String) : LineTable := ofList source.toList

-- An offset past the end means the end, and one inside a character means its start. The index of
-- the line is told with how many characters stand before the place on it.
def located (table : LineTable) (offset : Nat) : Nat × Nat × Nat :=
  let head := takeBytes offset table.source
  let reached := byteLength head
  let index := (table.starts.takeWhile (· ≤ reached)).length - 1
  (reached, index, (dropBytes (table.starts.getD index 0) head).length)

def positionAt (table : LineTable) (offset : Nat) : Position :=
  let (reached, index, count) := table.located offset
  .ofCounts reached index count

def positionAt? (table : LineTable) (offset : Nat) : Option Position :=
  let (reached, index, count) := table.located offset
  Position.ofCounts? reached index count

def lineText? (table : LineTable) (line : Nat) : Option (List Char) :=
  match line with
  | 0 => none
  | index + 1 => (table.starts[index]?).map fun start =>
    let stop := (table.starts[index + 1]?).elim (byteLength table.source) (· - 1)
    ((dropBytes start (takeBytes stop table.source)).reverse.dropWhile (· == '\r')).reverse

def caretCount (span : Span) (text : List Char) : Nat :=
  max 1 (if span.start.line = span.stop.line then
      span.stop.column.toNat - span.start.column.toNat
    else text.length - (span.start.column.toNat - 1))

def excerpt (table : LineTable) (span : Span) (message : String) : String :=
  let head := "error: " ++ message ++ "\n  --> " ++ span.start.text ++ "\n"
  match table.lineText? span.start.line.toNat with
  | none => head
  | some text =>
    let gutter := toString span.start.line
    let blank := "".pushn ' ' gutter.length
    head ++ blank ++ " |\n" ++ gutter ++ " | " ++ String.ofList text ++ "\n" ++
      blank ++ " | " ++ "".pushn ' ' (span.start.column.toNat - 1) ++
      "".pushn '^' (caretCount span text) ++ "\n"

end LineTable

end StateActions
