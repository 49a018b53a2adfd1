import StateActions.Action.Printer
import StateActions.ActionFile.Basic
import StateActions.Grammar.Basic
import StateActions.Log.Session

namespace StateActions

structure Checked where
  entry : Entry
  parsed : Parsed

structure Valid where
  line : Nat
  text : String
  action : Action

structure Failed where
  line : Nat
  text : String
  error : ParseError

namespace Checked

def ofEntry (g : Grammar) (e : Entry) : Checked := ⟨e, g.parse e.text⟩

def valid? (c : Checked) : Option Valid :=
  match c.parsed.result with
  | .ok action => some ⟨c.entry.line, c.entry.text, action⟩
  | .error _ => none

def failed? (c : Checked) : Option Failed :=
  match c.parsed.result with
  | .ok _ => none
  | .error e => some ⟨c.entry.line, c.entry.text, e⟩

def isFailed (c : Checked) : Bool := c.failed?.isSome

def notes (path : String) (c : Checked) : List Log.Note :=
  c.parsed.events.map fun event => { origin := some ⟨path, c.entry.line⟩, event }

end Checked

def Failed.report (path : String) (f : Failed) : String :=
  path ++ s!":{f.line}: " ++ f.error.message ++ "\n" ++ f.error.report f.text

structure Results where
  successes : List Valid
  failures : List Failed
  total : Nat
  threadsUsed : Nat

namespace Results

def ofChecked (checked : List Checked) (total threadsUsed : Nat) : Results :=
  ⟨checked.filterMap (·.valid?), checked.filterMap (·.failed?), total, threadsUsed⟩

def processed (r : Results) : Nat := r.successes.length + r.failures.length

def isSuccess (r : Results) : Bool := r.failures.isEmpty && r.processed == r.total

def firstFailure? (r : Results) : Option Failed := r.failures.head?

-- The part of the processed entries that are actions; zero if there are none.
def successRate (r : Results) : Binary64 :=
  (Binary64.ofNat r.successes.length).div (.ofNat r.processed)

def summary (r : Results) (nanoseconds : Nat) : String :=
  s!"Validated {r.processed} of {r.total} actions: {r.successes.length} parsed (" ++
    (r.successRate.mul (.ofNat 100)).fixed 1 ++
    s!"%), {r.failures.length} failed, {r.threadsUsed} thread(s), " ++
    (Binary64.ofNanoseconds nanoseconds).fixed 2 ++ "s"

end Results

end StateActions
