import StateActions.Log.Session
import StateActions.Validation.Results

namespace StateActions.Validation

open Log (Event Note)

inductive WorkerFailure
  | brokenDown
deriving DecidableEq, Repr, Inhabited

def WorkerFailure.message (_ : WorkerFailure) : String :=
  "Worker thread failed: worker panicked during validation"

def WorkerFailure.code (_ : WorkerFailure) : Log.Code := .workerFailure

-- The panic of a rule ends a worker, whose failure is reported. Without workers nothing stops it.
inductive Breakdown
  | worker (failure : WorkerFailure)
  | panic
deriving DecidableEq, Repr, Inhabited

structure Run where
  outcome : Except Breakdown Results
  notes : List Note

-- Checks entries in order up to the first with `stop`, that one included. Those checked so far are
-- `done`, the last one first.
def checkUntil (g : Grammar) (stop : Checked → Bool) (done : List Checked) :
    List Entry → List Checked
  | [] => done.reverse
  | e :: rest =>
    let c := Checked.ofEntry g e
    if stop c then (c :: done).reverse else checkUntil g stop (c :: done) rest

def chunksOf {α : Type} (size : Nat) (list : List α) : List (List α) :=
  (List.range ((list.length + size - 1) / size)).map fun i => (list.drop (i * size)).take size

def chunkSize (total threads : Nat) : Nat :=
  Limits.clamp Limits.chunkSize ((total + threads - 1) / threads)

def stopNote (key : String) (number : Nat) : Note :=
  { event := (Event.warning "Fail-fast mode enabled, stopping validation").withContext
      [(key, toString number)] }

def failureNote (path : String) (f : WorkerFailure) : Note :=
  { event := (Event.error f.code f.message).withContext [("file", path)] }

def entryProgress (index total line : Nat) : Note :=
  { event := (Event.info "Validating action").withContext
      [("index", toString index), ("of", toString total), ("line", toString line)] }

def roundProgress (round chunks : Nat) : Note :=
  { event := (Event.info "Validating chunk round").withContext
      [("round", toString round), ("chunks", toString chunks)] }

def sequential (g : Grammar) (b : Preferences.Batch) (path : String) (entries : List Entry) : Run :=
  let total := entries.length
  let checked := checkUntil g (fun c => c.parsed.crashed || (b.failFast && c.isFailed)) [] entries
  let notes := (checked.zipIdx 1).flatMap fun (c, index) =>
    (if b.progress then [entryProgress index total c.entry.line] else []) ++ c.notes path
  if checked.any (·.parsed.crashed) then
    ⟨.error .panic, notes⟩
  else
    let stopped := match checked.getLast? with
      | some c => if b.failFast && c.isFailed then [stopNote "line" c.entry.line] else []
      | none => []
    ⟨.ok (.ofChecked checked total 1), notes ++ stopped⟩

structure Rounds where
  checked : Except WorkerFailure (List Checked)
  notes : List Note

-- Rounds of chunks, counted from `round`. The chunks of a round are all completed.
def rounds (g : Grammar) (b : Preferences.Batch) (path : String) (round : Nat) :
    List (List (List Entry)) → Rounds
  | [] => ⟨.ok [], []⟩
  | chunks :: rest =>
    let checked := (chunks.map (checkUntil g (·.parsed.crashed) [])).flatten
    let notes := (if b.progress then [roundProgress round chunks.length] else []) ++
      checked.flatMap (·.notes path)
    if checked.any (·.parsed.crashed) then
      ⟨.error .brokenDown, notes ++ [failureNote path .brokenDown]⟩
    else if b.failFast && checked.any (·.isFailed) then
      ⟨.ok checked, notes ++ [stopNote "round" round]⟩
    else
      let more := rounds g b path (round + 1) rest
      ⟨more.checked.map (checked ++ ·), notes ++ more.notes⟩

def parallel (g : Grammar) (b : Preferences.Batch) (path : String) (entries : List Entry)
    (threads : Nat) : Run :=
  let size := chunkSize entries.length threads
  let chunks := chunksOf size entries
  let used := min threads chunks.length
  let setup : Note :=
    { event := (Event.debug "Parallel validation configuration").withContext
        [("total_actions", toString entries.length), ("chunk_size", toString size),
          ("threads", toString used)] }
  let all := rounds g b path 1 (chunksOf threads chunks)
  ⟨(all.checked.mapError .worker).map (.ofChecked · entries.length used), setup :: all.notes⟩

def run (g : Grammar) (b : Preferences.Batch) (path : String) (entries : List Entry) : Run :=
  if b.threads = 1 ∨ entries.length ≤ 1 then sequential g b path entries
  else parallel g b path entries b.threads

def startNote (b : Preferences.Batch) (path : String) (entries : List Entry) : Note :=
  { event := (Event.info "Starting action validation").withContext
      [("file", path), ("actions", toString entries.length), ("threads", toString b.threads)] }

def completionNote (path : String) (r : Results) (nanoseconds : Nat) : Note :=
  let duration := ("duration_ms", ActionFile.milliseconds nanoseconds)
  match r.firstFailure? with
  | none =>
    { event := (Event.success .validationCompleted "Action validation completed").withContext
        [("file", path), ("actions", toString r.processed), ("threads", toString r.threadsUsed),
          duration] }
  | some first =>
    { event := (Event.error .validationFailed "Action validation failed").withContext
        [("file", path), ("failed", toString r.failures.length),
          ("first_line", toString first.line), duration] }

def notes (b : Preferences.Batch) (path : String) (entries : List Entry) (r : Run)
    (nanoseconds : Nat) : List Note :=
  startNote b path entries :: r.notes ++
    match r.outcome with
    | .ok results => [completionNote path results nanoseconds]
    | .error _ => []

end StateActions.Validation
