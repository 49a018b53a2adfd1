import StateActions.Proofs.Log.Session

namespace StateActions.Log

-- A program that dispatches events one after the other, some of them inside blocks. A block may
-- have further blocks inside.
inductive Program
  | done
  | dispatch (event : Event) (rest : Program)
  | block (origin : Origin) (body rest : Program)

namespace Program

def run : Program → Session → Session
  | done, s => s
  | dispatch event rest, s => rest.run (s.dispatch event)
  | block origin body rest, s => rest.run (s.within origin fun inner => ((), body.run inner)).2

-- The events in the order of their dispatch, each with the blocks around it, the outermost first.
-- This only reads the program: no context is kept or brought back.
def dispatched : Program → List (List Origin × Event)
  | done => []
  | dispatch event rest => ([], event) :: rest.dispatched
  | block origin body rest =>
    body.dispatched.map (fun found => (origin :: found.1, found.2)) ++ rest.dispatched

end Program

def innermost (outside : Option Origin) (blocks : List Origin) : Option Origin :=
  blocks.getLast?.or outside

def Event.marked (e : Event) (context : Option Origin) : Event :=
  { e with
    message := Text.clip Limits.messageLength e.message
    source := context.or e.source }

def Event.offer? (e : Event) (context : Option Origin) : Option (String × Event) :=
  if e.isError || e.isWarning then context.map fun origin => (origin.path, e.marked context)
  else none

def Session.admits (s : Session) (e : Event) : Bool := s.sink.any (·.admits e.level)

theorem Session.admits_of_debug {s : Session} (low : s.sink = some .debug) (e : Event) :
    s.admits e = true := by
  rw [Session.admits, low]
  cases e.level <;> rfl

theorem innermost_cons (outside : Option Origin) (origin : Origin) (blocks : List Origin) :
    innermost outside (origin :: blocks) = innermost (some origin) blocks := by
  cases blocks <;> simp [innermost, List.getLast?_cons]

structure Session.Sends (s : Session) (events : List (Option Origin × Event)) (after : Session) :
    Prop where
  context : after.context = s.context
  preferences : after.preferences = s.preferences
  sink : after.sink = s.sink
  delivered : after.delivered.reverse =
    s.delivered.reverse ++ (events.map fun found => found.2.marked found.1).filter s.admits
  collector : after.collector =
    s.recordAll (events.filterMap fun found => found.2.offer? found.1)

namespace Session

variable {s middle after : Session} {first later : List (Option Origin × Event)}

theorem sends_nil (s : Session) : s.Sends [] s := by
  constructor <;> simp [recordAll_nil]

theorem Sends.append (here : s.Sends first middle) (there : middle.Sends later after) :
    s.Sends (first ++ later) after := by
  have admits : middle.admits = s.admits := by
    funext e
    rw [Session.admits, Session.admits, here.sink]
  constructor
  · exact there.context.trans here.context
  · exact there.preferences.trans here.preferences
  · exact there.sink.trans here.sink
  · rw [there.delivered, here.delivered, admits]
    simp
  · rw [there.collector, recordAll_append here.sink here.collector, List.filterMap_append]

-- The events of a block have their own contexts, so the one that comes back changes nothing of
-- them.
theorem Sends.within {origin : Origin} {part : Session → Unit × Session}
    (inside : (s.setContext origin).Sends first (part (s.setContext origin)).2) :
    s.Sends first (s.within origin part).2 :=
  ⟨rfl, inside.preferences, inside.sink, inside.delivered, inside.collector⟩

theorem apply_stamp (marking : s.preferences.sourceContext = true) (e : Event) :
    s.stamp.apply e = e.marked s.context := by
  unfold stamp Stamp.apply Event.marked
  cases context : s.context with
  | none => rfl
  | some origin =>
    simp only [marking, if_true]
    rfl

theorem collect_stamp (marking : s.preferences.sourceContext = true) (e : Event) :
    s.stamp.collect s.collector (s.stamp.apply e) =
      s.collector.recordAll (e.offer? s.context).toList := by
  rw [apply_stamp marking]
  unfold stamp Stamp.collect Event.offer?
  have level : (e.marked s.context).isError = e.isError ∧
    (e.marked s.context).isWarning = e.isWarning := ⟨rfl, rfl⟩
  rw [level.1, level.2]
  cases s.context with
  | none => cases e.isError || e.isWarning <;> rfl
  | some origin => cases e.isError || e.isWarning <;> rfl

theorem delivered_deliver (e : Event) :
    (s.deliver e).delivered.reverse = s.delivered.reverse ++ [e].filter s.admits := by
  have same : (s.deliver e).delivered =
      if s.admits e = true then e :: s.delivered else s.delivered := by
    unfold deliver admits
    split <;> rfl
  rw [same]
  by_cases admitted : s.admits e = true
  · simp [admitted]
  · simp [admitted]

theorem sends_dispatch (marking : s.preferences.sourceContext = true) (e : Event) :
    s.Sends [(s.context, e)] (s.dispatch e) := by
  constructor
  · simp [dispatch]
  · simp [dispatch]
  · simp [dispatch]
  · rw [dispatch, delivered_deliver, apply_stamp marking]
    rfl
  · have single : [(s.context, e)].filterMap (fun found => found.2.offer? found.1) =
        (e.offer? s.context).toList := by
      cases offer : e.offer? s.context <;> simp [offer]
    rw [dispatch, collector_deliver, collect_stamp marking, single]
    rfl

end Session

namespace Program

def situated (p : Program) (outside : Option Origin) : List (Option Origin × Event) :=
  p.dispatched.map fun found => (innermost outside found.1, found.2)

theorem situated_block (origin : Origin) (body rest : Program) (outside : Option Origin) :
    (block origin body rest).situated outside =
      body.situated (some origin) ++ rest.situated outside := by
  simp [situated, dispatched, innermost_cons]

-- The induction is on the program, for every session: the body of a block is run under another
-- context than the block itself.
theorem sends_run (p : Program) {s : Session} (marking : s.preferences.sourceContext = true) :
    s.Sends (p.situated s.context) (p.run s) := by
  induction p generalizing s with
  | done => exact Session.sends_nil s
  | dispatch event rest ih =>
    have here := Session.sends_dispatch marking event
    have there := ih (s := s.dispatch event) (by rw [here.preferences]; exact marking)
    rw [here.context] at there
    exact here.append there
  | block origin body rest inner ih =>
    have inside : (s.setContext origin).Sends (body.situated (some origin))
        (body.run (s.setContext origin)) := inner marking
    have here : s.Sends (body.situated (some origin))
        (s.within origin fun within => ((), body.run within)).2 := inside.within
    have there := ih (s := (s.within origin fun within => ((), body.run within)).2)
      (by rw [here.preferences]; exact marking)
    rw [here.context] at there
    rw [situated_block]
    exact here.append there

-- Every event of a program goes on to the sink with the mark of the innermost block around it, or
-- of the context that the program was started in; where there is neither, its own mark stays. Only
-- the level of the sink holds events back, and the lowest level none. The errors and warnings that
-- have a context, and no other events, are offered to the collector under the path of that context,
-- in the order of their dispatch, once there is one. At the end the context is the one from the
-- start.
theorem run_nests (p : Program) (s : Session) (marking : s.preferences.sourceContext = true) :
    let events := p.dispatched.map fun found => (innermost s.context found.1, found.2)
    (p.run s).delivered.reverse =
      s.delivered.reverse ++ (events.map fun found => found.2.marked found.1).filter s.admits ∧
    (s.sink = some .debug → (p.run s).delivered.reverse =
      s.delivered.reverse ++ events.map fun found => found.2.marked found.1) ∧
    (p.run s).collector =
      s.recordAll (events.filterMap fun found => found.2.offer? found.1) ∧
    (p.run s).context = s.context := by
  intro events
  have sends : s.Sends events (p.run s) := sends_run p marking
  refine ⟨sends.delivered, ?_, sends.collector, sends.context⟩
  intro low
  rw [sends.delivered, List.filter_eq_self.mpr fun e _ => Session.admits_of_debug low e]

theorem run_nests_two_blocks :
    let s : Session := { sink := some .debug, context := some ⟨"start", 3⟩ }
    let p : Program :=
      block ⟨"outer", 1⟩ (block ⟨"inner", 9⟩ (dispatch (.error .lexicalMismatch "a") done)
        (dispatch (.warning "b") done))
        (dispatch ((Event.info "c").withSource ⟨"own", 5⟩) done)
    (p.run s).delivered.reverse.map (·.source) =
        [some ⟨"inner", 9⟩, some ⟨"outer", 1⟩, some ⟨"start", 3⟩] ∧
      (p.run s).collector = ({} : Collector).recordAll
        [("inner", (Event.error .lexicalMismatch "a").withSource ⟨"inner", 9⟩),
          ("outer", (Event.warning "b").withSource ⟨"outer", 1⟩)] ∧
      (p.run s).context = some ⟨"start", 3⟩ := by
  intro s p
  obtain ⟨-, delivered, collected, context⟩ := run_nests p s rfl
  refine ⟨?_, ?_, context⟩
  · rw [delivered rfl]
    rfl
  · rw [collected]
    congr 1

end Program

end StateActions.Log
