import StateActions.Proofs.Log.Session
import StateActions.Proofs.Validation.Agreement

namespace StateActions

-- Threads make their calls in their own order; whose turn it is, is open at every step.
inductive Interleaves {α : Type} : List (List α) → List α → Prop
  | done {threads : List (List α)} (idle : ∀ thread ∈ threads, thread = []) :
    Interleaves threads []
  | step {before after : List (List α)} {call : α} {rest calls : List α}
    (later : Interleaves (before ++ rest :: after) calls) :
    Interleaves (before ++ (call :: rest) :: after) (call :: calls)

theorem Interleaves.perm {α : Type} {threads : List (List α)} {calls : List α}
    (order : Interleaves threads calls) : calls.Perm threads.flatten := by
  induction order with
  | done idle => rw [List.flatten_eq_nil_iff.mpr idle]
  | @step before after call rest calls _ ih =>
    rw [List.flatten_append, List.flatten_cons] at ih ⊢
    exact (ih.cons call).trans List.perm_middle.symm

theorem interleaves_flatten {α : Type} (threads : List (List α)) :
    Interleaves threads threads.flatten := by
  suffices behind : ∀ idle : List (List α), (∀ thread ∈ idle, thread = []) →
      Interleaves (idle ++ threads) threads.flatten from behind [] (List.forall_mem_nil _)
  induction threads with
  | nil =>
    intro idle through
    exact .done (by simpa using through)
  | cons thread rest ih =>
    intro idle through
    induction thread with
    | nil =>
      have next := ih (idle ++ [[]])
        (List.forall_mem_append.mpr ⟨through, List.forall_mem_singleton.mpr rfl⟩)
      rwa [List.append_assoc] at next
    | cons call more ih' => exact .step ih'

namespace Validation

open Log (Event Note)

variable {g : Grammar} {entries : List Entry} {b : Preferences.Batch} {path : String}
  {preferences : Preferences.Logging}

def entryCalls (preferences : Preferences.Logging) (g : Grammar) (path : String) (e : Entry) :
    List (String × Event) :=
  Log.calls preferences ((Checked.ofEntry g e).notes path)

def workerCalls (preferences : Preferences.Logging) (g : Grammar) (b : Preferences.Batch)
    (path : String) (entries : List Entry) : List (List (String × Event)) :=
  (chunksOf (chunkSize entries.length b.threads) entries).map fun chunk =>
    Log.calls preferences ((checkUntil g (·.parsed.crashed) [] chunk).flatMap (·.notes path))

def gist (call : String × Event) : String × Log.Level := (call.1, call.2.level)

theorem gist_calls (c : Checked) :
    (Log.calls preferences (c.notes path)).map gist =
      (Grammar.severeLevels c.parsed.events).map (path, ·) := by
  unfold Checked.notes
  induction c.parsed.events with
  | nil => rfl
  | cons event rest ih =>
    have level : (Log.Stamp.apply ⟨preferences, some ⟨path, c.entry.line⟩⟩ event).level =
        event.level := Log.Stamp.level_apply _ _
    rw [List.map_cons, Log.calls_cons, List.map_append, ih]
    simp only [Note.call?, Event.isError, Event.isWarning, level, Grammar.severeLevels,
      List.map_cons, List.filter_cons]
    split
    · simp [gist]
    · rfl

theorem calls_checked (entries : List Entry) :
    Log.calls preferences ((entries.map (Checked.ofEntry g)).flatMap (·.notes path)) =
      entries.flatMap (entryCalls preferences g path) := by
  rw [Log.calls_flatMap, List.flatMap_map]
  rfl

-- What workers offer, one after the other, is what the entries give rise to in their order.
theorem flatten_workerCalls (sound : Sound g entries) :
    (workerCalls preferences g b path entries).flatten =
      entries.flatMap (entryCalls preferences g path) := by
  have whole : (chunksOf (chunkSize entries.length b.threads) entries).flatten = entries :=
    flatten_chunksOf (Limits.one_le_clamp _ _) entries
  have chunk : ∀ chunk ∈ chunksOf (chunkSize entries.length b.threads) entries,
      Log.calls preferences ((checkUntil g (·.parsed.crashed) [] chunk).flatMap (·.notes path)) =
        chunk.flatMap (entryCalls preferences g path) := by
    intro chunk member
    have inside : Sound g chunk := fun e present =>
      sound e (whole ▸ List.mem_flatten_of_mem member present)
    rw [checkUntil_all inside, calls_checked]
  rw [workerCalls, List.map_congr_left chunk, ← List.flatMap_def]
  conv_rhs => rw [← whole, ← List.flatMap_id, List.flatMap_assoc]
  rfl

theorem calls_sequential (sound : Sound g entries) (patient : b.failFast = false) :
    Log.calls preferences (sequential g b path entries).notes =
      entries.flatMap (entryCalls preferences g path) := by
  obtain ⟨checked, reached, stops⟩ := checkUntil_stops sound b.failFast []
  have quiet := sound.not_any_crashed stops
  rw [patient] at stops
  rw [List.reverse_nil, List.nil_append, stops.eq_of_patient] at reached
  rw [stops.eq_of_patient] at quiet
  have progress : ∀ (c : Checked) (index : Nat), Log.calls preferences
      ((if b.progress then [entryProgress index entries.length c.entry.line] else []) ++
        c.notes path) = Log.calls preferences (c.notes path) := by
    intro c index
    rw [Log.calls_append, Log.calls_of_own, List.nil_append]
    split <;> simp [entryProgress]
  unfold sequential
  simp only [reached, quiet, Bool.false_eq_true, if_false]
  simp only [patient, Bool.false_and, Bool.false_eq_true, if_false]
  rw [Log.calls_before_own (by split <;> exact List.forall_mem_nil _), Log.calls_flatMap]
  simp only [progress]
  rw [← List.flatMap_map Prod.fst fun c => Log.calls preferences (Checked.notes path c),
    List.zipIdx_map_fst, List.flatMap_map]
  rfl

theorem calls_rounds {groups : List (List (List Entry))} (sound : Sound g groups.flatten.flatten)
    (patient : b.failFast = false) (round : Nat) :
    Log.calls preferences (rounds g b path round groups).notes =
      groups.flatten.flatten.flatMap (entryCalls preferences g path) := by
  induction groups generalizing round with
  | nil => rfl
  | cons chunks rest ih =>
    rw [List.flatten_cons, List.flatten_append] at sound ⊢
    obtain ⟨here, later⟩ := List.forall_mem_append.mp sound
    have quiet := Sound.not_any_crashed here (.refl false _)
    have progress : Log.calls preferences
        (if b.progress then [roundProgress round chunks.length] else []) = [] := by
      refine Log.calls_of_own ?_
      split <;> simp [roundProgress]
    rw [rounds]
    simp only [round_checked here, quiet, patient, Bool.false_and, Bool.false_eq_true, if_false]
    rw [Log.calls_append, Log.calls_append, progress, List.nil_append, calls_checked,
      ih later (round + 1), List.flatMap_append]

theorem calls_notes (sound : Sound g entries) (patient : b.failFast = false) (elapsed : Nat) :
    Log.calls preferences (notes b path entries (run g b path entries) elapsed) =
      entries.flatMap (entryCalls preferences g path) := by
  have ran : Log.calls preferences (run g b path entries).notes =
      entries.flatMap (entryCalls preferences g path) := by
    unfold run
    split
    · exact calls_sequential sound patient
    · have whole := flatten_rounds (Limits.one_le_clamp _ _ : 1 ≤ b.threads) entries
      have all : Log.calls preferences (rounds g b path 1 _).notes = _ :=
        calls_rounds (whole.symm ▸ sound) patient 1
      rw [whole] at all
      exact all
  rw [notes, Log.calls_before_own]
  · exact ran
  · split
    · refine List.forall_mem_singleton.mpr ?_
      unfold completionNote
      dsimp only
      split <;> rfl
    · exact List.forall_mem_nil _

theorem gist_entryCalls {e : Entry} (running : (g.parse e.text).crashed = false) :
    (entryCalls preferences g path e).map gist =
      if (Checked.ofEntry g e).isFailed then [(path, .error)] else [] := by
  have reports : Grammar.severeLevels (Checked.ofEntry g e).parsed.events = _ :=
    Grammar.severeLevels_parse running
  rw [entryCalls, gist_calls, reports]
  cases outcome : (g.parse e.text).result with
  | ok a =>
    have passed : (Checked.ofEntry g e).isFailed = false := by
      simp [Checked.ofEntry, Checked.isFailed, Checked.failed?, outcome]
    rw [passed]
    rfl
  | error failure =>
    have failed : (Checked.ofEntry g e).isFailed = true := by
      simp [Checked.ofEntry, Checked.isFailed, Checked.failed?, outcome]
    rw [failed]
    rfl

def failing (g : Grammar) (entries : List Entry) : Nat :=
  entries.countP fun e => (Checked.ofEntry g e).isFailed

theorem gist_all (sound : Sound g entries) :
    (entries.flatMap (entryCalls preferences g path)).map gist =
      List.replicate (failing g entries) (path, .error) := by
  induction entries with
  | nil => rfl
  | cons e rest ih =>
    obtain ⟨here, later⟩ := List.forall_mem_cons.mp sound
    rw [List.flatMap_cons, List.map_append, gist_entryCalls here, ih later, failing, failing,
      List.countP_cons]
    cases (Checked.ofEntry g e).isFailed <;> rfl

theorem calls_of_perm (sound : Sound g entries) {calls : List (String × Event)}
    (same : calls.Perm (entries.flatMap (entryCalls preferences g path))) :
    ∃ events : List Event, calls = events.map (path, ·) ∧
      events.map (·.level) = List.replicate (failing g entries) .error := by
  have gists := same.map gist
  rw [gist_all sound, List.perm_replicate] at gists
  have paths : ∀ call ∈ calls, call.1 = path := by
    intro call member
    exact congrArg Prod.fst (List.eq_of_mem_replicate (gists ▸ List.mem_map_of_mem member))
  refine ⟨calls.map (·.2), ?_, ?_⟩
  · rw [List.map_map]
    conv_lhs => rw [← List.map_id calls]
    refine List.map_congr_left fun call member => ?_
    rw [← paths call member]
    rfl
  · have levels := congrArg (List.map Prod.snd) gists
    rw [List.map_map, List.map_replicate] at levels
    rw [List.map_map]
    exact levels

-- The run itself, as its notes are listed, makes the calls of its workers in one of the orders.
theorem run_interleaves (sound : Sound g entries) (patient : b.failFast = false) (elapsed : Nat) :
    Interleaves (workerCalls preferences g b path entries)
      (Log.calls preferences (notes b path entries (run g b path entries) elapsed)) := by
  rw [calls_notes sound patient, ← flatten_workerCalls sound]
  exact interleaves_flatten _

-- The summary after the calls of all workers, made in any order that keeps each worker's own, is
-- the one after the run of a single worker. For each entry that is no action one error is offered
-- and for an action nothing; as many errors are kept as fit under both caps, and the others count
-- as dropped. Before logging is started there is nothing to offer them to. The collector may hold
-- anything; to count what is kept, its files have to be in order, as they are after any calls.
theorem summary_interleaved (sound : Sound g entries) (patient : b.failFast = false)
    (path : String) {s : Log.Session} (outside : s.context = none)
    {calls : List (String × Event)}
    (order : Interleaves (workerCalls s.preferences g b path entries) calls) (elapsed : Nat) :
    (s.recordAll calls).summary =
      (s.noteAll (notes { b with maxThreads := 1 } path entries
        (run g { b with maxThreads := 1 } path entries) elapsed)).collector.summary ∧
    (∀ e ∈ entries, (entryCalls s.preferences g path e).map gist =
      if (Checked.ofEntry g e).isFailed then [(path, .error)] else []) ∧
    (Log.Collector.Filed s.collector.events →
      (s.recordAll calls).summary =
        if s.isStarted then s.collector.withErrors path (failing g entries)
        else s.collector.summary) := by
  obtain ⟨events, rfl, levels⟩ := calls_of_perm sound (flatten_workerCalls sound ▸ order.perm)
  refine ⟨?_, fun e member => gist_entryCalls (sound e member), fun filed => ?_⟩
  · have alone : Log.calls s.preferences (notes { b with maxThreads := 1 } path entries
        (run g { b with maxThreads := 1 } path entries) elapsed) =
          entries.flatMap (entryCalls s.preferences g path) :=
      calls_notes (b := { b with maxThreads := 1 }) sound patient elapsed
    obtain ⟨others, same, levels'⟩ := calls_of_perm sound (List.Perm.of_eq alone)
    rw [Log.Session.collector_noteAll outside, same]
    unfold Log.Session.recordAll
    split
    · exact ((Log.Collector.Alike.refl _).recordAll (levels.trans levels'.symm)).summary
    · rfl
  · have errors : ∀ event ∈ events, event.isError = true := by
      intro event member
      exact beq_iff_eq.mpr (List.eq_of_mem_replicate (levels ▸ List.mem_map_of_mem member))
    have count : events.length = failing g entries := by
      rw [← List.length_replicate (n := failing g entries) (a := Log.Level.error), ← levels,
        List.length_map]
    unfold Log.Session.recordAll
    split
    · rw [(Log.Collector.takes_recordAll filed events).summary filed errors, count]
    · rfl

theorem summary_interleaved_swapped :
    let collector := Log.Collector.recordAll {} [("b", .error .ioError "m")]
    ∃ y z, workerCalls {} {} { maxThreads := 2 } "a" [⟨1, "x:=1"⟩, ⟨2, "y:="⟩, ⟨4, "z:="⟩] =
        [[y], [z]] ∧
      (collector.recordAll [z, y]).summary =
        { sources := 2, sourcesWithErrors := 2, errors := 3, warnings := 0, dropped := 0 } := by
  intro collector
  have filed : Log.Collector.Filed collector.events :=
    Log.Collector.filed_recordAll ⟨.nil, List.forall_mem_nil _⟩ _
  obtain ⟨y, z, shape⟩ : ∃ y z, workerCalls {} {} { maxThreads := 2 } "a"
      [⟨1, "x:=1"⟩, ⟨2, "y:="⟩, ⟨4, "z:="⟩] = [[y], [z]] := by
    have lengths : (workerCalls {} {} { maxThreads := 2 } "a"
        [⟨1, "x:=1"⟩, ⟨2, "y:="⟩, ⟨4, "z:="⟩]).map List.length = [1, 1] := by decide +kernel
    obtain ⟨_, _, shape, one, more⟩ := List.map_eq_cons_iff.mp lengths
    obtain ⟨_, _, rfl, two, none⟩ := List.map_eq_cons_iff.mp more
    obtain ⟨y, rfl⟩ := List.length_eq_one_iff.mp one
    obtain ⟨z, rfl⟩ := List.length_eq_one_iff.mp two
    obtain rfl := List.map_eq_nil_iff.mp none
    exact ⟨y, z, shape⟩
  refine ⟨y, z, shape, ?_⟩
  have order : Interleaves [[y], [z]] [z, y] :=
    @Interleaves.step _ [[y]] [] z [] [y] (@Interleaves.step _ [] [[]] y [] [] (.done (by simp)))
  rw [← shape] at order
  have told := (@summary_interleaved {} _ _ (sound_of_climbing rfl _) rfl "a"
    { collector, sink := some .debug } rfl _ order 0).2.2 filed
  exact told.trans (by decide +kernel)

end Validation

end StateActions
