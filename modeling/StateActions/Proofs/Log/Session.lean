import StateActions.Log.Session
import StateActions.Proofs.Log.Collector

namespace StateActions.Log

def Note.call? (preferences : Preferences.Logging) (n : Note) : Option (String × Event) :=
  match n.origin with
  | none => none
  | some origin =>
    let event := Stamp.apply ⟨preferences, some origin⟩ n.event
    if event.isError || event.isWarning then some (origin.path, event) else none

def calls (preferences : Preferences.Logging) (notes : List Note) : List (String × Event) :=
  notes.filterMap (·.call? preferences)

theorem calls_append (preferences : Preferences.Logging) (before after : List Note) :
    calls preferences (before ++ after) = calls preferences before ++ calls preferences after :=
  List.filterMap_append

theorem calls_cons (preferences : Preferences.Logging) (n : Note) (rest : List Note) :
    calls preferences (n :: rest) = (n.call? preferences).toList ++ calls preferences rest := by
  rw [calls, List.filterMap_cons]
  cases n.call? preferences <;> rfl

theorem calls_flatMap {α : Type} (preferences : Preferences.Logging) (list : List α)
    (f : α → List Note) :
    calls preferences (list.flatMap f) = list.flatMap fun a => calls preferences (f a) :=
  List.filterMap_flatMap

-- Notes that name no action themselves are not offered.
theorem calls_of_own {preferences : Preferences.Logging} {notes : List Note}
    (own : ∀ n ∈ notes, n.origin = none) : calls preferences notes = [] := by
  rw [calls, List.filterMap_eq_nil_iff]
  intro n member
  rw [Note.call?, own n member]

theorem calls_before_own {preferences : Preferences.Logging} {notes own : List Note}
    (silent : ∀ n ∈ own, n.origin = none) :
    calls preferences (notes ++ own) = calls preferences notes := by
  rw [calls_append, calls_of_own silent, List.append_nil]

@[simp] theorem Stamp.level_apply (s : Stamp) (e : Event) : (s.apply e).level = e.level := by
  unfold apply
  dsimp only
  split
  · split <;> rfl
  · rfl

-- What is made of an event about an action where marking is wanted.
theorem Stamp.apply_marked {preferences : Preferences.Logging}
    (marking : preferences.sourceContext = true) (origin : Origin) (event : Event) :
    apply ⟨preferences, some origin⟩ event =
      { event with
        message := Text.clip Limits.messageLength event.message
        source := some origin } := by
  simp only [apply, marking, if_true]
  rfl

namespace Session

variable {s : Session}

@[simp] theorem context_deliver (e : Event) : (s.deliver e).context = s.context := by
  unfold deliver
  split <;> rfl

@[simp] theorem preferences_deliver (e : Event) : (s.deliver e).preferences = s.preferences := by
  unfold deliver
  split <;> rfl

@[simp] theorem collector_deliver (e : Event) : (s.deliver e).collector = s.collector := by
  unfold deliver
  split <;> rfl

@[simp] theorem sink_deliver (e : Event) : (s.deliver e).sink = s.sink := by
  unfold deliver
  split <;> rfl

-- The collector after some calls, if there is one yet.
def recordAll (s : Session) (calls : List (String × Event)) : Collector :=
  if s.isStarted then s.collector.recordAll calls else s.collector

theorem recordAll_nil (s : Session) : s.recordAll [] = s.collector := ite_self _

theorem recordAll_append {middle : Session} {first : List (String × Event)}
    (sink : middle.sink = s.sink) (collector : middle.collector = s.recordAll first)
    (later : List (String × Event)) :
    middle.recordAll later = s.recordAll (first ++ later) := by
  unfold recordAll isStarted at *
  rw [sink, collector]
  split
  · rw [Collector.recordAll_append]
  · rfl

theorem note_frame (n : Note) :
    (s.note n).context = s.context ∧ (s.note n).preferences = s.preferences ∧
      (s.note n).sink = s.sink := by
  unfold note
  split
  · simp [within, dispatch, setContext]
  · simp [dispatch]

theorem collector_note (outside : s.context = none) (n : Note) :
    (s.note n).collector = s.recordAll (n.call? s.preferences).toList := by
  unfold note Note.call? recordAll
  cases n.origin with
  | none => simp [dispatch, stamp, Stamp.collect, outside, Collector.recordAll]
  | some origin =>
    simp only [within, dispatch, collector_deliver, stamp, setContext, Stamp.collect, isStarted]
    refine if_congr Iff.rfl ?_ rfl
    split
    · next severe => exact if_pos severe
    · next mild => exact if_neg mild

theorem collector_noteAll (outside : s.context = none) (notes : List Note) :
    (s.noteAll notes).collector = s.recordAll (calls s.preferences notes) := by
  induction notes generalizing s with
  | nil => exact (recordAll_nil s).symm
  | cons n rest ih =>
    obtain ⟨context, preferences, sink⟩ := note_frame (s := s) n
    have later := ih (s := s.note n) (context.trans outside)
    rw [preferences, recordAll_append sink (collector_note outside n)] at later
    rw [noteAll, List.foldl_cons, ← noteAll, later, calls_cons]

end Session

end StateActions.Log
