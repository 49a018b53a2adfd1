import Mathlib.Data.List.DropRight
import Mathlib.Data.Set.Card
import StateActions.Proofs.Log.Collector

namespace StateActions.Log.Collector

section Files

variable {path other : String} {event : Event} {files : List (String × List Event)}

-- Two spellings of a path stand for the same list.
theorem listed_congr (same : samePath path other = true) : listed path files = listed other files := by
  have spelled : (fun file : String × List Event => samePath file.1 path) =
      fun file => samePath file.1 other := by
    funext file
    rw [Bool.eq_iff_iff, samePath_iff, samePath_iff, samePath_iff.mp same]
  unfold listed
  rw [spelled]

theorem listed_insert_of_ne (apart : samePath path other = false) :
    listed other (insert path event files) = listed other files := by
  have single : ∀ rest, listed other ((path, [event]) :: rest) = listed other rest := by
    intro rest
    simp [listed, apart]
  induction files with
  | nil => exact single []
  | cons first rest ih =>
    obtain ⟨held, events⟩ := first
    rw [insert]
    split
    · next same =>
      have apart' : samePath held other = false := by
        rw [Bool.eq_false_iff, ne_eq, samePath_iff] at apart ⊢
        rwa [samePath_iff.mp same]
      simp [listed, apart']
    · split
      · exact single _
      · unfold listed at ih ⊢
        rw [List.find?_cons, List.find?_cons]
        cases samePath held other with
        | true => rfl
        | false => exact ih

theorem listed_of_mem (filed : Filed files) {file : String × List Event} (member : file ∈ files) :
    listed file.1 files = file.2 := by
  induction files with
  | nil => cases member
  | cons first rest ih =>
    obtain ⟨before, ordered⟩ := List.pairwise_cons.mp filed.ordered
    rcases List.mem_cons.mp member with rfl | later
    · have self : samePath file.1 file.1 = true := samePath_iff.mpr rfl
      simp [listed, self]
    · have other : samePath first.1 file.1 = false := by
        rw [Bool.eq_false_iff, ne_eq, samePath_iff]
        exact ne_of_lt (before file later)
      have rest := ih ⟨ordered, (List.forall_mem_cons.mp filed.filled).2⟩ later
      unfold listed at rest ⊢
      rw [List.find?_cons, other]
      exact rest

end Files

section Calls

inductive Call
  | record (path : String) (event : Event)
  | clear

def Call.recorded? : Call → Option (String × Event)
  | .record path event => some (path, event)
  | .clear => none

def call (c : Collector) : Call → Collector
  | .record path event => c.record path event
  | .clear => c.clear

def after (calls : List Call) : Collector := calls.foldl call {}

def recorded (calls : List Call) : List (String × Event) :=
  (calls.rtakeWhile (·.recorded?.isSome)).filterMap (·.recorded?)

def about (path : String) (events : List (String × Event)) : List Event :=
  (events.filter (samePath ·.1 path)).map (·.2)

variable {calls : List Call} {path : String} {event : Event}

theorem after_concat (calls : List Call) (next : Call) :
    after (calls ++ [next]) = (after calls).call next := List.foldl_concat ..

theorem recorded_record (calls : List Call) (path : String) (event : Event) :
    recorded (calls ++ [.record path event]) = recorded calls ++ [(path, event)] := by
  unfold recorded
  rw [List.rtakeWhile_concat_pos _ _ _ (by rfl), List.filterMap_append]
  rfl

theorem recorded_clear (calls : List Call) : recorded (calls ++ [.clear]) = [] := by
  unfold recorded
  rw [List.rtakeWhile_concat_neg _ _ _ (by simp [Call.recorded?])]
  rfl

theorem about_concat (path held : String) (event : Event) (events : List (String × Event)) :
    about path (events ++ [(held, event)]) =
      about path events ++ if samePath held path then [event] else [] := by
  unfold about
  rw [List.filter_append, List.map_append]
  congr 1
  rw [List.filter_cons]
  split <;> rfl

end Calls

section Accounts

variable {c : Collector} {events : List (String × Event)} {path : String} {event : Event}

-- How a collector accounts for the events since the last clearing. The lists may be short of events
-- only where there is no room left.
structure Accounts (c : Collector) (events : List (String × Event)) : Prop where
  filed : Filed c.events
  begins : ∀ path, c.eventsOf path <+: about path events
  whole : ∀ path, 0 < c.room path → c.eventsOf path = about path events
  few : ∀ path, (c.eventsOf path).length ≤ Limits.eventsPerSource
  total : c.total = weight List.length c.events
  bounded : c.total ≤ Limits.collectedEvents
  conserved : c.total + c.dropped = events.length

theorem accounts_nil : Accounts {} [] where
  filed := ⟨.nil, List.forall_mem_nil _⟩
  begins _ := List.nil_prefix
  whole _ _ := rfl
  few _ := Nat.zero_le _
  total := rfl
  bounded := Nat.zero_le _
  conserved := rfl

theorem room_congr {other : String} (same : samePath path other = true) :
    c.room path = c.room other := by
  have held : c.eventsOf path = c.eventsOf other := listed_congr same
  unfold room
  rw [held]

-- A dropped event is missing from the list of a path without room only.
theorem Accounts.dropped (accounts : Accounts c events) (full : c.room path = 0) :
    Accounts (c.record path event) (events ++ [(path, event)]) := by
  obtain ⟨filed, begins, whole, few, total, bounded, conserved⟩ := accounts
  rw [record_full full]
  refine ⟨filed, fun other => ?_, fun other fits => ?_, few, total, bounded, ?_⟩
  · rw [about_concat]
    exact (begins other).trans (List.prefix_append ..)
  · have apart : samePath path other = false := by
      rw [Bool.eq_false_iff]
      intro same
      have fits : 0 < c.room other := fits
      rw [← room_congr same, full] at fits
      cases fits
    rw [about_concat, apart]
    exact (whole other fits).trans (List.append_nil _).symm
  · rw [List.length_append, List.length_singleton]
    dsimp only
    omega

theorem eventsOf_record (filed : Filed c.events) (fits : 0 < c.room path) (event : Event)
    (other : String) : (c.record path event).eventsOf other =
      c.eventsOf other ++ if samePath path other then [event] else [] := by
  rw [record_kept fits]
  change listed other (insert path event c.events) = listed other c.events ++ _
  split
  · next same =>
    rw [← listed_congr same, ← listed_congr same]
    exact (insert_filed filed (fun _ => 0) rfl).1
  · next apart => rw [listed_insert_of_ne (Bool.eq_false_iff.mpr apart), List.append_nil]

theorem Accounts.kept (accounts : Accounts c events) (fits : 0 < c.room path) :
    Accounts (c.record path event) (events ++ [(path, event)]) := by
  obtain ⟨filed, begins, whole, few, total, bounded, conserved⟩ := accounts
  have held := eventsOf_record filed fits event
  have spare := fits
  unfold room at spare
  have counted : (c.record path event).total = c.total + 1 := by rw [record_kept fits]
  have none : (c.record path event).dropped = c.dropped := by rw [record_kept fits]
  have less : ∀ other, (c.record path event).room other ≤ c.room other := by
    intro other
    unfold room
    rw [held, counted, List.length_append]
    omega
  refine ⟨filed_record filed path event, fun other => ?_, fun other fits' => ?_, fun other => ?_,
    ?_, ?_, ?_⟩
  · rw [held, about_concat]
    cases same : samePath path other with
    | true => rw [whole other (room_congr same ▸ fits)]
    | false => simpa using begins other
  · rw [held, about_concat, whole other (fits'.trans_le (less other))]
  · rw [held]
    cases same : samePath path other with
    | true =>
      rw [room_congr same] at fits
      unfold room at fits
      simp
      omega
    | false => simpa using few other
  · have weighs : weight List.length (insert path event c.events) + (listed path c.events).length =
        weight List.length c.events + (listed path c.events ++ [event]).length :=
      (insert_filed filed List.length rfl).2
    rw [List.length_append, List.length_singleton] at weighs
    rw [record_kept fits]
    dsimp only
    omega
  · omega
  · rw [counted, none, List.length_append, List.length_singleton]
    omega

theorem accounts_record (accounts : Accounts c events) (path : String) (event : Event) :
    Accounts (c.record path event) (events ++ [(path, event)]) := by
  rcases Nat.eq_zero_or_pos (c.room path) with full | fits
  · exact accounts.dropped full
  · exact accounts.kept fits

theorem Accounts.next (accounts : Accounts c events) (path : String) (event : Event) :
    c.record path event = { c with dropped := c.dropped + 1 } ∧
      (c.total = Limits.collectedEvents ∨ (c.eventsOf path).length = Limits.eventsPerSource) ∨
    (c.record path event).dropped = c.dropped ∧
      (c.record path event).eventsOf path = c.eventsOf path ++ [event] := by
  rcases Nat.eq_zero_or_pos (c.room path) with full | fits
  · refine .inl ⟨record_full full event, ?_⟩
    have few := accounts.few path
    have bounded := accounts.bounded
    unfold room at full
    omega
  · rw [record_kept fits]
    exact .inr ⟨rfl, (insert_filed accounts.filed (fun _ => 0) rfl).1⟩

-- The induction is on the calls from the last one back: a clearing starts the accounts anew.
theorem accounts_after (calls : List Call) : Accounts (after calls) (recorded calls) := by
  induction calls using List.reverseRecOn with
  | nil => exact accounts_nil
  | append_singleton calls next ih =>
    rw [after_concat]
    cases next with
    | record path event =>
      rw [recorded_record]
      exact accounts_record ih path event
    | clear =>
      rw [recorded_clear]
      exact accounts_nil

end Accounts

section Counts

variable {files : List (String × List Event)}

theorem exists_listed {path : String} (present : listed path files ≠ []) :
    ∃ file ∈ files, samePath file.1 path = true ∧ file.2 = listed path files := by
  unfold listed at present ⊢
  cases found : files.find? fun file => samePath file.1 path with
  | none =>
    rw [found] at present
    exact absurd rfl present
  | some file =>
    have same := List.find?_some found
    exact ⟨file, List.mem_of_find?_eq_some found, same, rfl⟩

-- A count of files is a count of paths, where the spellings of a path count once.
theorem ncard_listed (filed : Filed files) (p : List Event → Prop) [DecidablePred p]
    (empty : ¬ p []) :
    {parts | ∃ path, components path = parts ∧ p (listed path files)}.ncard =
      (files.filter fun file => p file.2).length := by
  have once : ((files.filter fun file => p file.2).map fun file => components file.1).Nodup := by
    rw [List.Nodup, List.pairwise_map]
    refine (filed.ordered.filter _).imp fun {file other} before same => ?_
    exact before.ne (congrArg (List.map rank) same)
  have paths : {parts | ∃ path, components path = parts ∧ p (listed path files)} =
      ((files.filter fun file => p file.2).map fun file => components file.1).toFinset := by
    ext parts
    rw [List.coe_toFinset, Set.mem_ofPred_eq, Set.mem_ofPred_eq, List.mem_map]
    constructor
    · rintro ⟨path, rfl, holds⟩
      have present : listed path files ≠ [] := fun none => empty (none ▸ holds)
      obtain ⟨file, member, same, events⟩ := exists_listed present
      rw [← events] at holds
      exact ⟨file, List.mem_filter.mpr ⟨member, decide_eq_true holds⟩, beq_iff_eq.mp same⟩
    · rintro ⟨file, member, rfl⟩
      obtain ⟨member, holds⟩ := List.mem_filter.mp member
      exact ⟨file.1, rfl, listed_of_mem filed member ▸ of_decide_eq_true holds⟩
  rw [paths, Set.ncard_coe_finset, List.toFinset_card_of_nodup once, List.length_map]

theorem summary_eq {c : Collector} (filed : Filed c.events) : c.summary =
    { sources := {parts | ∃ path, components path = parts ∧ c.eventsOf path ≠ []}.ncard
      sourcesWithErrors := {parts | ∃ path, components path = parts ∧ c.errorsOf path ≠ []}.ncard
      errors := (c.events.map (·.2.countP (·.isError))).sum
      warnings := (c.events.map (·.2.countP (·.isWarning))).sum
      dropped := c.dropped } := by
  have sources : {parts | ∃ path, components path = parts ∧ c.eventsOf path ≠ []}.ncard =
      c.events.length := by
    refine (ncard_listed filed (· ≠ []) (not_not_intro rfl)).trans ?_
    rw [List.filter_eq_self.mpr fun file member => decide_eq_true (filed.filled file member)]
  have erroneous : {parts | ∃ path, components path = parts ∧ c.errorsOf path ≠ []}.ncard =
      (c.events.filter fun file => file.2.any (·.isError)).length := by
    refine (ncard_listed filed (·.filter (·.isError) ≠ []) (not_not_intro rfl)).trans ?_
    congr 2
    funext file
    rw [Bool.eq_iff_iff]
    simp
  rw [sources, erroneous]
  unfold summary
  rw [countP_eq_weight, countP_eq_weight]
  rfl

end Counts

-- A collector loses nothing silently, whatever calls have led to it. The list of a path is a
-- beginning of what was recorded of it since the last clearing, every list is the list of a path,
-- and what is missing has been counted. A further event is dropped only at one of the two caps, and
-- kept at the end of its list otherwise. The summary counts what is held.
theorem after_exact (calls : List Call) :
    let c := after calls
    (∀ path, c.eventsOf path <+: about path (recorded calls)) ∧
    (∀ file ∈ c.events, c.eventsOf file.1 = file.2 ∧ file.2 ≠ [] ∧
      file.2.length ≤ Limits.eventsPerSource) ∧
    c.total = (c.events.map (·.2.length)).sum ∧ c.total ≤ Limits.collectedEvents ∧
    c.total + c.dropped = (recorded calls).length ∧
    (∀ path event, let d := after (calls ++ [.record path event])
      d = { c with dropped := c.dropped + 1 } ∧
        (c.total = Limits.collectedEvents ∨
          (c.eventsOf path).length = Limits.eventsPerSource) ∨
      d.dropped = c.dropped ∧ d.eventsOf path = c.eventsOf path ++ [event]) ∧
    c.summary =
      { sources := {parts | ∃ path, components path = parts ∧ c.eventsOf path ≠ []}.ncard
        sourcesWithErrors := {parts | ∃ path, components path = parts ∧ c.errorsOf path ≠ []}.ncard
        errors := (c.events.map (·.2.countP (·.isError))).sum
        warnings := (c.events.map (·.2.countP (·.isWarning))).sum
        dropped := c.dropped } := by
  intro c
  have accounts : Accounts c (recorded calls) := accounts_after calls
  refine ⟨accounts.begins, fun file member => ?_, accounts.total, accounts.bounded,
    accounts.conserved, fun path event => ?_, summary_eq accounts.filed⟩
  · have here : c.eventsOf file.1 = file.2 := listed_of_mem accounts.filed member
    exact ⟨here, accounts.filed.filled file member, here ▸ accounts.few file.1⟩
  · rw [after_concat]
    exact accounts.next path event

end StateActions.Log.Collector
