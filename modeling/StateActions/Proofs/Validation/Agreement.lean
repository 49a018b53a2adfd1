import StateActions.Proofs.Log.Reports
import StateActions.Validation.Basic

namespace StateActions

namespace Checked

theorem count_outcomes (checked : List Checked) :
    (checked.filterMap (·.valid?)).length + (checked.filterMap (·.failed?)).length =
      checked.length := by
  induction checked with
  | nil => rfl
  | cons c rest ih =>
    cases outcome : c.parsed.result with
    | ok action =>
      have valid : c.valid? = some ⟨c.entry.line, c.entry.text, action⟩ := by
        simp only [valid?, outcome]
      have failed : c.failed? = none := by simp only [failed?, outcome]
      simp only [List.filterMap_cons, valid, failed, List.length_cons]
      omega
    | error e =>
      have valid : c.valid? = none := by simp only [valid?, outcome]
      have failed : c.failed? = some ⟨c.entry.line, c.entry.text, e⟩ := by
        simp only [failed?, outcome]
      simp only [List.filterMap_cons, valid, failed, List.length_cons]
      omega

theorem failures_eq_nil_iff (checked : List Checked) :
    checked.filterMap (·.failed?) = [] ↔ checked.any (·.isFailed) = false := by
  rw [List.filterMap_eq_nil_iff, List.any_eq_false]
  simp [isFailed]

end Checked

namespace Validation

section Chunks

variable {α : Type} {size : Nat}

theorem flatten_first_chunks (size count : Nat) (list : List α) :
    ((List.range count).map fun i => (list.drop (i * size)).take size).flatten =
      list.take (count * size) := by
  induction count with
  | zero => simp
  | succ count ih =>
    rw [List.range_succ, List.map_append, List.flatten_append, ih, Nat.succ_mul, List.take_add]
    simp

theorem flatten_chunksOf (positive : 1 ≤ size) (list : List α) :
    (chunksOf size list).flatten = list := by
  rw [chunksOf, flatten_first_chunks, List.take_of_length_le]
  have whole := Nat.div_add_mod (list.length + size - 1) size
  have part := Nat.mod_lt (list.length + size - 1) positive
  rw [Nat.mul_comm] at whole
  omega

theorem flatten_rounds {threads : Nat} (positive : 1 ≤ threads) (entries : List α) :
    (chunksOf threads
      (chunksOf (chunkSize entries.length threads) entries)).flatten.flatten = entries := by
  rw [flatten_chunksOf positive]
  exact flatten_chunksOf (Limits.one_le_clamp _ _) entries

end Chunks

section Stopping

variable {failFast : Bool} {all checked : List Checked}

-- What was checked is a beginning of all outcomes, and something is left out only after a failure.
def StopsEarly (failFast : Bool) (all checked : List Checked) : Prop :=
  ∃ left, all = checked ++ left ∧
    (left = [] ∨ failFast = true ∧ checked.any (·.isFailed) = true)

theorem StopsEarly.refl (failFast : Bool) (all : List Checked) : StopsEarly failFast all all :=
  ⟨[], (List.append_nil all).symm, .inl rfl⟩

theorem StopsEarly.prepend (stops : StopsEarly failFast all checked) (before : List Checked) :
    StopsEarly failFast (before ++ all) (before ++ checked) := by
  obtain ⟨left, rfl, reason⟩ := stops
  refine ⟨left, (List.append_assoc _ _ _).symm, reason.imp id fun ⟨fast, failed⟩ => ⟨fast, ?_⟩⟩
  rw [List.any_append, failed, Bool.or_true]

theorem StopsEarly.eq_of_patient (stops : StopsEarly false all checked) : checked = all := by
  obtain ⟨left, rfl, rfl | ⟨fast, -⟩⟩ := stops
  · exact (List.append_nil checked).symm
  · cases fast

-- Nothing fails in what was checked unless something fails at all, and the other way round.
theorem StopsEarly.any_isFailed (stops : StopsEarly failFast all checked) :
    checked.any (·.isFailed) = all.any (·.isFailed) := by
  obtain ⟨left, rfl, rfl | ⟨-, failed⟩⟩ := stops
  · rw [List.append_nil]
  · rw [List.any_append, failed, Bool.true_or]

theorem StopsEarly.eq_of_sound (stops : StopsEarly failFast all checked)
    (sound : all.any (·.isFailed) = false) : checked = all := by
  have none := stops.any_isFailed
  obtain ⟨left, rfl, rfl | ⟨-, failed⟩⟩ := stops
  · exact (List.append_nil checked).symm
  · rw [failed, sound] at none
    cases none

theorem StopsEarly.first_failure (stops : StopsEarly failFast all checked) :
    (checked.filterMap (·.failed?)).head? = (all.filterMap (·.failed?)).head? := by
  obtain ⟨left, rfl, rfl | ⟨-, failed⟩⟩ := stops
  · rw [List.append_nil]
  · have filled : checked.filterMap (·.failed?) ≠ [] := by
      rw [ne_eq, Checked.failures_eq_nil_iff, failed]
      exact Bool.noConfusion
    obtain ⟨first, others, listed⟩ := List.exists_cons_of_ne_nil filled
    rw [List.filterMap_append, listed]
    rfl

theorem StopsEarly.first_index (stops : StopsEarly failFast all checked) {i : Nat}
    (first : all.findIdx? (·.isFailed) = some i) : i < checked.length := by
  have failed : checked.any (·.isFailed) = true := by
    rw [stops.any_isFailed, ← List.findIdx?_isSome, first]
    rfl
  obtain ⟨left, rfl, -⟩ := stops
  obtain ⟨j, found⟩ := Option.isSome_iff_exists.mp (List.findIdx?_isSome.trans failed)
  rw [List.findIdx?_append, found] at first
  cases first
  exact (List.findIdx?_eq_some_iff_getElem.mp found).1

end Stopping

section Runs

variable {g : Grammar} {entries : List Entry}

def Sound (g : Grammar) (entries : List Entry) : Prop :=
  ∀ e ∈ entries, (g.parse e.text).crashed = false

theorem sound_of_climbing (climbing : g.arithmetic = PrecedenceClimbing.rule)
    (entries : List Entry) : Sound g entries :=
  fun e _ => Grammar.crashed_eq_false climbing e.text

theorem Sound.not_any_crashed {failFast : Bool} {checked : List Checked} (sound : Sound g entries)
    (stops : StopsEarly failFast (entries.map (Checked.ofEntry g)) checked) :
    checked.any (·.parsed.crashed) = false := by
  obtain ⟨left, all, -⟩ := stops
  rw [List.any_eq_false]
  intro c member
  obtain ⟨e, present, rfl⟩ := List.mem_map.mp (all ▸ List.mem_append_left left member)
  rw [Checked.ofEntry, sound e present]
  exact Bool.noConfusion

theorem checkUntil_stops (sound : Sound g entries) (failFast : Bool) (done : List Checked) :
    ∃ checked, checkUntil g (fun c => c.parsed.crashed || (failFast && c.isFailed)) done entries =
        done.reverse ++ checked ∧
      StopsEarly failFast (entries.map (Checked.ofEntry g)) checked := by
  induction entries generalizing done with
  | nil => exact ⟨[], (List.append_nil _).symm, .refl _ _⟩
  | cons e rest ih =>
    obtain ⟨here, later⟩ := List.forall_mem_cons.mp sound
    have going : (Checked.ofEntry g e).parsed.crashed = false := here
    simp only [checkUntil, going, Bool.false_or, List.reverse_cons]
    split
    · next stop =>
      rw [Bool.and_eq_true] at stop
      refine ⟨[Checked.ofEntry g e], rfl, rest.map (Checked.ofEntry g), rfl, .inr ⟨stop.1, ?_⟩⟩
      rw [List.any_cons, stop.2, Bool.true_or]
    · obtain ⟨checked, reached, stops⟩ := ih later (Checked.ofEntry g e :: done)
      refine ⟨Checked.ofEntry g e :: checked, ?_, stops.prepend [Checked.ofEntry g e]⟩
      rw [reached, List.reverse_cons, List.append_assoc]
      rfl

theorem checkUntil_all (sound : Sound g entries) :
    checkUntil g (·.parsed.crashed) [] entries = entries.map (Checked.ofEntry g) := by
  obtain ⟨checked, reached, stops⟩ := checkUntil_stops sound false []
  simp only [Bool.false_and, Bool.or_false] at reached
  rw [reached, List.reverse_nil, List.nil_append, stops.eq_of_patient]

theorem sequential_stops (sound : Sound g entries) (b : Preferences.Batch) (path : String) :
    ∃ checked, (sequential g b path entries).outcome = .ok (.ofChecked checked entries.length 1) ∧
      StopsEarly b.failFast (entries.map (Checked.ofEntry g)) checked := by
  obtain ⟨checked, reached, stops⟩ := checkUntil_stops sound b.failFast []
  rw [List.reverse_nil, List.nil_append] at reached
  refine ⟨checked, ?_, stops⟩
  unfold sequential
  simp only [reached, sound.not_any_crashed stops]
  rfl

theorem round_checked {chunks : List (List Entry)} (sound : Sound g chunks.flatten) :
    (chunks.map (checkUntil g (·.parsed.crashed) [])).flatten =
      chunks.flatten.map (Checked.ofEntry g) := by
  rw [List.map_flatten]
  refine congrArg List.flatten (List.map_congr_left fun chunk member => checkUntil_all ?_)
  exact fun e inside => sound e (List.mem_flatten_of_mem member inside)

theorem rounds_stop {groups : List (List (List Entry))} (sound : Sound g groups.flatten.flatten)
    (b : Preferences.Batch) (path : String) (round : Nat) :
    ∃ checked, (rounds g b path round groups).checked = .ok checked ∧
      StopsEarly b.failFast (groups.flatten.flatten.map (Checked.ofEntry g)) checked := by
  induction groups generalizing round with
  | nil => exact ⟨[], rfl, .refl _ _⟩
  | cons chunks rest ih =>
    rw [List.flatten_cons, List.flatten_append] at sound ⊢
    obtain ⟨here, later⟩ := List.forall_mem_append.mp sound
    have quiet := Sound.not_any_crashed here (.refl false _)
    rw [rounds, List.map_append]
    simp only [round_checked here, quiet, Bool.false_eq_true, if_false]
    split
    · next stop =>
      rw [Bool.and_eq_true] at stop
      exact ⟨_, rfl, _, rfl, .inr stop⟩
    · obtain ⟨checked, reached, stops⟩ := ih later (round + 1)
      rw [reached]
      exact ⟨_, rfl, stops.prepend _⟩

theorem parallel_stops (sound : Sound g entries) (b : Preferences.Batch) (path : String)
    {threads : Nat} (positive : 1 ≤ threads) :
    ∃ checked used, (parallel g b path entries threads).outcome =
        .ok (.ofChecked checked entries.length used) ∧
      StopsEarly b.failFast (entries.map (Checked.ofEntry g)) checked := by
  let chunks := chunksOf (chunkSize entries.length threads) entries
  have whole : (chunksOf threads chunks).flatten.flatten = entries :=
    flatten_rounds positive entries
  obtain ⟨checked, reached, stops⟩ := rounds_stop (by rw [whole]; exact sound) b path 1
  rw [whole] at stops
  refine ⟨checked, min threads chunks.length, ?_, stops⟩
  show ((rounds g b path 1 (chunksOf threads chunks)).checked.mapError _).map _ = _
  rw [reached]
  rfl

theorem run_stops (sound : Sound g entries) (b : Preferences.Batch) (path : String) :
    ∃ checked used, (run g b path entries).outcome =
        .ok (.ofChecked checked entries.length used) ∧
      StopsEarly b.failFast (entries.map (Checked.ofEntry g)) checked := by
  unfold run
  split
  · obtain ⟨checked, outcome, stops⟩ := sequential_stops sound b path
    exact ⟨checked, 1, outcome, stops⟩
  · exact parallel_stops sound b path (Limits.one_le_clamp _ _)

end Runs

section Agreement

variable {g : Grammar} {entries : List Entry}

-- The results of processing exactly these entries: each has its outcome in one of the two lists, in
-- the order of the entries.
structure Covers (g : Grammar) (r : Results) (entries : List Entry) : Prop where
  successes : r.successes = (entries.map (Checked.ofEntry g)).filterMap (·.valid?)
  failures : r.failures = (entries.map (Checked.ofEntry g)).filterMap (·.failed?)
  once : r.processed = entries.length

def reported? (g : Grammar) (entries : List Entry) : Option Failed :=
  match (g.parseAll (entries.map (·.text))).1 with
  | .ok _ => none
  | .error (index, e) => (entries[index]?).map fun entry => ⟨entry.line, entry.text, e⟩

theorem covers_ofChecked (g : Grammar) (entries : List Entry) (total used : Nat) :
    Covers g (.ofChecked (entries.map (Checked.ofEntry g)) total used) entries := by
  refine ⟨rfl, rfl, ?_⟩
  rw [Results.processed, Results.ofChecked, Checked.count_outcomes, List.length_map]

theorem parseAll_go (entries : List Entry) (index : Nat) (actions : List Action)
    (events : List Log.Event) :
    ((∃ parsed,
          (Grammar.parseAll.go g index actions events (entries.map (·.text))).1 = .ok parsed) ∧
        (entries.map (Checked.ofEntry g)).filterMap (·.failed?) = []) ∨
      ∃ i e entry, (Grammar.parseAll.go g index actions events (entries.map (·.text))).1 =
          .error (index + i, e) ∧ entries[i]? = some entry ∧
        ((entries.map (Checked.ofEntry g)).filterMap (·.failed?)).head? =
          some ⟨entry.line, entry.text, e⟩ := by
  induction entries generalizing index actions events with
  | nil => exact .inl ⟨⟨_, rfl⟩, rfl⟩
  | cons entry rest ih =>
    rw [List.map_cons, List.map_cons, Grammar.parseAll.go]
    simp only [List.filterMap_cons]
    cases outcome : (g.parse entry.text).result with
    | ok action =>
      have none : (Checked.ofEntry g entry).failed? = none := by
        simp only [Checked.ofEntry, Checked.failed?, outcome]
      simp only [none]
      rcases ih (index + 1) (action :: actions) (events ++ (g.parse entry.text).events) with
        parsed | ⟨i, e, later, failed, here, first⟩
      · exact .inl parsed
      · refine .inr ⟨i + 1, e, later, ?_, here, first⟩
        rw [failed, Nat.add_right_comm, Nat.add_assoc]
    | error e =>
      have failed : (Checked.ofEntry g entry).failed? = some ⟨entry.line, entry.text, e⟩ := by
        simp only [Checked.ofEntry, Checked.failed?, outcome]
      simp only [failed]
      exact .inr ⟨0, e, entry, rfl, rfl, rfl⟩

theorem reported?_eq (g : Grammar) (entries : List Entry) :
    reported? g entries = ((entries.map (Checked.ofEntry g)).filterMap (·.failed?)).head? := by
  rcases parseAll_go entries 0 [] [] with ⟨⟨parsed, ok⟩, none⟩ | ⟨i, e, entry, failed, here, first⟩
  · rw [reported?, Grammar.parseAll, ok, none]
    rfl
  · rw [reported?, Grammar.parseAll, failed, first]
    simp only [Nat.zero_add, here]
    rfl

theorem isSuccess_ofChecked {failFast : Bool} {checked : List Checked} {used : Nat}
    (stops : StopsEarly failFast (entries.map (Checked.ofEntry g)) checked) :
    (Results.ofChecked checked entries.length used).isSuccess = (reported? g entries).isNone := by
  rw [reported?_eq, ← stops.first_failure]
  cases failures : checked.filterMap (·.failed?) with
  | nil =>
    have complete : checked = entries.map (Checked.ofEntry g) := by
      rw [Checked.failures_eq_nil_iff, stops.any_isFailed] at failures
      exact stops.eq_of_sound failures
    have once := (covers_ofChecked g entries entries.length used).once
    rw [← complete] at once
    rw [Results.isSuccess, once, Results.ofChecked, failures]
    exact beq_self_eq_true entries.length
  | cons first others =>
    rw [Results.isSuccess, Results.ofChecked, failures]
    rfl

theorem covers_beginning {failFast : Bool} {checked : List Checked}
    (stops : StopsEarly failFast (entries.map (Checked.ofEntry g)) checked) (used : Nat) :
    ∃ n, Covers g (.ofChecked checked entries.length used) (entries.take n) ∧
      (∀ i, entries.findIdx? (fun e => (Checked.ofEntry g e).isFailed) = some i → i < n) ∧
      (entries.findIdx? (fun e => (Checked.ofEntry g e).isFailed) = none →
        entries.take n = entries) := by
  have beginning : checked = (entries.take checked.length).map (Checked.ofEntry g) := by
    obtain ⟨left, all, -⟩ := stops
    rw [List.map_take, all, List.take_left]
  have covers := covers_ofChecked g (entries.take checked.length) entries.length used
  rw [← beginning] at covers
  have index : entries.findIdx? (fun e => (Checked.ofEntry g e).isFailed) =
      (entries.map (Checked.ofEntry g)).findIdx? (·.isFailed) := by
    rw [List.findIdx?_map]
    rfl
  refine ⟨checked.length, covers, ?_, ?_⟩
  · intro i first
    exact stops.first_index (index.symm.trans first)
  · intro none
    have quiet : (entries.map (Checked.ofEntry g)).any (·.isFailed) = false := by
      rw [← List.findIdx?_isSome, ← index, none]
      rfl
    rw [stops.eq_of_sound quiet, List.length_map, List.take_length]

-- Validation gives results for every number of workers. Unless it may stop early, they are those of
-- the sequential run and tell of every entry once. If it may, they tell of a beginning of the
-- entries, up to the first failure at least. The first failure and the success do not depend on any
-- setting: they are what a parse of all texts tells.
theorem run_agrees (sound : Sound g entries) (b : Preferences.Batch) (path : String) :
    ∃ r s, (run g b path entries).outcome = .ok r ∧
      (sequential g b path entries).outcome = .ok s ∧
      (b.failFast = false →
        r.successes = s.successes ∧ r.failures = s.failures ∧ Covers g r entries) ∧
      (b.failFast = true → ∃ n, Covers g r (entries.take n) ∧
        (∀ i, entries.findIdx? (fun e => (Checked.ofEntry g e).isFailed) = some i → i < n) ∧
        (entries.findIdx? (fun e => (Checked.ofEntry g e).isFailed) = none →
          entries.take n = entries)) ∧
      r.firstFailure? = reported? g entries ∧ r.isSuccess = (reported? g entries).isNone := by
  obtain ⟨checked, used, outcome, stops⟩ := run_stops sound b path
  obtain ⟨others, sequential, stops'⟩ := sequential_stops sound b path
  refine ⟨_, _, outcome, sequential, ?_, ?_, ?_, isSuccess_ofChecked stops⟩
  · intro patient
    rw [patient] at stops stops'
    rw [stops.eq_of_patient, stops'.eq_of_patient]
    exact ⟨rfl, rfl, covers_ofChecked g entries _ _⟩
  · intro _
    exact covers_beginning stops used
  · rw [reported?_eq, ← stops.first_failure]
    rfl

theorem run_agrees_incomplete :
    ∃ r, (run {} { maxThreads := 2, failFast := true } "a"
        [⟨1, "x:=1"⟩, ⟨3, "y:="⟩, ⟨4, "z:="⟩]).outcome = .ok r ∧
      r.firstFailure?.map (·.line) = some 3 ∧ r.isSuccess = false := by
  have sound : Sound {} [⟨1, "x:=1"⟩, ⟨3, "y:="⟩, ⟨4, "z:="⟩] := sound_of_climbing rfl _
  obtain ⟨r, s, outcome, -, -, -, first, success⟩ :=
    run_agrees sound { maxThreads := 2, failFast := true } "a"
  refine ⟨r, outcome, ?_, ?_⟩
  · rw [first]
    decide +kernel
  · rw [success]
    decide +kernel

end Agreement

end Validation

end StateActions
