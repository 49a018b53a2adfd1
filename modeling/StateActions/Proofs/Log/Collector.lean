import Mathlib.Algebra.GroupWithZero.Nat
import Mathlib.Data.List.Forall2
import Mathlib.Data.Prod.Lex
import Mathlib.Data.String.Basic
import StateActions.Log.Collector

namespace StateActions.Log.Collector

section Paths

def rank (part : String) : ℕ ×ₗ String := toLex (partRank part, part)

def key (path : String) : List (ℕ ×ₗ String) := (components path).map rank

theorem rank_injective : Function.Injective rank := by
  intro a b same
  exact (Prod.ext_iff.mp same).2

theorem partBefore_iff {p q : String} : partBefore p q = true ↔ rank p < rank q := by
  rw [rank, rank, Prod.Lex.toLex_lt_toLex]
  simp [partBefore]

theorem pathBefore_iff {p q : String} : pathBefore p q = true ↔ key p < key q := by
  have parts : ∀ as bs : List String,
      pathBefore.go as bs = true ↔ as.map rank < bs.map rank := by
    intro as
    induction as with
    | nil => intro bs; cases bs <;> simp [pathBefore.go]
    | cons a as ih =>
      intro bs
      cases bs with
      | nil => simp [pathBefore.go]
      | cons b bs =>
        simp only [pathBefore.go, Bool.or_eq_true, Bool.and_eq_true, beq_iff_eq, ih,
          partBefore_iff, List.map_cons, List.cons_lt_cons_iff, rank_injective.eq_iff]
  exact parts _ _

theorem samePath_iff {p q : String} : samePath p q = true ↔ key p = key q := by
  rw [samePath, beq_iff_eq, key, key, (List.map_injective_iff.mpr rank_injective).eq_iff]

end Paths

section Files

variable {path : String} {event : Event} {files : List (String × List Event)}

-- The files of a collector: in the order of their paths, and none without events.
structure Filed (files : List (String × List Event)) : Prop where
  ordered : files.Pairwise fun one other => key one.1 < key other.1
  filled : ∀ file ∈ files, file.2 ≠ []

def listed (path : String) (files : List (String × List Event)) : List Event :=
  ((files.find? fun file => samePath file.1 path).map (·.2)).getD []

def weight (w : List Event → Nat) (files : List (String × List Event)) : Nat :=
  (files.map fun file => w file.2).sum

theorem listed_of_absent (absent : ∀ file ∈ files, key file.1 ≠ key path) :
    listed path files = [] := by
  have none : (files.find? fun file => samePath file.1 path) = none := by
    rw [List.find?_eq_none]
    intro file member same
    exact absent file member (samePath_iff.mp same)
  rw [listed, none]
  rfl

theorem mem_insert (file : String × List Event) (member : file ∈ insert path event files) :
    key file.1 = key path ∨ file ∈ files := by
  induction files with
  | nil =>
    rw [insert, List.mem_singleton] at member
    exact .inl (by rw [member])
  | cons first rest ih =>
    obtain ⟨held, events⟩ := first
    rw [insert] at member
    split at member
    · next same =>
      rcases List.mem_cons.mp member with rfl | later
      · exact .inl (samePath_iff.mp same)
      · exact .inr (List.mem_cons_of_mem _ later)
    · split at member
      · rcases List.mem_cons.mp member with rfl | later
        · exact .inl rfl
        · exact .inr later
      · rcases List.mem_cons.mp member with rfl | later
        · exact .inr List.mem_cons_self
        · exact (ih later).imp id (List.mem_cons_of_mem _)

theorem filed_insert (filed : Filed files) : Filed (insert path event files) := by
  induction files with
  | nil => exact ⟨List.pairwise_singleton _ _, by simp [insert]⟩
  | cons first rest ih =>
    obtain ⟨held, events⟩ := first
    obtain ⟨ordered, filled⟩ := filed
    obtain ⟨before, ordered⟩ := List.pairwise_cons.mp ordered
    obtain ⟨here, filled⟩ := List.forall_mem_cons.mp filled
    rw [insert]
    split
    · exact ⟨List.pairwise_cons.mpr ⟨before, ordered⟩,
        List.forall_mem_cons.mpr ⟨by simp, filled⟩⟩
    · next other =>
      split
      · next earlier =>
        have first := pathBefore_iff.mp earlier
        refine ⟨List.pairwise_cons.mpr ⟨?_, List.pairwise_cons.mpr ⟨before, ordered⟩⟩,
          List.forall_mem_cons.mpr ⟨by simp, List.forall_mem_cons.mpr ⟨here, filled⟩⟩⟩
        exact List.forall_mem_cons.mpr ⟨first, fun file member => first.trans (before file member)⟩
      · next later =>
        have after : key held < key path := by
          refine lt_of_le_of_ne (not_lt.mp fun less => later (pathBefore_iff.mpr less)) ?_
          exact fun same => other (samePath_iff.mpr same)
        obtain ⟨ordered', filled'⟩ := ih ⟨ordered, filled⟩
        refine ⟨List.pairwise_cons.mpr ⟨fun file member => ?_, ordered'⟩,
          List.forall_mem_cons.mpr ⟨here, filled'⟩⟩
        rcases mem_insert file member with same | old
        · rw [same]
          exact after
        · exact before file old

theorem insert_filed (filed : Filed files) (w : List Event → Nat) (empty : w [] = 0) :
    listed path (insert path event files) = listed path files ++ [event] ∧
      weight w (insert path event files) + w (listed path files) =
        weight w files + w (listed path files ++ [event]) := by
  induction files with
  | nil =>
    have self : samePath path path = true := samePath_iff.mpr rfl
    simp [insert, listed, weight, self, empty]
  | cons first rest ih =>
    obtain ⟨held, events⟩ := first
    obtain ⟨ordered, filled⟩ := filed
    obtain ⟨before, ordered⟩ := List.pairwise_cons.mp ordered
    rw [insert]
    split
    · next same =>
      simp [listed, weight, same]
      omega
    · next other =>
      have skip : ∀ rest, listed path ((held, events) :: rest) = listed path rest := by
        intro rest
        simp [listed, other]
      split
      · next earlier =>
        have first := pathBefore_iff.mp earlier
        have absent : listed path rest = [] := listed_of_absent fun file member =>
          (first.trans (before file member)).ne'
        have self : samePath path path = true := samePath_iff.mpr rfl
        rw [skip, absent]
        simp [listed, weight, self, empty]
        omega
      · obtain ⟨listed', weight'⟩ := ih ⟨ordered, (List.forall_mem_cons.mp filled).2⟩
        rw [skip, skip]
        refine ⟨listed', ?_⟩
        simp only [weight, List.map_cons, List.sum_cons] at weight' ⊢
        omega

theorem entered_of_listed (filled : listed path files ≠ []) : entered path files = files := by
  refine if_pos ?_
  by_contra absent
  rw [List.any_eq_true, not_exists] at absent
  refine filled (listed_of_absent fun file member same => absent file ⟨member, ?_⟩)
  exact samePath_iff.mpr same

end Files

section Calls

variable {c : Collector} {path : String}

-- No list is set up for nothing: at the cap of a path it has one.
theorem record_eq (c : Collector) (path : String) (event : Event) : c.record path event =
    if c.total ≥ Limits.collectedEvents ∨ (c.eventsOf path).length ≥ Limits.eventsPerSource then
      { c with dropped := c.dropped + 1 }
    else { c with events := insert path event c.events, total := c.total + 1 } := by
  unfold record
  by_cases full : c.total ≥ Limits.collectedEvents
  · rw [if_pos full, if_pos (.inl full)]
  · rw [if_neg full]
    by_cases many : (c.eventsOf path).length ≥ Limits.eventsPerSource
    · have filled : listed path c.events ≠ [] := by
        refine List.ne_nil_of_length_pos (lt_of_lt_of_le ?_ many)
        decide
      rw [if_pos many, if_pos (.inr many), entered_of_listed filled]
    · rw [if_neg many, if_neg (not_or.mpr ⟨full, many⟩)]

def recordAll (c : Collector) (calls : List (String × Event)) : Collector :=
  calls.foldl (fun c call => c.record call.1 call.2) c

theorem recordAll_append (c : Collector) (first later : List (String × Event)) :
    c.recordAll (first ++ later) = (c.recordAll first).recordAll later := List.foldl_append

-- How many more events of a path fit under both caps.
def room (c : Collector) (path : String) : Nat :=
  min (Limits.collectedEvents - c.total) (Limits.eventsPerSource - (c.eventsOf path).length)

theorem record_full (full : c.room path = 0) (event : Event) :
    c.record path event = { c with dropped := c.dropped + 1 } := by
  rw [record_eq]
  refine if_pos ?_
  unfold room at full
  omega

theorem record_kept (fits : 0 < c.room path) (event : Event) :
    c.record path event =
      { c with events := insert path event c.events, total := c.total + 1 } := by
  rw [record_eq]
  refine if_neg ?_
  unfold room at fits
  omega

-- What events of one path bring about: the first of them are kept, as many as there is room for,
-- and the others are counted.
structure Takes (c : Collector) (path : String) (events : List Event) (after : Collector) : Prop where
  filed : Filed after.events
  held : after.eventsOf path = c.eventsOf path ++ events.take (c.room path)
  dropped : after.dropped = c.dropped + (events.length - c.room path)
  weighs : ∀ w : List Event → Nat, w [] = 0 →
    weight w after.events + w (c.eventsOf path) = weight w c.events + w (after.eventsOf path)

theorem Takes.after_dropped {after : Collector} {event : Event} {rest : List Event}
    (full : c.room path = 0) (later : (c.record path event).Takes path rest after) :
    c.Takes path (event :: rest) after := by
  rw [record_full full] at later
  obtain ⟨filed, held, dropped, weighs⟩ := later
  have none : room { c with dropped := c.dropped + 1 } path = 0 := full
  rw [none] at held dropped
  refine ⟨filed, by rw [held, full]; rfl, ?_, weighs⟩
  rw [dropped, full]
  simp only [List.length_cons]
  omega

theorem Takes.after_kept {after : Collector} {event : Event} {rest : List Event}
    (filed : Filed c.events) (fits : 0 < c.room path)
    (later : (c.record path event).Takes path rest after) :
    c.Takes path (event :: rest) after := by
  rw [record_kept fits] at later
  obtain ⟨filed', held, dropped, weighs⟩ := later
  have listed' : ({ c with events := insert path event c.events, total := c.total + 1 } :
      Collector).eventsOf path = c.eventsOf path ++ [event] :=
    (insert_filed filed (fun _ => 0) rfl).1
  have less : room { c with events := insert path event c.events, total := c.total + 1 } path + 1 =
      c.room path := by
    unfold room at fits ⊢
    rw [listed', List.length_append, List.length_singleton]
    dsimp only
    omega
  rw [listed'] at held weighs
  refine ⟨filed', ?_, ?_, fun w empty => ?_⟩
  · rw [held, ← less, List.take_succ_cons, List.append_assoc]
    rfl
  · rw [dropped, ← less, List.length_cons, Nat.add_sub_add_right]
  · have here : weight w (insert path event c.events) + w (c.eventsOf path) =
        weight w c.events + w (c.eventsOf path ++ [event]) := (insert_filed filed w empty).2
    have there : weight w after.events + w (c.eventsOf path ++ [event]) =
        weight w (insert path event c.events) + w (after.eventsOf path) := weighs w empty
    omega

theorem filed_record (filed : Filed c.events) (path : String) (event : Event) :
    Filed (c.record path event).events := by
  rcases Nat.eq_zero_or_pos (c.room path) with full | fits
  · rw [record_full full]
    exact filed
  · rw [record_kept fits]
    exact filed_insert filed

theorem takes_recordAll (filed : Filed c.events) (events : List Event) :
    c.Takes path events (c.recordAll (events.map (path, ·))) := by
  induction events generalizing c with
  | nil => exact ⟨filed, by simp [recordAll], by simp [recordAll], fun _ _ => rfl⟩
  | cons event rest ih =>
    have later := ih (filed_record filed path event)
    rcases Nat.eq_zero_or_pos (c.room path) with full | fits
    · exact .after_dropped full later
    · exact .after_kept filed fits later

theorem filed_recordAll (filed : Filed c.events) (calls : List (String × Event)) :
    Filed (c.recordAll calls).events := by
  induction calls generalizing c with
  | nil => exact filed
  | cons call rest ih => exact ih (filed_record filed call.1 call.2)

end Calls

section Summaries

variable {c after : Collector} {path : String} {events : List Event}

theorem length_eq_weight {files : List (String × List Event)}
    (filled : ∀ file ∈ files, file.2 ≠ []) :
    files.length = weight (fun events => if events = [] then 0 else 1) files := by
  induction files with
  | nil => rfl
  | cons file rest ih =>
    obtain ⟨here, filled⟩ := List.forall_mem_cons.mp filled
    rw [List.length_cons, ih filled, weight, weight, List.map_cons, List.sum_cons, if_neg here,
      Nat.add_comm]

theorem filter_eq_weight (p : List Event → Bool) (files : List (String × List Event)) :
    (files.filter fun file => p file.2).length = weight (fun events => (p events).toNat) files := by
  induction files with
  | nil => rfl
  | cons file rest ih =>
    rw [weight, List.map_cons, List.sum_cons, List.filter_cons]
    cases held : p file.2 with
    | true => simp [ih, weight, Nat.add_comm]
    | false => simp [ih, weight]

theorem countP_eq_weight (p : Event → Bool) (files : List (String × List Event)) :
    (files.flatMap (·.2)).countP p = weight (List.countP p) files := by
  rw [List.countP_flatMap]
  rfl

-- What a summary becomes by errors of one path: as many as there is room for are added to it and
-- the others count as dropped. The file is new among the sources if it had no events, and new among
-- those with errors if it had none.
def withErrors (c : Collector) (path : String) (count : Nat) : Summary :=
  let kept := min count (c.room path)
  { sources := c.summary.sources + (kept > 0 && (c.eventsOf path).isEmpty).toNat
    sourcesWithErrors :=
      c.summary.sourcesWithErrors + (kept > 0 && (c.errorsOf path).isEmpty).toNat
    errors := c.summary.errors + kept
    warnings := c.summary.warnings
    dropped := c.summary.dropped + (count - kept) }

theorem present_append (old kept : List Event) :
    (if old ++ kept = [] then 0 else 1) =
      (if old = [] then 0 else 1) + (kept.length > 0 && old.isEmpty).toNat := by
  rcases old with - | ⟨first, rest⟩
  · cases kept <;> simp
  · simp

theorem erroneous_append {old kept : List Event} (fresh : ∀ event ∈ kept, event.isError = true) :
    ((old ++ kept).any (·.isError)).toNat = (old.any (·.isError)).toNat +
      (kept.length > 0 && (old.filter (·.isError)).isEmpty).toNat := by
  have none : (old.filter (·.isError)).isEmpty = !old.any (·.isError) := by
    rw [Bool.eq_iff_iff]
    simp
  rw [none, List.any_append]
  cases old.any (·.isError) with
  | true => simp
  | false =>
    rcases kept with - | ⟨first, rest⟩
    · rfl
    · have error : first.isError = true := fresh first List.mem_cons_self
      simp [error]

theorem Takes.summary (filed : Filed c.events) (takes : c.Takes path events after)
    (errors : ∀ event ∈ events, event.isError = true) :
    after.summary = c.withErrors path events.length := by
  obtain ⟨filed', held, dropped, weighs⟩ := takes
  have fresh : ∀ event ∈ events.take (c.room path), event.isError = true :=
    fun event member => errors event (List.mem_of_mem_take member)
  have count : (events.take (c.room path)).length = min events.length (c.room path) := by
    rw [List.length_take, Nat.min_comm]
  rw [held] at weighs
  have sources := weighs (fun events => if events = [] then 0 else 1) rfl
  have sourcesWithErrors := weighs (fun events => (events.any (·.isError)).toNat) rfl
  have errorCount := weighs (List.countP (·.isError)) rfl
  have warningCount := weighs (List.countP (·.isWarning)) rfl
  rw [← length_eq_weight filed.filled, ← length_eq_weight filed'.filled] at sources
  rw [← filter_eq_weight, ← filter_eq_weight] at sourcesWithErrors
  rw [← countP_eq_weight, ← countP_eq_weight, List.countP_append] at errorCount warningCount
  rw [List.countP_eq_length.mpr fresh, count] at errorCount
  have quiet : (events.take (c.room path)).countP (·.isWarning) = 0 := by
    rw [List.countP_eq_zero]
    intro event member
    have level : event.level = .error := beq_iff_eq.mp (fresh event member)
    simp [Event.isWarning, level]
  rw [quiet] at warningCount
  unfold withErrors Collector.summary
  rw [Summary.mk.injEq]
  refine ⟨?_, ?_, by simp only; omega, by simp only; omega, by simp only; omega⟩
  · rw [← count]
    rw [present_append] at sources
    simp only
    omega
  · rw [← count]
    rw [erroneous_append fresh] at sourcesWithErrors
    simp only [errorsOf]
    omega

end Summaries

section Levels

variable {c d : Collector} {files others : List (String × List Event)}

-- Files with the same paths and, event by event, the same levels.
def SameLevels : List (String × List Event) → List (String × List Event) → Prop :=
  List.Forall₂ fun file other =>
    file.1 = other.1 ∧ file.2.map (·.level) = other.2.map (·.level)

structure Alike (c d : Collector) : Prop where
  files : SameLevels c.events d.events
  total : c.total = d.total
  dropped : c.dropped = d.dropped

theorem Alike.refl (c : Collector) : c.Alike c :=
  ⟨List.forall₂_same.mpr fun _ _ => ⟨rfl, rfl⟩, rfl, rfl⟩

theorem SameLevels.length_listed (same : SameLevels files others) (path : String) :
    (listed path files).length = (listed path others).length := by
  induction same with
  | nil => rfl
  | @cons file other _ _ here _ ih =>
    have count : file.2.length = other.2.length := by
      simpa using congrArg List.length here.2
    unfold listed at ih ⊢
    rw [List.find?_cons, List.find?_cons, here.1]
    cases samePath other.1 path with
    | true => exact count
    | false => exact ih

theorem SameLevels.insert {event different : Event} (level : event.level = different.level)
    (path : String) (same : SameLevels files others) :
    SameLevels (insert path event files) (insert path different others) := by
  induction same with
  | nil => exact .cons ⟨rfl, by simp [level]⟩ .nil
  | @cons file other files others here later ih =>
    obtain ⟨held, events⟩ := file
    obtain ⟨held', events'⟩ := other
    obtain ⟨rfl, levels⟩ := here
    rw [Collector.insert, Collector.insert]
    split
    · exact .cons ⟨rfl, by simp [levels, level]⟩ later
    · split
      · exact .cons ⟨rfl, by simp [level]⟩ (.cons ⟨rfl, levels⟩ later)
      · exact .cons ⟨rfl, levels⟩ ih

theorem Alike.record {event different : Event} (alike : c.Alike d)
    (level : event.level = different.level) (path : String) :
    (c.record path event).Alike (d.record path different) := by
  have count : (c.eventsOf path).length = (d.eventsOf path).length := alike.files.length_listed path
  rw [record_eq, record_eq, alike.total, count]
  split
  · exact ⟨alike.files, rfl, congrArg (· + 1) alike.dropped⟩
  · exact ⟨alike.files.insert level path, rfl, alike.dropped⟩

theorem Alike.recordAll {path : String} {events different : List Event} (alike : c.Alike d)
    (levels : events.map (·.level) = different.map (·.level)) :
    (c.recordAll (events.map (path, ·))).Alike (d.recordAll (different.map (path, ·))) := by
  induction events generalizing c d different with
  | nil =>
    cases different with
    | nil => exact alike
    | cons _ _ => cases levels
  | cons event rest ih =>
    cases different with
    | nil => cases levels
    | cons other others =>
      obtain ⟨here, later⟩ := List.cons.inj levels
      have done := ih (alike.record here path) later
      exact done

theorem SameLevels.weight {w : List Event → Nat} (v : List Level → Nat)
    (told : ∀ events, w events = v (events.map (·.level))) (same : SameLevels files others) :
    weight w files = weight w others := by
  induction same with
  | nil => rfl
  | @cons file other _ _ here _ ih =>
    have equal : w file.2 = w other.2 := by rw [told, told, here.2]
    unfold Collector.weight at ih ⊢
    rw [List.map_cons, List.map_cons, List.sum_cons, List.sum_cons, equal, ih]

theorem Alike.summary (alike : c.Alike d) : c.summary = d.summary := by
  obtain ⟨files, -, dropped⟩ := alike
  have sourcesWithErrors := files.weight (fun levels => (levels.any (· == .error)).toNat)
    fun events => by rw [List.any_map]
  have errors := files.weight (List.countP (· == .error)) fun events => by rw [List.countP_map]
  have warnings := files.weight (List.countP (· == .warning)) fun events => by rw [List.countP_map]
  unfold Collector.summary
  rw [Summary.mk.injEq, filter_eq_weight (·.any (·.isError)), filter_eq_weight (·.any (·.isError)),
    countP_eq_weight, countP_eq_weight, countP_eq_weight, countP_eq_weight]
  exact ⟨files.length_eq, sourcesWithErrors, errors, warnings, dropped⟩

end Levels

end StateActions.Log.Collector
