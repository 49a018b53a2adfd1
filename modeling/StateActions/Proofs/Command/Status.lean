import Mathlib.Data.List.Basic
import StateActions.Command.Basic
import StateActions.Proofs.ActionFile.Reading
import StateActions.Proofs.Validation.Agreement

namespace StateActions

def IsAction (text : String) : Prop := ∃ a, parse text = .ok a

namespace Validation

theorem failures_run (b : Preferences.Batch) (path : String) (entries : List Entry) :
    ∃ r, (run {} b path entries).outcome = .ok r ∧
      (r.failures = [] ↔ ∀ text ∈ entries.map (·.text), IsAction text) := by
  have sound : Sound {} entries := sound_of_climbing rfl entries
  obtain ⟨checked, used, outcome, stops⟩ := run_stops sound b path
  refine ⟨_, outcome, ?_⟩
  change checked.filterMap (·.failed?) = [] ↔ _
  rw [Checked.failures_eq_nil_iff, stops.any_isFailed, List.any_eq_false, List.forall_mem_map,
    List.forall_mem_map]
  refine forall₂_congr fun e _ => ?_
  simp only [Checked.ofEntry, Checked.isFailed, Checked.failed?, IsAction, parse]
  cases (({} : Grammar).parse e.text).result with
  | ok a => simp
  | error e => simp

end Validation

namespace Command

def JsonWriter.Succeeds (json : JsonWriter) : Prop := ∀ a, ∃ text, json a = .ok text

theorem JsonWriter.Succeeds.render {json : JsonWriter} (succeeds : json.Succeeds) (format : Format)
    (a : Action) : ∃ text, render json format a = .ok text := by
  cases format with
  | canonical => exact ⟨_, rfl⟩
  | json => exact succeeds a
  | tree => exact ⟨_, rfl⟩

namespace Telling

variable {k : Nat} {json : JsonWriter} (t : Telling)

theorem action_status_le (succeeds : json.Succeeds) (format : Format) (parsed : String × Parsed) :
    (t.action json format parsed).status ≤ k ↔
      t.status ≤ k ∧ (1 ≤ k ∨ ∃ a, parsed.2.result = .ok a) := by
  unfold action
  cases parsed.2.result with
  | ok a =>
    obtain ⟨text, rendered⟩ := succeeds.render format a
    simp only [rendered]
    exact ⟨fun bounded => ⟨bounded, .inr ⟨a, rfl⟩⟩, And.left⟩
  | error e =>
    change max t.status 1 ≤ k ↔ _
    rw [Nat.max_le]
    exact and_congr_right fun _ => ⟨.inl, fun reason => reason.resolve_right nofun⟩

theorem actions_status_le (succeeds : json.Succeeds) (format : Format)
    (parsed : List (String × Parsed)) :
    (parsed.foldl (action json format) t).status ≤ k ↔
      t.status ≤ k ∧ (1 ≤ k ∨ ∀ p ∈ parsed, ∃ a, p.2.result = .ok a) := by
  induction parsed generalizing t with
  | nil => simp
  | cons p rest ih =>
    rw [List.foldl_cons, ih, action_status_le t succeeds, List.forall_mem_cons, and_assoc, ← or_and_left]

theorem failures_status_le (path : String) (r : Results) :
    (t.failures path r).status ≤ k ↔ t.status ≤ k ∧ (1 ≤ k ∨ r.failures = []) := by
  unfold failures
  cases r.failures with
  | nil => simp
  | cons first rest =>
    change max t.status 1 ≤ k ↔ _
    rw [Nat.max_le]
    simp

theorem file_status_le {host : Host} (measured : host.Measured) (quiet : Bool)
    (batch : Preferences.Batch) (path : String) :
    (t.file quiet (.ofFile {} batch path (ActionFile.read host path))).status ≤ k ↔
      t.status ≤ k ∧ (2 ≤ k ∨ ∃ source, ActionFile.Readable host path source ∧
        (1 ≤ k ∨ ∀ text ∈ actionTexts source, IsAction text)) := by
  cases done : ActionFile.read host path with
  | error e =>
    change max t.status 2 ≤ k ↔ _
    rw [Nat.max_le]
    refine and_congr_right fun _ => ⟨.inl, fun reason => reason.resolve_right ?_⟩
    rintro ⟨source, readable, -⟩
    obtain ⟨length, f, same, -⟩ := ActionFile.read_of_readable readable
    rw [done] at same
    cases same
  | ok read =>
    obtain ⟨length, f⟩ := read
    obtain ⟨r, outcome, failures⟩ := Validation.failures_run batch path f.entries
    have told : (t.file quiet (.ofFile {} batch path (.ok (length, f)))).status ≤ k ↔
        t.status ≤ k ∧ (1 ≤ k ∨ ∀ text ∈ f.entries.map (·.text), IsAction text) := by
      unfold file FileWork.ofFile
      simp only [outcome]
      rw [failures_status_le, failures]
      cases quiet <;> rfl
    rw [told]
    refine and_congr_right fun _ => ⟨fun reason => ?_, ?_⟩
    · obtain ⟨source, readable, texts⟩ := ActionFile.readable_of_read measured done
      exact .inr ⟨source, readable, texts ▸ reason⟩
    · rintro (two | ⟨source, readable, reason⟩)
      · exact .inl (by omega)
      · obtain ⟨length, g, same, texts⟩ := ActionFile.read_of_readable readable
        cases done.symm.trans same
        rwa [texts]

end Telling

def statusOf (host : Host) (json : JsonWriter) (clock : Clock) (o : Options) : Nat :=
  (tell json clock o (work host o {})).status

section Statuses

variable {host : Host} {json : JsonWriter}

theorem statusOf_le_iff (measured : host.Measured) (succeeds : json.Succeeds) (clock : Clock)
    (o : Options) (k : Nat) :
    statusOf host json clock o ≤ k ↔
      (1 ≤ k ∨ ∀ text ∈ o.actions, IsAction text) ∧
        ∀ path, o.file = some path → 2 ≤ k ∨ ∃ source, ActionFile.Readable host path source ∧
          (1 ≤ k ∨ ∀ text ∈ actionTexts source, IsAction text) := by
  have spoken : ∀ t : Telling, t.status = 0 →
      (((work host o {}).actions.foldl (Telling.action json o.format) t).status ≤ k ↔
        1 ≤ k ∨ ∀ text ∈ o.actions, IsAction text) := by
    intro t fresh
    rw [Telling.actions_status_le t succeeds, fresh, work, List.forall_mem_map]
    exact and_iff_right (Nat.zero_le k)
  obtain ⟨session, started⟩ :
      ∃ session, ({ preferences := (work host o {}).preferences.logging } : Log.Session).start
        (work host o {}).preferences.logging.minLevel = .ok session := ⟨_, rfl⟩
  unfold statusOf tell
  simp only [started]
  cases file : o.file with
  | none =>
    have silent : (work host o {}).file = none := by rw [work, file]; rfl
    rw [silent]
    exact (spoken _ rfl).trans (and_iff_left nofun).symm
  | some path =>
    have told : (work host o {}).file =
        some (.ofFile {} (batchOf o {}) path (ActionFile.read host path)) := by
      rw [work, file]
      rfl
    rw [told]
    refine (Telling.file_status_le _ measured o.quiet _ path).trans (and_congr (spoken _ rfl) ?_)
    simp

theorem statusOf_le_two (measured : host.Measured) (succeeds : json.Succeeds) (clock : Clock)
    (o : Options) : statusOf host json clock o ≤ 2 := by
  rw [statusOf_le_iff measured succeeds]
  exact ⟨.inl (by omega), fun _ _ => .inl (Nat.le_refl _)⟩

theorem statusOf_congr (measured : host.Measured) (succeeds : json.Succeeds) {o o' : Options}
    (actions : o'.actions = o.actions) (file : o'.file = o.file) (clock clock' : Clock) :
    statusOf host json clock' o' = statusOf host json clock o := by
  have same : ∀ k, statusOf host json clock' o' ≤ k ↔ statusOf host json clock o ≤ k := by
    intro k
    rw [statusOf_le_iff measured succeeds, statusOf_le_iff measured succeeds, actions, file]
  exact Nat.le_antisymm ((same _).mpr (Nat.le_refl _)) ((same _).mp (Nat.le_refl _))

-- A run whose arguments name no preferences, where the environment sets none.
theorem run_status {env : Environment} {args : List String} {o : Options}
    (unset : env.preferences = {}) (given : Options.parse args = .ok o)
    (plain : o.showHelp = false ∧ o.showVersion = false ∧ o.config = none)
    (host : Host) (json : JsonWriter) (clock : Clock) :
    (run env host json clock args).status = statusOf host json clock o := by
  obtain ⟨help, version, config⟩ := plain
  have planned : plan env host args = .run o {} := by
    simp only [plan, given, help, version, preferencesFor, config, unset]
    rfl
  rw [run, planned]
  rfl

-- The status is 0 exactly if every action argument is an action and the file, if one is given, can
-- be read and holds nothing but actions. It is 2 exactly if a file is given that cannot be read,
-- and 1 in every other case. The other options and the clock do not matter, and the status is that
-- of the run of any arguments that stand for the options.
theorem statusOf_exact (measured : host.Measured) (succeeds : json.Succeeds) (clock : Clock)
    (o : Options) :
    (statusOf host json clock o = 0 ↔
      (∀ text ∈ o.actions, IsAction text) ∧
        ∀ path, o.file = some path → ∃ source, ActionFile.Readable host path source ∧
          ∀ text ∈ actionTexts source, IsAction text) ∧
    (statusOf host json clock o = 2 ↔
      ∃ path, o.file = some path ∧ ¬∃ source, ActionFile.Readable host path source) ∧
    (statusOf host json clock o ≠ 0 → statusOf host json clock o ≠ 2 →
      statusOf host json clock o = 1) ∧
    (∀ (clock' : Clock) (o' : Options), o'.actions = o.actions → o'.file = o.file →
      statusOf host json clock' o' = statusOf host json clock o) ∧
    ∀ (env : Environment) (args : List String), env.preferences = {} →
      Options.parse args = .ok o → o.showHelp = false ∧ o.showVersion = false ∧ o.config = none →
        (run env host json clock args).status = statusOf host json clock o := by
  have two := statusOf_le_two measured succeeds clock o
  refine ⟨?_, ?_, fun _ _ => by omega, fun clock' o' actions file => ?_, ?_⟩
  · rw [← Nat.le_zero, statusOf_le_iff measured succeeds]
    simp
  · have one := statusOf_le_iff measured succeeds clock o 1
    rw [and_iff_right (.inl (Nat.le_refl _))] at one
    rw [show statusOf host json clock o = 2 ↔ ¬statusOf host json clock o ≤ 1 by omega, one]
    simp
  · exact statusOf_congr measured succeeds actions file clock clock'
  · intro env args unset given plain
    exact run_status unset given plain host json clock

theorem statusOf_exact_comment :
    let host : Host := fun _ => .ok (.ofBytes "# a\nx := 1\n".toUTF8)
    (run (fun _ => none) host prettyJson {}
      ["--file", "a", "--threads", "4", "--fail-fast"]).status = 0 := by
  intro host
  have measured : host.Measured := by
    rintro path length bytes ⟨⟩
    rfl
  have succeeds : prettyJson.Succeeds := fun a => ⟨_, rfl⟩
  have meaning := statusOf_exact measured succeeds {}
    { file := some "a", threads := some 4, failFast := true }
  have texts : actionTexts "# a\nx := 1\n" = ["x := 1"] := by decide +kernel
  rw [meaning.2.2.2.2 (fun _ => none) _ rfl rfl ⟨rfl, rfl, rfl⟩]
  refine meaning.1.mpr ⟨List.forall_mem_nil _, fun path given =>
    ⟨"# a\nx := 1\n", ⟨rfl, by decide, by decide, ?_⟩, ?_⟩⟩
  · rw [texts]
    decide
  · rw [texts, List.forall_mem_singleton]
    exact ⟨.assignment "x" (.number 1), by decide +kernel⟩

end Statuses

end Command

end StateActions
