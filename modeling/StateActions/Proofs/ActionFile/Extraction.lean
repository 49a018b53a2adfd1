import Mathlib.Data.Set.Card
import StateActions.Proofs.ActionFile.Reading
import StateActions.Proofs.Source.Excerpt
import StateActions.Proofs.Validation.Agreement

namespace StateActions

namespace Text

def IsBlankLine (line : List Char) : Prop := ∀ c ∈ line, isBlank c = true

def IsComment (line : List Char) : Prop :=
  ∃ indent rest, line = indent ++ '#' :: rest ∧ ∀ c ∈ indent, isBlank c = true

variable {line tail : List Char}

-- What is trimmed off a line: the blanks in front, and blanks at the end.
theorem exists_trimmed (line : List Char) : ∃ tail,
    line.dropWhile isBlank = trim line ++ tail ∧ ∀ c ∈ tail, isBlank c = true :=
  ⟨(line.dropWhile isBlank).rtakeWhile isBlank, List.rdropWhile_append_rtakeWhile.symm,
    fun _ member => List.mem_rtakeWhile_imp member⟩

theorem trim_append_blank (blank : ∀ c ∈ tail, isBlank c = true) :
    trim (line ++ tail) = trim line := by
  unfold trim
  rw [List.dropWhile_append]
  split
  · next none =>
    rw [List.isEmpty_iff] at none
    rw [none, List.dropWhile_eq_nil_iff.mpr blank]
  · rw [← List.rdropWhile, ← List.rdropWhile, rdropWhile_append,
      if_pos (List.all_eq_true.mpr blank)]

theorem trim_dropReturn (line : List Char) : trim (dropReturn line) = trim line := by
  unfold dropReturn
  split
  · next ended =>
    obtain ⟨front, rfl⟩ := List.getLast?_eq_some_iff.mp ended
    rw [List.dropLast_concat, trim_append_blank (List.forall_mem_singleton.mpr rfl)]
  · rfl

theorem trim_rdropWhile (line : List Char) :
    trim (line.rdropWhile (· == '\r')) = trim line := by
  conv_rhs => rw [← List.rdropWhile_append_rtakeWhile (p := (· == '\r')) (l := line)]
  refine (trim_append_blank fun c member => ?_).symm
  obtain rfl : c = '\r' := by simpa using List.mem_rtakeWhile_imp (p := (· == '\r')) member
  rfl

theorem isBlankLine_iff : IsBlankLine line ↔ trim line = [] := by
  constructor
  · intro blank
    rw [trim, List.dropWhile_eq_nil_iff.mpr blank]
    rfl
  · intro none c member
    obtain ⟨tail, left, blank⟩ := exists_trimmed line
    rw [none, List.nil_append] at left
    rw [← List.takeWhile_append_dropWhile (p := isBlank) (l := line), left] at member
    rcases List.mem_append.mp member with front | ended
    · exact all_takeWhile isBlank line c front
    · exact blank c ended

theorem isComment_iff : IsComment line ↔ (trim line).head? = some '#' := by
  obtain ⟨tail, left, blank⟩ := exists_trimmed line
  constructor
  · rintro ⟨indent, rest, rfl, before⟩
    rw [List.dropWhile_append_of_pos before, List.dropWhile_cons_of_neg (by decide)] at left
    cases kept : trim (indent ++ '#' :: rest) with
    | nil =>
      rw [kept, List.nil_append] at left
      cases blank '#' (left ▸ List.mem_cons_self)
    | cons c more =>
      rw [kept, List.cons_append] at left
      rw [(List.cons.inj left).1]
      rfl
  · intro first
    obtain ⟨more, kept⟩ := List.head?_eq_some_iff.mp first
    refine ⟨line.takeWhile isBlank, more ++ tail, ?_, all_takeWhile isBlank line⟩
    rw [← List.cons_append, ← kept, ← left, List.takeWhile_append_dropWhile]

end Text

open Text

namespace Entry

variable {number : Nat} {line : List Char} {lines : List (List Char)} {e : Entry}

theorem ofLine?_eq_some_iff : ofLine? number line = some e ↔
    ¬ IsBlankLine line ∧ ¬ IsComment line ∧ e = ⟨number, String.ofList (trim line)⟩ := by
  rw [isBlankLine_iff, isComment_iff]
  unfold ofLine?
  split
  · next blank => simp [blank]
  · next rest comment => simp [comment]
  · next filled other =>
    have unmarked : (trim line).head? ≠ some '#' := by
      intro marked
      obtain ⟨rest, comment⟩ := List.head?_eq_some_iff.mp marked
      exact other rest comment
    exact ⟨fun held => ⟨filled, unmarked, (Option.some.inj held).symm⟩,
      fun ⟨_, _, same⟩ => congrArg some same.symm⟩

-- Only what is left of a line after trimming counts.
theorem ofLines_map {f : List Char → List Char} (same : ∀ line, trim (f line) = trim line)
    (number : Nat) (lines : List (List Char)) :
    ofLines number (lines.map f) = ofLines number lines := by
  unfold ofLines ofLine?
  simp only [List.zipIdx_map, List.filterMap_map, Function.comp_def, Prod.map, same, id]

theorem ofLines_append (number : Nat) (lines others : List (List Char)) :
    ofLines number (lines ++ others) =
      ofLines number lines ++ ofLines (number + lines.length) others := by
  unfold ofLines
  rw [List.zipIdx_append, List.filterMap_append]

theorem ofLines_lines (text : List Char) : ofLines 1 (Text.lines text) = ofLines 1 (pieces text) := by
  rcases List.eq_nil_or_concat' (pieces text) with none | ⟨ended, last, shape⟩
  · exact absurd none (List.splitOn_ne_nil _ _)
  · unfold Text.lines
    simp only [shape, List.reverse_append, List.reverse_singleton, List.singleton_append,
      List.reverse_reverse]
    rw [ofLines_append]
    split
    · next empty =>
      rw [List.isEmpty_iff.mp empty, ofLines_map trim_dropReturn]
      exact (List.append_nil _).symm
    · rw [ofLines_append, ofLines_map trim_dropReturn, List.length_map]

theorem mem_ofLines : e ∈ ofLines number lines ↔
    ∃ index line, lines[index]? = some line ∧ ofLine? (number + index) line = some e := by
  unfold ofLines
  simp only [List.mem_filterMap, List.mem_zipIdx_iff_le_and_getElem?_sub, Prod.exists]
  constructor
  · rintro ⟨line, place, ⟨least, here⟩, holds⟩
    exact ⟨place - number, line, here, by rwa [Nat.add_sub_cancel' least]⟩
  · rintro ⟨index, line, here, holds⟩
    exact ⟨line, number + index, ⟨Nat.le_add_right _ _, by rwa [Nat.add_sub_cancel_left]⟩, holds⟩

theorem ofLines_increasing (number : Nat) (lines : List (List Char)) :
    (ofLines number lines).Pairwise (·.line < ·.line) := by
  unfold ofLines
  rw [List.pairwise_filterMap]
  have increasing : (lines.zipIdx number).Pairwise (·.2 < ·.2) := by
    rw [← List.pairwise_map, List.zipIdx_map_snd]
    exact List.pairwise_lt_range'
  refine increasing.imp fun {one other} less e held f held' => ?_
  obtain ⟨-, -, rfl⟩ := ofLine?_eq_some_iff.mp held
  obtain ⟨-, -, rfl⟩ := ofLine?_eq_some_iff.mp held'
  exact less

end Entry

-- The table of lines has a line of this number that is neither blank nor a comment, and `action` is
-- what stands on it between the blanks around it.
def HoldsAction (source : String) (number : Nat) (action : String) : Prop :=
  ∃ line, (LineTable.ofText source).lineText? number = some line ∧
    ¬ IsBlankLine line ∧ ¬ IsComment line ∧ action = String.ofList (trim line)

def actionLines (source : String) : Set Nat := {number | ∃ action, HoldsAction source number action}

def failingLines (g : Grammar) (source : String) : Set Nat :=
  {number | ∃ action e, HoldsAction source number action ∧ (g.parse action).result = .error e}

section Lines

variable {source : String} {entries : List Entry}

theorem mem_entries {e : Entry} :
    e ∈ Entry.ofLines 1 (Text.lines source.toList) ↔ HoldsAction source e.line e.text := by
  rw [Entry.ofLines_lines, Entry.mem_ofLines]
  constructor
  · rintro ⟨index, piece, here, holds⟩
    obtain ⟨filled, action, rfl⟩ := Entry.ofLine?_eq_some_iff.mp holds
    refine ⟨piece.rdropWhile (· == '\r'), ?_, ?_, ?_, ?_⟩
    · show (LineTable.ofText source).lineText? (1 + index) = _
      rw [Nat.add_comm 1 index, LineTable.ofText, LineTable.lineText?_pieces, here]
      rfl
    · rwa [isBlankLine_iff, trim_rdropWhile, ← isBlankLine_iff]
    · rwa [isComment_iff, trim_rdropWhile, ← isComment_iff]
    · rw [trim_rdropWhile]
  · rintro ⟨line, here, filled, unmarked, action⟩
    obtain ⟨number, text⟩ := e
    cases number with
    | zero => cases here
    | succ index =>
      rw [LineTable.ofText, LineTable.lineText?_pieces] at here
      obtain ⟨piece, there, rfl⟩ := Option.map_eq_some_iff.mp here
      refine ⟨index, piece, there, Entry.ofLine?_eq_some_iff.mpr ⟨?_, ?_, ?_⟩⟩
      · rwa [isBlankLine_iff, trim_rdropWhile, ← isBlankLine_iff] at filled
      · rwa [isComment_iff, trim_rdropWhile, ← isComment_iff] at unmarked
      · rw [Nat.add_comm 1 index, ← trim_rdropWhile, ← action]

theorem ncard_actionLines (source : String) :
    (actionLines source).ncard = (Entry.ofLines 1 (Text.lines source.toList)).length := by
  have increasing := Entry.ofLines_increasing 1 (Text.lines source.toList)
  have once : ((Entry.ofLines 1 (Text.lines source.toList)).map (·.line)).Nodup := by
    rw [List.Nodup, List.pairwise_map]
    exact increasing.imp Nat.ne_of_lt
  have listed : actionLines source =
      ((Entry.ofLines 1 (Text.lines source.toList)).map (·.line)).toFinset := by
    ext number
    rw [List.coe_toFinset, Set.mem_ofPred_eq, List.mem_map]
    constructor
    · rintro ⟨action, holds⟩
      exact ⟨⟨number, action⟩, mem_entries.mpr holds, rfl⟩
    · rintro ⟨e, member, rfl⟩
      exact ⟨e.text, mem_entries.mp member⟩
  rw [listed, Set.ncard_coe_finset, List.toFinset_card_of_nodup once, List.length_map]

end Lines

namespace Checked

variable {g : Grammar} {e : Entry} {f : Failed}

theorem failed?_ofEntry_eq_some : (ofEntry g e).failed? = some f ↔
    f.line = e.line ∧ f.text = e.text ∧ (g.parse e.text).result = .error f.error := by
  unfold failed? ofEntry
  dsimp only
  cases (g.parse e.text).result with
  | ok action => simp
  | error error =>
    obtain ⟨line, text, error'⟩ := f
    simp [eq_comm]

theorem failed?_ofEntry_eq_none : (ofEntry g e).failed? = none ↔
    ∀ error, (g.parse e.text).result ≠ .error error := by
  unfold failed? ofEntry
  dsimp only
  cases (g.parse e.text).result with
  | ok action => simp
  | error error => simp

end Checked

namespace Validation

variable {g : Grammar} {entries : List Entry} {source : String}

theorem first_failed_least (increasing : entries.Pairwise (·.line < ·.line)) {f : Failed}
    (first : ((entries.map (Checked.ofEntry g)).filterMap (·.failed?)).head? = some f) :
    ⟨f.line, f.text⟩ ∈ entries ∧ (g.parse f.text).result = .error f.error ∧
      ∀ e ∈ entries, ∀ error, (g.parse e.text).result = .error error → f.line ≤ e.line := by
  rw [List.filterMap_map, List.head?_filterMap, List.findSome?_eq_some_iff] at first
  obtain ⟨before, e, after, rfl, failed, passed⟩ := first
  obtain ⟨line, text, result⟩ := Checked.failed?_ofEntry_eq_some.mp failed
  have same : (⟨f.line, f.text⟩ : Entry) = e := by rw [line, text]
  refine ⟨same ▸ List.mem_append_right _ List.mem_cons_self, text ▸ result, ?_⟩
  intro other member error failed'
  rcases List.mem_append.mp member with earlier | later
  · exact absurd failed' (Checked.failed?_ofEntry_eq_none.mp (passed other earlier) error)
  · rcases List.mem_cons.mp later with rfl | later
    · exact Nat.le_of_eq line
    · have less := (List.pairwise_cons.mp (List.pairwise_append.mp increasing).2.1).1 other later
      rw [line]
      exact Nat.le_of_lt less

theorem none_failed :
    ((entries.map (Checked.ofEntry g)).filterMap (·.failed?)).head? = none ↔
      ∀ e ∈ entries, ∀ error, (g.parse e.text).result ≠ .error error := by
  rw [List.filterMap_map, List.head?_filterMap, List.findSome?_eq_none_iff]
  simp only [Function.comp_apply, Checked.failed?_ofEntry_eq_none]

theorem firstFailure_of_entries (increasing : entries.Pairwise (·.line < ·.line))
    (exact : ∀ e : Entry, e ∈ entries ↔ HoldsAction source e.line e.text)
    (sound : Sound g entries) (b : Preferences.Batch) (path : String) :
    ∃ r, (run g b path entries).outcome = .ok r ∧
      (r.firstFailure? = none ↔ failingLines g source = ∅) ∧
      ∀ f, r.firstFailure? = some f → IsLeast (failingLines g source) f.line ∧
        HoldsAction source f.line f.text ∧ (g.parse f.text).result = .error f.error := by
  obtain ⟨checked, used, outcome, stops⟩ := run_stops sound b path
  have same : (Results.ofChecked checked entries.length used).firstFailure? =
      ((entries.map (Checked.ofEntry g)).filterMap (·.failed?)).head? := stops.first_failure
  refine ⟨_, outcome, ?_, fun f first => ?_⟩
  · rw [same, none_failed, Set.eq_empty_iff_forall_notMem]
    constructor
    · rintro passed number ⟨action, error, holds, failed⟩
      exact passed ⟨number, action⟩ ((exact _).mpr holds) error failed
    · intro none e member error failed
      exact none e.line ⟨e.text, error, (exact e).mp member, failed⟩
  · rw [same] at first
    obtain ⟨member, failed, least⟩ := first_failed_least increasing first
    have holds := (exact _).mp member
    refine ⟨⟨⟨f.text, f.error, holds, failed⟩, ?_⟩, holds, failed⟩
    rintro number ⟨action, error, holds', failed'⟩
    exact least ⟨number, action⟩ ((exact _).mpr holds') error failed'

end Validation

namespace Entry

-- Extraction gives one entry for every line of the table that is neither blank nor a comment, in
-- the order of the lines, unless there are too many of them. Every other line is blank or a
-- comment. A validation of the entries has its first failure on the first line whose action fails.
theorem extract_exact (source : String) :
    ((actionLines source).ncard ≤ Limits.actionsPerFile → ∃ entries,
      extract source = .ok entries ∧ entries.Pairwise (·.line < ·.line) ∧
      (∀ e : Entry, e ∈ entries ↔ HoldsAction source e.line e.text) ∧
      (∀ number line, (LineTable.ofText source).lineText? number = some line →
        (∀ e ∈ entries, e.line ≠ number) → IsBlankLine line ∨ IsComment line) ∧
      ∀ (g : Grammar) (b : Preferences.Batch) (path : String), Validation.Sound g entries →
        ∃ r, (Validation.run g b path entries).outcome = .ok r ∧
          (r.firstFailure? = none ↔ failingLines g source = ∅) ∧
          ∀ f, r.firstFailure? = some f → IsLeast (failingLines g source) f.line ∧
            HoldsAction source f.line f.text ∧ (g.parse f.text).result = .error f.error) ∧
    (Limits.actionsPerFile < (actionLines source).ncard →
      extract source = .error (.tooManyActions (Limits.actionsPerFile + 1) Limits.actionsPerFile)) := by
  rw [ncard_actionLines, extract_eq]
  refine ⟨fun few => ⟨_, if_pos few, ofLines_increasing 1 _,
    fun e => mem_entries, ?_, fun g b path sound => ?_⟩, fun many => if_neg (Nat.not_le.mpr many)⟩
  · intro number line here unused
    by_contra other
    rw [not_or] at other
    exact unused ⟨number, String.ofList (trim line)⟩
      (mem_entries.mpr ⟨line, here, other.1, other.2, rfl⟩) rfl
  · exact Validation.firstFailure_of_entries (ofLines_increasing 1 _) (fun e => mem_entries) sound
      b path

theorem extract_exact_indented :
    let source := "# a\r\n\n x := (\r\n\ty := 1 \n   # c\nz:="
    (actionLines source).ncard = 3 ∧ ∃ entries, extract source = .ok entries ∧
      entries.map (·.line) = [3, 4, 6] ∧
      ∃ r f, (Validation.run {} { maxThreads := 2 } "a" entries).outcome = .ok r ∧
        r.firstFailure? = some f ∧ f.line = 3 ∧ IsLeast (failingLines {} source) 3 := by
  intro source
  have count : (actionLines source).ncard = 3 := by
    rw [ncard_actionLines]
    decide +kernel
  obtain ⟨entries, found, increasing, exact, others, first⟩ :=
    (extract_exact source).1 (by rw [count]; decide)
  have listed : extract source = .ok [⟨3, "x := ("⟩, ⟨4, "y := 1"⟩, ⟨6, "z:="⟩] := by decide +kernel
  obtain rfl := Except.ok.inj (found.symm.trans listed)
  obtain ⟨r, outcome, none, least⟩ :=
    first {} { maxThreads := 2 } "a" (Validation.sound_of_climbing rfl _)
  have failed : (({} : Grammar).parse "x := (").result =
      .error (.structuralMismatch "operand" "end of input" (.point ⟨6, 1, 7⟩)) := by decide +kernel
  have third : 3 ∈ failingLines {} source :=
    ⟨"x := (", _, (exact ⟨3, "x := ("⟩).mp List.mem_cons_self, failed⟩
  cases reported : r.firstFailure? with
  | none => exact absurd third (none.mp reported ▸ Set.notMem_empty 3)
  | some f =>
    obtain ⟨lowest, holds, -⟩ := least f reported
    have line : f.line = 3 := by
      have atMost := lowest.2 third
      have member := (exact ⟨f.line, f.text⟩).mpr holds
      simp only [List.mem_cons, Entry.mk.injEq, List.not_mem_nil, or_false] at member
      rcases member with ⟨same, -⟩ | ⟨same, -⟩ | ⟨same, -⟩ <;> omega
    exact ⟨count, _, found, rfl, r, f, outcome, reported, line, line ▸ lowest⟩

end Entry

end StateActions
