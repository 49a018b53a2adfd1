import StateActions.Proofs.ActionFile.Extraction
import StateActions.Proofs.Log.Outcome
import StateActions.Proofs.Validation.Interleaving

namespace StateActions

open Text

namespace Log.Collector

def errorLine (path : String) (event : Event) (line column : Nat) : String :=
  "error[" ++ event.code.name ++ "]: " ++ event.message ++ " --> " ++ path ++ ":" ++
    toString line ++ ":" ++ toString column ++ "\n"

variable {c : Collector} {file : String × List Event} {event : Event}

theorem toList_infix_join {text : String} {texts : List String} (member : text ∈ texts) :
    text.toList <:+: (String.join texts).toList := by
  rw [String.toList_join, List.flatMap_def]
  exact List.infix_of_mem_flatten (List.mem_map_of_mem member)

theorem eventText_infix (member : file ∈ c.events) (held : event ∈ file.2)
    (severe : (event.isError || event.isWarning) = true) :
    (eventText file.1 event).toList <:+: c.report.toList := by
  have inFile : (eventText file.1 event).toList <:+: (sourceText file.1 file.2).toList := by
    have kept : event ∈ file.2.filter fun e => e.isError || e.isWarning :=
      List.mem_filter.mpr ⟨held, severe⟩
    have reported := toList_infix_join (List.mem_map_of_mem (f := eventText file.1) kept)
    unfold sourceText
    rw [String.toList_append, String.toList_append]
    exact reported.trans (List.infix_append _ _ _)
  have inFiles := toList_infix_join (List.mem_map_of_mem (f := fun file => sourceText file.1 file.2)
    member)
  unfold report
  simp only [String.toList_append, List.append_assoc]
  exact (inFile.trans inFiles).trans (List.prefix_append _ _).isInfix

theorem eventText_eq {origin : Origin} {span : Span} (error : event.isError = true)
    (source : event.source = some origin) (place : event.span = some span) (path : String) :
    ∃ advice, eventText path event =
      errorLine path event origin.line span.start.column.toNat ++ advice := by
  unfold eventText location errorLine
  simp only [error, source, place, if_true]
  exact ⟨_, by simp [String.append_assoc]; rfl⟩

end Log.Collector

namespace Entry

-- A place in the text of an entry, on the line of the file that the entry is from. The line begins
-- with the blanks `indent`, and the text has `before` in front of the place.
def StandsAt (source : String) (e : Entry) (place : Position) (indent before : List Char) : Prop :=
  ∃ line rest tail, (LineTable.ofText source).lineText? e.line = some line ∧
    line = indent ++ (before ++ rest) ++ tail ∧ indent = line.takeWhile isBlank ∧
    (∀ c ∈ tail, isBlank c = true) ∧ e.text.toList = before ++ rest ∧
    byteLength before = place.offset

end Entry

namespace Validation

open Log (Event)

variable {g : Grammar} {source : String} {entries : List Entry} {entry : Entry} {e : ParseError}

theorem entryCalls_failed (running : (g.parse entry.text).crashed = false)
    (failed : (g.parse entry.text).result = .error e) {preferences : Preferences.Logging}
    (marking : preferences.sourceContext = true) (path : String) :
    ∃ event : Event, entryCalls preferences g path entry = [(path, event)] ∧
      event.isError = true ∧ event.source = some ⟨path, entry.line⟩ ∧ event.span = some e.span := by
  have fits := Grammar.fits_parse running
  rw [failed] at fits
  obtain ⟨event, ⟨before, log, -⟩, tells⟩ := fits
  have marked := Log.Stamp.apply_marked marking ⟨path, entry.line⟩ event
  have error : (Log.Stamp.apply ⟨preferences, some ⟨path, entry.line⟩⟩ event).isError = true := by
    rw [Event.isError, Log.Stamp.level_apply]
    exact tells.error
  have notes : (Checked.ofEntry g entry).notes path =
      before.map (fun event => ⟨some ⟨path, entry.line⟩, event⟩) ++
        [⟨some ⟨path, entry.line⟩, event⟩] := by
    unfold Checked.notes Checked.ofEntry
    rw [log, List.map_append]
    rfl
  have last : Log.calls preferences [⟨some ⟨path, entry.line⟩, event⟩] =
      [(path, Log.Stamp.apply ⟨preferences, some ⟨path, entry.line⟩⟩ event)] := by
    rw [Log.calls_cons, Log.Note.call?]
    simp only [error, Bool.true_or, if_true]
    rfl
  have isFailed : (Checked.ofEntry g entry).isFailed = true := by
    simp [Checked.ofEntry, Checked.isFailed, Checked.failed?, failed]
  have single : (entryCalls preferences g path entry).map gist = [(path, .error)] := by
    rw [gist_entryCalls running, isFailed, if_pos rfl]
  have count := congrArg List.length single
  refine ⟨_, ?_, error, by rw [marked], by rw [marked]; exact tells.span⟩
  unfold entryCalls at count ⊢
  rw [notes, Log.calls_append, last] at count ⊢
  rw [List.length_map, List.length_append] at count
  rw [List.eq_nil_of_length_eq_zero (Nat.succ.inj count), List.nil_append]

theorem exists_standsAt (climbing : g.arithmetic = PrecedenceClimbing.rule)
    (holds : HoldsAction source entry.line entry.text)
    (failed : (g.parse entry.text).result = .error e) :
    ∃ indent before, entry.StandsAt source e.span.start indent before ∧
      e.span.start.column.toNat = before.length + 1 := by
  obtain ⟨line, here, -, -, action⟩ := holds
  obtain ⟨⟨piece, before, after, whole, span⟩, near⟩ := Grammar.exists_covers climbing failed
  obtain ⟨tail, left, blank⟩ := exists_trimmed line
  have text : entry.text.toList = trim line := by rw [action, String.toList_ofList]
  have start : e.span.start = Position.start.advanceList before := by rw [span]
  have short : byteLength before ≤ 65536 := by
    rw [span, Position.offset_advanceList, byteLength_append] at near
    exact ((Nat.le_add_right ..).trans (Nat.le_add_left ..)).trans near
  have parts : line = line.takeWhile isBlank ++ (before ++ (piece ++ after)) ++ tail := by
    rw [← whole, text, List.append_assoc, ← left, List.takeWhile_append_dropWhile]
  have unbroken : '\n' ∉ before := by
    intro feed
    refine LineTable.notMem_of_lineText? here ?_
    rw [parts]
    simp [feed]
  refine ⟨line.takeWhile isBlank, before, ⟨line, piece ++ after, tail, here, parts, rfl, blank, whole,
    ?_⟩, ?_⟩
  · rw [start, Position.offset_advanceList]
    exact (Nat.zero_add _).symm
  · rw [start, (Position.counts_advanceList (by omega)).2, lastLine_of_notMem unbroken]

-- An entry that fails has one error, which a validation of all entries offers to the collector.
-- While a collector holds this error, its report tells it at the line that the entry is from, but
-- at a column that is short of the one on this line by the blanks in front of the entry. So the
-- column is right if there are no such blanks, and only then.
theorem report_column (climbing : g.arithmetic = PrecedenceClimbing.rule)
    (extracted : Entry.extract source = .ok entries) (member : entry ∈ entries)
    (failed : (g.parse entry.text).result = .error e) {preferences : Preferences.Logging}
    (marking : preferences.sourceContext = true) (path : String) :
    ∃ event indent before column,
      entryCalls preferences g path entry = [(path, event)] ∧
      (∀ b : Preferences.Batch, b.failFast = false → ∀ elapsed, (path, event) ∈
        Log.calls preferences (notes b path entries (run g b path entries) elapsed)) ∧
      entry.StandsAt source e.span.start indent before ∧
      (∀ told : Log.Collector, ∀ file ∈ told.events, event ∈ file.2 →
        (Log.Collector.eventText file.1 event).toList <:+: told.report.toList ∧
          ∃ advice, Log.Collector.eventText file.1 event =
            Log.Collector.errorLine file.1 event entry.line column ++ advice) ∧
      column + indent.length = (indent ++ before).length + 1 ∧
      (column = (indent ++ before).length + 1 ↔ indent = []) := by
  have holds : HoldsAction source entry.line entry.text :=
    mem_entries.mp ((Entry.extract_eq_ok_iff.mp extracted).1 ▸ member)
  obtain ⟨indent, before, stands, column⟩ := exists_standsAt climbing holds failed
  obtain ⟨event, single, error, source, place⟩ :=
    entryCalls_failed (Grammar.crashed_eq_false climbing _) failed marking path
  refine ⟨event, indent, before, before.length + 1, single, fun b patient elapsed => ?_, stands,
    fun told file here held => ?_, ?_, ?_⟩
  · rw [calls_notes (sound_of_climbing climbing entries) patient, List.mem_flatMap]
    exact ⟨entry, member, single ▸ List.mem_singleton.mpr rfl⟩
  · rw [← column]
    exact ⟨Log.Collector.eventText_infix here held (Bool.or_eq_true_iff.mpr (.inl error)),
      Log.Collector.eventText_eq error source place file.1⟩
  · rw [List.length_append]
    omega
  · rw [List.length_append, ← List.length_eq_zero_iff]
    omega

theorem report_column_indented :
    let source := "x := 1\n  y := $"
    let entries : List Entry := [⟨1, "x := 1"⟩, ⟨2, "y := $"⟩]
    let told := (({ sink := some .debug } : Log.Session).noteAll
      (notes {} "a" entries (run {} {} "a" entries) 0)).collector
    ∃ event indent before, Entry.extract source = .ok entries ∧ told.events = [("a", [event])] ∧
      Entry.StandsAt source ⟨2, "y := $"⟩ ⟨5, 1, 6⟩ indent before ∧
      (Log.Collector.errorLine "a" event 2 6).toList <:+: told.report.toList ∧
      (indent ++ before).length + 1 = 8 := by
  intro source entries told
  have extracted : Entry.extract source = .ok entries := by decide +kernel
  let e : LexError := .invalidCharacter '$' "a token" ⟨⟨5, 1, 6⟩, ⟨6, 1, 7⟩⟩
  have cut : (Lexer.run true "y := $").tokens = .error e := by decide +kernel
  have failed : (({} : Grammar).parse "y := $").result = .error (.ofLexError e) := by
    rw [Grammar.parse_of_lexError
      (show (Tokenization.ofText {} "y := $").tokens = .error e from cut)]
  obtain ⟨event, indent, before, column, single, -, stands, shown, less, -⟩ :=
    @report_column {} source entries ⟨2, "y := $"⟩ _ rfl extracted (by simp [entries]) failed {} rfl
      "a"
  have held : told.events = [("a", [event])] := by
    have first : entryCalls {} {} "a" ⟨1, "x := 1"⟩ = [] := by decide +kernel
    have second : entryCalls {} {} "a" ⟨2, "y := $"⟩ = [("a", event)] := single
    have offered : Log.calls ({ sink := some .debug } : Log.Session).preferences
        (notes {} "a" entries (run {} {} "a" entries) 0) =
          entryCalls {} {} "a" ⟨1, "x := 1"⟩ ++ (entryCalls {} {} "a" ⟨2, "y := $"⟩ ++ []) :=
      calls_notes (sound_of_climbing rfl entries) rfl 0
    have collected := Log.Session.collector_noteAll (s := { sink := some .debug }) rfl
      (notes {} "a" entries (run {} {} "a" entries) 0)
    rw [offered, first, second] at collected
    exact congrArg Log.Collector.events collected
  have lengths : indent.length = 2 ∧ (indent ++ before).length = 7 := by
    obtain ⟨line, rest, tail, here, -, blank, -, whole, bytes⟩ := stands
    have there : (LineTable.ofText source).lineText? 2 = some "  y := $".toList := by decide +kernel
    obtain rfl := Option.some.inj (here.symm.trans there)
    have cut := takeBytes_byteLength before rest
    rw [bytes, ← whole] at cut
    rw [blank, ← cut]
    decide
  obtain ⟨within, advice, text⟩ := shown told ("a", [event]) (held ▸ List.mem_singleton.mpr rfl)
    (List.mem_singleton.mpr rfl)
  obtain rfl : column = 6 := by omega
  rw [text, String.toList_append] at within
  exact ⟨event, indent, before, extracted, held, stands,
    (List.prefix_append _ _).isInfix.trans within, by omega⟩

end Validation

end StateActions
