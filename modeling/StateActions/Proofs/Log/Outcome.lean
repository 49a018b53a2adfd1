import Mathlib.Data.List.Basic
import StateActions.Proofs.Log.Reports

namespace StateActions

open Log (Event)

namespace Log

def errors (events : List Event) : List Event := events.filter (·.isError)

def successes (events : List Event) : List Event := events.filter (·.code == .actionParsed)

def Event.IsPassing (e : Event) : Prop := e.isError = false ∧ e.code ≠ .actionParsed

def Closes (log last : List Event) : Prop :=
  ∃ before, log = before ++ last ∧ ∀ e ∈ before, e.IsPassing

structure Event.Tells (span : Span) (e : Event) : Prop where
  error : e.isError = true
  code : e.code ≠ .actionParsed
  span : e.span = some span

section Closing

variable {log last : List Event} {e : Event} {span : Span}

theorem closes_nil (passing : ∀ e ∈ log, e.IsPassing) : Closes log [] :=
  ⟨log, (List.append_nil log).symm, passing⟩

theorem Closes.after {before : List Event} (closes : Closes log last)
    (passing : ∀ e ∈ before, e.IsPassing) : Closes (before ++ log) last := by
  obtain ⟨middle, rfl, inside⟩ := closes
  exact ⟨before ++ middle, (List.append_assoc ..).symm,
    List.forall_mem_append.mpr ⟨passing, inside⟩⟩

theorem Closes.passing (closes : Closes log []) : ∀ e ∈ log, e.IsPassing := by
  obtain ⟨before, rfl, passing⟩ := closes
  rwa [List.append_nil]

theorem Closes.errors_eq (closes : Closes log last) : errors log = errors last := by
  obtain ⟨before, rfl, passing⟩ := closes
  have none : before.filter (·.isError) = [] := by
    rw [List.filter_eq_nil_iff]
    intro e member
    simp [(passing e member).1]
  rw [errors, List.filter_append, none, List.nil_append, errors]

theorem Closes.successes_eq (closes : Closes log last) : successes log = successes last := by
  obtain ⟨before, rfl, passing⟩ := closes
  have none : before.filter (·.code == .actionParsed) = [] := by
    rw [List.filter_eq_nil_iff]
    intro e member
    simp [(passing e member).2]
  rw [successes, List.filter_append, none, List.nil_append, successes]

theorem Event.Tells.errors_eq (tells : e.Tells span) : errors [e] = [e] := by
  simp [errors, tells.error]

theorem Event.Tells.successes_eq (tells : e.Tells span) : successes [e] = [] := by
  simp [successes, tells.code]

end Closing

end Log

open Log (errors successes Closes closes_nil)

theorem LexError.code_ne_actionParsed (e : LexError) : e.code ≠ .actionParsed := by
  cases e <;> simp only [code] <;> decide

theorem ParseError.code_ne_actionParsed (e : ParseError) : e.code ≠ .actionParsed := by
  cases e with
  | limitExceeded limit => cases limit <;> simp only [code, LimitKind.code] <;> decide
  | _ => simp only [code]; decide

namespace Tokenization

theorem tells_errorEvent (e : LexError) (m : Metrics) : (errorEvent e m).Tells e.span := by
  refine ⟨?_, ?_, ?_⟩
  · simp [errorEvent, Event.isError, Event.withSpan, Event.error]
  · simpa [errorEvent, Event.withSpan, Event.error] using e.code_ne_actionParsed
  · simp [errorEvent, Event.withSpan]

theorem passing_startEvent (length : Nat) : (startEvent length).IsPassing := by
  simp [startEvent, Event.IsPassing, Event.isError, Event.debug]
  decide

theorem passing_statisticsEvent (m : Metrics) : (statisticsEvent m).IsPassing := by
  simp [statisticsEvent, Event.IsPassing, Event.isError, Event.success]
  decide

theorem closes_ofText (preferences : Preferences.Lexical) (text : String) :
    match (ofText preferences text).tokens with
    | .ok _ => Closes (ofText preferences text).events []
    | .error e =>
      ∃ event, Closes (ofText preferences text).events [event] ∧ event.Tells e.span := by
  have started : ∀ e ∈ (if text.utf8ByteSize > Limits.actionLength then []
      else [startEvent text.utf8ByteSize]), e.IsPassing := by
    split
    · exact List.forall_mem_nil _
    · exact List.forall_mem_singleton.mpr (passing_startEvent _)
  simp only [ofText]
  cases (Lexer.run preferences.detailedMetrics text).tokens with
  | ok tokens =>
    refine (closes_nil ?_).after started
    simp only
    split
    · exact List.forall_mem_singleton.mpr (passing_statisticsEvent _)
    · exact List.forall_mem_nil _
  | error e => exact ⟨_, ⟨_, rfl, started⟩, tells_errorEvent e _⟩

end Tokenization

namespace Grammar

variable {g : Grammar} {text : String} {c : Cursor}

theorem tells_errorEvent (e : ParseError) (context source : String) :
    (errorEvent e context source).Tells e.span := by
  refine ⟨?_, ?_, ?_⟩
  · simp [errorEvent, Event.isError, Event.withSpan, Event.error]
  · simpa [errorEvent, Event.withSpan, Event.error] using e.code_ne_actionParsed
  · simp [errorEvent, Event.withSpan]

theorem passing_contextEvent (entered : String × Nat) : (contextEvent entered).IsPassing := by
  simp [contextEvent, Event.IsPassing, Event.isError, Event.debug]
  decide

theorem passing_parsedEvent (action : Action) (length : Nat) :
    (parsedEvent action length).IsPassing := by
  simp [parsedEvent, Event.IsPassing, Event.isError, Event.debug]
  decide

-- The log fits the outcome: it is closed by an error at the span of the failure, or by none.
def Fits (log : List Event) : Except ParseError Action → Prop
  | .ok _ => Closes log []
  | .error e => ∃ event, Closes log [event] ∧ event.Tells e.span

theorem Fits.after {log before : List Event} {outcome : Except ParseError Action}
    (fits : Fits log outcome) (passing : ∀ e ∈ before, e.IsPassing) :
    Fits (before ++ log) outcome := by
  cases outcome with
  | ok action => exact Closes.after fits passing
  | error e =>
    obtain ⟨event, closes, tells⟩ := fits
    exact ⟨event, closes.after passing, tells⟩

theorem fits_outcomeEvents (running : c.crashed = false) (outcome : Except ParseError Action) :
    Fits (g.outcomeEvents text outcome c) outcome := by
  cases outcome with
  | ok action =>
    simp only [outcomeEvents, running, Bool.false_eq_true, if_false]
    refine closes_nil ?_
    split
    · exact List.forall_mem_singleton.mpr (passing_parsedEvent _ _)
    · exact List.forall_mem_nil _
  | error e =>
    simp only [outcomeEvents, running, Bool.false_eq_true, if_false]
    exact ⟨_, ⟨[], rfl, List.forall_mem_nil _⟩, tells_errorEvent e _ _⟩

theorem fits_parse (running : (g.parse text).crashed = false) :
    Fits (g.parse text).events (g.parse text).result := by
  have cutting := Tokenization.closes_ofText g.lexical text
  cases cut : (Tokenization.ofText g.lexical text).tokens with
  | error e =>
    rw [cut] at cutting
    rw [parse_of_lexError cut]
    simpa only [Fits, ParseError.span_ofLexError] using cutting
  | ok tokens =>
    rw [cut] at cutting
    rw [parse_of_tokens cut] at running ⊢
    refine (fits_outcomeEvents running _).after ?_
    refine List.forall_mem_append.mpr ⟨Closes.passing cutting, fun event member => ?_⟩
    obtain ⟨entered, -, rfl⟩ := List.mem_map.mp member
    exact passing_contextEvent entered

section All

variable {texts : List String} {log : List Event}

-- The loop over the texts: what was logged before is passing, and stays so while the texts are
-- actions.
theorem closes_go (running : ∀ text ∈ texts, (g.parse text).crashed = false) (index : Nat)
    (actions : List Action) (passing : ∀ e ∈ log, e.IsPassing) :
    ((∀ text ∈ texts, ∃ a, (g.parse text).result = .ok a) ∧
        ∃ count, Closes (parseAll.go g index actions log texts).2 [allParsedEvent count]) ∨
      ∃ i e event, (∃ text ∈ texts, (g.parse text).result = .error e) ∧
        (parseAll.go g index actions log texts).1 = .error (i, e) ∧
        Closes (parseAll.go g index actions log texts).2 [event] ∧ event.Tells e.span := by
  induction texts generalizing index actions log with
  | nil => exact .inl ⟨List.forall_mem_nil _, actions.length, log, rfl, passing⟩
  | cons text rest ih =>
    obtain ⟨here, later⟩ := List.forall_mem_cons.mp running
    have fits := fits_parse here
    rw [parseAll.go]
    cases outcome : (g.parse text).result with
    | ok action =>
      rw [outcome] at fits
      have onward := List.forall_mem_append.mpr ⟨passing, Closes.passing fits⟩
      rcases ih later (index + 1) (action :: actions) onward with
        ⟨all, closed⟩ | ⟨i, e, event, ⟨bad, member, failed⟩, ended⟩
      · exact .inl ⟨List.forall_mem_cons.mpr ⟨⟨action, outcome⟩, all⟩, closed⟩
      · exact .inr ⟨i, e, event, ⟨bad, .tail _ member, failed⟩, ended⟩
    | error e =>
      rw [outcome] at fits
      obtain ⟨event, closes, tells⟩ := fits
      exact .inr ⟨index, e, event, ⟨text, List.mem_cons_self, outcome⟩, rfl,
        closes.after passing, tells⟩

end All

theorem closes_parseAll (running : ∀ text, (g.parse text).crashed = false) (texts : List String) :
    ((∀ text ∈ texts, ∃ a, (g.parse text).result = .ok a) ∧
        ∃ count, Closes (g.parseAll texts).2 [allParsedEvent count]) ∨
      ∃ i e event, (∃ text ∈ texts, (g.parse text).result = .error e) ∧
        (g.parseAll texts).1 = .error (i, e) ∧
        Closes (g.parseAll texts).2 [event] ∧ event.Tells e.span :=
  closes_go (fun text _ => running text) 0 [] (List.forall_mem_nil _)

theorem errors_allParsedEvent (count : Nat) : errors [allParsedEvent count] = [] := by
  simp [errors, allParsedEvent, Event.isError, Event.success]

theorem successes_allParsedEvent (count : Nat) :
    successes [allParsedEvent count] = [allParsedEvent count] := by
  simp [successes, allParsedEvent, Event.success]

theorem isInfo_allParsedEvent (count : Nat) : (allParsedEvent count).isInfo = true := by
  simp [allParsedEvent, Event.isInfo, Event.success]

-- A text that is an action is parsed without an error in the log; any other has exactly one, at the
-- span of the failure, whether the text could not be cut into tokens or the tokens are no action.
-- So a list of texts has one success and no error, or one error and no success. A rule for
-- arithmetic that breaks down has no outcome to tell; the one that is used by default never does.
theorem log_tells_outcome (g : Grammar) (running : ∀ text, (g.parse text).crashed = false) :
    (∀ text, (∀ a, (g.parse text).result = .ok a → errors (g.parse text).events = []) ∧
        ∀ e, (g.parse text).result = .error e →
          ∃ event, errors (g.parse text).events = [event] ∧ event.span = some e.span) ∧
      ∀ texts : List String,
        ((∀ text ∈ texts, ∃ a, (g.parse text).result = .ok a) →
          errors (g.parseAll texts).2 = [] ∧
            ∃ event, successes (g.parseAll texts).2 = [event] ∧ event.isInfo = true) ∧
        ((∃ text ∈ texts, ∃ e, (g.parse text).result = .error e) →
          successes (g.parseAll texts).2 = [] ∧
            ∃ i e event, (g.parseAll texts).1 = .error (i, e) ∧
              errors (g.parseAll texts).2 = [event] ∧ event.span = some e.span) := by
  refine ⟨fun text => ⟨fun a parsed => ?_, fun e failed => ?_⟩, fun texts => ?_⟩
  · have fits := fits_parse (running text)
    rw [parsed] at fits
    exact Closes.errors_eq fits
  · have fits := fits_parse (running text)
    rw [failed] at fits
    obtain ⟨event, closes, tells⟩ := fits
    exact ⟨event, closes.errors_eq.trans tells.errors_eq, tells.span⟩
  · rcases closes_parseAll running texts with
      ⟨all, count, closes⟩ | ⟨i, e, event, ⟨bad, member, failed⟩, ended, closes, tells⟩
    · refine ⟨fun _ => ⟨closes.errors_eq.trans (errors_allParsedEvent count), _,
        closes.successes_eq.trans (successes_allParsedEvent count),
        isInfo_allParsedEvent count⟩, ?_⟩
      rintro ⟨text, member, e, failed⟩
      obtain ⟨a, parsed⟩ := all text member
      cases parsed.symm.trans failed
    · refine ⟨fun all => ?_, fun _ => ⟨closes.successes_eq.trans tells.successes_eq, i, e, event,
        ended, closes.errors_eq.trans tells.errors_eq, tells.span⟩⟩
      obtain ⟨a, parsed⟩ := all bad member
      cases parsed.symm.trans failed

theorem log_tells_outcome_character :
    ∃ e, (({} : Grammar).parse "y := $").result = .error e ∧ e.span = ⟨⟨5, 1, 6⟩, ⟨6, 1, 7⟩⟩ ∧
      (∃ event, errors (({} : Grammar).parse "y := $").events = [event] ∧
        event.span = some e.span) ∧
      ∃ event, errors (({} : Grammar).parseAll ["x := 1", "y := $", "z :="]).2 = [event] ∧
        successes (({} : Grammar).parseAll ["x := 1", "y := $", "z :="]).2 = [] := by
  let e : LexError := .invalidCharacter '$' "a token" ⟨⟨5, 1, 6⟩, ⟨6, 1, 7⟩⟩
  have cut : (Lexer.run true "y := $").tokens = .error e := by decide +kernel
  have failed : (({} : Grammar).parse "y := $").result = .error (.ofLexError e) := by
    rw [parse_of_lexError (show (Tokenization.ofText {} "y := $").tokens = .error e from cut)]
  obtain ⟨single, all⟩ := log_tells_outcome {} (crashed_eq_false rfl)
  obtain ⟨none, -, -, event, -, one, -⟩ := (all ["x := 1", "y := $", "z :="]).2
    ⟨"y := $", by simp, _, failed⟩
  exact ⟨_, failed, rfl, (single "y := $").2 _ failed, event, one, none⟩

end Grammar

end StateActions
