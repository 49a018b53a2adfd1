import StateActions.Grammar.Basic
import StateActions.Proofs.Parser.Operation

namespace StateActions

theorem Cursor.stable_running : Stable fun c => c.crashed = false where
  advance running := running
  moveTo _ running := running
  back _ running := running
  opened context running := (crashed_opened _ context).trans running
  closed running := (crashed_closed _).trans running

namespace Log.Event

theorem exists_context (e : Event) (pairs : List (String × String)) :
    ∃ context, e.withContext pairs = { e with context } := by
  unfold withContext
  induction pairs generalizing e with
  | nil => exact ⟨e.context, rfl⟩
  | cons pair rest ih =>
    obtain ⟨context, added⟩ := ih (e.addContext pair.1 pair.2)
    exact ⟨context, added⟩

variable (e : Event) (pairs : List (String × String))

@[simp] theorem level_withContext : (e.withContext pairs).level = e.level := by
  obtain ⟨context, added⟩ := e.exists_context pairs
  rw [added]

@[simp] theorem code_withContext : (e.withContext pairs).code = e.code := by
  obtain ⟨context, added⟩ := e.exists_context pairs
  rw [added]

@[simp] theorem span_withContext : (e.withContext pairs).span = e.span := by
  obtain ⟨context, added⟩ := e.exists_context pairs
  rw [added]

end Log.Event

namespace Grammar

open Log (Event)

variable {g : Grammar} {text : String}

theorem parse_of_lexError {e : LexError}
    (cut : (Tokenization.ofText g.lexical text).tokens = .error e) : g.parse text =
      ⟨.error (.ofLexError e), (Tokenization.ofText g.lexical text).events, false⟩ := by
  unfold parse
  simp only [cut]

theorem parse_of_tokens {tokens : List PlacedToken}
    (cut : (Tokenization.ofText g.lexical text).tokens = .ok tokens) : g.parse text =
      ⟨(g.parseTokens tokens).1,
        (Tokenization.ofText g.lexical text).events ++
          (g.parseTokens tokens).2.entered.reverse.map contextEvent ++
          g.outcomeEvents text (g.parseTokens tokens).1 (g.parseTokens tokens).2,
        (g.parseTokens tokens).2.crashed⟩ := by
  unfold parse
  simp only [cut]

theorem composed_of_climbing (climbing : g.arithmetic = PrecedenceClimbing.rule) :
    Composed true (Parser.completeAction g.arithmetic) :=
  climbing ▸ (placeless_completeAction PrecedenceClimbing.placeless_rule).composed

-- No production sets the mark of a breakdown, so it is down at the end of every parse.
theorem crashed_eq_false (climbing : g.arithmetic = PrecedenceClimbing.rule) (text : String) :
    (g.parse text).crashed = false := by
  have kept := Cursor.stable_running.kept
  cases cut : (Tokenization.ofText g.lexical text).tokens with
  | error e => rw [parse_of_lexError cut]
  | ok tokens =>
    have reached := (respects_of_composed kept (composed_of_climbing climbing)
      (.start (.ofTokens tokens) g.parser.depth) _ ⟨rfl, rfl⟩).2
    rw [parse_of_tokens cut]
    exact reached.2

def severeLevels (events : List Event) : List Log.Level :=
  (events.map (·.level)).filter fun level => level == .error || level == .warning

theorem severeLevels_append (before after : List Event) :
    severeLevels (before ++ after) = severeLevels before ++ severeLevels after := by
  rw [severeLevels, List.map_append, List.filter_append]
  rfl

theorem severeLevels_ofText (preferences : Preferences.Lexical) (text : String) :
    severeLevels (Tokenization.ofText preferences text).events =
      match (Tokenization.ofText preferences text).tokens with
      | .ok _ => []
      | .error _ => [.error] := by
  have started : severeLevels (if text.utf8ByteSize > Limits.actionLength then []
      else [Tokenization.startEvent text.utf8ByteSize]) = [] := by
    split
    · rfl
    · simp [severeLevels, Tokenization.startEvent, Event.debug]
  simp only [Tokenization.ofText, severeLevels_append, started, List.nil_append]
  cases (Lexer.run preferences.detailedMetrics text).tokens with
  | ok tokens =>
    simp only
    split
    · simp [severeLevels, Tokenization.statisticsEvent, Event.success]
    · rfl
  | error e =>
    simp [severeLevels, Tokenization.errorEvent, Event.withSpan, Event.error]

theorem severeLevels_entered (entered : List (String × Nat)) :
    severeLevels (entered.map contextEvent) = [] := by
  have debug : ∀ pair, (contextEvent pair).level = .debug :=
    fun _ => Event.level_withContext _ _
  induction entered with
  | nil => rfl
  | cons pair rest ih =>
    rw [List.map_cons, ← List.singleton_append, severeLevels_append, ih]
    simp [severeLevels, debug]

theorem severeLevels_outcome {c : Cursor} (running : c.crashed = false)
    (outcome : Except ParseError Action) :
    severeLevels (g.outcomeEvents text outcome c) =
      match outcome with
      | .ok _ => []
      | .error _ => [.error] := by
  cases outcome with
  | ok a =>
    simp only [outcomeEvents, running, Bool.false_eq_true, if_false]
    split
    · simp [severeLevels, parsedEvent, Event.debug]
    · rfl
  | error e =>
    simp [severeLevels, outcomeEvents, running, errorEvent, Event.withSpan, Event.error]

theorem severeLevels_parse (running : (g.parse text).crashed = false) :
    severeLevels (g.parse text).events =
      match (g.parse text).result with
      | .ok _ => []
      | .error _ => [.error] := by
  have cutting := severeLevels_ofText g.lexical text
  cases cut : (Tokenization.ofText g.lexical text).tokens with
  | error e =>
    rw [cut] at cutting
    rw [parse_of_lexError cut]
    exact cutting
  | ok tokens =>
    rw [cut] at cutting
    rw [parse_of_tokens cut] at running ⊢
    simp only [severeLevels_append, cutting, severeLevels_entered,
      severeLevels_outcome running, List.nil_append]

end Grammar

end StateActions
