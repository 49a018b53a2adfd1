import StateActions.Proofs.Log.Reports
import StateActions.Proofs.Parser.Nesting
import StateActions.Proofs.Token.LexicalGrammar

namespace StateActions

open StateActions.Parser

variable {α : Type} {nests : Bool} {p : Parser α} {c d : Cursor} {e : ParseError}

-- The state in which the error of a step arose. What the step had opened is still open there; the
-- state in which the step ends is another one.
inductive Breaks : {α : Type} → Parser α → Cursor → ParseError → Cursor → Prop
  | error {α : Type} {e : ParseError}
      (syntactic : ∀ limit actual maximum span, e ≠ .limitExceeded limit actual maximum span)
      (c : Cursor) : Breaks (throw e : Parser α) c e c
  | look {α : Type} {f : Stream → Parser α} {c d : Cursor} {e : ParseError}
      (inside : Breaks (f c.stream) c e d) : Breaks (do f (← get).stream) c e d
  | first {α β : Type} {p : Parser α} {c d : Cursor} {e : ParseError} (inside : Breaks p c e d)
      (f : α → Parser β) : Breaks (p >>= f) c e d
  | second {nests : Bool} {α β : Type} {p : Parser α} {f : α → Parser β} {a : α}
      {c middle d : Cursor} {e : ParseError} (composed : Composed nests p)
      (ran : p.runAt c = (.ok a, middle)) (inside : Breaks (f a) middle e d) :
      Breaks (p >>= f) c e d
  | tooDeep {α : Type} (inner : Parser α) (context : String) {c : Cursor}
      (deep : c.maxDepth ≤ c.depth) : Breaks (nested context inner) c c.tooDeep c
  | nested {α : Type} {inner : Parser α} {context : String} {c d : Cursor} {e : ParseError}
      (listed : context ∈ constructs) (shallow : c.depth < c.maxDepth)
      (inside : Breaks inner (c.opened context) e d) : Breaks (nested context inner) c e d

-- Every error arose somewhere. An attempt has none: it goes back instead.
theorem exists_breaks {next : Cursor} (composed : Composed nests p)
    (ran : p.runAt c = (.error e, next)) : ∃ d, Breaks p c e d := by
  induction composed generalizing c next with
  | pure a => cases ran
  | error syntactic =>
    cases ran
    exact ⟨c, .error syntactic c⟩
  | look _ ih =>
    rw [runAt_bind_ok (runAt_get c)] at ran
    obtain ⟨d, inside⟩ := ih _ ran
    exact ⟨d, .look inside⟩
  | advance => cases ran
  | @bind _ _ _ first _ composed _ first_ih second_ih =>
    rw [runAt_bind] at ran
    rcases started : first.runAt c with ⟨outcome, middle⟩
    rw [started] at ran
    cases outcome with
    | ok a =>
      obtain ⟨d, inside⟩ := second_ih a ran
      exact ⟨d, .second composed started inside⟩
    | error e' =>
      cases ran
      obtain ⟨d, inside⟩ := first_ih started
      exact ⟨d, .first inside _⟩
  | @nested _ inner context listed _ ih =>
    rw [runAt_nested] at ran
    split at ran
    · next deep =>
      cases ran
      exact ⟨c, .tooDeep inner context deep⟩
    · next shallow =>
      rcases started : inner.runAt (c.opened context) with ⟨outcome, middle⟩
      rw [started] at ran
      cases ran
      obtain ⟨d, inside⟩ := ih started
      exact ⟨d, .nested listed (Nat.lt_of_not_le shallow) inside⟩
  | @attempt _ _ tried _ _ =>
    obtain ⟨found, reached, total⟩ := attempt_total tried (·.stream.atEnd) c
    rw [total] at ran
    cases ran

theorem Breaks.visits (breaks : Breaks p c e d) : Visits p c d := by
  induction breaks with
  | error _ c => exact .start _ c
  | look _ ih => exact .look ih
  | first _ f ih => exact .first ih f
  | second composed ran _ ih => exact .second composed ran ih
  | @tooDeep _ _ _ c _ => exact .start _ c
  | nested _ shallow _ ih => exact .nested shallow ih

theorem Breaks.eq_tooDeep {limit : LimitKind} {actual maximum : Nat} {span : Span}
    (breaks : Breaks p c (.limitExceeded limit actual maximum span) d) :
    .limitExceeded limit actual maximum span = d.tooDeep := by
  generalize told : ParseError.limitExceeded limit actual maximum span = e at breaks
  induction breaks with
  | error syntactic => exact absurd told.symm (syntactic _ _ _ _)
  | tooDeep => rfl
  | look _ ih | first _ _ ih | second _ _ _ ih | nested _ _ _ ih => exact ih told

theorem breaks_structural (expected : String) (c : Cursor) :
    Breaks (fail (·.structural expected) : Parser α) c (c.structural expected) c :=
  .look (f := fun s => throw (ParseError.structuralMismatch expected s.current.describe
    s.currentSpan)) (.error (by simp) c)

namespace Cursor

def Named (c : Cursor) : Prop := ∀ name ∈ c.contexts, name ∈ constructs

theorem Named.opened (named : Named c) {context : String} (listed : context ∈ constructs) :
    Named (c.opened context) := by
  unfold Cursor.opened
  simp only
  split
  · exact List.forall_mem_cons.mpr ⟨listed, named⟩
  · exact named

theorem accounted_of_breaks (breaks : Breaks p c e d) (counted : Counted c) (named : Named c) :
    Counted d ∧ Named d := by
  induction breaks with
  | error => exact ⟨counted, named⟩
  | look _ ih => exact ih counted named
  | first _ _ ih => exact ih counted named
  | second composed ran _ ih =>
    have same := sameNesting_of_composed composed counted
    rw [ran] at same
    refine ih (same.counted counted) ?_
    unfold Named
    rwa [same.contexts]
  | tooDeep => exact ⟨counted, named⟩
  | nested listed _ _ ih => exact ih (counted_opened counted _) (named.opened listed)

theorem context_eq_empty_of_depth (counted : Counted c) (outside : c.depth = 0) :
    c.context = "" := by
  obtain ⟨remembered, suppressed⟩ := counted
  have none : c.contexts = [] := by
    rw [← List.length_eq_zero_iff]
    omega
  have uncounted : ¬ c.suppressed > 0 := by omega
  rw [context, none, if_neg uncounted]
  rfl

-- No construct has an empty name, so a context that shows nothing has nothing to show.
theorem context_eq_empty_iff (counted : Counted c) (named : Named c) :
    c.context = "" ↔ c.depth = 0 := by
  refine ⟨fun empty => ?_, context_eq_empty_of_depth counted⟩
  have remembered := counted.remembered
  rw [context, String.append_eq_empty_iff] at empty
  cases names : c.contexts.reverse with
  | nil =>
    rw [List.reverse_eq_nil_iff.mp names, List.length_nil] at remembered
    have positive : 0 < Limits.contextStack := by decide
    omega
  | cons outermost others =>
    have listed : outermost ∈ constructs :=
      named outermost (List.mem_reverse.mp (names ▸ List.mem_cons_self))
    have filled : ∀ name ∈ constructs, name ≠ "" := by decide
    have shown : outermost = "" := by
      have joined := empty.1
      rw [names] at joined
      cases others with
      | nil => rwa [String.intercalate_singleton] at joined
      | cons next rest =>
        rw [String.intercalate_cons_cons, String.append_eq_empty_iff,
          String.append_eq_empty_iff] at joined
        exact joined.1.1
    exact absurd shown (filled outermost listed)

end Cursor

namespace Grammar

open Log (Event)

variable {g : Grammar} {text : String} {tokens : List PlacedToken}

theorem filter_isError_of_severeLevels {events : List Event} (none : severeLevels events = []) :
    events.filter (·.isError) = [] := by
  rw [severeLevels, List.filter_eq_nil_iff] at none
  rw [List.filter_eq_nil_iff]
  intro event member isError
  refine none event.level (List.mem_map_of_mem member) ?_
  rw [Bool.or_eq_true]
  exact .inl isError

theorem outcomeEvents_error (running : c.crashed = false) (e : ParseError) :
    g.outcomeEvents text (.error e) c =
      [errorEvent e c.context (if g.parser.sourceSnippet then text else "")] := by
  simp [outcomeEvents, running]

theorem context_parseTokens (climbing : g.arithmetic = PrecedenceClimbing.rule)
    (tokens : List PlacedToken) : (g.parseTokens tokens).2.context = "" := by
  have same := Cursor.sameNesting_of_composed (composed_of_climbing climbing)
    (c := .start (.ofTokens tokens) g.parser.depth) ⟨rfl, rfl⟩
  exact Cursor.context_eq_empty_of_depth (same.counted ⟨rfl, rfl⟩) same.depth

-- The one error that is logged for a text that is cut into tokens and then fails tells no open
-- construct. This is right exactly if none was open where the error arose.
theorem errorEvent_context (climbing : g.arithmetic = PrecedenceClimbing.rule)
    (cut : (Lexer.run g.lexical.detailedMetrics text).tokens = .ok tokens)
    (failed : (g.parse text).result = .error e) :
    (g.parse text).events.filter (·.isError) =
        [errorEvent e "" (if g.parser.sourceSnippet then text else "")] ∧
      (∃ d, Breaks (completeAction g.arithmetic) (.start (.ofTokens tokens) g.parser.depth) e d) ∧
      ∀ d, Breaks (completeAction g.arithmetic) (.start (.ofTokens tokens) g.parser.depth) e d →
        (d.context = "" ↔ d.depth = 0) := by
  have running := crashed_eq_false climbing text
  rw [parse_of_tokens cut] at failed running ⊢
  refine ⟨?_, exists_breaks (composed_of_climbing climbing) (Prod.ext failed rfl), ?_⟩
  · have cutting := severeLevels_ofText g.lexical text
    rw [show (Tokenization.ofText g.lexical text).tokens = .ok tokens from cut] at cutting
    simp only [List.filter_append, filter_isError_of_severeLevels cutting,
      filter_isError_of_severeLevels (severeLevels_entered _), List.nil_append]
    rw [show (g.parseTokens tokens).1 = .error e from failed, outcomeEvents_error running,
      context_parseTokens climbing]
    rfl
  · intro d breaks
    obtain ⟨counted, named⟩ :=
      Cursor.accounted_of_breaks breaks ⟨rfl, rfl⟩ (List.forall_mem_nil _)
    exact Cursor.context_eq_empty_iff counted named

theorem errorEvent_context_call :
    ∃ tokens e d, (Lexer.run true "x:=f(").tokens = .ok tokens ∧
      (({} : Grammar).parse "x:=f(").result = .error e ∧
      Breaks (completeAction PrecedenceClimbing.rule) (.start (.ofTokens tokens) 256) e d ∧
      d.context = "call" ∧
      (({} : Grammar).parse "x:=f(").events.filter (·.isError) = [errorEvent e "" "x:=f("] := by
  let tokens := Form.layOut .start
    [.name ['x'], .fixed [':', '='] .assign, .name ['f'], .fixed ['('] .leftParen]
  let c : Cursor := .start (.ofTokens tokens) 256
  have cut : (Lexer.run true "x:=f(").tokens = .ok tokens := by decide +kernel
  have failed : (({} : Grammar).parse "x:=f(").result =
      .error (.structuralMismatch "argument" "end of input" (.point ⟨5, 1, 6⟩)) := by decide +kernel
  have breaks : Breaks (completeAction PrecedenceClimbing.rule) c
      (.structuralMismatch "argument" "end of input" (.point ⟨5, 1, 6⟩))
      (c.advance.advance.advance.advance.opened "call") := by
    refine .first ?_ _
    refine .second (composed_atNameThen _ : Composed true _) rfl ?_
    refine .second (composed_expectIdentifier _ _ : Composed true _) rfl ?_
    refine .second (composed_current : Composed true _) rfl ?_
    refine .second (Composed.advance : Composed true _) rfl ?_
    refine .first ?_ _
    refine .second (composed_atNameThen _ : Composed true _) rfl ?_
    refine .second (composed_current : Composed true _) rfl ?_
    refine .second (composed_atNameThen _ : Composed true _) rfl ?_
    refine .second (composed_budget : Composed true _) rfl ?_
    refine .second (composed_expectIdentifier _ _ : Composed true _) rfl ?_
    refine .second (composed_expectToken _ _ : Composed true _) rfl ?_
    refine .first (.nested (by decide) (by decide) ?_) _
    refine .second (composed_current : Composed true _) rfl ?_
    refine .first (.second (composed_current : Composed true _) rfl ?_) _
    exact breaks_structural "argument" _
  exact ⟨_, _, _, cut, failed, breaks, by decide, (errorEvent_context rfl cut failed).1⟩

end Grammar

end StateActions
