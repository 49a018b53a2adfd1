import StateActions.Proofs.Parse
import StateActions.Proofs.Parser.Failure
import StateActions.Proofs.Parser.Foresight
import StateActions.Proofs.Token.Places

namespace StateActions

open StateActions.Parser

def significant (tokens : List PlacedToken) : List PlacedToken :=
  tokens.filter (·.token.isSignificant)

-- The parser that is limited to depth `d` takes the tokens for an action.
def Accepted (d : Nat) (tokens : List PlacedToken) : Prop :=
  ∃ a, ((completeAction PrecedenceClimbing.rule).runAt (.start (.ofTokens tokens) d)).1 = .ok a

section Input

variable {tokens : List PlacedToken} {d : Nat}

theorem closed_starts (tokens : List PlacedToken) :
    ∃ tail, Stream.closed tokens = tokens ++ tail := by
  unfold Stream.closed
  split
  · next none => exact ⟨_, by rw [List.getLast?_eq_none_iff.mp none]; rfl⟩
  · split
    · exact ⟨[], (List.append_nil _).symm⟩
    · exact ⟨_, rfl⟩

theorem closed_open (inner : .eof ∉ tokens.map (·.token)) :
    ∃ stop, Stream.closed tokens = tokens ++ [⟨.eof, stop⟩] := by
  unfold Stream.closed
  split
  · next none => exact ⟨_, by rw [List.getLast?_eq_none_iff.mp none]; rfl⟩
  · next last found =>
    have other : last.token.isEof = false := by
      rw [Token.isEof, beq_eq_false_iff_ne]
      intro mark
      exact inner (mark ▸ List.mem_map_of_mem (List.mem_of_getLast? found))
    rw [other]
    exact ⟨_, rfl⟩

theorem one_le_room_start (stream : Stream) (d : Nat) : 1 ≤ (Cursor.start stream d).room := by
  rw [room_start]
  exact Limits.one_le_clamp _ _

theorem tokens_start_eq (tokens : List PlacedToken) (d : Nat) :
    (Cursor.start (.ofTokens tokens) d).tokens =
      (significant (Stream.closed tokens)).map (·.token) := rfl

theorem ahead_start (body : List PlacedToken) (stop : Span) (d : Nat) :
    (Cursor.start (.ofTokens (body ++ [⟨.eof, stop⟩])) d).stream.ahead =
      significant (body ++ [⟨.eof, stop⟩]) := by
  simp [Cursor.start, Stream.ofTokens, Stream.closed, Token.isEof, significant]

theorem significant_append (seen : ∀ t ∈ tokens, t.token.isSignificant = true)
    (suffix : List PlacedToken) :
    significant (tokens ++ suffix) = tokens ++ significant suffix := by
  rw [significant, List.filter_append, List.filter_eq_self.mpr seen, significant]

theorem tokens_start_append (seen : ∀ t ∈ tokens, t.token.isSignificant = true)
    (suffix : List PlacedToken) (d : Nat) :
    ∃ other, (Cursor.start (.ofTokens (tokens ++ suffix)) d).tokens =
      tokens.map (·.token) ++ other := by
  obtain ⟨tail, closed⟩ := closed_starts (tokens ++ suffix)
  rw [tokens_start_eq, closed, List.append_assoc, significant_append seen, List.map_append]
  exact ⟨_, rfl⟩

theorem tokens_start_open (seen : ∀ t ∈ tokens, t.token.isSignificant = true)
    (inner : .eof ∉ tokens.map (·.token)) (d : Nat) :
    (Cursor.start (.ofTokens tokens) d).tokens = tokens.map (·.token) ++ [.eof] := by
  obtain ⟨stop, closed⟩ := closed_open inner
  rw [tokens_start_eq, closed, significant_append seen, List.map_append]
  rfl

theorem accepted_iff_phrase (seen : ∀ t ∈ tokens, t.token.isSignificant = true)
    (inner : .eof ∉ tokens.map (·.token)) :
    Accepted d tokens ↔ ∃ a, ActionPhrase (Limits.depth d) (tokens.map (·.token)) a := by
  unfold Accepted
  simp only [completeAction_ok_iff (tokens_start_open seen inner d) inner, room_start]

theorem accepted_of_viable (seen : ∀ t ∈ tokens, t.token.isSignificant = true)
    (viable : Viable (fun tokens => ∃ a, ActionPhrase (Limits.depth d) tokens a)
      (tokens.map (·.token))) :
    ∃ suffix, (∀ u ∈ suffix, u.token.WellFormed) ∧ Accepted d (tokens ++ suffix) := by
  obtain ⟨suffix, parts, a, phrase⟩ := viable
  let placed := suffix.map (PlacedToken.mk · (.point .start))
  have part : ∀ u ∈ placed, u.token.IsPart := by
    intro u member
    obtain ⟨t, present, rfl⟩ := List.mem_map.mp member
    exact parts t present
  have same : (tokens ++ placed).map (·.token) = tokens.map (·.token) ++ suffix := by
    simp [placed, Function.comp_def]
  rw [← same] at phrase
  refine ⟨placed, fun u member => (part u member).1, (accepted_iff_phrase ?_ phrase.no_eof).mpr
    ⟨a, phrase⟩⟩
  exact List.forall_mem_append.mpr ⟨seen, fun u member => (part u member).2⟩

end Input

section Stopping

variable {c next : Cursor} {e : ParseError} {taken : List Token}

theorem stands_at (takes : c.Takes taken next) (fresh : c.stream.passed = [])
    {t : Token} {later : List Token} (reached : next.tokens = t :: later) :
    ∃ u : PlacedToken, c.stream.ahead[taken.length]? = some u ∧ u.token = t ∧
      next.stream.currentSpan = u.span ∧
      (c.stream.ahead.take taken.length).map (·.token) = taken := by
  have all : next.stream.passed.reverse ++ next.stream.ahead = c.stream.ahead := by
    have same := takes.all
    rwa [Stream.all, Stream.all, fresh, List.reverse_nil, List.nil_append] at same
  obtain ⟨u, rest, ahead, rfl, -⟩ := List.map_eq_cons_iff.mp reached
  have split : (next.stream.passed.reverse ++ next.stream.ahead).map (·.token) =
      taken ++ next.tokens := by
    rw [all]
    exact takes.split
  rw [List.map_append] at split
  have passed := List.append_cancel_right split
  have count : taken.length = next.stream.passed.reverse.length := by
    rw [← passed, List.length_map]
  refine ⟨u, ?_, rfl, ?_, ?_⟩
  · rw [← all, count, List.getElem?_append_right (Nat.le_refl _), ahead]
    simp
  · rw [Stream.currentSpan, Stream.current?, ahead]
    rfl
  · rw [← all, count, List.take_left, passed]

@[simp] theorem span_missing (c : Cursor) (expected : String) (committed : Bool) :
    (c.missing expected committed).span = c.stream.currentSpan := by
  cases committed <;> rfl

@[simp] theorem isTrailing_missing (c : Cursor) (expected : String) (committed : Bool) :
    (c.missing expected committed).isTrailing = false := by
  cases committed <;> rfl

@[simp] theorem isLexical_missing (c : Cursor) (expected : String) (committed : Bool) :
    (c.missing expected committed).isLexical = !committed := by
  cases committed <;> rfl

-- An action is never over while it is still open what the text is.
theorem isOpening_of_phrase {room : Nat} {a : Action} (phrase : ActionPhrase room taken a) :
    isOpening taken = false := by
  cases phrase with
  | assignment target value =>
    cases value with
    | read | boolean | string => rfl
    | call phrase =>
      obtain ⟨name, rest, rfl⟩ := phrase.start
      rfl
    | expr phrase => cases phrase.start <;> rfl
  | write => rfl

-- What an error at `t` says about the tokens `taken` before it: they can be completed, and its kind
-- tells whether they are complete already, or leave open what the text is.
structure SyntaxError (room : Nat) (taken : List Token) (t : Token) (e : ParseError) : Prop where
  viable : Viable (fun tokens => ∃ a, ActionPhrase room tokens a) taken
  lexical : e.isLexical = isOpening taken
  trailing : e.isTrailing = true ↔ ∃ a, ActionPhrase room taken a
  ended : t = .eof → e.isTrailing = false

theorem Viable.no_eof {room : Nat}
    (viable : Viable (fun tokens => ∃ a, ActionPhrase room tokens a) taken) : .eof ∉ taken := by
  obtain ⟨suffix, -, a, phrase⟩ := viable
  exact fun member => phrase.no_eof (List.mem_append_left _ member)

def Cursor.before (c : Cursor) (tokens : List Token) : Cursor :=
  { c with stream := ⟨[], tokens.map (PlacedToken.mk · (.point .start)), .point .start⟩ }

@[simp] theorem Cursor.tokens_before (c : Cursor) (tokens : List Token) :
    (c.before tokens).tokens = tokens := by
  simp [Cursor.before, Cursor.tokens, Function.comp_def]

theorem no_phrase_of_action_error {body later : List Token} {t : Token} {a : Action}
    (ahead : c.tokens = body ++ [.eof]) (inner : .eof ∉ body)
    (failed : (action PrecedenceClimbing.rule).runAt c = (.error e, next))
    (takes : c.Takes taken next) (reached : next.tokens = t :: later) :
    ¬ ActionPhrase c.room taken a := by
  intro phrase
  by_cases atEnd : t = .eof
  · have same : body = taken := by
      refine eq_of_append_eof inner phrase.no_eof ?_ (ahead.symm.trans takes.split)
      rw [reached, atEnd]
      rfl
    subst same
    have accepted := (completeAction_ok_iff ahead inner).mpr phrase
    rw [completeAction, runAt_bind_error failed] at accepted
    cases accepted
  · have shorter := c.tokens_before (taken ++ [.eof])
    have accepted := (completeAction_ok_iff shorter phrase.no_eof).mpr phrase
    refine completeAction_cut_short failed reached atEnd ?_ shorter rfl rfl a accepted
    rw [takes.split, reached]

theorem exists_token_left {body : List Token} (ahead : c.tokens = body ++ [.eof])
    (takes : c.Takes taken next) (unmarked : .eof ∉ taken) :
    ∃ t later, next.tokens = t :: later := by
  refine List.exists_cons_of_ne_nil fun none => unmarked ?_
  have split := ahead.symm.trans takes.split
  rw [none, List.append_nil] at split
  rw [← split]
  exact List.mem_append_right _ List.mem_cons_self

theorem completeAction_syntaxError {body : List Token} (ahead : c.tokens = body ++ [.eof])
    (inner : .eof ∉ body) (one : 1 ≤ c.room) (syntactic : e.isLimit = false)
    (ran : (completeAction PrecedenceClimbing.rule).runAt c = (.error e, next)) :
    ∃ taken t later, c.Takes taken next ∧ next.tokens = t :: later ∧
      e.span = next.stream.currentSpan ∧ SyntaxError c.room taken t e := by
  rcases completeAction_error ran with failed | ⟨taken, a, takes, phrase, more, rfl⟩
  · obtain ⟨taken, takes, ⟨expected, rfl⟩, viable⟩ := action_stuck syntactic one failed
    obtain ⟨t, later, reached⟩ := exists_token_left ahead takes viable.no_eof
    refine ⟨taken, t, later, takes, reached, span_missing _ _ _, viable, ?_, ?_, ?_⟩
    · rw [isLexical_missing, Bool.not_not]
    · rw [isTrailing_missing]
      refine ⟨(nomatch ·), fun ⟨a, phrase⟩ => ?_⟩
      exact absurd phrase (no_phrase_of_action_error ahead inner failed takes reached)
    · exact fun _ => isTrailing_missing _ _ _
  · obtain ⟨t, later, reached⟩ := exists_token_left ahead takes phrase.no_eof
    rw [Cursor.current_of_tokens reached] at more
    refine ⟨taken, t, later, takes, reached, rfl, ⟨[], List.forall_mem_nil _, a, ?_⟩, ?_,
      ⟨fun _ => ⟨a, phrase⟩, fun _ => rfl⟩, fun atEnd => absurd atEnd more⟩
    · rwa [List.append_nil]
    · exact (isOpening_of_phrase phrase).symm

end Stopping

section Text

variable {detailed : Bool} {text : String} {tokens : List PlacedToken} {d k : Nat} {e : ParseError}

theorem isSignificant_of_mem_take {t : PlacedToken} (member : t ∈ (significant tokens).take k) :
    t.token.isSignificant = true :=
  (List.mem_filter.mp (List.mem_of_mem_take member)).2

-- A syntax error in a text stands at one of its tokens, and no input that begins with the same
-- tokens up to this one is accepted.
theorem stops_in_text (cut : (Lexer.run detailed text).tokens = .ok tokens)
    (failed : ((completeAction PrecedenceClimbing.rule).runAt
      (.start (.ofTokens tokens) d)).1 = .error e) (syntactic : e.isLimit = false) :
    ∃ k t, (significant tokens)[k]? = some t ∧ e.span = t.span ∧
      SyntaxError (Limits.depth d) (((significant tokens).take k).map (·.token)) t.token e ∧
      (t.token ≠ .eof → ∀ suffix, ¬ Accepted d ((significant tokens).take (k + 1) ++ suffix)) := by
  obtain ⟨body, stop, rfl, formed⟩ := Lexer.run_wellFormed cut
  have inner : .eof ∉ (body.map (·.token)).filter Token.isSignificant := by
    intro member
    obtain ⟨t, present, mark⟩ := List.mem_map.mp (List.mem_filter.mp member).1
    exact (formed t present).ne_eof mark
  have ahead := tokens_start body stop d
  have closed := ahead_start body stop d
  rcases ran : (completeAction PrecedenceClimbing.rule).runAt
    (.start (.ofTokens (body ++ [⟨.eof, stop⟩])) d) with ⟨outcome, next⟩
  rw [ran] at failed
  cases failed
  obtain ⟨taken, _, later, takes, reached, span, error⟩ :=
    completeAction_syntaxError ahead inner (one_le_room_start _ d) syntactic ran
  obtain ⟨t, here, rfl, spanned, before⟩ := stands_at takes rfl reached
  rw [closed] at here before
  rw [room_start] at error
  refine ⟨taken.length, t, here, span.trans spanned, by rwa [before], ?_⟩
  rintro inside suffix ⟨a, accepted⟩
  have upTo : ((significant (body ++ [⟨.eof, stop⟩])).take (taken.length + 1)).map (·.token) =
      taken ++ [t.token] := by
    rw [List.take_add_one, here, List.map_append, before]
    rfl
  obtain ⟨other, ahead'⟩ := tokens_start_append
    (fun _ => isSignificant_of_mem_take (k := taken.length + 1)) suffix d
  rw [upTo, List.append_assoc, List.singleton_append] at ahead'
  refine completeAction_same_start ran reached inside ?_ ahead' rfl rfl a accepted
  rw [takes.split, reached]

theorem stops_here (cut : (Lexer.run detailed text).tokens = .ok tokens)
    (failed : ((completeAction PrecedenceClimbing.rule).runAt
      (.start (.ofTokens tokens) d)).1 = .error e) (syntactic : e.isLimit = false)
    {t : PlacedToken} (here : (significant tokens)[k]? = some t) (span : e.span = t.span) :
    SyntaxError (Limits.depth d) (((significant tokens).take k).map (·.token)) t.token e ∧
      (t.token ≠ .eof → ∀ suffix, ¬ Accepted d ((significant tokens).take (k + 1) ++ suffix)) := by
  obtain ⟨j, u, there, spanned, error, stopped⟩ := stops_in_text cut failed syntactic
  obtain rfl : j = k :=
    Lexer.span_index_inj cut List.filter_sublist there here (spanned.symm.trans span)
  obtain rfl : u = t := Option.some.inj (there.symm.trans here)
  exact ⟨error, stopped⟩

theorem accepted_before {t : Token}
    (error : SyntaxError (Limits.depth d) (((significant tokens).take k).map (·.token)) t e) :
    Accepted d ((significant tokens).take k) ↔ e.isTrailing = true := by
  rw [error.trailing]
  exact accepted_iff_phrase (fun _ => isSignificant_of_mem_take) error.viable.no_eof

-- A syntax error is reported at the first token that cannot stand where it does: the tokens before
-- it begin some input that is accepted, and together with it they begin none. The end mark has the
-- error when the text ends too early.
theorem completeAction_first_error (cut : (Lexer.run detailed text).tokens = .ok tokens)
    (failed : ((completeAction PrecedenceClimbing.rule).runAt
      (.start (.ofTokens tokens) d)).1 = .error e) (syntactic : e.isLimit = false) :
    (∃ (k : Nat) (t : PlacedToken), (significant tokens)[k]? = some t ∧ e.span = t.span) ∧
    ∀ (k : Nat) (t : PlacedToken), (significant tokens)[k]? = some t → e.span = t.span →
      (∃ suffix, (∀ u ∈ suffix, u.token.WellFormed) ∧
        Accepted d ((significant tokens).take k ++ suffix)) ∧
      (t.token ≠ .eof → ∀ suffix, ¬ Accepted d ((significant tokens).take (k + 1) ++ suffix)) ∧
      (t.token = .eof → ¬ Accepted d ((significant tokens).take k)) := by
  constructor
  · obtain ⟨k, t, here, span, -⟩ := stops_in_text cut failed syntactic
    exact ⟨k, t, here, span⟩
  · intro k t here span
    obtain ⟨error, stopped⟩ := stops_here cut failed syntactic here span
    refine ⟨?_, stopped, ?_⟩
    · exact accepted_of_viable (fun _ => isSignificant_of_mem_take) error.viable
    · intro atEnd accepted
      have trailing := (accepted_before error).mp accepted
      rw [error.ended atEnd] at trailing
      cases trailing

theorem completeAction_first_error_number :
    ∃ tokens e, (Lexer.run false "x:=(1 2").tokens = .ok tokens ∧
      ((completeAction PrecedenceClimbing.rule).runAt (.start (.ofTokens tokens) 1)).1 = .error e ∧
      e.isLimit = false ∧ (∃ suffix, Accepted 1 ((significant tokens).take 4 ++ suffix)) ∧
      ∀ suffix, ¬ Accepted 1 ((significant tokens).take 5 ++ suffix) := by
  have cut : (Lexer.run false "x:=(1 2").tokens = .ok (Form.layOut .start
      [.name ['x'], .fixed [':', '='] .assign, .fixed ['('] .leftParen, .decimal ['1'],
        .fixed [' '] .space, .decimal ['2']]) := by decide +kernel
  have failed : ((completeAction PrecedenceClimbing.rule).runAt (.start (.ofTokens (Form.layOut
      .start [.name ['x'], .fixed [':', '='] .assign, .fixed ['('] .leftParen, .decimal ['1'],
        .fixed [' '] .space, .decimal ['2']])) 1)).1 = .error (.structuralMismatch "')'" "number 2"
      ⟨⟨6, 1, 7⟩, ⟨7, 1, 8⟩⟩) := by decide +kernel
  obtain ⟨⟨suffix, -, accepted⟩, stopped, -⟩ :=
    (completeAction_first_error cut failed rfl).2 4 ⟨.number 2, ⟨⟨6, 1, 7⟩, ⟨7, 1, 8⟩⟩⟩ rfl rfl
  exact ⟨_, _, cut, failed, rfl, ⟨suffix, accepted⟩, stopped Token.noConfusion⟩

end Text

namespace Grammar

variable {g : Grammar} {text : String} {tokens : List PlacedToken} {k : Nat} {t : PlacedToken}
  {e : ParseError}

-- The kind of a syntax error follows from the tokens before it. Trailing input: they are an action
-- of their own. A lexical mismatch: they leave open what the text is. In every other case the error
-- is structural.
theorem parse_error_kind (climbing : g.arithmetic = PrecedenceClimbing.rule)
    (cut : (Lexer.run g.lexical.detailedMetrics text).tokens = .ok tokens)
    (failed : (g.parse text).result = .error e) (syntactic : e.isLimit = false)
    (here : (significant tokens)[k]? = some t) (span : e.span = t.span) :
    (e.isTrailing = true ↔ Accepted g.parser.depth ((significant tokens).take k)) ∧
    (e.isLexical = true ↔ isOpening (((significant tokens).take k).map (·.token)) = true) ∧
    (e.isStructural = true ↔ ¬ Accepted g.parser.depth ((significant tokens).take k) ∧
      isOpening (((significant tokens).take k).map (·.token)) = false) := by
  rw [result_of_tokens cut, parseTokens, climbing] at failed
  obtain ⟨error, -⟩ := stops_here cut failed syntactic here span
  rw [accepted_before error, ← error.lexical]
  refine ⟨Iff.rfl, Iff.rfl, ?_⟩
  cases e with
  | limitExceeded => cases syntactic
  | _ => simp [ParseError.isStructural, ParseError.isTrailing, ParseError.isLexical]

theorem parse_error_kind_call :
    ∃ tokens e, (Lexer.run true "x:=F(1)+2").tokens = .ok tokens ∧
      (({} : Grammar).parse "x:=F(1)+2").result = .error e ∧ e.isTrailing = true ∧
      Accepted 256 ((significant tokens).take 6) := by
  have cut : (Lexer.run true "x:=F(1)+2").tokens = .ok (Form.layOut .start
      [.name ['x'], .fixed [':', '='] .assign, .name ['F'], .fixed ['('] .leftParen,
        .decimal ['1'], .fixed [')'] .rightParen, .fixed ['+'] .plus, .decimal ['2']]) := by
    decide +kernel
  have failed : (({} : Grammar).parse "x:=F(1)+2").result =
      .error (.trailingInput "'+'" ⟨⟨7, 1, 8⟩, ⟨8, 1, 9⟩⟩) := by decide +kernel
  exact ⟨_, _, cut, failed, rfl, (parse_error_kind (k := 6)
    (t := ⟨.plus, ⟨⟨7, 1, 8⟩, ⟨8, 1, 9⟩⟩⟩) rfl cut failed rfl rfl rfl).1.mp rfl⟩

end Grammar

end StateActions
