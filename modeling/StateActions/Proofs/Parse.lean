import StateActions.Grammar.Basic
import StateActions.Proofs.Action.WellFormed
import StateActions.Proofs.Parser.Acceptance
import StateActions.Proofs.Token.LexicalGrammar

namespace StateActions

namespace Grammar

variable {g : Grammar} {text : String} {a : Action}

theorem depth_parserDepth (g : Grammar) : Limits.depth g.parser.depth = g.parser.depth :=
  depth_eq_self (Limits.one_le_clamp _ _) (Limits.clamp_le _ _ (by decide))

theorem result_of_tokens {tokens : List PlacedToken}
    (cut : (Lexer.run g.lexical.detailedMetrics text).tokens = .ok tokens) :
    (g.parse text).result = (g.parseTokens tokens).1 := by
  have found : (Tokenization.ofText g.lexical text).tokens = .ok tokens := cut
  unfold parse
  simp only [found]

theorem crashed_of_tokens {tokens : List PlacedToken}
    (cut : (Lexer.run g.lexical.detailedMetrics text).tokens = .ok tokens) :
    (g.parse text).crashed = (g.parseTokens tokens).2.crashed := by
  have found : (Tokenization.ofText g.lexical text).tokens = .ok tokens := cut
  unfold parse
  simp only [found]

theorem tokens_of_result (parsed : (g.parse text).result = .ok a) :
    ∃ tokens, (Lexer.run g.lexical.detailedMetrics text).tokens = .ok tokens := by
  cases cut : (Lexer.run g.lexical.detailedMetrics text).tokens with
  | ok tokens => exact ⟨tokens, rfl⟩
  | error e =>
    have found : (Tokenization.ofText g.lexical text).tokens = .error e := cut
    unfold parse at parsed
    simp only [found] at parsed
    cases parsed

theorem parseTokens_ok_iff (climbing : g.arithmetic = PrecedenceClimbing.rule)
    {body : List PlacedToken} {stop : Span} (inner : ∀ t ∈ body, t.token ≠ .eof) :
    (g.parseTokens (body ++ [⟨.eof, stop⟩])).1 = .ok a ↔
      ActionPhrase g.parser.depth ((body.map (·.token)).filter Token.isSignificant) a := by
  have marks : .eof ∉ (body.map (·.token)).filter Token.isSignificant := by
    intro member
    obtain ⟨t, present, mark⟩ := List.mem_map.mp (List.mem_filter.mp member).1
    exact inner t present mark
  rw [parseTokens, climbing, completeAction_ok_iff (tokens_start body stop _) marks, room_start,
    depth_parserDepth]

-- A text is read as `a` exactly when it is cut into tokens that are a phrase of `a`.
theorem parse_ok_iff (climbing : g.arithmetic = PrecedenceClimbing.rule) :
    (g.parse text).result = .ok a ↔
      ∃ body stop, (Lexer.run g.lexical.detailedMetrics text).tokens =
          .ok (body ++ [⟨.eof, stop⟩]) ∧ (∀ t ∈ body, t.token.WellFormed) ∧
        ActionPhrase g.parser.depth ((body.map (·.token)).filter Token.isSignificant) a := by
  constructor
  · intro parsed
    obtain ⟨tokens, cut⟩ := tokens_of_result parsed
    obtain ⟨body, stop, rfl, formed⟩ := Lexer.run_wellFormed cut
    rw [result_of_tokens cut,
      parseTokens_ok_iff climbing (fun t member => (formed t member).ne_eof)] at parsed
    exact ⟨body, stop, cut, formed, parsed⟩
  · rintro ⟨body, stop, cut, formed, phrase⟩
    rw [result_of_tokens cut,
      parseTokens_ok_iff climbing (fun t member => (formed t member).ne_eof)]
    exact phrase

theorem result_of_finds {tokens : List Token} (climbing : g.arithmetic = PrecedenceClimbing.rule)
    (finds : Lexer.Finds (Lexer.run g.lexical.detailedMetrics text) [] tokens)
    (formed : ∀ t ∈ tokens, t.WellFormed)
    (phrase : ActionPhrase g.parser.depth (tokens.filter Token.isSignificant) a) :
    (g.parse text).result = .ok a := by
  obtain ⟨found, stop, cut, rfl⟩ := finds
  refine (parse_ok_iff climbing).mpr ⟨found, stop, cut, fun t member => ?_, phrase⟩
  exact formed t.token (List.mem_map_of_mem member)

theorem crashed_of_result (climbing : g.arithmetic = PrecedenceClimbing.rule)
    (parsed : (g.parse text).result = .ok a) : (g.parse text).crashed = false := by
  obtain ⟨tokens, cut⟩ := tokens_of_result parsed
  rw [result_of_tokens cut, parseTokens, climbing] at parsed
  rw [crashed_of_tokens cut, parseTokens, climbing]
  rcases ran : (Parser.completeAction PrecedenceClimbing.rule).runAt
    (.start (.ofTokens tokens) g.parser.depth) with ⟨outcome, next⟩
  rw [ran] at parsed
  cases parsed
  obtain ⟨taken, takes, -, -⟩ := completeAction_sound ran
  exact takes.crashed

theorem phrase_of_result (climbing : g.arithmetic = PrecedenceClimbing.rule)
    (parsed : (g.parse text).result = .ok a) :
    ∃ tokens, (∀ t ∈ tokens, t.WellFormed) ∧ ActionPhrase g.parser.depth tokens a := by
  obtain ⟨body, stop, -, formed, phrase⟩ := (parse_ok_iff climbing).mp parsed
  refine ⟨_, fun t member => ?_, phrase⟩
  obtain ⟨placed, present, rfl⟩ := List.mem_map.mp (List.mem_filter.mp member).1
  exact formed placed present

-- An action that was read is well formed and nests no deeper than the limit in force, whatever the
-- text is and whatever depth was asked for.
theorem parse_wellFormed (climbing : g.arithmetic = PrecedenceClimbing.rule)
    (parsed : (g.parse text).result = .ok a) : a.WellFormed ∧ a.nesting ≤ g.parser.depth := by
  obtain ⟨tokens, formed, phrase⟩ := phrase_of_result climbing parsed
  exact ⟨phrase.wellFormed formed, phrase.nesting_le⟩

theorem parse_wellFormed_negation :
    ∃ a, (({ parser := { maxDepth := 2 } } : Grammar).parse "Total:=-(16#fF#+Rate.Max)").result =
      .ok a ∧ a.WellFormed ∧ a.nesting ≤ 2 := by
  have parsed : (({ parser := { maxDepth := 2 } } : Grammar).parse
      "Total:=-(16#fF#+Rate.Max)").result = .ok (.assignment "Total" (.arithmetic (.negate
        (.binary .add (.number 255) (.variable ⟨"Rate", ["Max"]⟩))))) := by decide +kernel
  exact ⟨_, parsed, parse_wellFormed rfl parsed⟩

end Grammar

end StateActions
