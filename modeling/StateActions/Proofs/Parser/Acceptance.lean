import StateActions.Proofs.Parser.Completeness

namespace StateActions

open StateActions.Parser

theorem completeAction_ok_iff {c : Cursor} {tokens : List Token} {a : Action}
    (ahead : c.tokens = tokens ++ [.eof]) (inner : .eof ∉ tokens) :
    ((completeAction PrecedenceClimbing.rule).runAt c).1 = .ok a ↔
      ActionPhrase c.room tokens a := by
  constructor
  · intro accepted
    rcases ran : (completeAction PrecedenceClimbing.rule).runAt c with ⟨outcome, next⟩
    rw [ran] at accepted
    cases accepted
    obtain ⟨taken, takes, current, phrase⟩ := completeAction_sound ran
    rw [Cursor.current_eq] at current
    rwa [eq_of_append_eof inner phrase.no_eof current (ahead.symm.trans takes.split)]
  · intro phrase
    rcases completeAction_complete phrase ahead with ⟨next, ran, -, -⟩ | ⟨tight, -⟩
    · rw [ran]; rfl
    · exact absurd tight (Nat.lt_irrefl _)

theorem depth_eq_self {d : Nat} (positive : 1 ≤ d) (bounded : d ≤ Limits.parseDepth) :
    Limits.depth d = d := by
  unfold Limits.depth Limits.clamp
  omega

@[simp] theorem room_start (stream : Stream) (d : Nat) :
    (Cursor.start stream d).room = Limits.depth d := Nat.sub_zero _

theorem tokens_start (tokens : List PlacedToken) (stop : Span) (d : Nat) :
    (Cursor.start (.ofTokens (tokens ++ [⟨.eof, stop⟩])) d).tokens =
      (tokens.map (·.token)).filter Token.isSignificant ++ [.eof] := by
  have closed : Stream.closed (tokens ++ [⟨.eof, stop⟩]) = tokens ++ [⟨.eof, stop⟩] := by
    simp [Stream.closed, Token.isEof]
  have mark : Token.isSignificant .eof = true := rfl
  simp only [Cursor.tokens, Cursor.start, Stream.ofTokens, closed, List.filter_append,
    List.map_append, List.filter_map, Function.comp_def]
  simp [mark]

end StateActions
