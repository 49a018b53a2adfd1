import StateActions.Proofs.Log.Reports
import StateActions.Proofs.Parser.FirstError

namespace StateActions

open StateActions.Parser

variable {α β : Type} {nests : Bool} {S : Span → Span → Prop}

def ParseError.movedTo (span : Span) : ParseError → ParseError
  | .lexicalMismatch expected found _ => .lexicalMismatch expected found span
  | .trailingInput found _ => .trailingInput found span
  | .structuralMismatch expected found _ => .structuralMismatch expected found span
  | .limitExceeded limit actual maximum _ => .limitExceeded limit actual maximum span

-- Two parses end in the same way, and the places of their errors are related.
inductive SameEnd (S : Span → Span → Prop) :
    Except ParseError α → Except ParseError α → Prop
  | ok (a : α) : SameEnd S (.ok a) (.ok a)
  | error {e : ParseError} {span : Span} (related : S e.span span) :
      SameEnd S (.error e) (.error (e.movedTo span))

def Matched (S : Span → Span → Prop) : List PlacedToken → List PlacedToken → Prop :=
  List.Forall₂ fun t u => t.token = u.token ∧ S t.span u.span

structure Cursor.Matches (S : Span → Span → Prop) (c d : Cursor) : Prop where
  ahead : Matched S c.stream.ahead d.stream.ahead
  endSpan : S c.stream.endSpan d.stream.endSpan
  depth : c.depth = d.depth
  maxDepth : c.maxDepth = d.maxDepth

theorem Matched.tokens {left right : List PlacedToken} (matched : Matched S left right) :
    left.map (·.token) = right.map (·.token) := by
  induction matched with
  | nil => rfl
  | cons first _ ih => rw [List.map_cons, List.map_cons, first.1, ih]

namespace Cursor.Matches

variable {c d m n : Cursor}

theorem current (same : c.Matches S d) : c.stream.current = d.stream.current :=
  Stream.current_eq same.ahead.tokens

theorem currentSpan (same : c.Matches S d) : S c.stream.currentSpan d.stream.currentSpan := by
  have ahead := same.ahead
  unfold Stream.currentSpan Stream.current?
  cases left : c.stream.ahead <;> cases right : d.stream.ahead <;> rw [left, right] at ahead <;>
    cases ahead
  · exact same.endSpan
  · next first _ => exact first.2

theorem advance (same : c.Matches S d) : c.advance.Matches S d.advance := by
  have ahead := same.ahead
  have endSpan (c : Cursor) : c.advance.stream.endSpan = c.stream.endSpan :=
    (keeps_advance c).endSpan
  refine ⟨?_, by rw [endSpan, endSpan]; exact same.endSpan, same.depth, same.maxDepth⟩
  unfold Cursor.advance Stream.advance
  cases left : c.stream.ahead <;> cases right : d.stream.ahead <;> rw [left, right] at ahead <;>
    cases ahead
  · rw [left, right]
    exact .nil
  · next t rest u others first later =>
    simp only [first.1]
    split
    · rw [left, right]
      exact .cons first later
    · exact later

theorem opened (same : c.Matches S d) (context : String) :
    (c.opened context).Matches S (d.opened context) := by
  refine ⟨?_, ?_, ?_, ?_⟩
  · rw [stream_opened, stream_opened]
    exact same.ahead
  · rw [stream_opened, stream_opened]
    exact same.endSpan
  · rw [depth_opened, depth_opened, same.depth]
  · rw [maxDepth_opened, maxDepth_opened, same.maxDepth]

theorem closed (same : c.Matches S d) : c.closed.Matches S d.closed := by
  refine ⟨?_, ?_, ?_, ?_⟩
  · rw [stream_closed, stream_closed]
    exact same.ahead
  · rw [stream_closed, stream_closed]
    exact same.endSpan
  · rw [depth_closed, depth_closed, same.depth]
  · rw [maxDepth_closed, maxDepth_closed, same.maxDepth]

theorem back (same : c.Matches S d) (reached : m.Matches S n) :
    Matches S { m with stream := c.stream } { n with stream := d.stream } :=
  ⟨same.ahead, same.endSpan, reached.depth, reached.maxDepth⟩

end Cursor.Matches

def Carries (S : Span → Span → Prop) (p : Parser α) : Prop :=
  ∀ c d, c.Matches S d →
    SameEnd S (p.runAt c).1 (p.runAt d).1 ∧ (p.runAt c).2.Matches S (p.runAt d).2

section Steps

theorem Carries.bind {p : Parser α} {f : α → Parser β} (first : Carries S p)
    (second : ∀ a, Carries S (f a)) : Carries S (p >>= f) := by
  intro c d same
  obtain ⟨alike, reached⟩ := first c d same
  rcases ran : p.runAt c with ⟨outcome, next⟩
  rcases ran' : p.runAt d with ⟨outcome', next'⟩
  rw [ran, ran'] at alike reached
  cases alike with
  | ok a =>
    rw [runAt_bind_ok ran, runAt_bind_ok ran']
    exact second a next next' reached
  | error related =>
    rw [runAt_bind_error ran, runAt_bind_error ran']
    exact ⟨.error related, reached⟩

-- An error that tells a place tells that of the token at hand.
theorem carries_fail {error : Cursor → ParseError}
    (here : ∀ c : Cursor, (error c).span = c.stream.currentSpan)
    (same : ∀ c d : Cursor, c.Matches S d →
      error d = (error c).movedTo d.stream.currentSpan) : Carries S (fail error : Parser α) := by
  intro c d matching
  refine ⟨?_, matching⟩
  rw [runAt_fail, runAt_fail, same c d matching]
  refine .error ?_
  rw [here c]
  exact matching.currentSpan

theorem sameEnd_tooDeep {c d : Cursor} (same : c.Matches S d) :
    SameEnd S (.error c.tooDeep : Except ParseError α) (.error d.tooDeep) := by
  have moved : d.tooDeep = c.tooDeep.movedTo d.stream.currentSpan := by
    unfold Cursor.tooDeep
    rw [same.depth, same.maxDepth]
    rfl
  rw [moved]
  exact .error same.currentSpan

theorem carries_nested {inner : Parser α} (context : String) (inside : Carries S inner) :
    Carries S (nested context inner) := by
  intro c d same
  rw [runAt_nested, runAt_nested, ← same.depth, ← same.maxDepth]
  split
  · exact ⟨sameEnd_tooDeep same, same⟩
  · obtain ⟨alike, reached⟩ := inside _ _ (same.opened context)
    exact ⟨alike, reached.closed⟩

theorem carries_attempt {p : Parser α} (inside : Carries S p) :
    Carries S (attempt p (·.stream.atEnd)) := by
  intro c d same
  obtain ⟨alike, reached⟩ := inside c d same
  rw [runAt_attempt, runAt_attempt]
  rcases ran : p.runAt c with ⟨outcome, next⟩
  rcases ran' : p.runAt d with ⟨outcome', next'⟩
  rw [ran, ran'] at alike reached
  have returned := same.back reached
  cases alike with
  | ok a =>
    have ended : next.stream.atEnd = next'.stream.atEnd := by
      rw [Stream.atEnd, Stream.atEnd, reached.current]
    simp only [ended]
    cases next'.stream.atEnd with
    | true => exact ⟨.ok _, reached⟩
    | false => exact ⟨.ok _, returned⟩
  | error related => exact ⟨.ok _, returned⟩

-- What goes by the tokens alone ends alike on the same tokens.
theorem carries_of_placeless {p : Parser α} (placeless : Placeless nests p) : Carries S p := by
  induction placeless with
  | pure a => exact fun _ _ same => ⟨.ok a, same⟩
  | ask view blind _ ih =>
    intro c d same
    rw [runAt_bind_ok (runAt_get c), runAt_bind_ok (runAt_get d),
      blind _ _ same.ahead.tokens]
    exact ih _ c d same
  | mismatch expected =>
    refine carries_fail (fun _ => rfl) fun c d same => ?_
    rw [Cursor.mismatch, ← same.current]
    rfl
  | structural expected =>
    refine carries_fail (fun _ => rfl) fun c d same => ?_
    rw [Cursor.structural, ← same.current]
    rfl
  | trailing =>
    refine carries_fail (fun _ => rfl) fun c d same => ?_
    rw [← same.current]
    rfl
  | advance => exact fun _ _ same => ⟨.ok (), same.advance⟩
  | bind _ _ first second => exact first.bind second
  | nested context _ _ ih => exact carries_nested context ih
  | attempt _ ih => exact carries_attempt ih

end Steps

-- The places of two tokens that have the same number among those that the grammar sees, each in its
-- own text.
def SamePlace (tokens others : List PlacedToken) (span other : Span) : Prop :=
  ∃ (k : Nat) (t u : PlacedToken), (significant tokens)[k]? = some t ∧
    (significant others)[k]? = some u ∧ span = t.span ∧ other = u.span

section Texts

variable {detailed : Bool} {text other : String} {tokens others : List PlacedToken}

theorem matched_significant
    (same : (significant tokens).map (·.token) = (significant others).map (·.token)) :
    Matched (SamePlace tokens others) (significant tokens) (significant others) := by
  have lengths := congrArg List.length same
  rw [List.length_map, List.length_map] at lengths
  refine List.forall₂_iff_get.mpr ⟨lengths, fun k left right => ⟨?_, k, _, _, ?_, ?_, rfl, rfl⟩⟩
  · have here := congrArg (·[k]?) same
    simpa [left, right] using here
  · exact List.getElem?_eq_getElem left
  · exact List.getElem?_eq_getElem right

theorem matches_start (cut : (Lexer.run detailed text).tokens = .ok tokens)
    (cut' : (Lexer.run detailed other).tokens = .ok others)
    (same : (significant tokens).map (·.token) = (significant others).map (·.token)) (d : Nat) :
    (Cursor.start (.ofTokens tokens) d).Matches (SamePlace tokens others)
      (.start (.ofTokens others) d) := by
  have matched := matched_significant same
  obtain ⟨body, stop, rfl, -⟩ := Lexer.run_wellFormed cut
  obtain ⟨body', stop', rfl, -⟩ := Lexer.run_wellFormed cut'
  refine ⟨?_, ?_, rfl, rfl⟩
  · rw [ahead_start, ahead_start]
    exact matched
  · have endSpan (body : List PlacedToken) (stop : Span) :
        (Cursor.start (.ofTokens (body ++ [⟨.eof, stop⟩])) d).stream.endSpan = stop := by
      simp [Cursor.start, Stream.ofTokens, Stream.closed, Token.isEof]
    have last (body : List PlacedToken) (stop : Span) :
        significant (body ++ [⟨.eof, stop⟩]) = significant body ++ [⟨.eof, stop⟩] :=
      List.filter_append ..
    have lengths := matched.length_eq
    rw [last, last, List.length_append, List.length_append] at lengths
    have count : (significant body).length = (significant body').length := by simpa using lengths
    rw [endSpan, endSpan]
    refine ⟨(significant body).length, ⟨.eof, stop⟩, ⟨.eof, stop'⟩, ?_, ?_, rfl, rfl⟩
    · rw [last, List.getElem?_concat_length]
    · rw [count, last, List.getElem?_concat_length]

theorem Grammar.result_sameEnd {g : Grammar} (climbing : g.arithmetic = PrecedenceClimbing.rule)
    (cut : (Lexer.run g.lexical.detailedMetrics text).tokens = .ok tokens)
    (cut' : (Lexer.run g.lexical.detailedMetrics other).tokens = .ok others)
    (same : (significant tokens).map (·.token) = (significant others).map (·.token)) :
    SameEnd (SamePlace tokens others) (g.parse text).result (g.parse other).result := by
  rw [result_of_tokens cut, result_of_tokens cut', parseTokens, parseTokens, climbing]
  exact (carries_of_placeless (placeless_completeAction PrecedenceClimbing.placeless_rule) _ _
    (matches_start cut cut' same _)).1

end Texts

end StateActions
