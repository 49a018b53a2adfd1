import Mathlib.Data.List.Basic
import StateActions.Proofs.Log.Reports

namespace StateActions

open StateActions.Parser

variable {α β : Type} {nests : Bool} {p : Parser α}

namespace Cursor

def limited (c : Cursor) (limit : Nat) : Cursor := { c with maxDepth := limit }

theorem opened_limited (c : Cursor) (limit : Nat) (context : String) :
    (c.limited limit).opened context = (c.opened context).limited limit := by
  unfold opened limited
  simp only
  split <;> rfl

theorem closed_limited (c : Cursor) (limit : Nat) :
    (c.limited limit).closed = c.closed.limited limit := by
  unfold closed limited
  simp only
  split <;> rfl

theorem stable_maxDepth (limit : Nat) : Stable fun c => c.maxDepth = limit where
  advance held := held
  moveTo _ held := held
  back _ held := held
  opened context held := (maxDepth_opened _ context).trans held
  closed held := (maxDepth_closed _).trans held

end Cursor

theorem maxDepth_of_composed (composed : Composed nests p) (c : Cursor) :
    (p.runAt c).2.maxDepth = c.maxDepth :=
  (respects_of_composed (Cursor.stable_maxDepth c.maxDepth).kept composed c c ⟨rfl, rfl⟩).2.2

-- The only limit a step can meet is that of nesting. It is met by a step that opens constructs, and
-- what is told is the level that the construct would have had.
theorem limit_of_composed {c next : Cursor} {limit : LimitKind} {actual maximum : Nat} {span : Span}
    (composed : Composed nests p)
    (ran : p.runAt c = (.error (.limitExceeded limit actual maximum span), next)) :
    nests = true ∧ limit = .nestingDepth ∧ maximum = c.maxDepth ∧ maximum < actual := by
  induction composed generalizing c next with
  | pure a => cases ran
  | error syntactic =>
    cases ran
    exact absurd rfl (syntactic _ _ _ _)
  | look _ ih =>
    rw [runAt_bind_ok (runAt_get c)] at ran
    exact ih _ ran
  | advance => cases ran
  | @bind _ _ _ first _ composed _ first_ih second_ih =>
    rw [runAt_bind] at ran
    have same := maxDepth_of_composed composed c
    rcases started : first.runAt c with ⟨outcome, middle⟩
    rw [started] at ran same
    cases outcome with
    | ok a =>
      rw [← same]
      exact second_ih a ran
    | error e =>
      cases ran
      exact first_ih started
  | @nested _ inner context _ inside ih =>
    rw [runAt_nested] at ran
    split at ran
    · next deep =>
      cases ran
      exact ⟨rfl, rfl, rfl, Nat.lt_succ_of_le deep⟩
    · rcases started : inner.runAt (c.opened context) with ⟨outcome, middle⟩
      rw [started] at ran
      cases ran
      have told := ih started
      rwa [Cursor.maxDepth_opened] at told
  | @attempt _ _ tried _ _ =>
    obtain ⟨found, reached, total⟩ := attempt_total tried (·.stream.atEnd) c
    rw [total] at ran
    cases ran

def Exhausted (outcome : Except ParseError α) : Prop :=
  ∃ actual maximum span, outcome = .error (.limitExceeded .nestingDepth actual maximum span)

-- From a state under a higher limit the step does the same, unless it ends for want of room.
def Lifts (p : Parser α) : Prop :=
  ∀ (c : Cursor) (limit : Nat), c.maxDepth ≤ limit → Exhausted (p.runAt c).1 ∨
    p.runAt (c.limited limit) = ((p.runAt c).1, (p.runAt c).2.limited limit)

theorem lifts_bind {p : Parser α} {f : α → Parser β} (composed : Composed nests p)
    (first : Lifts p) (second : ∀ a, Lifts (f a)) : Lifts (p >>= f) := by
  intro c limit raised
  have same := maxDepth_of_composed composed c
  have lifted := first c limit raised
  rcases ran : p.runAt c with ⟨outcome, middle⟩
  rw [ran] at same lifted
  rcases lifted with exhausted | lifted
  · obtain ⟨actual, maximum, span, stopped⟩ := exhausted
    refine .inl ⟨actual, maximum, span, ?_⟩
    obtain rfl : outcome = _ := stopped
    rw [runAt_bind_error ran]
  · cases outcome with
    | ok a =>
      rw [runAt_bind_ok ran, runAt_bind_ok lifted]
      exact second a middle limit (same ▸ raised)
    | error e =>
      rw [runAt_bind_error ran, runAt_bind_error lifted]
      exact .inr rfl

theorem lifts_nested {inner : Parser α} (context : String) (inside : Lifts inner) :
    Lifts (nested context inner) := by
  intro c limit raised
  rw [runAt_nested, runAt_nested]
  by_cases deep : c.depth ≥ c.maxDepth
  · rw [if_pos deep]
    exact .inl ⟨_, _, _, rfl⟩
  · have shallow : ¬ (c.limited limit).depth ≥ (c.limited limit).maxDepth := by
      show ¬ c.depth ≥ limit
      omega
    rw [if_neg deep, if_neg shallow, Cursor.opened_limited]
    have inner_raised : (c.opened context).maxDepth ≤ limit := by
      rwa [Cursor.maxDepth_opened]
    rcases inside _ limit inner_raised with exhausted | lifted
    · exact .inl exhausted
    · rw [lifted, Cursor.closed_limited]
      exact .inr rfl

-- What is attempted opens no construct, so an attempt has no want of room to hide.
theorem lifts_attempt (composed : Composed false p) (inside : Lifts p) :
    Lifts (attempt p (·.stream.atEnd)) := by
  intro c limit raised
  have lifted := inside c limit raised
  rw [runAt_attempt, runAt_attempt]
  rcases ran : p.runAt c with ⟨outcome, next⟩
  rw [ran] at lifted
  rcases lifted with ⟨actual, maximum, span, stopped⟩ | lifted
  · obtain rfl : outcome = _ := stopped
    cases (limit_of_composed composed ran).1
  · rw [lifted]
    refine .inr ?_
    cases outcome with
    | error e => rfl
    | ok a => by_cases ended : next.stream.atEnd <;> simp [Cursor.limited, ended]

theorem lifts_of_composed (composed : Composed nests p) : Lifts p := by
  induction composed with
  | pure a => exact fun _ _ _ => .inr rfl
  | error _ => exact fun _ _ _ => .inr rfl
  | look _ ih =>
    intro c limit raised
    rw [runAt_bind_ok (runAt_get c), runAt_bind_ok (runAt_get _)]
    exact ih _ c limit raised
  | advance => exact fun _ _ _ => .inr rfl
  | bind composed _ first second => exact lifts_bind composed first second
  | nested context _ _ ih => exact lifts_nested context ih
  | attempt composed ih => exact lifts_attempt composed ih

theorem Limits.depth_mono {asked more : Nat} (raised : asked ≤ more) :
    Limits.depth asked ≤ Limits.depth more := by
  unfold Limits.depth Limits.clamp
  omega

namespace Grammar

variable {g : Grammar}

def withMaxDepth (g : Grammar) (asked : Nat) : Grammar :=
  { g with parser := { g.parser with maxDepth := asked } }

theorem parseTokens_raised (climbing : g.arithmetic = PrecedenceClimbing.rule) {asked more : Nat}
    (raised : asked ≤ more) (tokens : List PlacedToken) :
    Exhausted ((g.withMaxDepth asked).parseTokens tokens).1 ∨
      ((g.withMaxDepth more).parseTokens tokens).1 =
        ((g.withMaxDepth asked).parseTokens tokens).1 := by
  have lifts := lifts_of_composed (composed_of_climbing climbing)
  have deeper := Limits.depth_mono (Limits.depth_mono raised)
  rcases lifts (.start (.ofTokens tokens) (Limits.depth asked)) _ deeper with exhausted | lifted
  · exact .inl exhausted
  · exact .inr (congrArg Prod.fst lifted :)

-- Raising the nesting limit changes no answer, an action or an error, but to lift an error about
-- that limit.
theorem result_raised (climbing : g.arithmetic = PrecedenceClimbing.rule) (text : String)
    {asked more : Nat} (raised : asked ≤ more) :
    (∃ actual maximum span, ((g.withMaxDepth asked).parse text).result =
        .error (.limitExceeded .nestingDepth actual maximum span)) ∨
      ((g.withMaxDepth more).parse text).result = ((g.withMaxDepth asked).parse text).result := by
  cases cut : (Tokenization.ofText g.lexical text).tokens with
  | error e =>
    rw [parse_of_lexError (g := g.withMaxDepth asked) cut,
      parse_of_lexError (g := g.withMaxDepth more) cut]
    exact .inr rfl
  | ok tokens =>
    rw [parse_of_tokens (g := g.withMaxDepth asked) cut,
      parse_of_tokens (g := g.withMaxDepth more) cut]
    exact parseTokens_raised climbing raised tokens

theorem result_raised_negation :
    ((({} : Grammar).withMaxDepth 1).parse "x := -(y").result =
        .error (.limitExceeded .nestingDepth 2 1 ⟨⟨7, 1, 8⟩, ⟨8, 1, 9⟩⟩) ∧
      2 ≤ 300 ∧ ((({} : Grammar).withMaxDepth 300).parse "x := -(y").result =
        .error (.structuralMismatch "')'" "end of input" ⟨⟨8, 1, 9⟩, ⟨8, 1, 9⟩⟩) := by
  have low : ((({} : Grammar).withMaxDepth 2).parse "x := -(y").result =
      .error (.structuralMismatch "')'" "end of input" ⟨⟨8, 1, 9⟩, ⟨8, 1, 9⟩⟩) := by decide +kernel
  refine ⟨by decide +kernel, by decide, ?_⟩
  rcases result_raised (g := {}) rfl "x := -(y" (show 2 ≤ 300 by decide) with
    ⟨actual, maximum, span, exhausted⟩ | same
  · rw [low] at exhausted
    cases exhausted
  · rw [same, low]

end Grammar

end StateActions
