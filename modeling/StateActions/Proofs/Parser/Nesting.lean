import StateActions.Proofs.Parser.Checkpoint

namespace StateActions

open StateActions.Parser

variable {α : Type} {nests : Bool} {p : Parser α}

-- The states that a step passes through from the first on, as far as it gets. It is not asked in
-- which way the step was put together, so there may be more of them than it takes, never fewer.
inductive Visits : {α : Type} → Parser α → Cursor → Cursor → Prop
  | start {α : Type} (p : Parser α) (c : Cursor) : Visits p c c
  | stop {nests : Bool} {α : Type} {p : Parser α} (composed : Composed nests p) (c : Cursor) :
      Visits p c (p.runAt c).2
  | look {α : Type} {f : Stream → Parser α} {c d : Cursor} (inside : Visits (f c.stream) c d) :
      Visits (do f (← get).stream) c d
  | first {α β : Type} {p : Parser α} {c d : Cursor} (inside : Visits p c d) (f : α → Parser β) :
      Visits (p >>= f) c d
  | second {nests : Bool} {α β : Type} {p : Parser α} {f : α → Parser β} {a : α}
      {c middle d : Cursor} (composed : Composed nests p) (ran : p.runAt c = (.ok a, middle))
      (inside : Visits (f a) middle d) : Visits (p >>= f) c d
  | nested {α : Type} {inner : Parser α} {context : String} {c d : Cursor}
      (shallow : c.depth < c.maxDepth) (inside : Visits inner (c.opened context) d) :
      Visits (nested context inner) c d
  | attempt {α : Type} {p : Parser α} {c d : Cursor} (inside : Visits p c d) :
      Visits (attempt p (·.stream.atEnd)) c d

namespace Cursor

variable {c d : Cursor}

theorem visited_of_kept {I : Cursor → Prop} (kept : Kept (Diagonal I)) (visits : Visits p c d)
    (holds : I c) : I d := by
  have reached : ∀ {nests : Bool} {α : Type} {p : Parser α} {c : Cursor}, Composed nests p →
      I c → I (p.runAt c).2 :=
    fun composed holds => (respects_of_composed kept composed _ _ ⟨rfl, holds⟩).2.2
  induction visits with
  | start => exact holds
  | stop composed c => exact reached composed holds
  | look _ ih => exact ih holds
  | first _ _ ih => exact ih holds
  | second composed ran _ ih =>
    have middle := reached composed holds
    rw [ran] at middle
    exact ih middle
  | nested shallow _ ih => exact ih (kept.opened _ ⟨rfl, holds⟩ shallow).2
  | attempt _ ih => exact ih holds

theorem kept_bounded (limit : Nat) :
    Kept (Diagonal fun c => c.maxDepth = limit ∧ c.depth ≤ limit) where
  stream related := by rw [related.1]
  depth related := by rw [related.1]
  maxDepth related := by rw [related.1]
  advance := by
    rintro c _ ⟨rfl, bounded⟩
    exact ⟨rfl, bounded⟩
  moveTo := by
    rintro c _ n ⟨rfl, bounded⟩
    exact ⟨rfl, bounded⟩
  back := by
    rintro c _ m _ ⟨rfl, -⟩ ⟨rfl, bounded⟩
    exact ⟨rfl, bounded⟩
  opened := by
    rintro c _ context ⟨rfl, same, -⟩ shallow
    refine ⟨rfl, ?_, ?_⟩
    · rw [maxDepth_opened, same]
    · rw [depth_opened, ← same]
      exact shallow
  closed := by
    rintro c _ ⟨rfl, same, below⟩
    refine ⟨rfl, ?_, ?_⟩
    · rw [maxDepth_closed, same]
    · rw [depth_closed]
      exact (Nat.sub_le _ _).trans below

structure SameNesting (c d : Cursor) : Prop where
  depth : d.depth = c.depth
  contexts : d.contexts = c.contexts
  suppressed : d.suppressed = c.suppressed

namespace SameNesting

theorem refl (c : Cursor) : SameNesting c c := ⟨rfl, rfl, rfl⟩

theorem trans {middle : Cursor} (first : SameNesting c middle) (second : SameNesting middle d) :
    SameNesting c d :=
  ⟨second.depth.trans first.depth, second.contexts.trans first.contexts,
    second.suppressed.trans first.suppressed⟩

theorem counted (same : SameNesting c d) (counted : Counted c) : Counted d := by
  constructor
  · rw [same.contexts, same.depth, counted.remembered]
  · rw [same.suppressed, same.depth, counted.suppressed]

-- What was counted beyond the bound is uncounted again, and what was remembered is forgotten. The
-- one is not taken for the other, since nothing is counted before the bound is reached.
theorem closed {context : String} (counted : Counted c)
    (same : SameNesting (c.opened context) d) : SameNesting c d.closed := by
  obtain ⟨remembered, beyond⟩ := counted
  obtain ⟨depth, contexts, suppressed⟩ := same
  have level : d.closed.depth = c.depth := by
    rw [depth_closed, depth, depth_opened, Nat.add_sub_cancel]
  by_cases below : c.contexts.length < Limits.contextStack
  · have none : c.suppressed = 0 := by omega
    simp only [opened, if_pos below] at contexts suppressed
    rw [none] at suppressed
    exact ⟨level, by simp [Cursor.closed, suppressed, contexts],
      by simp [Cursor.closed, suppressed, none]⟩
  · simp only [opened, if_neg below] at contexts suppressed
    exact ⟨level, by simp [Cursor.closed, suppressed, contexts],
      by simp [Cursor.closed, suppressed]⟩

end SameNesting

-- However a step ends, it has closed what it opened and nothing else.
theorem sameNesting_of_composed (composed : Composed nests p) (counted : Counted c) :
    SameNesting c (p.runAt c).2 := by
  induction composed generalizing c with
  | pure a => exact .refl c
  | error _ => exact .refl c
  | look _ ih =>
    rw [runAt_bind_ok (runAt_get c)]
    exact ih _ counted
  | advance => exact ⟨rfl, rfl, rfl⟩
  | @bind _ _ _ first _ _ _ first_ih second_ih =>
    have same := first_ih counted
    rcases ran : first.runAt c with ⟨outcome, middle⟩
    rw [ran] at same
    cases outcome with
    | ok a =>
      rw [runAt_bind_ok ran]
      exact same.trans (second_ih a (same.counted counted))
    | error e =>
      rw [runAt_bind_error ran]
      exact same
  | nested context _ _ ih =>
    rw [runAt_nested]
    split
    · exact .refl c
    · exact (ih (counted_opened counted context)).closed counted
  | @attempt _ _ tried _ ih =>
    have same := ih counted
    rw [runAt_attempt]
    rcases ran : tried.runAt c with ⟨outcome, next⟩
    rw [ran] at same
    have returned : SameNesting c { next with stream := c.stream } :=
      ⟨same.depth, same.contexts, same.suppressed⟩
    cases outcome with
    | error e => exact returned
    | ok a =>
      simp only
      split
      · exact same
      · exact returned

theorem Counted.total (counted : Counted c) : c.depth = c.contexts.length + c.suppressed := by
  have remembered := counted.remembered
  have beyond := counted.suppressed
  omega

theorem Counted.full (counted : Counted c) (some : c.suppressed ≠ 0) :
    c.contexts.length = Limits.contextStack := by
  have remembered := counted.remembered
  have beyond := counted.suppressed
  omega

-- A production, started in any state that a parser gets into without going back to a checkpoint,
-- leaves the constructs open that were open before, whether it succeeds or fails. All the while the
-- level is within the limit, every level is remembered or counted, and none is counted before as
-- many are remembered as can be.
theorem production_sameNesting (stream : Stream) (maxDepth : Nat) (operations : List Operation)
    (forward : ∀ operation ∈ operations, operation.isRollback = false) (production : Production) :
    let c := (Operation.runAll (start stream maxDepth) operations).2
    SameNesting c (production.parser.runAt c).2 ∧
      ∀ d, Visits production.parser c d →
        d.depth ≤ d.maxDepth ∧ d.maxDepth = Limits.depth maxDepth ∧
          d.depth = d.contexts.length + d.suppressed ∧
          (d.suppressed ≠ 0 → d.contexts.length = Limits.contextStack) := by
  intro c
  have counted : Counted c := counted_runAll stream maxDepth forward
  have bounded : c.maxDepth = Limits.depth maxDepth ∧ c.depth ≤ Limits.depth maxDepth :=
    invariant_of_kept (kept_bounded _) (.inl forward) ⟨rfl, Nat.zero_le _⟩
  refine ⟨sameNesting_of_composed (composed_production production) counted, fun d visits => ?_⟩
  have counted := visited_of_kept stable_counted.kept visits counted
  obtain ⟨limit, below⟩ := visited_of_kept (kept_bounded _) visits bounded
  exact ⟨limit ▸ below, limit, counted.total, counted.full⟩

theorem production_sameNesting_overflow :
    ∃ c e, c = (Operation.runAll (start (.ofTokens [⟨.minus, .point .start⟩]) 256)
        (List.replicate 33 (.enter "call"))).2 ∧
      (Production.arithmetic.parser.runAt c).1 = .error e ∧
      (Production.arithmetic.parser.runAt c).2.depth = 33 ∧
      (Production.arithmetic.parser.runAt c).2.contexts = List.replicate 32 "call" ∧
      (Production.arithmetic.parser.runAt c).2.suppressed = 1 := by
  have failed : (Production.arithmetic.parser.runAt
      (Operation.runAll (start (.ofTokens [⟨.minus, .point .start⟩]) 256)
        (List.replicate 33 (.enter "call"))).2).1 =
      .error (.structuralMismatch "operand" "end of input" (.point .start)) := by decide +kernel
  obtain ⟨⟨depth, contexts, suppressed⟩, -⟩ := production_sameNesting
    (.ofTokens [⟨.minus, .point .start⟩]) 256 (List.replicate 33 (.enter "call"))
    (by decide) .arithmetic
  refine ⟨_, _, rfl, failed, ?_, ?_, ?_⟩
  · rw [depth]
    decide
  · rw [contexts]
    decide
  · rw [suppressed]
    decide

end Cursor

end StateActions
