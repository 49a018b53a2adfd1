import StateActions.Proofs.Parser.Operation
import StateActions.Proofs.Token.Spelling

namespace StateActions

namespace Cursor

section Invariants

variable {c start : Cursor}

-- The input stays the same, and something of it is always left, since the end mark is never passed.
structure Within (start c : Cursor) : Prop where
  all : c.stream.all = start.stream.all
  endSpan : c.stream.endSpan = start.stream.endSpan
  maxDepth : c.maxDepth = start.maxDepth
  unread : c.stream.ahead ≠ []

def Closed (c : Cursor) : Prop := ∃ before mark, c.stream.all = before ++ [mark] ∧ mark.token = .eof

theorem ahead_moveTo_ne_nil {s : Stream} (n : Nat) (present : s.ahead ≠ []) :
    (s.moveTo n).ahead ≠ [] := by
  have length : 0 < s.all.length := by
    rw [Stream.all, List.length_append]
    have := List.length_pos_iff.mpr present
    omega
  rw [Stream.moveTo, ne_eq, List.drop_eq_nil_iff]
  omega

theorem ahead_advance_ne_nil {s : Stream} {before : List PlacedToken} {mark : PlacedToken}
    (all : s.all = before ++ [mark]) (eof : mark.token = .eof) (present : s.ahead ≠ []) :
    s.advance.ahead ≠ [] := by
  unfold Stream.advance
  split
  · exact present
  · next t rest ahead =>
    split
    · exact present
    · next inner =>
      rintro rfl
      rw [Stream.all, ahead] at all
      obtain ⟨-, last⟩ := List.append_inj' all rfl
      rw [List.singleton_inj.mp last, Token.isEof, eof] at inner
      exact inner rfl

theorem stable_within (closed : Closed start) : Stable (Within start) where
  advance := by
    intro c within
    obtain ⟨before, mark, all, eof⟩ := closed
    have kept := keeps_advance c
    exact ⟨kept.all.trans within.all, kept.endSpan.trans within.endSpan,
      kept.maxDepth.trans within.maxDepth,
      ahead_advance_ne_nil (within.all.trans all) eof within.unread⟩
  moveTo := by
    intro c n within
    exact ⟨(Stream.all_moveTo _ n).trans within.all, within.endSpan, within.maxDepth,
      ahead_moveTo_ne_nil n within.unread⟩
  back := by
    intro c m within reached
    exact ⟨within.all, within.endSpan, reached.maxDepth, within.unread⟩
  opened := by
    intro c context within
    refine ⟨?_, ?_, ?_, ?_⟩
    · rw [stream_opened]; exact within.all
    · rw [stream_opened]; exact within.endSpan
    · rw [maxDepth_opened]; exact within.maxDepth
    · rw [stream_opened]; exact within.unread
  closed := by
    intro c within
    refine ⟨?_, ?_, ?_, ?_⟩
    · rw [stream_closed]; exact within.all
    · rw [stream_closed]; exact within.endSpan
    · rw [maxDepth_closed]; exact within.maxDepth
    · rw [stream_closed]; exact within.unread

theorem within_restore (within : Within start c) (saved : Checkpoint) :
    Within start (c.restore saved) :=
  ⟨(Stream.all_moveTo _ _).trans within.all, within.endSpan, within.maxDepth,
    ahead_moveTo_ne_nil _ within.unread⟩

-- As long as no checkpoint is restored, the constructs are remembered up to the bound and the rest
-- is counted.
structure Counted (c : Cursor) : Prop where
  remembered : c.contexts.length = min c.depth Limits.contextStack
  suppressed : c.suppressed = c.depth - Limits.contextStack

theorem counted_opened (counted : Counted c) (context : String) :
    Counted (c.opened context) := by
  obtain ⟨remembered, suppressed⟩ := counted
  unfold opened
  simp only
  split <;> constructor <;> simp only [List.length_cons] <;> omega

theorem counted_closed (counted : Counted c) : Counted c.closed := by
  obtain ⟨remembered, suppressed⟩ := counted
  unfold closed
  simp only
  split <;> constructor <;> simp only [List.length_tail] <;> omega

theorem stable_counted : Stable Counted where
  advance counted := ⟨counted.remembered, counted.suppressed⟩
  moveTo _ counted := ⟨counted.remembered, counted.suppressed⟩
  back _ counted := ⟨counted.remembered, counted.suppressed⟩
  opened context counted := counted_opened counted context
  closed counted := counted_closed counted

end Invariants

section Twins

variable {c d : Cursor}

-- The same place and level. The constructs that are open may be others.
structure Level (c d : Cursor) : Prop where
  stream : d.stream = c.stream
  depth : d.depth = c.depth
  maxDepth : d.maxDepth = c.maxDepth

-- The same place, level and open constructs. What was entered before may differ.
structure Twins (c d : Cursor) : Prop extends Level c d where
  contexts : d.contexts = c.contexts
  suppressed : d.suppressed = c.suppressed

theorem Level.moved (same : Level c d) (move : Stream → Stream) :
    Level { c with stream := move c.stream } { d with stream := move d.stream } :=
  ⟨congrArg move same.stream, same.depth, same.maxDepth⟩

theorem Level.opened (same : Level c d) (context : String) :
    Level (c.opened context) (d.opened context) := by
  refine ⟨?_, ?_, ?_⟩
  · rw [stream_opened, stream_opened, same.stream]
  · rw [depth_opened, depth_opened, same.depth]
  · rw [maxDepth_opened, maxDepth_opened, same.maxDepth]

theorem Level.closed (same : Level c d) : Level c.closed d.closed := by
  refine ⟨?_, ?_, ?_⟩
  · rw [stream_closed, stream_closed, same.stream]
  · rw [depth_closed, depth_closed, same.depth]
  · rw [maxDepth_closed, maxDepth_closed, same.maxDepth]

theorem Twins.opened (twins : Twins c d) (context : String) :
    Twins (c.opened context) (d.opened context) := by
  refine ⟨twins.toLevel.opened context, ?_, ?_⟩
  · unfold Cursor.opened
    simp only [twins.contexts]
    split <;> rfl
  · unfold Cursor.opened
    simp only [twins.contexts]
    split
    · exact twins.suppressed
    · exact congrArg (· + 1) twins.suppressed

theorem Twins.closed (twins : Twins c d) : Twins c.closed d.closed := by
  refine ⟨twins.toLevel.closed, ?_, ?_⟩
  · unfold Cursor.closed
    simp only [twins.contexts, twins.suppressed]
    split <;> rfl
  · unfold Cursor.closed
    simp only [twins.suppressed]
    split <;> rfl

theorem kept_level : Kept Level where
  stream := Level.stream
  depth := Level.depth
  maxDepth := Level.maxDepth
  advance same := same.moved Stream.advance
  moveTo n same := same.moved (·.moveTo n)
  back same reached := ⟨same.stream, reached.depth, reached.maxDepth⟩
  opened context same _ := same.opened context
  closed := Level.closed

theorem kept_twins : Kept Twins where
  stream twins := twins.stream
  depth twins := twins.depth
  maxDepth twins := twins.maxDepth
  advance twins := ⟨twins.moved Stream.advance, twins.contexts, twins.suppressed⟩
  moveTo n twins := ⟨twins.moved (·.moveTo n), twins.contexts, twins.suppressed⟩
  back twins reached :=
    ⟨⟨twins.stream, reached.depth, reached.maxDepth⟩, reached.contexts, reached.suppressed⟩
  opened context twins _ := twins.opened context
  closed := Twins.closed

theorem level_restore (same : Level c d) (saved : Checkpoint) :
    Level (c.restore saved) (d.restore saved) :=
  ⟨congrArg (·.moveTo saved.position) same.stream, rfl, same.maxDepth⟩

theorem twins_restore (twins : Twins c d) (saved : Checkpoint) :
    Twins (c.restore saved) (d.restore saved) :=
  ⟨level_restore twins.toLevel saved, rfl, twins.suppressed⟩

-- Nothing that is asked or done tells two parsers at the same place and level apart, unless the
-- open constructs are asked for.
theorem answers_of_level (same : Level c d) {operations : List Operation}
    (silent : ∀ operation ∈ operations, operation.asksContext = false) :
    (Operation.runAll d operations).1 = (Operation.runAll c operations).1 := by
  refine (runAll_respects kept_level (fun operation member => ⟨fun asks => ?_, ?_⟩) same).1
  · rw [silent operation member] at asks
    cases asks
  · exact fun _ _ _ same saved => level_restore same saved

theorem context_of_twins (twins : Twins c d) : d.context = c.context := by
  rw [context, context, twins.contexts, twins.suppressed]

theorem answers_of_twins (twins : Twins c d) (operations : List Operation) :
    (Operation.runAll d operations).1 = (Operation.runAll c operations).1 :=
  (runAll_respects kept_twins (fun _ _ => ⟨fun _ _ _ => context_of_twins,
    fun _ _ _ twins saved => twins_restore twins saved⟩) twins).1

end Twins

section Restoring

variable {c d : Cursor}

theorem context_inj (contexts : d.contexts = c.contexts) :
    d.context = c.context ↔ d.suppressed = c.suppressed := by
  constructor
  · intro same
    rw [context, context, contexts, String.append_right_inj] at same
    split at same
    · split at same
      · have shown : toString d.suppressed = toString c.suppressed :=
          (String.append_right_inj _).mp ((String.append_left_inj _).mp same)
        rw [← Numeral.value_toDigits d.suppressed, ← toList_toString, shown, toList_toString,
          Numeral.value_toDigits]
      · exact absurd same (by simp)
    · split at same
      · exact absurd same.symm (by simp)
      · omega
  · intro same
    rw [context, context, contexts, same]

theorem moveTo_position {s t : Stream} (all : t.all = s.all) (endSpan : t.endSpan = s.endSpan)
    (unread : s.ahead ≠ []) : t.moveTo s.position = s := by
  have length := List.length_pos_iff.mpr unread
  have place : min s.position (s.all.length - 1) = s.passed.reverse.length := by
    rw [Stream.position, Stream.all, List.length_append, List.length_reverse]
    omega
  unfold Stream.moveTo
  simp only [all, place]
  rw [Stream.all, List.take_left, List.drop_left, List.reverse_reverse, endSpan]

theorem closed_ends (tokens : List PlacedToken) :
    ∃ before mark, Stream.closed tokens = before ++ [mark] ∧ mark.token = .eof := by
  unfold Stream.closed
  split
  · exact ⟨[], _, rfl, rfl⟩
  · next last found =>
    split
    · next eof =>
      obtain ⟨before, rfl⟩ := List.getLast?_eq_some_iff.mp found
      exact ⟨before, last, rfl, beq_iff_eq.mp eof⟩
    · exact ⟨tokens, _, rfl, rfl⟩

theorem all_start (tokens : List PlacedToken) (maxDepth : Nat) :
    ∃ before mark, (start (.ofTokens tokens) maxDepth).stream.all = before ++ [mark] ∧
      mark.token = .eof := by
  obtain ⟨before, mark, closed, eof⟩ := closed_ends tokens
  have seen : [mark].filter (·.token.isSignificant) = [mark] := by
    rw [List.filter_eq_self, List.forall_mem_singleton, eof]
    rfl
  refine ⟨before.filter (·.token.isSignificant), mark, ?_, eof⟩
  show (Stream.closed tokens).filter _ = _
  rw [closed, List.filter_append, seen]

theorem within_runAll (tokens : List PlacedToken) (maxDepth : Nat) (operations : List Operation) :
    Within (start (.ofTokens tokens) maxDepth)
      (Operation.runAll (start (.ofTokens tokens) maxDepth) operations).2 := by
  obtain ⟨before, mark, all, eof⟩ := all_start tokens maxDepth
  refine invariant_runAll (stable_within ⟨before, mark, all, eof⟩)
    (.inr fun c within saved => within_restore within saved) ⟨rfl, rfl, rfl, ?_⟩
  intro none
  have length := congrArg List.length all
  rw [Stream.all, none] at length
  simp [start, Stream.ofTokens] at length

theorem counted_runAll (stream : Stream) (maxDepth : Nat) {operations : List Operation}
    (forward : ∀ operation ∈ operations, operation.isRollback = false) :
    Counted (Operation.runAll (start stream maxDepth) operations).2 :=
  invariant_runAll stable_counted (.inl forward) ⟨rfl, rfl⟩

theorem runAll_append (c : Cursor) (first second : List Operation) :
    (Operation.runAll c (first ++ second)).2 =
      (Operation.runAll (Operation.runAll c first).2 second).2 := by
  induction first generalizing c with
  | nil => rfl
  | cons operation rest ih => exact ih _

-- What a checkpoint does not hold is what it does not bring back.
theorem restore_level {start left saved : Cursor} (within : Within start saved)
    (reached : Within start left) : Level saved (left.restore saved.save) :=
  ⟨moveTo_position (reached.all.trans within.all.symm)
      (reached.endSpan.trans within.endSpan.symm) within.unread,
    rfl, reached.maxDepth.trans within.maxDepth.symm⟩

-- Going back to a checkpoint of a parser restores its place, its level and the remembered
-- constructs whatever was done since. The constructs that are open then show as they did if and
-- only if as many of them were not remembered when it went back as when the state was saved; as
-- long as no checkpoint was restored before, these are the levels beyond the bound. What is asked
-- and done later is answered as from the saved state, in any case if it does not ask for these
-- constructs.
theorem restore_save_exact (tokens : List PlacedToken) (maxDepth : Nat)
    (before between : List Operation) :
    let saved := (Operation.runAll (start (.ofTokens tokens) maxDepth) before).2
    let left := (Operation.runAll saved between).2
    let back := left.restore saved.save
    (back.stream = saved.stream ∧ back.depth = saved.depth ∧ back.contexts = saved.contexts) ∧
      (back.context = saved.context ↔ left.suppressed = saved.suppressed) ∧
      ((∀ operation ∈ before ++ between, operation.isRollback = false) →
        (back.context = saved.context ↔
          left.depth - Limits.contextStack = saved.depth - Limits.contextStack)) ∧
      ∀ later, (left.suppressed = saved.suppressed ∨
          ∀ operation ∈ later, operation.asksContext = false) →
        (Operation.runAll back later).1 = (Operation.runAll saved later).1 := by
  intro saved left back
  have reached : Within (start (.ofTokens tokens) maxDepth) left := by
    have whole := within_runAll tokens maxDepth (before ++ between)
    rwa [runAll_append] at whole
  have level : Level saved back := restore_level (within_runAll tokens maxDepth before) reached
  have names : back.context = saved.context ↔ left.suppressed = saved.suppressed :=
    context_inj rfl
  refine ⟨⟨level.stream, rfl, rfl⟩, names, fun forward => ?_, fun later reason => ?_⟩
  · obtain ⟨first, second⟩ := List.forall_mem_append.mp forward
    have counted := counted_runAll (.ofTokens tokens) maxDepth forward
    rw [runAll_append] at counted
    rw [names, counted.suppressed, (counted_runAll _ maxDepth first).suppressed]
  · rcases reason with suppressed | silent
    · exact answers_of_twins ⟨level, rfl, suppressed⟩ later
    · exact answers_of_level level silent

theorem restore_save_exact_overflow :
    let saved := start (.ofTokens [⟨.identifier "x", .point .start⟩]) 256
    let left := (Operation.runAll saved (List.replicate 33 (.enter "call"))).2
    let back := left.restore saved.save
    back.depth = saved.depth ∧ back.context ≠ saved.context ∧
      (Operation.runAll back [.produce .action, .look .depth]).1 =
        (Operation.runAll saved [.produce .action, .look .depth]).1 := by
  have exact_ := restore_save_exact [⟨.identifier "x", .point .start⟩] 256 []
    (List.replicate 33 (.enter "call"))
  obtain ⟨⟨-, depth, -⟩, -, names, later⟩ := exact_
  refine ⟨depth, fun same => ?_, later _ (.inr (by decide))⟩
  have levels := (names (by decide)).mp same
  exact absurd levels (by decide)

end Restoring

end Cursor

end StateActions
