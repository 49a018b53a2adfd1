import StateActions.Proofs.Parser.Interface

namespace StateActions

namespace Cursor

inductive Look
  | position
  | depth
  | current
  | peek (n : Nat)
  | atEnd
  | atCallStart
  | atAttributeStart
  | lookahead (count : Nat)
  | mismatch (expected : String)
  | structural (expected : String)
deriving DecidableEq, Repr, Inhabited

inductive Production
  | boolean
  | number
  | string
  | literal
  | reference
  | call
  | argument
  | readAttribute
  | writeAttribute
  | arithmetic
  | rightHandSide
  | action
  | completeAction
deriving DecidableEq, Repr, Inhabited

-- What is done with a parser from outside. Going back to a checkpoint is one of the operations, and
-- the checkpoint need not be of this parser.
inductive Operation
  | look (question : Look)
  | context
  | diagnostic
  | advance
  | moveTo (n : Nat)
  | enter (construct : String)
  | exit
  | rollback (saved : Checkpoint)
  | expectToken (token : Token) (committed : Bool)
  | expectIdentifier (expected : String) (committed : Bool)
  | produce (production : Production)
deriving DecidableEq, Repr, Inhabited

inductive Answer
  | done
  | count (n : Nat)
  | flag (holds : Bool)
  | text (shown : String)
  | token (found : Token) (span : Span)
  | tokens (found : List Token)
  | problem (error : ParseError)
  | reference (found : Variable)
  | arithmetic (found : Arithmetic)
  | expression (found : Expression)
  | action (found : Action)
deriving DecidableEq, Repr, Inhabited

def Look.answer (c : Cursor) : Look → Answer
  | .position => .count c.stream.position
  | .depth => .count c.depth
  | .current => .token c.stream.current c.stream.currentSpan
  | .peek n => .tokens [c.stream.peek n]
  | .atEnd => .flag c.stream.atEnd
  | .atCallStart => .flag (c.stream.current.isIdentifier && c.stream.peek 1 = .leftParen)
  | .atAttributeStart => .flag (c.stream.current.isIdentifier && c.stream.peek 1 = .tick)
  | .lookahead count => .tokens (c.lookahead count)
  | .mismatch expected => .problem (c.mismatch expected)
  | .structural expected => .problem (c.structural expected)

def Production.parser : Production → Parser Answer
  | .boolean => do return .expression (← Parser.boolean)
  | .number => do return .expression (← Parser.number)
  | .string => do return .expression (← Parser.string)
  | .literal => do return .expression (← Parser.literal)
  | .reference => do return .reference (← Parser.variableReference)
  | .call => do return .expression (← Parser.call)
  | .argument => do return .expression (← Parser.argument)
  | .readAttribute => do return .expression (← Parser.readAttribute)
  | .writeAttribute => do return .action (← Parser.writeAttribute)
  | .arithmetic => do return .arithmetic (← PrecedenceClimbing.rule.parse)
  | .rightHandSide => do return .expression (← Parser.rightHandSide PrecedenceClimbing.rule)
  | .action => do return .action (← Parser.action PrecedenceClimbing.rule)
  | .completeAction => do return .action (← Parser.completeAction PrecedenceClimbing.rule)

namespace Operation

def run (c : Cursor) : Operation → Except ParseError Answer × Cursor
  | .look question => (.ok (question.answer c), c)
  | .context => (.ok (.text c.context), c)
  | .diagnostic => (.ok (.text c.diagnostic), c)
  | .advance => (.ok .done, c.advance)
  | .moveTo n => (.ok .done, c.moveTo n)
  | .enter construct => Parser.runAt (do Parser.enter construct; return .done) c
  | .exit => (.ok .done, c.closed)
  | .rollback saved => (.ok .done, c.restore saved)
  | .expectToken token committed =>
    Parser.runAt (do Parser.expectToken token committed; return .done) c
  | .expectIdentifier expected committed =>
    Parser.runAt (do return .text (← Parser.expectIdentifier expected committed)) c
  | .produce production => production.parser.runAt c

def runAll (c : Cursor) : List Operation → List (Except ParseError Answer) × Cursor
  | [] => ([], c)
  | operation :: rest =>
    let (answer, next) := operation.run c
    let (answers, last) := runAll next rest
    (answer :: answers, last)

def asksContext : Operation → Bool
  | .context | .diagnostic => true
  | _ => false

def isRollback : Operation → Bool
  | .rollback _ => true
  | _ => false

end Operation

section Runs

variable {R : Cursor → Cursor → Prop} {c d : Cursor}

theorem answer_respects (kept : Kept R) (related : R c d) (question : Look) :
    question.answer d = question.answer c := by
  have stream := kept.stream related
  cases question with
  | depth => exact congrArg Answer.count (kept.depth related)
  | _ => simp only [Look.answer, lookahead, mismatch, structural, stream]

theorem placeless_production (production : Production) : Placeless true production.parser := by
  have rule := PrecedenceClimbing.placeless_rule
  cases production with
  | boolean => exact placeless_boolean.bind fun _ => .pure _
  | number => exact placeless_number.bind fun _ => .pure _
  | string => exact placeless_string.bind fun _ => .pure _
  | literal => exact placeless_literal.bind fun _ => .pure _
  | reference => exact placeless_variableReference.bind fun _ => .pure _
  | call => exact placeless_call.bind fun _ => .pure _
  | argument => exact placeless_argument.bind fun _ => .pure _
  | readAttribute => exact placeless_readAttribute.bind fun _ => .pure _
  | writeAttribute => exact placeless_writeAttribute.bind fun _ => .pure _
  | arithmetic => exact rule.bind fun _ => .pure _
  | rightHandSide => exact (placeless_rightHandSide rule).bind fun _ => .pure _
  | action => exact (placeless_action rule).bind fun _ => .pure _
  | completeAction => exact (placeless_completeAction rule).bind fun _ => .pure _

theorem composed_production (production : Production) : Composed true production.parser :=
  (placeless_production production).composed

-- An operation that a relation has to bear: if it tells the open constructs these have to be the
-- same, and if it goes back the relation has to hold there.
structure Bears (R : Cursor → Cursor → Prop) (operation : Operation) : Prop where
  context : operation.asksContext = true → ∀ {c d}, R c d → d.context = c.context
  rollback : operation.isRollback = true →
    ∀ {c d}, R c d → ∀ saved, R (c.restore saved) (d.restore saved)

theorem run_respects (kept : Kept R) {operation : Operation} (bears : Bears R operation)
    (related : R c d) :
    (operation.run d).1 = (operation.run c).1 ∧ R (operation.run c).2 (operation.run d).2 := by
  cases operation with
  | look question =>
    exact ⟨congrArg Except.ok (answer_respects kept related question), related⟩
  | context => exact ⟨congrArg (Except.ok ∘ Answer.text) (bears.context rfl related), related⟩
  | diagnostic =>
    refine ⟨?_, related⟩
    simp only [Operation.run, diagnostic, bears.context rfl related, kept.stream related,
      kept.depth related, kept.maxDepth related]
  | advance => exact ⟨rfl, kept.advance related⟩
  | moveTo n => exact ⟨rfl, kept.moveTo n related⟩
  | enter construct =>
    exact ((respects_enter kept construct).bind fun _ => respects_pure Answer.done) c d related
  | exit => exact ⟨rfl, kept.closed related⟩
  | rollback saved => exact ⟨rfl, bears.rollback rfl related saved⟩
  | expectToken token committed =>
    have composed : Composed true (do Parser.expectToken token committed; return Answer.done) :=
      (composed_expectToken _ _).bind fun _ => .pure _
    exact respects_of_composed kept composed c d related
  | expectIdentifier expected committed =>
    have composed : Composed true (do
        return Answer.text (← Parser.expectIdentifier expected committed)) :=
      (composed_expectIdentifier _ _).bind fun _ => .pure _
    exact respects_of_composed kept composed c d related
  | produce production =>
    exact respects_of_composed kept (composed_production production) c d related

theorem runAll_respects (kept : Kept R) {operations : List Operation}
    (bears : ∀ operation ∈ operations, Bears R operation) (related : R c d) :
    (Operation.runAll d operations).1 = (Operation.runAll c operations).1 ∧
      R (Operation.runAll c operations).2 (Operation.runAll d operations).2 := by
  induction operations generalizing c d with
  | nil => exact ⟨rfl, related⟩
  | cons operation rest ih =>
    obtain ⟨here, later⟩ := List.forall_mem_cons.mp bears
    obtain ⟨answer, reached⟩ := run_respects kept here related
    obtain ⟨answers, last⟩ := ih later reached
    simp only [Operation.runAll]
    exact ⟨by rw [answer, answers], last⟩

end Runs

section Invariants

variable {I : Cursor → Prop} {c d : Cursor}

def Diagonal (I : Cursor → Prop) (c d : Cursor) : Prop := d = c ∧ I c

structure Stable (I : Cursor → Prop) : Prop where
  advance : ∀ {c}, I c → I c.advance
  moveTo : ∀ {c} (n : Nat), I c → I (c.moveTo n)
  back : ∀ {c m}, I c → I m → I { m with stream := c.stream }
  opened : ∀ {c} (context : String), I c → I (c.opened context)
  closed : ∀ {c}, I c → I c.closed

theorem Stable.kept (stable : Stable I) : Kept (Diagonal I) where
  stream related := by rw [related.1]
  depth related := by rw [related.1]
  maxDepth related := by rw [related.1]
  advance := by
    rintro c _ ⟨rfl, holds⟩
    exact ⟨rfl, stable.advance holds⟩
  moveTo := by
    rintro c _ n ⟨rfl, holds⟩
    exact ⟨rfl, stable.moveTo n holds⟩
  back := by
    rintro c _ m _ ⟨rfl, there⟩ ⟨rfl, holds⟩
    exact ⟨rfl, stable.back there holds⟩
  opened := by
    rintro c _ context ⟨rfl, holds⟩ -
    exact ⟨rfl, stable.opened context holds⟩
  closed := by
    rintro c _ ⟨rfl, holds⟩
    exact ⟨rfl, stable.closed holds⟩

-- A property that every step keeps holds after any sequence of operations, if going back keeps it
-- too or is not among them.
theorem invariant_of_kept (kept : Kept (Diagonal I)) {operations : List Operation}
    (rollback : (∀ operation ∈ operations, operation.isRollback = false) ∨
      ∀ c, I c → ∀ saved, I (c.restore saved)) (holds : I c) :
    I (Operation.runAll c operations).2 := by
  have bears : ∀ operation ∈ operations, Bears (Diagonal I) operation := by
    intro operation member
    refine ⟨fun _ c d related => by rw [related.1], fun goes c d related saved => ?_⟩
    obtain ⟨rfl, holds⟩ := related
    rcases rollback with never | keeps
    · rw [never operation member] at goes
      cases goes
    · exact ⟨rfl, keeps _ holds saved⟩
  exact (runAll_respects kept bears ⟨rfl, holds⟩).2.2

theorem invariant_runAll (stable : Stable I) {operations : List Operation}
    (rollback : (∀ operation ∈ operations, operation.isRollback = false) ∨
      ∀ c, I c → ∀ saved, I (c.restore saved)) (holds : I c) :
    I (Operation.runAll c operations).2 :=
  invariant_of_kept stable.kept rollback holds

end Invariants

end Cursor

end StateActions
