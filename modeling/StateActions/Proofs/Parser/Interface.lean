import StateActions.Proofs.Parser.Run

namespace StateActions

open StateActions.Parser

variable {α β : Type} {nests : Bool} {R : Cursor → Cursor → Prop}

def constructs : List String :=
  ["call", "negation", "parenthesized expression", "write item"]

-- A step that is put together from few kinds of steps. Only one that `nests` opens constructs. What
-- is attempted does not, for an attempt would hide that there was no room for it.
inductive Composed : Bool → {α : Type} → Parser α → Prop
  | pure {nests : Bool} {α : Type} (a : α) : Composed nests (pure a : Parser α)
  | error {nests : Bool} {α : Type} {e : ParseError}
      (syntactic : ∀ limit actual maximum span, e ≠ .limitExceeded limit actual maximum span) :
      Composed nests (throw e : Parser α)
  | look {nests : Bool} {α : Type} {f : Stream → Parser α} (goes : ∀ s, Composed nests (f s)) :
      Composed nests (do f (← get).stream)
  | advance {nests : Bool} : Composed nests advance
  | bind {nests : Bool} {α β : Type} {p : Parser α} {f : α → Parser β} (first : Composed nests p)
      (second : ∀ a, Composed nests (f a)) : Composed nests (p >>= f)
  | nested {α : Type} {inner : Parser α} (context : String) (listed : context ∈ constructs)
      (inside : Composed true inner) : Composed true (nested context inner)
  | attempt {nests : Bool} {α : Type} {p : Parser α} (inside : Composed false p) :
      Composed nests (attempt p (·.stream.atEnd))

-- A step that is put together from steps that go by the tokens alone. Where these stand is only
-- told in an error, which is at the token at hand.
inductive Placeless : Bool → {α : Type} → Parser α → Prop
  | pure {nests : Bool} {α : Type} (a : α) : Placeless nests (pure a : Parser α)
  | ask {nests : Bool} {α β : Type} (view : Stream → β) {f : β → Parser α}
      (blind : ∀ s t : Stream, s.ahead.map (·.token) = t.ahead.map (·.token) → view s = view t)
      (goes : ∀ b, Placeless nests (f b)) : Placeless nests (do f (view (← get).stream))
  | mismatch {nests : Bool} {α : Type} (expected : String) :
      Placeless nests (fail (·.mismatch expected) : Parser α)
  | structural {nests : Bool} {α : Type} (expected : String) :
      Placeless nests (fail (·.structural expected) : Parser α)
  | trailing {nests : Bool} {α : Type} : Placeless nests
      (fail fun c => .trailingInput c.stream.current.describe c.stream.currentSpan : Parser α)
  | advance {nests : Bool} : Placeless nests advance
  | bind {nests : Bool} {α β : Type} {p : Parser α} {f : α → Parser β}
      (first : Placeless nests p) (second : ∀ a, Placeless nests (f a)) : Placeless nests (p >>= f)
  | nested {α : Type} {inner : Parser α} (context : String) (listed : context ∈ constructs)
      (inside : Placeless true inner) : Placeless true (nested context inner)
  | attempt {nests : Bool} {α : Type} {p : Parser α} (inside : Placeless false p) :
      Placeless nests (attempt p (·.stream.atEnd))

theorem Placeless.composed {p : Parser α} (placeless : Placeless nests p) : Composed nests p := by
  induction placeless with
  | pure a => exact .pure a
  | @ask _ _ _ view f _ _ ih => exact .look (f := fun s => f (view s)) fun s => ih (view s)
  | mismatch expected =>
    exact .look (f := fun s => throw (.lexicalMismatch expected s.current.describe s.currentSpan))
      fun _ => .error (by simp)
  | structural expected =>
    exact .look
      (f := fun s => throw (.structuralMismatch expected s.current.describe s.currentSpan))
      fun _ => .error (by simp)
  | trailing =>
    exact .look (f := fun s => throw (.trailingInput s.current.describe s.currentSpan))
      fun _ => .error (by simp)
  | advance => exact .advance
  | bind _ _ first second => exact .bind first second
  | nested context listed _ ih => exact .nested context listed ih
  | attempt _ ih => exact .attempt ih

namespace Stream

variable {s t : Stream}

theorem current_eq (same : s.ahead.map (·.token) = t.ahead.map (·.token)) :
    s.current = t.current := by
  simp only [current, current?, ← List.head?_map, same]

theorem peek_eq (same : s.ahead.map (·.token) = t.ahead.map (·.token)) (n : Nat) :
    s.peek n = t.peek n := by
  simp only [peek, peek?, ← List.getElem?_map, same]

end Stream

section Steps

theorem placeless_current : Placeless nests current :=
  .ask (·.current) (f := pure) (fun _ _ same => Stream.current_eq same) fun _ => .pure _

theorem placeless_budget : Placeless nests budget := by
  refine .ask (fun s => 2 * s.ahead.length + 2) (f := pure) (fun s t same => ?_)
    fun _ => .pure _
  have lengths := congrArg List.length same
  rw [List.length_map, List.length_map] at lengths
  rw [lengths]

theorem placeless_atNameThen (token : Token) : Placeless nests (atNameThen token) := by
  refine .ask (fun s => s.current.isIdentifier && s.peek 1 = token) (f := pure)
    (fun s t same => ?_) fun _ => .pure _
  rw [Stream.current_eq same, Stream.peek_eq same]

theorem placeless_missing (expected : String) (committed : Bool) :
    Placeless nests (fail (·.missing expected committed) : Parser α) := by
  cases committed with
  | true => exact .structural expected
  | false => exact .mismatch expected

theorem placeless_expectToken (token : Token) (committed : Bool) :
    Placeless nests (expectToken token committed) := by
  refine placeless_current.bind fun found => ?_
  split
  · exact .advance
  · exact placeless_missing _ _

theorem placeless_expectIdentifier (expected : String) (committed : Bool) :
    Placeless nests (expectIdentifier expected committed) := by
  refine placeless_current.bind fun found => ?_
  cases found with
  | identifier name => exact .bind .advance fun _ => .pure name
  | _ => exact placeless_missing _ _

end Steps

section Leaves

theorem placeless_take {f : Token → Parser β}
    (forms : ∀ t, (∃ b, f t = advance >>= fun _ => pure b) ∨
      ∃ expected, f t = fail (·.mismatch expected)) : Placeless nests (current >>= f) := by
  refine placeless_current.bind fun t => ?_
  rcases forms t with ⟨b, takes⟩ | ⟨expected, fails⟩
  · rw [takes]
    exact .bind .advance fun _ => .pure b
  · rw [fails]
    exact Placeless.mismatch expected

theorem placeless_boolean : Placeless nests boolean :=
  placeless_take fun t => by
    cases t with
    | boolean value => exact .inl ⟨_, rfl⟩
    | _ => exact .inr ⟨_, rfl⟩

theorem placeless_number : Placeless nests number :=
  placeless_take fun t => by
    cases t with
    | number value => exact .inl ⟨_, rfl⟩
    | _ => exact .inr ⟨_, rfl⟩

theorem placeless_string : Placeless nests Parser.string :=
  placeless_take fun t => by
    cases t with
    | string content quote => exact .inl ⟨_, rfl⟩
    | _ => exact .inr ⟨_, rfl⟩

theorem placeless_literal : Placeless nests literal := by
  refine placeless_current.bind fun t => ?_
  cases t with
  | boolean value => exact placeless_boolean
  | number value => exact placeless_number
  | string content quote => exact placeless_string
  | _ => exact Placeless.mismatch _

theorem placeless_path (steps : Nat) : Placeless nests (path steps) := by
  induction steps with
  | zero => exact .pure []
  | succ steps ih =>
    refine placeless_current.bind fun t => ?_
    split
    · refine .bind .advance fun _ => ?_
      refine (placeless_expectIdentifier _ _).bind fun name => ?_
      exact ih.bind fun names => .pure (name :: names)
    · exact .pure []

theorem placeless_variableWithin (steps : Nat) : Placeless nests (variableWithin steps) :=
  (placeless_expectIdentifier _ _).bind fun name =>
    (placeless_path steps).bind fun names => .pure (Variable.mk name names)

theorem placeless_variableReference : Placeless nests variableReference :=
  placeless_budget.bind placeless_variableWithin

end Leaves

section Calls

theorem placeless_argumentList {list : Parser (List Expression)} (inside : Placeless true list) :
    Placeless true (argumentList list) := by
  refine placeless_current.bind fun t => ?_
  split
  · exact .bind .advance fun _ => .pure []
  · exact inside

theorem placeless_callWith {list : Parser (List Expression)} (inside : Placeless true list) :
    Placeless true (callWith list) := by
  refine (placeless_expectIdentifier _ _).bind fun name => ?_
  refine (placeless_expectToken _ _).bind fun _ => ?_
  exact (Placeless.nested _ (by decide) inside).bind fun values => .pure _

theorem placeless_argumentWith {list : Parser (List Expression)} (steps : Nat)
    (inside : Placeless true list) : Placeless true (argumentWith steps list) := by
  refine placeless_current.bind fun t => ?_
  cases t with
  | identifier name =>
    refine (placeless_atNameThen _).bind fun called => ?_
    split
    · exact placeless_callWith (placeless_argumentList inside)
    · exact (placeless_variableWithin steps).bind fun v => .pure _
  | number value => exact placeless_number
  | string content quote => exact placeless_string
  | boolean value => exact placeless_boolean
  | _ => exact Placeless.structural _

theorem placeless_arguments (steps : Nat) : Placeless true (arguments steps) := by
  induction steps with
  | zero => exact Placeless.structural _
  | succ steps ih =>
    refine (placeless_argumentWith steps ih).bind fun first => ?_
    refine placeless_current.bind fun t => ?_
    cases t with
    | comma =>
      refine .bind .advance fun _ => ?_
      exact ih.bind fun rest => .pure (first :: rest)
    | rightParen => exact .bind .advance fun _ => .pure [first]
    | _ => exact Placeless.structural _

theorem placeless_call : Placeless true call :=
  placeless_budget.bind fun steps =>
    placeless_callWith (placeless_argumentList (placeless_arguments steps))

theorem placeless_argument : Placeless true argument :=
  placeless_budget.bind fun steps => placeless_argumentWith steps (placeless_arguments steps)

theorem placeless_attributeOf (wanted : String) : Placeless nests (attributeOf wanted) := by
  refine (placeless_expectIdentifier _ _).bind fun typeName => ?_
  refine (placeless_expectToken _ _).bind fun _ => ?_
  refine placeless_current.bind fun t => ?_
  split
  · exact .bind .advance fun _ => .pure typeName
  · exact Placeless.structural _

theorem placeless_readAttribute : Placeless nests readAttribute := by
  refine (placeless_attributeOf _).bind fun typeName => ?_
  refine (placeless_expectToken _ _).bind fun _ => ?_
  refine (placeless_expectIdentifier _ _).bind fun channel => ?_
  exact (placeless_expectToken _ _).bind fun _ => .pure _

theorem placeless_writeItem : Placeless true writeItem := by
  refine (placeless_atNameThen _).bind fun called => ?_
  split
  · exact placeless_call
  · refine placeless_current.bind fun t => ?_
    split
    · exact placeless_variableReference.bind fun v => .pure _
    · exact Placeless.structural _

theorem placeless_writeAttribute : Placeless true writeAttribute := by
  refine (placeless_attributeOf _).bind fun typeName => ?_
  refine (placeless_expectToken _ _).bind fun _ => ?_
  refine (placeless_expectIdentifier _ _).bind fun channel => ?_
  refine (placeless_expectToken _ _).bind fun _ => ?_
  refine (Placeless.nested _ (by decide) placeless_writeItem).bind fun item => ?_
  exact (placeless_expectToken _ _).bind fun _ => .pure _

end Calls

namespace PrecedenceClimbing

-- The three productions call each other with fewer steps, so one induction serves them all.
theorem placeless_climbing (steps : Nat) :
    (∀ floor committed, Placeless true (binary steps floor committed)) ∧
      (∀ floor left, Placeless true (climb steps floor left)) ∧
      ∀ committed, Placeless true (unary steps committed) := by
  induction steps with
  | zero =>
    exact ⟨fun _ _ => Placeless.mismatch _, fun _ left => .pure left, fun _ => Placeless.mismatch _⟩
  | succ steps ih =>
    obtain ⟨binary_ih, climb_ih, unary_ih⟩ := ih
    refine ⟨fun floor committed => (unary_ih committed).bind (climb_ih floor), ?_, ?_⟩
    · intro floor left
      refine placeless_current.bind fun t => ?_
      split
      · exact .pure left
      · next operator _ =>
        split
        · exact .pure left
        · refine .bind .advance fun _ => ?_
          exact (binary_ih _ true).bind fun right => climb_ih floor (.binary operator left right)
    · intro committed
      refine placeless_current.bind fun t => ?_
      split
      · refine .bind .advance fun _ => ?_
        exact (Placeless.nested _ (by decide) (unary_ih true)).bind fun operand => .pure _
      · exact .bind .advance fun _ => .pure _
      · exact (placeless_variableWithin steps).bind fun v => .pure _
      · refine .bind .advance fun _ => ?_
        refine (Placeless.nested _ (by decide) (binary_ih 1 true)).bind fun inner => ?_
        exact (placeless_expectToken _ _).bind fun _ => .pure inner
      · cases committed with
        | true => exact Placeless.structural _
        | false => exact Placeless.mismatch _

theorem placeless_rule : Placeless true rule.parse :=
  placeless_budget.bind fun steps => (placeless_climbing steps).1 1 false

end PrecedenceClimbing

section Actions

theorem placeless_loneVariable : Placeless nests loneVariable := by
  refine placeless_current.bind fun t => ?_
  split
  · exact .attempt placeless_variableReference
  · exact .pure none

theorem placeless_rightHandSide {rule : ArithmeticRule} (inside : Placeless true rule.parse) :
    Placeless true (rightHandSide rule) := by
  refine (placeless_atNameThen _).bind fun read => ?_
  split
  · exact placeless_readAttribute
  · refine placeless_current.bind fun t => ?_
    split
    · exact placeless_boolean
    · exact placeless_string
    · refine (placeless_atNameThen _).bind fun called => ?_
      split
      · exact placeless_call
      · refine placeless_loneVariable.bind fun found => ?_
        cases found with
        | some v => exact .pure _
        | none => exact inside.bind fun tree => .pure _

theorem placeless_action {rule : ArithmeticRule} (inside : Placeless true rule.parse) :
    Placeless true (action rule) := by
  refine (placeless_atNameThen _).bind fun write => ?_
  split
  · exact placeless_writeAttribute
  · refine (placeless_expectIdentifier _ _).bind fun target => ?_
    refine placeless_current.bind fun t => ?_
    split
    · refine .bind .advance fun _ => ?_
      exact (placeless_rightHandSide inside).bind fun value => .pure _
    · exact Placeless.mismatch _

theorem placeless_completeAction {rule : ArithmeticRule} (inside : Placeless true rule.parse) :
    Placeless true (completeAction rule) := by
  refine (placeless_action inside).bind fun parsed => ?_
  refine .ask (·.atEnd) (f := fun ended => if ended then pure parsed
    else fail fun c => .trailingInput c.stream.current.describe c.stream.currentSpan)
    (fun s t same => ?_) fun ended => ?_
  · rw [Stream.atEnd, Stream.atEnd, Stream.current_eq same]
  · cases ended with
    | true => exact .pure parsed
    | false => exact .trailing

end Actions

section Compositions

theorem composed_current : Composed nests current := placeless_current.composed

theorem composed_budget : Composed nests budget := placeless_budget.composed

theorem composed_atNameThen (token : Token) : Composed nests (atNameThen token) :=
  (placeless_atNameThen token).composed

theorem composed_expectToken (token : Token) (committed : Bool) :
    Composed nests (expectToken token committed) := (placeless_expectToken token committed).composed

theorem composed_expectIdentifier (expected : String) (committed : Bool) :
    Composed nests (expectIdentifier expected committed) :=
  (placeless_expectIdentifier expected committed).composed

end Compositions

-- Two parses at the same place of the same input and at the same level. What else is related is not
-- said; a construct is only ever opened below the limit.
structure Cursor.Kept (R : Cursor → Cursor → Prop) : Prop where
  stream : ∀ {c d}, R c d → d.stream = c.stream
  depth : ∀ {c d}, R c d → d.depth = c.depth
  maxDepth : ∀ {c d}, R c d → d.maxDepth = c.maxDepth
  advance : ∀ {c d}, R c d → R c.advance d.advance
  moveTo : ∀ {c d} (n : Nat), R c d → R (c.moveTo n) (d.moveTo n)
  back : ∀ {c d m n}, R c d → R m n →
    R { m with stream := c.stream } { n with stream := d.stream }
  opened : ∀ {c d} (context : String), R c d → c.depth < c.maxDepth →
    R (c.opened context) (d.opened context)
  closed : ∀ {c d}, R c d → R c.closed d.closed

-- From related states a step ends in the same way, and the states it reaches are related.
def Respects (R : Cursor → Cursor → Prop) (p : Parser α) : Prop :=
  ∀ c d, R c d → (p.runAt d).1 = (p.runAt c).1 ∧ R (p.runAt c).2 (p.runAt d).2

section Relations

theorem respects_pure (a : α) : Respects R (pure a : Parser α) := fun _ _ related => ⟨rfl, related⟩

theorem Respects.bind {p : Parser α} {f : α → Parser β} (first : Respects R p)
    (second : ∀ a, Respects R (f a)) : Respects R (p >>= f) := by
  intro c d related
  obtain ⟨same, reached⟩ := first c d related
  rcases ran : p.runAt c with ⟨outcome, next⟩
  rcases ran' : p.runAt d with ⟨outcome', next'⟩
  rw [ran, ran'] at same reached
  cases same
  cases outcome with
  | ok a =>
    rw [runAt_bind_ok ran, runAt_bind_ok ran']
    exact second a next next' reached
  | error e =>
    rw [runAt_bind_error ran, runAt_bind_error ran']
    exact ⟨rfl, reached⟩

theorem respects_attempt (kept : Cursor.Kept R) {p : Parser α} (inside : Respects R p) :
    Respects R (attempt p (·.stream.atEnd)) := by
  intro c d related
  obtain ⟨same, reached⟩ := inside c d related
  rw [runAt_attempt, runAt_attempt]
  rcases ran : p.runAt c with ⟨outcome, next⟩
  rcases ran' : p.runAt d with ⟨outcome', next'⟩
  rw [ran, ran'] at same reached
  cases same
  have returned := kept.back related reached
  cases outcome with
  | error e => exact ⟨rfl, returned⟩
  | ok a =>
    have placed : next'.stream = next.stream := kept.stream reached
    simp only [placed]
    split
    · exact ⟨rfl, reached⟩
    · exact ⟨rfl, returned⟩

variable (kept : Cursor.Kept R)

include kept

theorem tooDeep_of_kept {c d : Cursor} (related : R c d) : d.tooDeep = c.tooDeep := by
  rw [Cursor.tooDeep, Cursor.tooDeep, kept.stream related, kept.depth related,
    kept.maxDepth related]

theorem respects_enter (context : String) : Respects R (enter context) := by
  intro c d related
  rw [runAt_enter, runAt_enter, kept.depth related, kept.maxDepth related]
  split
  · exact ⟨congrArg Except.error (tooDeep_of_kept kept related), related⟩
  · next shallow => exact ⟨rfl, kept.opened context related (Nat.lt_of_not_le shallow)⟩

theorem respects_nested {inner : Parser α} (context : String) (inside : Respects R inner) :
    Respects R (nested context inner) := by
  intro c d related
  rw [runAt_nested, runAt_nested, kept.depth related, kept.maxDepth related]
  split
  · exact ⟨congrArg Except.error (tooDeep_of_kept kept related), related⟩
  · next shallow =>
    have opened := kept.opened context related (Nat.lt_of_not_le shallow)
    obtain ⟨same, reached⟩ := inside _ _ opened
    exact ⟨same, kept.closed reached⟩

theorem respects_of_composed {p : Parser α} (composed : Composed nests p) : Respects R p := by
  induction composed with
  | pure a => exact respects_pure a
  | error _ => exact fun _ _ related => ⟨rfl, related⟩
  | look _ ih =>
    intro c d related
    rw [runAt_bind_ok (runAt_get c), runAt_bind_ok (runAt_get d), kept.stream related]
    exact ih _ c d related
  | advance => exact fun _ _ related => ⟨rfl, kept.advance related⟩
  | bind _ _ first second => exact first.bind second
  | nested context _ _ ih => exact respects_nested kept context ih
  | attempt _ ih => exact respects_attempt kept ih

end Relations

end StateActions
