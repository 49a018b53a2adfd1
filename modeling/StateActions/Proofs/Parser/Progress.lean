import StateActions.Proofs.Parser.Completeness

namespace StateActions

open StateActions.Parser

variable {α β : Type}

-- However the step ends, it has passed some tokens and left all else alone.
def Forward (p : Parser α) : Prop := ∀ c : Cursor, ∃ taken, c.Takes taken (p.runAt c).2

section Forward

theorem Cursor.advance_of_eof {c : Cursor} (current : c.stream.current = .eof) : c.advance = c := by
  unfold Stream.current Stream.current? at current
  unfold Cursor.advance Stream.advance
  cases ahead : c.stream.ahead with
  | nil => simp
  | cons t rest =>
    have mark : t.token = .eof := by simpa [ahead] using current
    simp [mark, Token.isEof]

theorem Forward.bind {p : Parser α} {f : α → Parser β} (first : Forward p)
    (second : ∀ a, Forward (f a)) : Forward (p >>= f) := by
  intro c
  obtain ⟨taken, takes⟩ := first c
  rcases ran : p.runAt c with ⟨outcome, middle⟩
  rw [ran] at takes
  cases outcome with
  | ok a =>
    obtain ⟨more, rest⟩ := second a middle
    rw [runAt_bind_ok ran]
    exact ⟨_, takes.trans rest⟩
  | error e =>
    rw [runAt_bind_error ran]
    exact ⟨taken, takes⟩

theorem forward_pure (a : α) : Forward (pure a : Parser α) := fun c => ⟨[], .refl c⟩

theorem forward_fail (error : Cursor → ParseError) : Forward (fail error : Parser α) :=
  fun c => ⟨[], .refl c⟩

theorem forward_current : Forward current := fun c => ⟨[], .refl c⟩

theorem forward_budget : Forward budget := fun c => ⟨[], .refl c⟩

theorem forward_atNameThen (token : Token) : Forward (atNameThen token) := fun c => ⟨[], .refl c⟩

theorem forward_advance : Forward advance := by
  intro c
  rw [runAt_advance]
  by_cases current : c.stream.current = .eof
  · rw [Cursor.advance_of_eof current]
    exact ⟨[], .refl c⟩
  · exact ⟨_, Cursor.takes_advance rfl current⟩

theorem forward_expectToken (token : Token) (committed : Bool) :
    Forward (expectToken token committed) := by
  refine forward_current.bind fun t => ?_
  split
  · exact forward_advance
  · exact forward_fail _

theorem forward_expectIdentifier (expected : String) (committed : Bool) :
    Forward (expectIdentifier expected committed) := by
  refine forward_current.bind fun t => ?_
  cases t with
  | identifier name => exact forward_advance.bind fun _ => forward_pure name
  | _ => exact forward_fail _

theorem forward_nested {inner : Parser α} (context : String) (forward : Forward inner) :
    Forward (nested context inner) := by
  intro c
  rw [runAt_nested]
  split
  · exact ⟨[], .refl c⟩
  · obtain ⟨taken, takes⟩ := forward (c.opened context)
    exact ⟨taken, Cursor.takes_nested takes⟩

theorem forward_path (steps : Nat) : Forward (path steps) := by
  induction steps with
  | zero => exact forward_pure []
  | succ steps ih =>
    refine forward_current.bind fun t => ?_
    split
    · refine forward_advance.bind fun _ => (forward_expectIdentifier _ _).bind fun name => ?_
      exact ih.bind fun names => forward_pure (name :: names)
    · exact forward_pure []

theorem forward_variableWithin (steps : Nat) : Forward (variableWithin steps) :=
  (forward_expectIdentifier _ _).bind fun name =>
    (forward_path steps).bind fun names => forward_pure (Variable.mk name names)

theorem forward_variableReference : Forward variableReference :=
  forward_budget.bind forward_variableWithin

theorem forward_boolean : Forward boolean := by
  refine forward_current.bind fun t => ?_
  cases t with
  | boolean value => exact forward_advance.bind fun _ => forward_pure _
  | _ => exact forward_fail _

theorem forward_number : Forward number := by
  refine forward_current.bind fun t => ?_
  cases t with
  | number value => exact forward_advance.bind fun _ => forward_pure _
  | _ => exact forward_fail _

theorem forward_string : Forward Parser.string := by
  refine forward_current.bind fun t => ?_
  cases t with
  | string content quote => exact forward_advance.bind fun _ => forward_pure _
  | _ => exact forward_fail _

theorem forward_argumentList {list : Parser (List Expression)} (forward : Forward list) :
    Forward (argumentList list) := by
  refine forward_current.bind fun t => ?_
  split
  · exact forward_advance.bind fun _ => forward_pure []
  · exact forward

theorem forward_callWith {list : Parser (List Expression)} (forward : Forward list) :
    Forward (callWith list) := by
  refine (forward_expectIdentifier _ _).bind fun name => ?_
  refine (forward_expectToken _ _).bind fun _ => ?_
  exact (forward_nested _ forward).bind fun values => forward_pure _

theorem forward_argumentWith {list : Parser (List Expression)} (steps : Nat)
    (forward : Forward list) : Forward (argumentWith steps list) := by
  refine forward_current.bind fun t => ?_
  cases t with
  | identifier name =>
    refine (forward_atNameThen _).bind fun called => ?_
    split
    · exact forward_callWith (forward_argumentList forward)
    · exact (forward_variableWithin steps).bind fun v => forward_pure _
  | number value => exact forward_number
  | string content quote => exact forward_string
  | boolean value => exact forward_boolean
  | _ => exact forward_fail _

theorem forward_arguments (steps : Nat) : Forward (arguments steps) := by
  induction steps with
  | zero => exact forward_fail _
  | succ steps ih =>
    refine (forward_argumentWith steps ih).bind fun first => forward_current.bind fun t => ?_
    cases t with
    | comma => exact forward_advance.bind fun _ => ih.bind fun others => forward_pure _
    | rightParen => exact forward_advance.bind fun _ => forward_pure _
    | _ => exact forward_fail _

theorem forward_call : Forward call :=
  forward_budget.bind fun steps => forward_callWith (forward_argumentList (forward_arguments steps))

open PrecedenceClimbing in
theorem forward_climbing (steps : Nat) :
    (∀ committed, Forward (unary steps committed)) ∧
      (∀ floor left, Forward (climb steps floor left)) ∧
      ∀ floor committed, Forward (binary steps floor committed) := by
  induction steps with
  | zero =>
    exact ⟨fun _ => forward_fail _, fun _ left => forward_pure left, fun _ _ => forward_fail _⟩
  | succ steps ih =>
    obtain ⟨ihUnary, ihClimb, ihBinary⟩ := ih
    refine ⟨fun committed => ?_, fun floor left => ?_, fun floor committed => ?_⟩
    · rw [unary]
      refine forward_current.bind fun t => ?_
      cases t with
      | minus =>
        refine forward_advance.bind fun _ => ?_
        exact (forward_nested _ (ihUnary true)).bind fun operand => forward_pure _
      | number value => exact forward_advance.bind fun _ => forward_pure _
      | identifier name => exact (forward_variableWithin steps).bind fun v => forward_pure _
      | leftParen =>
        refine forward_advance.bind fun _ => ?_
        refine (forward_nested _ (ihBinary 1 true)).bind fun inner => ?_
        exact (forward_expectToken _ _).bind fun _ => forward_pure inner
      | _ => exact forward_fail _
    · rw [climb]
      refine forward_current.bind fun t => ?_
      cases Operator.ofToken? t with
      | none => exact forward_pure left
      | some operator =>
        simp only
        split
        · exact forward_pure left
        · refine forward_advance.bind fun _ => ?_
          exact (ihBinary _ _).bind fun right => ihClimb _ _
    · rw [binary]
      exact (ihUnary committed).bind fun left => ihClimb floor left

theorem forward_rule : Forward PrecedenceClimbing.rule.parse :=
  forward_budget.bind fun steps => (forward_climbing steps).2.2 1 false

theorem forward_named (wanted typeName : String) : Forward (do
    if (← current).isNamed wanted then advance; return typeName
    else fail (·.structural ("'" ++ wanted ++ "'"))) := by
  refine forward_current.bind fun t => ?_
  split
  · exact forward_advance.bind fun _ => forward_pure typeName
  · exact forward_fail _

theorem forward_attributeOf (wanted : String) : Forward (attributeOf wanted) :=
  (forward_expectIdentifier _ _).bind fun typeName =>
    (forward_expectToken _ _).bind fun _ => forward_named wanted typeName

theorem forward_readChannel (typeName : String) : Forward (do
    expectToken .leftParen true
    let channel ← expectIdentifier "channel name" true
    expectToken .rightParen true
    return Expression.readAttribute typeName channel) := by
  refine (forward_expectToken _ _).bind fun _ => ?_
  refine (forward_expectIdentifier _ _).bind fun channel => ?_
  exact (forward_expectToken _ _).bind fun _ => forward_pure _

theorem forward_readAttribute : Forward readAttribute :=
  (forward_attributeOf _).bind forward_readChannel

theorem forward_writeItem : Forward writeItem := by
  refine (forward_atNameThen _).bind fun called => ?_
  split
  · exact forward_call
  · refine forward_current.bind fun t => ?_
    split
    · exact forward_variableReference.bind fun v => forward_pure _
    · exact forward_fail _

theorem forward_writeChannel (typeName : String) : Forward (do
    expectToken .leftParen true
    let channel ← expectIdentifier "channel name" true
    expectToken .comma true
    let item ← nested "write item" writeItem
    expectToken .rightParen true
    return Action.writeAttribute typeName channel item) := by
  refine (forward_expectToken _ _).bind fun _ => ?_
  refine (forward_expectIdentifier _ _).bind fun channel => ?_
  refine (forward_expectToken _ _).bind fun _ => ?_
  refine (forward_nested _ forward_writeItem).bind fun item => ?_
  exact (forward_expectToken _ _).bind fun _ => forward_pure _

end Forward

section LoneVariable

def Moves (p : Parser α) : Prop := ∀ c : Cursor, ∃ stream, (p.runAt c).2 = { c with stream }

theorem Moves.bind {p : Parser α} {f : α → Parser β} (first : Moves p)
    (second : ∀ a, Moves (f a)) : Moves (p >>= f) := by
  intro c
  obtain ⟨stream, reached⟩ := first c
  rcases ran : p.runAt c with ⟨outcome, middle⟩
  rw [ran] at reached
  cases outcome with
  | ok a =>
    obtain ⟨later, rest⟩ := second a middle
    simp only at reached
    rw [runAt_bind_ok ran, rest, reached]
    exact ⟨later, rfl⟩
  | error e =>
    rw [runAt_bind_error ran]
    exact ⟨stream, reached⟩

theorem moves_pure (a : α) : Moves (pure a : Parser α) := fun c => ⟨c.stream, rfl⟩

theorem moves_fail (error : Cursor → ParseError) : Moves (fail error : Parser α) :=
  fun c => ⟨c.stream, rfl⟩

theorem moves_current : Moves current := fun c => ⟨c.stream, rfl⟩

theorem moves_budget : Moves budget := fun c => ⟨c.stream, rfl⟩

theorem moves_advance : Moves advance := fun c => ⟨c.stream.advance, rfl⟩

theorem moves_expectIdentifier (expected : String) (committed : Bool) :
    Moves (expectIdentifier expected committed) := by
  refine moves_current.bind fun t => ?_
  cases t with
  | identifier name => exact moves_advance.bind fun _ => moves_pure name
  | _ => exact moves_fail _

theorem moves_path (steps : Nat) : Moves (path steps) := by
  induction steps with
  | zero => exact moves_pure []
  | succ steps ih =>
    refine moves_current.bind fun t => ?_
    split
    · refine moves_advance.bind fun _ => (moves_expectIdentifier _ _).bind fun name => ?_
      exact ih.bind fun names => moves_pure (name :: names)
    · exact moves_pure []

theorem moves_variableReference : Moves variableReference :=
  moves_budget.bind fun steps => (moves_expectIdentifier _ _).bind fun name =>
    (moves_path steps).bind fun names => moves_pure (Variable.mk name names)

theorem length_le_of_forward {p : Parser α} (forward : Forward p) (c : Cursor) :
    (p.runAt c).2.tokens.length ≤ c.tokens.length := by
  obtain ⟨taken, takes⟩ := forward c
  rw [takes.split, List.length_append]
  omega

theorem path_stops {c : Cursor} (current : c.stream.current ≠ .dot) (steps : Nat) :
    (path steps).runAt c = (.ok [], c) := by
  cases steps with
  | zero => rfl
  | succ steps =>
    rw [path, runAt_bind_ok (runAt_current c), if_neg current]
    rfl

theorem current_of_no_tokens {c : Cursor} (none : c.tokens = []) : c.stream.current = .eof := by
  rw [Cursor.current_eq, none]
  rfl

-- One step for each token left is enough for a path, and more make no difference.
theorem path_steps (steps others : Nat) {c : Cursor} (enough : c.tokens.length ≤ steps)
    (enough' : c.tokens.length ≤ others) : (path steps).runAt c = (path others).runAt c := by
  induction steps generalizing c others with
  | zero =>
    have current := current_of_no_tokens (List.length_eq_zero_iff.mp (Nat.le_zero.mp enough))
    rw [path_stops (by rw [current]; exact Token.noConfusion), path_stops]
    rw [current]
    exact Token.noConfusion
  | succ steps ih =>
    by_cases current : c.stream.current = .dot
    · have dot := Cursor.takes_advance current Token.noConfusion
      have shorter := length_lt_of_takes dot (List.cons_ne_nil _ _)
      cases others with
      | zero => omega
      | succ others =>
        rw [path, path, runAt_bind_ok (runAt_current c), runAt_bind_ok (runAt_current c),
          if_pos current, if_pos current, runAt_bind_ok (runAt_advance c),
          runAt_bind_ok (runAt_advance c), runAt_bind, runAt_bind]
        have fewer := length_le_of_forward (forward_expectIdentifier "identifier after '.'" true)
          c.advance
        rcases ran : (expectIdentifier "identifier after '.'" true).runAt c.advance with
          ⟨outcome, middle⟩
        rw [ran] at fewer
        simp only at fewer
        cases outcome with
        | error e => rfl
        | ok name =>
          simp only
          rw [runAt_bind, runAt_bind, ih others (by omega) (by omega)]
    · rw [path_stops current, path_stops current]

theorem variableWithin_steps (steps others : Nat) {c : Cursor} (enough : c.tokens.length ≤ steps)
    (enough' : c.tokens.length ≤ others) :
    (variableWithin steps).runAt c = (variableWithin others).runAt c := by
  unfold variableWithin
  rw [runAt_bind, runAt_bind]
  have fewer := length_le_of_forward (forward_expectIdentifier "identifier" false) c
  rcases ran : (expectIdentifier "identifier" false).runAt c with ⟨outcome, middle⟩
  rw [ran] at fewer
  simp only at fewer
  cases outcome with
  | error e => rfl
  | ok name =>
    simp only
    rw [runAt_bind, runAt_bind, path_steps steps others (by omega) (by omega)]

open PrecedenceClimbing in
-- Arithmetic that begins with a name reads the variable there, and then looks for an operator.
theorem rule_name {c : Cursor} {name : String} (current : c.stream.current = .identifier name) :
    PrecedenceClimbing.rule.parse.runAt c =
      (variableReference >>= fun v =>
        climb (2 * c.tokens.length + 1) 1 (Arithmetic.variable v)).runAt c := by
  have unary_name : (unary (2 * c.tokens.length + 1) false).runAt c =
      (variableReference >>= fun v => pure (Arithmetic.variable v)).runAt c := by
    rw [unary, runAt_bind_ok (runAt_current c), current]
    simp only
    rw [variableReference, runAt_bind, runAt_bind, runAt_bind_ok (runAt_budget c),
      variableWithin_steps (2 * c.tokens.length) (2 * c.tokens.length + 2) (by omega) (by omega)]
  unfold PrecedenceClimbing.rule
  rw [runAt_bind_ok (runAt_budget c), binary, runAt_bind, unary_name, runAt_bind, runAt_bind]
  rcases variableReference.runAt c with ⟨outcome, middle⟩
  cases outcome <;> rfl

theorem stops_at_end {c : Cursor} (current : c.stream.current = .eof) (floor : Nat) :
    Stops floor c.tokens := by
  intro o rest same
  rw [Cursor.current_of_tokens same] at current
  exact absurd current o.token_ne_eof

theorem loneVariable_name {c : Cursor} {name : String}
    (current : c.stream.current = .identifier name) :
    loneVariable.runAt c = match variableReference.runAt c with
      | (.ok v, next) => if next.stream.atEnd then (.ok (some v), next) else (.ok none, c)
      | (.error _, _) => (.ok none, c) := by
  obtain ⟨stream, moved⟩ := moves_variableReference c
  unfold loneVariable
  rw [runAt_bind_ok (runAt_current c), current]
  simp only [Token.isIdentifier, if_true]
  rw [runAt_attempt]
  rcases found : variableReference.runAt c with ⟨outcome, middle⟩
  rw [found] at moved
  cases outcome <;> cases moved <;> rfl

-- A variable that turns out not to be alone is given up without a trace, and one that is alone is
-- what arithmetic finds as well. An error inside it is found again by arithmetic.
theorem variableOrArithmetic_eq (c : Cursor) :
    variableOrArithmetic.runAt c =
      (do return Expression.ofArithmetic (← PrecedenceClimbing.rule.parse) :
        Parser Expression).runAt c := by
  have given_up (lone : loneVariable.runAt c = (.ok none, c)) : variableOrArithmetic.runAt c =
      (do return Expression.ofArithmetic (← PrecedenceClimbing.rule.parse) :
        Parser Expression).runAt c := runAt_bind_ok lone _
  cases current : c.stream.current with
  | identifier name =>
    have lone := loneVariable_name current
    rcases found : variableReference.runAt c with ⟨outcome, next⟩
    rw [found] at lone
    cases outcome with
    | error e => exact given_up lone
    | ok v =>
      simp only at lone
      split at lone
      · next atEnd =>
        have eof : next.stream.current = .eof := by simpa [Stream.atEnd, Token.isEof] using atEnd
        unfold variableOrArithmetic
        rw [runAt_bind_ok lone, runAt_bind, rule_name current, runAt_bind_ok found,
          climb_stops (stops_at_end eof 1)]
        rfl
      · exact given_up lone
  | _ =>
    refine given_up ?_
    unfold loneVariable
    rw [runAt_bind_ok (runAt_current c), current]
    rfl

theorem forward_variableOrArithmetic : Forward variableOrArithmetic := by
  intro c
  rw [variableOrArithmetic_eq]
  exact forward_rule.bind (fun tree => forward_pure (Expression.ofArithmetic tree)) c

theorem forward_callOrArithmetic :
    Forward (do if ← atCallStart then call else variableOrArithmetic) := by
  refine (forward_atNameThen _).bind fun called => ?_
  split
  · exact forward_call
  · exact forward_variableOrArithmetic

theorem forward_rightHandSide : Forward (rightHandSide PrecedenceClimbing.rule) := by
  refine (forward_atNameThen _).bind fun ticked => ?_
  split
  · exact forward_readAttribute
  · refine forward_current.bind fun t => ?_
    cases t with
    | boolean value => exact forward_boolean
    | string content quote => exact forward_string
    | _ => exact forward_callOrArithmetic

end LoneVariable

section Names

def Passes (count : Nat) (p : Parser α) (c : Cursor) : Prop :=
  (p.runAt c).2.tokens.length + count ≤ c.tokens.length

variable {c : Cursor} {count : Nat}

theorem Passes.bind {p : Parser α} {f : α → Parser β} (first : Passes count p c)
    (second : ∀ a, Forward (f a)) : Passes count (p >>= f) c := by
  unfold Passes at first ⊢
  rcases ran : p.runAt c with ⟨outcome, middle⟩
  rw [ran] at first
  cases outcome with
  | ok a =>
    have fewer := length_le_of_forward (second a) middle
    rw [runAt_bind_ok ran]
    simp only at first
    omega
  | error e =>
    rw [runAt_bind_error ran]
    exact first

theorem Passes.after {p : Parser α} {f : α → Parser β} {a : α} (ran : p.runAt c = (.ok a, c))
    (goes : Passes count (f a) c) : Passes count (p >>= f) c := by
  unfold Passes at goes ⊢
  rw [runAt_bind_ok ran]
  exact goes

theorem passes_advance (current : c.stream.current ≠ .eof) : Passes 1 advance c :=
  length_lt_of_takes (Cursor.takes_advance rfl current) (List.cons_ne_nil _ _)

theorem passes_take {f : Token → Parser α} {t : Token} {a : α} (current : c.stream.current = t)
    (inner : t ≠ .eof) (takes : f t = advance >>= fun _ => pure a) :
    Passes 1 (Parser.current >>= f) c := by
  refine .after (runAt_current c) ?_
  rw [current, takes]
  exact (passes_advance (current ▸ inner)).bind fun _ => forward_pure a

theorem passes_expectIdentifier {name expected : String} {committed : Bool}
    (current : c.stream.current = .identifier name) :
    Passes 1 (expectIdentifier expected committed) c :=
  passes_take current Token.noConfusion rfl

theorem passes_name_then {name expected : String} {token : Token} {committed committed' : Bool}
    {rest : List Token} {f : String → Unit → Parser α}
    (tokens : c.tokens = .identifier name :: token :: rest) (inner : token ≠ .eof)
    (forward : ∀ name u, Forward (f name u)) :
    Passes 2 (do
      let name ← expectIdentifier expected committed
      let u ← expectToken token committed'
      f name u) c := by
  have first : (expectIdentifier expected committed).runAt c = (.ok name, c.advance) := by
    unfold expectIdentifier
    rw [runAt_bind_ok (runAt_current c), Cursor.current_of_tokens tokens]
    rfl
  have left := Cursor.tokens_advance tokens Token.noConfusion
  have second : (expectToken token committed').runAt c.advance = (.ok (), c.advance.advance) := by
    rw [runAt_expectToken, if_pos (Cursor.current_of_tokens left)]
  have last := Cursor.tokens_advance left inner
  have fewer := length_le_of_forward (forward name ()) c.advance.advance
  unfold Passes
  rw [runAt_bind_ok first, runAt_bind_ok second, tokens]
  rw [last] at fewer
  simpa using fewer

variable {name : String}

theorem passes_variableWithin (current : c.stream.current = .identifier name) (steps : Nat) :
    Passes 1 (variableWithin steps) c :=
  (passes_expectIdentifier current).bind fun _ => (forward_path steps).bind fun _ => forward_pure _

theorem passes_callWith_both {list : Parser (List Expression)} {rest : List Token}
    (forward : Forward list) (tokens : c.tokens = .identifier name :: .leftParen :: rest) :
    Passes 2 (callWith list) c :=
  passes_name_then tokens Token.noConfusion fun _ _ =>
    (forward_nested _ forward).bind fun _ => forward_pure _

theorem passes_callWith {list : Parser (List Expression)} (forward : Forward list)
    (current : c.stream.current = .identifier name) : Passes 1 (callWith list) c :=
  (passes_expectIdentifier current).bind fun _ => (forward_expectToken _ _).bind fun _ =>
    (forward_nested _ forward).bind fun _ => forward_pure _

theorem passes_call_both {rest : List Token}
    (tokens : c.tokens = .identifier name :: .leftParen :: rest) : Passes 2 call c :=
  .after (runAt_budget c) (passes_callWith_both (forward_argumentList (forward_arguments _)) tokens)

theorem passes_call (current : c.stream.current = .identifier name) : Passes 1 call c :=
  .after (runAt_budget c) (passes_callWith (forward_argumentList (forward_arguments _)) current)

theorem passes_attributeOf_both {wanted : String} {rest : List Token}
    (tokens : c.tokens = .identifier name :: .tick :: rest) : Passes 2 (attributeOf wanted) c :=
  passes_name_then tokens Token.noConfusion fun typeName _ => forward_named wanted typeName

theorem passes_attributeOf {wanted : String} (current : c.stream.current = .identifier name) :
    Passes 1 (attributeOf wanted) c :=
  (passes_expectIdentifier current).bind fun typeName =>
    (forward_expectToken _ _).bind fun _ => forward_named wanted typeName

theorem passes_arithmetic (current : c.stream.current = .identifier name) :
    Passes 1 variableOrArithmetic c := by
  have found : Passes 1 variableReference c :=
    .after (runAt_budget c) (passes_variableWithin current _)
  have climbs := found.bind fun v =>
    (forward_climbing (2 * c.tokens.length + 1)).2.1 1 (Arithmetic.variable v)
  have parsed : Passes 1 PrecedenceClimbing.rule.parse c := by
    unfold Passes
    rw [rule_name current]
    exact climbs
  have whole := parsed.bind fun tree => forward_pure (Expression.ofArithmetic tree)
  unfold Passes
  rw [variableOrArithmetic_eq]
  exact whole

end Names

end StateActions
