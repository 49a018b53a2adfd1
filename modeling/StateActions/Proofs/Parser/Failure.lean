import StateActions.Proofs.Parser.Progress
import StateActions.Proofs.Token.WellFormed

namespace StateActions

open StateActions.Parser

namespace ParseError

def isLexical : ParseError → Bool
  | .lexicalMismatch .. => true
  | _ => false

def isTrailing : ParseError → Bool
  | .trailingInput .. => true
  | _ => false

def isStructural : ParseError → Bool
  | .structuralMismatch .. => true
  | _ => false

def isLimit : ParseError → Bool
  | .limitExceeded .. => true
  | _ => false

end ParseError

abbrev Token.IsPart (t : Token) : Prop := t.WellFormed ∧ t.isSignificant = true

-- Tokens that become a phrase when others are put after them.
def Viable (Phrase : List Token → Prop) (taken : List Token) : Prop :=
  ∃ suffix, (∀ t ∈ suffix, t.IsPart) ∧ Phrase (taken ++ suffix)

-- The step stopped with `e`. What it had passed is viable, and the error is structural if something
-- was passed, or if it was `begun` before.
def Stuck (begun : Bool) (Phrase : List Token → Prop) (c : Cursor) (e : ParseError)
    (next : Cursor) : Prop :=
  ∃ taken, c.Takes taken next ∧
    (∃ expected, e = next.missing expected (begun || !taken.isEmpty)) ∧ Viable Phrase taken

variable {α β : Type} {c next : Cursor} {e : ParseError}

section Parts

theorem bind_error_parts {p : Parser α} {f : α → Parser β}
    (ran : (p >>= f).runAt c = (.error e, next)) :
    p.runAt c = (.error e, next) ∨
      ∃ a middle, p.runAt c = (.ok a, middle) ∧ (f a).runAt middle = (.error e, next) := by
  rw [runAt_bind] at ran
  rcases first : p.runAt c with ⟨outcome, middle⟩
  rw [first] at ran
  cases outcome with
  | ok a => exact .inr ⟨a, middle, rfl, ran⟩
  | error e' =>
    cases ran
    exact .inl rfl

theorem expectToken_error {token : Token} {committed : Bool}
    (ran : (expectToken token committed).runAt c = (.error e, next)) :
    next = c ∧ e = c.missing token.describe committed := by
  rw [runAt_expectToken] at ran
  split at ran
  · cases ran
  · cases ran
    exact ⟨rfl, rfl⟩

theorem expectIdentifier_error {expected : String} {committed : Bool}
    (ran : (expectIdentifier expected committed).runAt c = (.error e, next)) :
    next = c ∧ e = c.missing expected committed ∧ c.stream.current.isIdentifier = false := by
  unfold expectIdentifier at ran
  rw [runAt_bind_ok (runAt_current c)] at ran
  split at ran
  · cases ran
  · next other =>
    cases ran
    refine ⟨rfl, rfl, ?_⟩
    cases current : c.stream.current with
    | identifier name => exact absurd current (other name)
    | _ => rfl

-- A syntax error inside a construct means that a level was left for it.
theorem nested_error {context : String} {inner : Parser α} (syntactic : e.isLimit = false)
    (ran : (nested context inner).runAt c = (.error e, next)) :
    ∃ middle, inner.runAt (c.opened context) = (.error e, middle) ∧ next = middle.closed ∧
      c.room = (c.opened context).room + 1 := by
  rw [runAt_nested] at ran
  split at ran
  · cases ran
    cases syntactic
  · next shallow =>
    rcases inside : inner.runAt (c.opened context) with ⟨outcome, middle⟩
    rw [inside] at ran
    cases ran
    refine ⟨middle, rfl, rfl, ?_⟩
    rw [Cursor.room_opened]
    unfold Cursor.room
    omega

theorem tokens_of_atNameThen {token : Token} (inner : token ≠ .eof)
    (found : (c.stream.current.isIdentifier && decide (c.stream.peek 1 = token)) = true) :
    ∃ name rest, c.tokens = .identifier name :: token :: rest := by
  obtain ⟨named, peeked⟩ := Bool.and_eq_true_iff.mp found
  have peeked := of_decide_eq_true peeked
  rw [Cursor.current_eq] at named
  rw [Cursor.peek_eq] at peeked
  match tokens : c.tokens with
  | [] => rw [tokens] at named; cases named
  | [t] => rw [tokens] at peeked; exact absurd peeked.symm inner
  | t :: u :: rest =>
    rw [tokens] at named peeked
    cases t with
    | identifier name =>
      obtain rfl : u = token := peeked
      exact ⟨name, rest, rfl⟩
    | _ => cases named

end Parts

namespace Stuck

variable {begun inner : Bool} {P Q : List Token → Prop} {middle : Cursor}

theorem mono (stuck : Stuck begun P c e next) (step : ∀ tokens, P tokens → Q tokens) :
    Stuck begun Q c e next := by
  obtain ⟨taken, takes, kind, suffix, formed, phrase⟩ := stuck
  exact ⟨taken, takes, kind, suffix, formed, step _ phrase⟩

theorem stop {taken : List Token} (suffix : List Token) {expected : String} {committed : Bool}
    (takes : c.Takes taken next) (kind : committed = (begun || !taken.isEmpty))
    (formed : ∀ t ∈ suffix, t.IsPart) (phrase : P (taken ++ suffix)) :
    Stuck begun P c (next.missing expected committed) next :=
  ⟨taken, takes, ⟨expected, by rw [kind]⟩, suffix, formed, phrase⟩

-- A part that is stuck after the tokens `before`, and that `after` follows when it is complete.
theorem sequel {before : List Token} (after : List Token) (first : c.Takes before middle)
    (stuck : Stuck inner P middle e next) (kind : inner = (begun || !before.isEmpty))
    (formed : ∀ t ∈ after, t.IsPart)
    (step : ∀ tokens, P tokens → Q (before ++ (tokens ++ after))) : Stuck begun Q c e next := by
  obtain ⟨taken, takes, ⟨expected, rfl⟩, suffix, suffixFormed, phrase⟩ := stuck
  refine ⟨before ++ taken, first.trans takes, ⟨expected, ?_⟩, suffix ++ after, ?_, ?_⟩
  · cases before with
    | nil => rw [kind, List.nil_append, List.isEmpty_nil, Bool.not_true, Bool.or_false]
    | cons t rest => rw [kind, List.cons_append, List.isEmpty_cons, List.isEmpty_cons,
        Bool.not_false, Bool.or_true, Bool.true_or]
  · intro t member
    rcases List.mem_append.mp member with inside | outside
    · exact suffixFormed t inside
    · exact formed t outside
  · have whole := step _ phrase
    simpa only [List.append_assoc] using whole

theorem closed {context : String} (stuck : Stuck begun P (c.opened context) e next) :
    Stuck begun P c e next.closed := by
  obtain ⟨taken, takes, ⟨expected, rfl⟩, viable⟩ := stuck
  refine ⟨taken, Cursor.takes_nested takes, ⟨expected, ?_⟩, viable⟩
  unfold Cursor.missing Cursor.structural Cursor.mismatch
  rw [Cursor.stream_closed]

end Stuck

section Variables

variable {steps : Nat}

theorem path_stuck (ran : (path steps).runAt c = (.error e, next)) :
    Stuck true (fun tokens => ∃ names, PathPhrase tokens names) c e next := by
  induction steps generalizing c with
  | zero => cases ran
  | succ steps ih =>
    unfold path at ran
    rw [runAt_bind_ok (runAt_current c)] at ran
    split at ran
    · next current =>
      have dot := Cursor.takes_advance current Token.noConfusion
      rw [runAt_bind_ok (runAt_advance c)] at ran
      rcases bind_error_parts ran with failed | ⟨name, second, named, ran⟩
      · obtain ⟨rfl, rfl, -⟩ := expectIdentifier_error failed
        exact .stop [.identifier "x"] dot rfl (by decide) ⟨["x"], .component "x" .nil⟩
      · rcases bind_error_parts ran with failed | ⟨names, third, rest, ran⟩
        · have before := dot.trans (expectIdentifier_sound named)
          refine (ih failed).sequel [] before rfl (by simp) ?_
          rintro tokens ⟨names, phrase⟩
          exact ⟨name :: names, by simpa using PathPhrase.component name phrase⟩
        · cases ran
    · cases ran

theorem variableWithin_stuck {begun : Bool} (named : c.stream.current.isIdentifier = true)
    (ran : (variableWithin steps).runAt c = (.error e, next)) :
    Stuck begun (fun tokens => ∃ v, VariablePhrase tokens v) c e next := by
  unfold variableWithin at ran
  rcases bind_error_parts ran with failed | ⟨name, second, found, ran⟩
  · obtain ⟨-, -, other⟩ := expectIdentifier_error failed
    rw [named] at other
    cases other
  · rcases bind_error_parts ran with failed | ⟨names, third, rest, ran⟩
    · refine (path_stuck failed).sequel [] (expectIdentifier_sound found) (by simp) (by simp) ?_
      rintro tokens ⟨names, phrase⟩
      exact ⟨⟨name, names⟩, by simpa using VariablePhrase.dotted name phrase⟩
    · cases ran

theorem variableReference_stuck {begun : Bool} (named : c.stream.current.isIdentifier = true)
    (ran : variableReference.runAt c = (.error e, next)) :
    Stuck begun (fun tokens => ∃ v, VariablePhrase tokens v) c e next := by
  unfold variableReference at ran
  rw [runAt_bind_ok (runAt_budget c)] at ran
  exact variableWithin_stuck named ran

end Variables

section Calls

def ClosedArguments (room : Nat) (tokens : List Token) : Prop :=
  ∃ inner values, tokens = inner ++ [.rightParen] ∧ ArgumentsPhrase room inner values

def StopsInArguments (list : Parser (List Expression)) : Prop :=
  ∀ {c next : Cursor} {e : ParseError}, e.isLimit = false → list.runAt c = (.error e, next) →
    Stuck true (ClosedArguments c.room) c e next

variable {list : Parser (List Expression)} {begun : Bool}

theorem callWith_stuck (stops : StopsInArguments list) (syntactic : e.isLimit = false)
    {name : String} {rest : List Token} (tokens : c.tokens = .identifier name :: .leftParen :: rest)
    (ran : (callWith (argumentList list)).runAt c = (.error e, next)) :
    Stuck begun (fun tokens => ∃ value, CallPhrase c.room tokens value) c e next := by
  unfold callWith at ran
  rcases bind_error_parts ran with failed | ⟨found, second, named, ran⟩
  · obtain ⟨-, -, other⟩ := expectIdentifier_error failed
    rw [Cursor.current_of_tokens tokens] at other
    cases other
  have first := expectIdentifier_sound named
  obtain ⟨-, left⟩ := List.cons.inj (tokens.symm.trans first.split)
  rcases bind_error_parts ran with failed | ⟨_, third, opening, ran⟩
  · rw [runAt_expectToken, if_pos (Cursor.current_of_tokens left.symm)] at failed
    cases failed
  have head := first.trans (expectToken_sound Token.noConfusion opening)
  rcases bind_error_parts ran with failed | ⟨values, last, _, ran⟩
  · obtain ⟨middle, listed, rfl, levels⟩ := nested_error syntactic failed
    unfold argumentList at listed
    rw [runAt_bind_ok (runAt_current _)] at listed
    split at listed
    · cases listed
    · have inside := (stops syntactic listed).closed
      refine inside.sequel [] head (by simp) (by simp) ?_
      rintro _ ⟨inner, values, rfl, phrase⟩
      rw [← head.toKeeps.room, levels]
      exact ⟨.call found values, by simpa using CallPhrase.filled found phrase⟩
  · cases ran

theorem argumentWith_stuck {steps : Nat} (stops : StopsInArguments list)
    (syntactic : e.isLimit = false)
    (ran : (argumentWith steps list).runAt c = (.error e, next)) :
    Stuck true (fun tokens => ∃ value, ArgumentPhrase c.room tokens value) c e next := by
  unfold argumentWith at ran
  rw [runAt_bind_ok (runAt_current c)] at ran
  split at ran
  · next name current =>
    rw [atCallStart, runAt_bind_ok (runAt_atNameThen _ c)] at ran
    split at ran
    · next called =>
      obtain ⟨name, rest, tokens⟩ := tokens_of_atNameThen Token.noConfusion called
      refine (callWith_stuck stops syntactic tokens ran).mono ?_
      rintro _ ⟨value, phrase⟩
      exact ⟨value, .call phrase⟩
    · rcases bind_error_parts ran with failed | ⟨v, last, _, ran⟩
      · refine (variableWithin_stuck (by rw [current]; rfl) failed).mono ?_
        rintro _ ⟨v, phrase⟩
        exact ⟨.variable v, .reference _ phrase⟩
      · cases ran
  · next value current =>
    rw [number, runAt_bind_ok (runAt_current c), current] at ran
    cases ran
  · next content quote current =>
    rw [Parser.string, runAt_bind_ok (runAt_current c), current] at ran
    cases ran
  · next value current =>
    rw [boolean, runAt_bind_ok (runAt_current c), current] at ran
    cases ran
  · cases ran
    exact Stuck.stop [.number 0] (.refl c) rfl (by decide) ⟨_, .number _ 0⟩

theorem arguments_stuck (steps : Nat) : StopsInArguments (arguments steps) := by
  induction steps with
  | zero =>
    intro c next e _ ran
    cases ran
    exact Stuck.stop [.number 0, .rightParen] (.refl c) rfl (by decide)
      ⟨[.number 0], _, rfl, .last (.number _ 0)⟩
  | succ steps ih =>
    intro c next e syntactic ran
    unfold arguments at ran
    rcases bind_error_parts ran with failed | ⟨first, second, head, ran⟩
    · refine (argumentWith_stuck ih syntactic failed).sequel [.rightParen] (.refl c) rfl
        (by decide) ?_
      rintro tokens ⟨value, phrase⟩
      exact ⟨tokens, [value], rfl, .last phrase⟩
    obtain ⟨taken, takes, phrase⟩ := argumentWith_sound (arguments_sound steps) head
    rw [runAt_bind_ok (runAt_current _)] at ran
    split at ran
    · next current =>
      have before := takes.trans (Cursor.takes_advance current Token.noConfusion)
      rw [runAt_bind_ok (runAt_advance _)] at ran
      rcases bind_error_parts ran with failed | ⟨others, last, _, ran⟩
      · refine (ih syntactic failed).sequel [] before (by simp) (by simp) ?_
        rintro _ ⟨inner, values, rfl, rest⟩
        rw [before.toKeeps.room] at rest
        exact ⟨taken ++ .comma :: inner, first :: values, by simp, .more phrase rest⟩
      · cases ran
    · cases ran
    · cases ran
      exact Stuck.stop [.rightParen] takes rfl (by decide) ⟨taken, _, rfl, .last phrase⟩

theorem call_stuck (syntactic : e.isLimit = false) {name : String} {rest : List Token}
    (tokens : c.tokens = .identifier name :: .leftParen :: rest)
    (ran : call.runAt c = (.error e, next)) :
    Stuck begun (fun tokens => ∃ value, CallPhrase c.room tokens value) c e next := by
  unfold call at ran
  rw [runAt_bind_ok (runAt_budget c)] at ran
  exact callWith_stuck (arguments_stuck _) syntactic tokens ran

end Calls

section Arithmetic

open PrecedenceClimbing

-- What `steps` steps leave undone when they stop: an operand of some stratum, or the rest of the
-- phrase that began with the left operand of a climb.
structure ClimbsStuck (steps : Nat) : Prop where
  unary {c next : Cursor} {e : ParseError} {committed : Bool} (enough : EnoughSteps steps c)
    (syntactic : e.isLimit = false) (ran : (unary steps committed).runAt c = (.error e, next)) :
    Stuck committed (fun tokens => ∃ tree, ArithmeticPhrase c.room 3 tokens tree) c e next
  binary {c next : Cursor} {e : ParseError} {floor : Nat} {committed : Bool}
    (positive : 1 ≤ floor) (top : floor ≤ 3) (enough : 2 * c.tokens.length + 2 ≤ steps)
    (syntactic : e.isLimit = false)
    (ran : (binary steps floor committed).runAt c = (.error e, next)) :
    Stuck committed (fun tokens => ∃ tree, ArithmeticPhrase c.room floor tokens tree) c e next
  climb {c next : Cursor} {e : ParseError} {floor level : Nat} {left : Arithmetic}
    {before : List Token} (positive : 1 ≤ floor) (below : floor ≤ level) (top : level ≤ 3)
    (enough : EnoughSteps steps c) (phrase : ArithmeticPhrase c.room level before left)
    (stops : Stops (level + 1) c.tokens) (syntactic : e.isLimit = false)
    (ran : (climb steps floor left).runAt c = (.error e, next)) :
    Stuck true (fun tokens => ∃ tree, ArithmeticPhrase c.room floor (before ++ tokens) tree) c e
      next

theorem unary_stuck {steps : Nat} (ih : ClimbsStuck steps) {committed : Bool}
    (enough : EnoughSteps (steps + 1) c) (syntactic : e.isLimit = false)
    (ran : (unary (steps + 1) committed).runAt c = (.error e, next)) :
    Stuck committed (fun tokens => ∃ tree, ArithmeticPhrase c.room 3 tokens tree) c e next := by
  unfold EnoughSteps at enough
  rw [unary, runAt_bind_ok (runAt_current c)] at ran
  split at ran
  · next current =>
    have sign := Cursor.takes_advance current Token.noConfusion
    have shorter := length_lt_of_takes sign (List.cons_ne_nil _ _)
    rw [runAt_bind_ok (runAt_advance c)] at ran
    rcases bind_error_parts ran with failed | ⟨operand, last, _, ran⟩
    · obtain ⟨middle, inner, rfl, levels⟩ := nested_error syntactic failed
      have inside := (ih.unary (by simp only [EnoughSteps, Cursor.tokens_opened]; omega) syntactic
        inner).closed
      refine inside.sequel [] sign (by simp) (by simp) ?_
      rintro tokens ⟨tree, phrase⟩
      rw [← sign.toKeeps.room, levels]
      exact ⟨.negate tree, by simpa using ArithmeticPhrase.minus phrase⟩
    · cases ran
  · cases ran
  · next name current =>
    rcases bind_error_parts ran with failed | ⟨v, last, _, ran⟩
    · refine (variableWithin_stuck (by rw [current]; rfl) failed).mono ?_
      rintro _ ⟨v, phrase⟩
      exact ⟨.variable v, .reference _ phrase⟩
    · cases ran
  · next current =>
    have opening := Cursor.takes_advance current Token.noConfusion
    have shorter := length_lt_of_takes opening (List.cons_ne_nil _ _)
    have wide : 2 * ((c.advance).opened "parenthesized expression").tokens.length + 2 ≤ steps := by
      rw [Cursor.tokens_opened]; omega
    rw [runAt_bind_ok (runAt_advance c)] at ran
    rcases bind_error_parts ran with failed | ⟨inner, second, inside, ran⟩
    · obtain ⟨middle, grouped, rfl, levels⟩ := nested_error syntactic failed
      have inside := (ih.binary (Nat.le_refl 1) (by omega) wide syntactic grouped).closed
      refine inside.sequel [.rightParen] opening (by simp) (by decide) ?_
      rintro tokens ⟨tree, phrase⟩
      rw [← opening.toKeeps.room, levels]
      exact ⟨tree, by simpa using ArithmeticPhrase.group phrase⟩
    · rcases bind_error_parts ran with failed | ⟨_, third, _, ran⟩
      · obtain ⟨rfl, rfl⟩ := expectToken_error failed
        obtain ⟨middle, grouped, rfl, levels⟩ := nested_sound inside
        obtain ⟨taken, takes, phrase, -⟩ := (climbsSoundly steps).binary (Nat.le_refl 1) (by omega)
          wide grouped
        refine .stop [.rightParen] (opening.trans (Cursor.takes_nested takes)) (by simp)
          (by decide) ?_
        rw [← opening.toKeeps.room, levels]
        exact ⟨inner, by simpa using ArithmeticPhrase.group phrase⟩
      · cases ran
  · cases ran
    cases committed with
    | false => exact Stuck.stop [.number 0] (.refl c) rfl (by decide) ⟨_, .number _ 0⟩
    | true => exact Stuck.stop [.number 0] (.refl c) rfl (by decide) ⟨_, .number _ 0⟩

theorem climb_stuck {steps : Nat} (ih : ClimbsStuck steps) {floor level : Nat} {left : Arithmetic}
    {before : List Token} (positive : 1 ≤ floor) (below : floor ≤ level) (top : level ≤ 3)
    (enough : EnoughSteps (steps + 1) c) (phrase : ArithmeticPhrase c.room level before left)
    (stops : Stops (level + 1) c.tokens) (syntactic : e.isLimit = false)
    (ran : (climb (steps + 1) floor left).runAt c = (.error e, next)) :
    Stuck true (fun tokens => ∃ tree, ArithmeticPhrase c.room floor (before ++ tokens) tree) c e
      next := by
  unfold EnoughSteps at enough
  rw [climb, runAt_bind_ok (runAt_current c)] at ran
  split at ran
  · cases ran
  · next operator found =>
    split at ran
    · cases ran
    · next tight =>
      have current := Operator.token_of_ofToken? found
      obtain ⟨rest, tokens⟩ := Cursor.tokens_of_current current operator.token_ne_eof
      have within := stops operator rest tokens
      have sign := Cursor.takes_advance current operator.token_ne_eof
      have shorter := length_lt_of_takes sign (List.cons_ne_nil _ _)
      have small := operator.precedence_cases
      have leftPhrase := phrase.lower (by omega) (Nat.le_of_lt_succ within) top
      rw [runAt_bind_ok (runAt_advance c)] at ran
      rcases bind_error_parts ran with failed | ⟨right, middle, operand, ran⟩
      · have inside := ih.binary (by omega) (by omega) (by omega) syntactic failed
        refine inside.sequel [] sign (by simp) (by simp) ?_
        rintro tokens ⟨tree, rightPhrase⟩
        rw [sign.toKeeps.room] at rightPhrase
        have joined := (ArithmeticPhrase.binary operator leftPhrase rightPhrase).lower positive
          (Nat.le_of_not_lt tight) (by omega)
        exact ⟨_, by simpa using joined⟩
      · obtain ⟨taken, takes, rightPhrase, ends⟩ := (climbsSoundly steps).binary (by omega)
          (by omega) (by omega) operand
        have less := length_lt_of_takes takes rightPhrase.start.ne_nil
        have both := sign.trans takes
        rw [sign.toKeeps.room] at rightPhrase
        have joined := ArithmeticPhrase.binary operator leftPhrase rightPhrase
        rw [← both.toKeeps.room] at joined
        have inside := ih.climb positive (Nat.le_of_not_lt tight) (by omega)
          (by unfold EnoughSteps; omega) joined ends syntactic ran
        refine inside.sequel [] both (by simp) (by simp) ?_
        rintro tokens ⟨tree, result⟩
        rw [both.toKeeps.room] at result
        exact ⟨tree, by simpa using result⟩

theorem climbsStuck (steps : Nat) : ClimbsStuck steps := by
  induction steps with
  | zero =>
    refine ⟨?_, ?_, ?_⟩
    · intro _ _ _ _ enough; unfold EnoughSteps at enough; omega
    · intro _ _ _ _ _ _ _ enough; omega
    · intro _ _ _ _ _ _ _ _ _ _ enough; unfold EnoughSteps at enough; omega
  | succ steps ih =>
    refine ⟨unary_stuck ih, ?_, climb_stuck ih⟩
    intro c next e floor committed positive top enough syntactic ran
    rw [PrecedenceClimbing.binary] at ran
    rcases bind_error_parts ran with failed | ⟨left, middle, operand, ran⟩
    · refine (ih.unary (by unfold EnoughSteps; omega) syntactic failed).mono ?_
      rintro tokens ⟨tree, phrase⟩
      exact ⟨tree, phrase.lower positive top (Nat.le_refl 3)⟩
    · obtain ⟨first, takes, phrase⟩ := (climbsSoundly steps).unary (by unfold EnoughSteps; omega)
        operand
      have some := phrase.start.ne_nil
      have shorter := length_lt_of_takes takes some
      rw [← takes.toKeeps.room] at phrase
      have inside := ih.climb positive top (Nat.le_refl 3) (by unfold EnoughSteps; omega) phrase
        ((stops_above _).weaken (by omega)) syntactic ran
      refine inside.sequel [] takes (by simp [some]) (by simp) ?_
      rintro tokens ⟨tree, result⟩
      rw [takes.toKeeps.room] at result
      exact ⟨tree, by simpa using result⟩

theorem rule_stuck (syntactic : e.isLimit = false)
    (ran : PrecedenceClimbing.rule.parse.runAt c = (.error e, next)) :
    Stuck false (fun tokens => ∃ tree, ArithmeticPhrase c.room 1 tokens tree) c e next := by
  unfold PrecedenceClimbing.rule at ran
  rw [runAt_bind_ok (runAt_budget c)] at ran
  exact (climbsStuck _).binary (Nat.le_refl 1) (by omega) (Nat.le_refl _) syntactic ran

end Arithmetic

section Actions

-- An attribute is recognised by its tick, so it is the attribute name that can be missing.
theorem attributeOf_error {wanted name : String} {rest : List Token}
    (tokens : c.tokens = .identifier name :: .tick :: rest)
    (ran : (attributeOf wanted).runAt c = (.error e, next)) :
    c.Takes [.identifier name, .tick] next ∧ e = next.missing ("'" ++ wanted ++ "'") true := by
  unfold attributeOf at ran
  rcases bind_error_parts ran with failed | ⟨found, second, named, ran⟩
  · obtain ⟨-, -, other⟩ := expectIdentifier_error failed
    rw [Cursor.current_of_tokens tokens] at other
    cases other
  have first := expectIdentifier_sound named
  obtain ⟨same, left⟩ := List.cons.inj (tokens.symm.trans first.split)
  cases same
  rcases bind_error_parts ran with failed | ⟨_, third, tick, ran⟩
  · rw [runAt_expectToken, if_pos (Cursor.current_of_tokens left.symm)] at failed
    cases failed
  rw [runAt_bind_ok (runAt_current _)] at ran
  split at ran
  · cases ran
  · cases ran
    exact ⟨first.trans (expectToken_sound Token.noConfusion tick), rfl⟩

theorem readAttribute_stuck {name : String} {rest : List Token}
    (tokens : c.tokens = .identifier name :: .tick :: rest)
    (ran : readAttribute.runAt c = (.error e, next)) :
    Stuck false (fun tokens => ∃ value, ValuePhrase c.room tokens value) c e next := by
  have phrase (typeName channel : String) := ValuePhrase.read c.room typeName channel
  unfold readAttribute at ran
  rcases bind_error_parts ran with failed | ⟨typeName, second, ticked, ran⟩
  · obtain ⟨takes, rfl⟩ := attributeOf_error tokens failed
    exact .stop [.identifier "Read", .leftParen, .identifier "c", .rightParen] takes rfl
      (by decide) ⟨_, phrase name "c"⟩
  have head := attributeOf_sound ticked
  rcases bind_error_parts ran with failed | ⟨_, third, opening, ran⟩
  · obtain ⟨rfl, rfl⟩ := expectToken_error failed
    exact .stop [.leftParen, .identifier "c", .rightParen] head rfl (by decide)
      ⟨_, phrase typeName "c"⟩
  have head := head.trans (expectToken_sound Token.noConfusion opening)
  rcases bind_error_parts ran with failed | ⟨channel, fourth, named, ran⟩
  · obtain ⟨rfl, rfl, -⟩ := expectIdentifier_error failed
    exact .stop [.identifier "c", .rightParen] head rfl (by decide) ⟨_, phrase typeName "c"⟩
  have head := head.trans (expectIdentifier_sound named)
  rcases bind_error_parts ran with failed | ⟨_, last, closing, ran⟩
  · obtain ⟨rfl, rfl⟩ := expectToken_error failed
    exact .stop [.rightParen] head rfl (by decide) ⟨_, phrase typeName channel⟩
  · cases ran

theorem writeItem_stuck (syntactic : e.isLimit = false)
    (ran : writeItem.runAt c = (.error e, next)) :
    Stuck true (fun tokens => ∃ item, ItemPhrase c.room tokens item) c e next := by
  unfold writeItem at ran
  rw [atCallStart, runAt_bind_ok (runAt_atNameThen _ c)] at ran
  split at ran
  · next called =>
    obtain ⟨name, rest, tokens⟩ := tokens_of_atNameThen Token.noConfusion called
    refine (call_stuck syntactic tokens ran).mono ?_
    rintro _ ⟨value, phrase⟩
    exact ⟨value, .call phrase⟩
  · rw [runAt_bind_ok (runAt_current c)] at ran
    split at ran
    · next named =>
      rcases bind_error_parts ran with failed | ⟨v, last, _, ran⟩
      · refine (variableReference_stuck named failed).mono ?_
        rintro _ ⟨v, phrase⟩
        exact ⟨.variable v, .reference _ phrase⟩
      · cases ran
    · cases ran
      exact Stuck.stop [.identifier "x"] (.refl c) rfl (by decide)
        ⟨_, .reference _ (.dotted "x" .nil)⟩

theorem writeAttribute_stuck (syntactic : e.isLimit = false) {name : String} {rest : List Token}
    (one : 1 ≤ c.room) (tokens : c.tokens = .identifier name :: .tick :: rest)
    (ran : writeAttribute.runAt c = (.error e, next)) :
    Stuck true (fun tokens => ∃ a, ActionPhrase c.room tokens a) c e next := by
  have levels : c.room = c.room - 1 + 1 := by omega
  have phrase (typeName channel : String) : ActionPhrase c.room
      [.identifier typeName, .tick, .identifier "Write", .leftParen, .identifier channel, .comma,
        .identifier "x", .rightParen] (.writeAttribute typeName channel (.variable ⟨"x", []⟩)) := by
    rw [levels]
    exact ActionPhrase.write typeName channel (.reference _ (.dotted "x" .nil))
  unfold writeAttribute at ran
  rcases bind_error_parts ran with failed | ⟨typeName, second, ticked, ran⟩
  · obtain ⟨takes, rfl⟩ := attributeOf_error tokens failed
    exact .stop [.identifier "Write", .leftParen, .identifier "c", .comma, .identifier "x",
      .rightParen] takes rfl (by decide) ⟨_, phrase name "c"⟩
  have head := attributeOf_sound ticked
  rcases bind_error_parts ran with failed | ⟨_, third, opening, ran⟩
  · obtain ⟨rfl, rfl⟩ := expectToken_error failed
    exact .stop [.leftParen, .identifier "c", .comma, .identifier "x", .rightParen] head rfl
      (by decide) ⟨_, phrase typeName "c"⟩
  have head := head.trans (expectToken_sound Token.noConfusion opening)
  rcases bind_error_parts ran with failed | ⟨channel, fourth, named, ran⟩
  · obtain ⟨rfl, rfl, -⟩ := expectIdentifier_error failed
    exact .stop [.identifier "c", .comma, .identifier "x", .rightParen] head rfl (by decide)
      ⟨_, phrase typeName "c"⟩
  have head := head.trans (expectIdentifier_sound named)
  rcases bind_error_parts ran with failed | ⟨_, fifth, comma, ran⟩
  · obtain ⟨rfl, rfl⟩ := expectToken_error failed
    exact .stop [.comma, .identifier "x", .rightParen] head rfl (by decide)
      ⟨_, phrase typeName channel⟩
  have head := head.trans (expectToken_sound Token.noConfusion comma)
  rcases bind_error_parts ran with failed | ⟨item, sixth, inside, ran⟩
  · obtain ⟨middle, inner, rfl, levels⟩ := nested_error syntactic failed
    refine (writeItem_stuck syntactic inner).closed.sequel [.rightParen] head rfl (by decide) ?_
    rintro tokens ⟨item, phrase⟩
    rw [← head.toKeeps.room, levels]
    exact ⟨_, by simpa using ActionPhrase.write typeName channel phrase⟩
  · obtain ⟨middle, inner, rfl, levels⟩ := nested_sound inside
    obtain ⟨taken, takes, phrase⟩ := writeItem_sound inner
    rcases bind_error_parts ran with failed | ⟨_, last, closing, ran⟩
    · obtain ⟨rfl, rfl⟩ := expectToken_error failed
      refine .stop [.rightParen] (head.trans (Cursor.takes_nested takes)) rfl (by decide) ?_
      rw [← head.toKeeps.room, levels]
      exact ⟨_, by simpa using ActionPhrase.write typeName channel phrase⟩
    · cases ran

theorem rightHandSide_stuck (syntactic : e.isLimit = false)
    (ran : (rightHandSide PrecedenceClimbing.rule).runAt c = (.error e, next)) :
    Stuck false (fun tokens => ∃ value, ValuePhrase c.room tokens value) c e next := by
  unfold rightHandSide at ran
  rw [atAttributeStart, runAt_bind_ok (runAt_atNameThen _ c)] at ran
  split at ran
  · next ticked =>
    obtain ⟨name, rest, tokens⟩ := tokens_of_atNameThen Token.noConfusion ticked
    exact readAttribute_stuck tokens ran
  rw [runAt_bind_ok (runAt_current c)] at ran
  split at ran
  · next value current =>
    rw [boolean, runAt_bind_ok (runAt_current c), current] at ran
    cases ran
  · next content quote current =>
    rw [Parser.string, runAt_bind_ok (runAt_current c), current] at ran
    cases ran
  · rw [atCallStart, runAt_bind_ok (runAt_atNameThen _ c)] at ran
    split at ran
    · next called =>
      obtain ⟨name, rest, tokens⟩ := tokens_of_atNameThen Token.noConfusion called
      refine (call_stuck syntactic tokens ran).mono ?_
      rintro _ ⟨value, phrase⟩
      exact ⟨value, .call phrase⟩
    · have arithmetic := (variableOrArithmetic_eq c).symm.trans ran
      rcases bind_error_parts arithmetic with failed | ⟨tree, last, _, ran⟩
      · refine (rule_stuck syntactic failed).mono ?_
        rintro _ ⟨tree, phrase⟩
        exact ⟨_, .expr phrase⟩
      · cases ran

-- Whether what was passed leaves it open what the text is: nothing, a name, or a name with its
-- assignment sign.
def isOpening : List Token → Bool
  | [] | [.identifier _] | [.identifier _, .assign] => true
  | _ => false

-- How an action stops: what was passed can be completed, and the error is a lexical mismatch as
-- long as nothing is begun.
theorem action_stuck (syntactic : e.isLimit = false) (one : 1 ≤ c.room)
    (ran : (action PrecedenceClimbing.rule).runAt c = (.error e, next)) :
    ∃ taken, c.Takes taken next ∧ (∃ expected, e = next.missing expected (!isOpening taken)) ∧
      Viable (fun tokens => ∃ a, ActionPhrase c.room tokens a) taken := by
  have simple : ActionPhrase c.room [.identifier "x", .assign, .number 0]
      (.assignment "x" (.number 0)) := .assignment "x" (.expr (.term (.unary (.number _ 0))))
  unfold action at ran
  rw [atAttributeStart, runAt_bind_ok (runAt_atNameThen _ c)] at ran
  split at ran
  · next ticked =>
    obtain ⟨name, rest, tokens⟩ := tokens_of_atNameThen Token.noConfusion ticked
    obtain ⟨taken, takes, ⟨expected, rfl⟩, viable⟩ :=
      writeAttribute_stuck syntactic one tokens ran
    have passes : Passes 2 writeAttribute c :=
      (passes_attributeOf_both tokens).bind forward_writeChannel
    unfold Passes at passes
    rw [ran, takes.split, List.length_append] at passes
    have two : 2 ≤ taken.length := by simp only at passes; omega
    have opening : isOpening taken = false := by
      have split := tokens.symm.trans takes.split
      rcases taken with _ | ⟨t, _ | ⟨u, more⟩⟩
      · exact absurd two (Nat.not_succ_le_zero 1)
      · exact absurd two (Nat.not_succ_le_self 1)
      · simp only [List.cons_append, List.cons.injEq] at split
        obtain ⟨rfl, rfl, -⟩ := split
        rfl
    exact ⟨_, takes, ⟨expected, by rw [opening]; rfl⟩, viable⟩
  · rcases bind_error_parts ran with failed | ⟨target, second, named, ran⟩
    · obtain ⟨rfl, rfl, -⟩ := expectIdentifier_error failed
      exact ⟨[], .refl _, ⟨_, rfl⟩, [.identifier "x", .assign, .number 0], by decide, _, simple⟩
    have name := expectIdentifier_sound named
    rw [runAt_bind_ok (runAt_current second)] at ran
    split at ran
    · next current =>
      have head := name.trans (Cursor.takes_advance current Token.noConfusion)
      rw [runAt_bind_ok (runAt_advance second)] at ran
      rcases bind_error_parts ran with failed | ⟨value, last, _, ran⟩
      · obtain ⟨taken, takes, ⟨expected, rfl⟩, suffix, formed, value, phrase⟩ :=
          rightHandSide_stuck syntactic failed
        rw [head.toKeeps.room] at phrase
        refine ⟨_, head.trans takes, ⟨expected, ?_⟩, suffix, formed, _,
          .assignment target phrase⟩
        cases taken <;> rfl
      · cases ran
    · cases ran
      exact ⟨_, name, ⟨_, rfl⟩, [.assign, .number 0], by decide, _,
        .assignment target (.expr (.term (.unary (.number _ 0))))⟩

theorem completeAction_error
    (ran : (completeAction PrecedenceClimbing.rule).runAt c = (.error e, next)) :
    (action PrecedenceClimbing.rule).runAt c = (.error e, next) ∨
      ∃ taken a, c.Takes taken next ∧ ActionPhrase c.room taken a ∧ next.stream.current ≠ .eof ∧
        e = .trailingInput next.stream.current.describe next.stream.currentSpan := by
  unfold completeAction at ran
  rcases bind_error_parts ran with failed | ⟨a, last, parsed, ran⟩
  · exact .inl failed
  · rw [runAt_bind_ok (runAt_get last)] at ran
    split at ran
    · cases ran
    · next more =>
      cases ran
      obtain ⟨taken, takes, phrase⟩ := action_sound parsed
      refine .inr ⟨taken, a, takes, phrase, ?_, rfl⟩
      simpa [Stream.atEnd, Token.isEof] using more

end Actions

end StateActions
