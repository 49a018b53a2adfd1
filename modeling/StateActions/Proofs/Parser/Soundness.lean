import StateActions.Proofs.Parser.Run
import StateActions.Proofs.Phrase

namespace StateActions

open StateActions.Parser

variable {c next : Cursor}

theorem expectToken_sound {token : Token} {committed : Bool} {u : Unit} (inner : token ≠ .eof)
    (ran : (expectToken token committed).runAt c = (.ok u, next)) : c.Takes [token] next := by
  rw [runAt_expectToken] at ran
  split at ran
  · next current =>
    cases ran
    exact Cursor.takes_advance current inner
  · cases ran

theorem expectIdentifier_sound {expected name : String} {committed : Bool}
    (ran : (expectIdentifier expected committed).runAt c = (.ok name, next)) :
    c.Takes [.identifier name] next := by
  unfold expectIdentifier at ran
  rw [runAt_bind_ok (runAt_current c)] at ran
  split at ran
  · next found current =>
    cases ran
    exact Cursor.takes_advance current Token.noConfusion
  · cases ran

-- Success inside a construct means that a level was left for it.
theorem nested_sound {α : Type} {context : String} {inner : Parser α} {a : α}
    (ran : (nested context inner).runAt c = (.ok a, next)) :
    ∃ middle, inner.runAt (c.opened context) = (.ok a, middle) ∧ next = middle.closed ∧
      c.room = (c.opened context).room + 1 := by
  rw [runAt_nested] at ran
  split at ran
  · cases ran
  · next shallow =>
    rcases inside : inner.runAt (c.opened context) with ⟨outcome, middle⟩
    rw [inside] at ran
    cases ran
    refine ⟨middle, rfl, rfl, ?_⟩
    rw [Cursor.room_opened]
    unfold Cursor.room
    omega

theorem path_sound {steps : Nat} {names : List String}
    (ran : (path steps).runAt c = (.ok names, next)) :
    ∃ taken, c.Takes taken next ∧ PathPhrase taken names := by
  induction steps generalizing c names with
  | zero =>
    cases ran
    exact ⟨[], .refl _, .nil⟩
  | succ steps ih =>
    unfold path at ran
    rw [runAt_bind_ok (runAt_current c)] at ran
    split at ran
    · next current =>
      have dot := Cursor.takes_advance current Token.noConfusion
      rw [runAt_bind_ok (runAt_advance c)] at ran
      obtain ⟨name, second, named, ran⟩ := bind_ok_parts ran
      obtain ⟨others, third, rest, ran⟩ := bind_ok_parts ran
      cases ran
      obtain ⟨taken, takes, phrase⟩ := ih rest
      exact ⟨_, dot.trans ((expectIdentifier_sound named).trans takes), .component name phrase⟩
    · cases ran
      exact ⟨[], .refl _, .nil⟩

theorem variableWithin_sound {steps : Nat} {v : Variable}
    (ran : (variableWithin steps).runAt c = (.ok v, next)) :
    ∃ taken, c.Takes taken next ∧ VariablePhrase taken v := by
  unfold variableWithin at ran
  obtain ⟨name, middle, named, ran⟩ := bind_ok_parts ran
  obtain ⟨names, last, rest, ran⟩ := bind_ok_parts ran
  cases ran
  obtain ⟨taken, takes, phrase⟩ := path_sound rest
  exact ⟨_, (expectIdentifier_sound named).trans takes, .dotted name phrase⟩

theorem variableReference_sound {v : Variable}
    (ran : variableReference.runAt c = (.ok v, next)) :
    ∃ taken, c.Takes taken next ∧ VariablePhrase taken v := by
  unfold variableReference at ran
  rw [runAt_bind_ok (runAt_budget c)] at ran
  exact variableWithin_sound ran

theorem boolean_sound {e : Expression} (ran : boolean.runAt c = (.ok e, next)) :
    ∃ value, c.Takes [.boolean value] next ∧ e = .boolean value := by
  unfold boolean at ran
  rw [runAt_bind_ok (runAt_current c)] at ran
  split at ran
  · next value current =>
    cases ran
    exact ⟨value, Cursor.takes_advance current Token.noConfusion, rfl⟩
  · cases ran

theorem number_sound {e : Expression} (ran : number.runAt c = (.ok e, next)) :
    ∃ value, c.Takes [.number value] next ∧ e = .number value := by
  unfold number at ran
  rw [runAt_bind_ok (runAt_current c)] at ran
  split at ran
  · next value current =>
    cases ran
    exact ⟨value, Cursor.takes_advance current Token.noConfusion, rfl⟩
  · cases ran

theorem string_sound {e : Expression} (ran : Parser.string.runAt c = (.ok e, next)) :
    ∃ content quote, c.Takes [.string content quote] next ∧ e = .string content := by
  unfold Parser.string at ran
  rw [runAt_bind_ok (runAt_current c)] at ran
  split at ran
  · next content quote current =>
    cases ran
    exact ⟨content, quote, Cursor.takes_advance current Token.noConfusion, rfl⟩
  · cases ran

section Calls

def TakesArguments (list : Parser (List Expression)) : Prop :=
  ∀ {c next : Cursor} {values : List Expression}, list.runAt c = (.ok values, next) →
    ∃ taken, c.Takes (taken ++ [.rightParen]) next ∧ ArgumentsPhrase c.room taken values

variable {list : Parser (List Expression)}

theorem callWith_sound {e : Expression} (sound : TakesArguments list)
    (ran : (callWith (argumentList list)).runAt c = (.ok e, next)) :
    ∃ taken, c.Takes taken next ∧ CallPhrase c.room taken e := by
  unfold callWith at ran
  obtain ⟨name, second, named, ran⟩ := bind_ok_parts ran
  obtain ⟨_, third, opening, ran⟩ := bind_ok_parts ran
  obtain ⟨values, last, inside, ran⟩ := bind_ok_parts ran
  cases ran
  have head := (expectIdentifier_sound named).trans (expectToken_sound Token.noConfusion opening)
  obtain ⟨middle, listed, rfl, levels⟩ := nested_sound inside
  rw [← head.toKeeps.room, levels]
  unfold argumentList at listed
  rw [runAt_bind_ok (runAt_current _)] at listed
  split at listed
  · next current =>
    cases listed
    have closing := Cursor.takes_nested (Cursor.takes_advance current Token.noConfusion)
    exact ⟨_, head.trans closing, .empty _ name⟩
  · obtain ⟨taken, takes, phrase⟩ := sound listed
    exact ⟨_, head.trans (Cursor.takes_nested takes), .filled name phrase⟩

theorem argumentWith_sound {steps : Nat} {e : Expression} (sound : TakesArguments list)
    (ran : (argumentWith steps list).runAt c = (.ok e, next)) :
    ∃ taken, c.Takes taken next ∧ ArgumentPhrase c.room taken e := by
  unfold argumentWith at ran
  rw [runAt_bind_ok (runAt_current c)] at ran
  split at ran
  · rw [atCallStart, runAt_bind_ok (runAt_atNameThen _ c)] at ran
    split at ran
    · obtain ⟨taken, takes, phrase⟩ := callWith_sound sound ran
      exact ⟨taken, takes, .call phrase⟩
    · obtain ⟨v, last, found, ran⟩ := bind_ok_parts ran
      cases ran
      obtain ⟨taken, takes, phrase⟩ := variableWithin_sound found
      exact ⟨taken, takes, .reference _ phrase⟩
  · obtain ⟨value, takes, rfl⟩ := number_sound ran
    exact ⟨_, takes, .number _ value⟩
  · obtain ⟨content, quote, takes, rfl⟩ := string_sound ran
    exact ⟨_, takes, .string _ content quote⟩
  · obtain ⟨value, takes, rfl⟩ := boolean_sound ran
    exact ⟨_, takes, .boolean _ value⟩
  · cases ran

theorem arguments_sound (steps : Nat) : TakesArguments (arguments steps) := by
  induction steps with
  | zero => intro c next values ran; cases ran
  | succ steps ih =>
    intro c next values ran
    unfold arguments at ran
    obtain ⟨first, second, head, ran⟩ := bind_ok_parts ran
    obtain ⟨taken, takes, phrase⟩ := argumentWith_sound ih head
    rw [runAt_bind_ok (runAt_current _)] at ran
    split at ran
    · next current =>
      have comma := Cursor.takes_advance current Token.noConfusion
      rw [runAt_bind_ok (runAt_advance _)] at ran
      obtain ⟨others, last, tail, ran⟩ := bind_ok_parts ran
      cases ran
      obtain ⟨more, takesMore, rest⟩ := ih tail
      rw [comma.toKeeps.room, takes.toKeeps.room] at rest
      refine ⟨taken ++ .comma :: more, ?_, .more phrase rest⟩
      simpa using takes.trans (comma.trans takesMore)
    · next current =>
      cases ran
      exact ⟨taken, takes.trans (Cursor.takes_advance current Token.noConfusion), .last phrase⟩
    · cases ran

theorem call_sound {e : Expression} (ran : call.runAt c = (.ok e, next)) :
    ∃ taken, c.Takes taken next ∧ CallPhrase c.room taken e := by
  unfold call at ran
  rw [runAt_bind_ok (runAt_budget c)] at ran
  exact callWith_sound (arguments_sound _) ran

end Calls

section Arithmetic

open PrecedenceClimbing

-- Steps that last for the tokens left, with one more for an operand that has yet to be looked at.
-- Without enough steps an operand could end too early and its operator bind to the wrong tree.
def EnoughSteps (steps : Nat) (c : Cursor) : Prop := 2 * c.tokens.length + 1 ≤ steps

theorem length_lt_of_takes {taken : List Token} (takes : c.Takes taken next)
    (some : taken ≠ []) : next.tokens.length < c.tokens.length := by
  have positive := List.length_pos_iff.mpr some
  rw [takes.split, List.length_append]
  omega

theorem ArithmeticStart.ne_nil {tokens : List Token} (start : ArithmeticStart tokens) :
    tokens ≠ [] := by
  cases start <;> exact List.cons_ne_nil _ _

-- What `steps` steps find: operands are unary phrases, a climb extends the phrase of its left
-- operand, and both end where nothing that binds tightly enough goes on.
structure ClimbsSoundly (steps : Nat) : Prop where
  unary {c next : Cursor} {committed : Bool} {tree : Arithmetic} (enough : EnoughSteps steps c)
    (ran : (unary steps committed).runAt c = (.ok tree, next)) :
    ∃ taken, c.Takes taken next ∧ ArithmeticPhrase c.room 3 taken tree
  binary {c next : Cursor} {floor : Nat} {committed : Bool} {tree : Arithmetic}
    (positive : 1 ≤ floor) (top : floor ≤ 3) (enough : 2 * c.tokens.length + 2 ≤ steps)
    (ran : (binary steps floor committed).runAt c = (.ok tree, next)) :
    ∃ taken, c.Takes taken next ∧ ArithmeticPhrase c.room floor taken tree ∧
      Stops floor next.tokens
  climb {c next : Cursor} {floor level : Nat} {left tree : Arithmetic} {before : List Token}
    (positive : 1 ≤ floor) (below : floor ≤ level) (top : level ≤ 3)
    (enough : EnoughSteps steps c)
    (phrase : ArithmeticPhrase c.room level before left) (stops : Stops (level + 1) c.tokens)
    (ran : (climb steps floor left).runAt c = (.ok tree, next)) :
    ∃ taken, c.Takes taken next ∧ ArithmeticPhrase c.room floor (before ++ taken) tree ∧
      Stops floor next.tokens

theorem unary_step {steps : Nat} (ih : ClimbsSoundly steps) {committed : Bool}
    {tree : Arithmetic} (enough : EnoughSteps (steps + 1) c)
    (ran : (unary (steps + 1) committed).runAt c = (.ok tree, next)) :
    ∃ taken, c.Takes taken next ∧ ArithmeticPhrase c.room 3 taken tree := by
  unfold EnoughSteps at enough
  rw [unary, runAt_bind_ok (runAt_current c)] at ran
  split at ran
  · next current =>
    have sign := Cursor.takes_advance current Token.noConfusion
    have shorter := length_lt_of_takes sign (List.cons_ne_nil _ _)
    rw [runAt_bind_ok (runAt_advance c)] at ran
    obtain ⟨operand, last, inside, ran⟩ := bind_ok_parts ran
    cases ran
    obtain ⟨middle, inner, rfl, levels⟩ := nested_sound inside
    obtain ⟨taken, takes, phrase⟩ := ih.unary
      (by simp only [EnoughSteps, Cursor.tokens_opened]; omega) inner
    rw [← sign.toKeeps.room, levels]
    exact ⟨_, sign.trans (Cursor.takes_nested takes), .minus phrase⟩
  · next value current =>
    cases ran
    exact ⟨_, Cursor.takes_advance current Token.noConfusion, .number _ value⟩
  · obtain ⟨v, last, found, ran⟩ := bind_ok_parts ran
    cases ran
    obtain ⟨taken, takes, phrase⟩ := variableWithin_sound found
    exact ⟨taken, takes, .reference _ phrase⟩
  · next current =>
    have opening := Cursor.takes_advance current Token.noConfusion
    have shorter := length_lt_of_takes opening (List.cons_ne_nil _ _)
    rw [runAt_bind_ok (runAt_advance c)] at ran
    obtain ⟨inner, second, inside, ran⟩ := bind_ok_parts ran
    obtain ⟨_, third, closing, ran⟩ := bind_ok_parts ran
    cases ran
    obtain ⟨middle, grouped, rfl, levels⟩ := nested_sound inside
    obtain ⟨taken, takes, phrase, -⟩ := ih.binary (Nat.le_refl 1) (by omega)
      (by simp only [Cursor.tokens_opened]; omega) grouped
    rw [← opening.toKeeps.room, levels]
    refine ⟨_, opening.trans ((Cursor.takes_nested takes).trans
      (expectToken_sound Token.noConfusion closing)), .group phrase⟩
  · cases ran

theorem climb_step {steps : Nat} (ih : ClimbsSoundly steps) {floor level : Nat}
    {left tree : Arithmetic} {before : List Token} (positive : 1 ≤ floor) (below : floor ≤ level)
    (top : level ≤ 3) (enough : EnoughSteps (steps + 1) c)
    (phrase : ArithmeticPhrase c.room level before left) (stops : Stops (level + 1) c.tokens)
    (ran : (climb (steps + 1) floor left).runAt c = (.ok tree, next)) :
    ∃ taken, c.Takes taken next ∧ ArithmeticPhrase c.room floor (before ++ taken) tree ∧
      Stops floor next.tokens := by
  unfold EnoughSteps at enough
  rw [climb, runAt_bind_ok (runAt_current c)] at ran
  have whole := phrase.lower positive below top
  split at ran
  · next none =>
    cases ran
    refine ⟨[], .refl _, by simpa using whole, ?_⟩
    intro o rest tokens
    rw [Cursor.current_of_tokens tokens, Operator.ofToken?_token] at none
    cases none
  · next operator found =>
    have current := Operator.token_of_ofToken? found
    obtain ⟨rest, tokens⟩ := Cursor.tokens_of_current current operator.token_ne_eof
    split at ran
    · next loose =>
      cases ran
      refine ⟨[], .refl _, by simpa using whole, ?_⟩
      intro o others same
      have equal := (List.cons.inj (tokens.symm.trans same)).1
      have operators := congrArg Operator.ofToken? equal
      rw [Operator.ofToken?_token, Operator.ofToken?_token] at operators
      cases operators
      exact loose
    · next tight =>
      have within := stops operator rest tokens
      have sign := Cursor.takes_advance current operator.token_ne_eof
      have shorter := length_lt_of_takes sign (List.cons_ne_nil _ _)
      have small := operator.precedence_cases
      rw [runAt_bind_ok (runAt_advance c)] at ran
      obtain ⟨right, middle, operand, ran⟩ := bind_ok_parts ran
      obtain ⟨taken, takes, rightPhrase, ends⟩ := ih.binary (by omega) (by omega) (by omega) operand
      have less := length_lt_of_takes takes rightPhrase.start.ne_nil
      -- The operator joins the left operand at its own stratum, where the climb goes on.
      have leftPhrase := phrase.lower (by omega) (Nat.le_of_lt_succ within) top
      have rooms : middle.room = c.room := takes.toKeeps.room.trans sign.toKeeps.room
      rw [sign.toKeeps.room] at rightPhrase
      have joined := ArithmeticPhrase.binary operator leftPhrase rightPhrase
      rw [← rooms] at joined
      obtain ⟨more, takesMore, result, ends⟩ := ih.climb positive (by omega) (by omega)
        (by unfold EnoughSteps; omega) joined ends ran
      rw [rooms] at result
      exact ⟨_, sign.trans (takes.trans takesMore), by simpa using result, ends⟩

theorem climbsSoundly (steps : Nat) : ClimbsSoundly steps := by
  induction steps with
  | zero =>
    refine ⟨?_, ?_, ?_⟩
    · intro _ _ _ _ enough; unfold EnoughSteps at enough; omega
    · intro _ _ _ _ _ _ _ enough; omega
    · intro _ _ _ _ _ _ _ _ _ _ enough; unfold EnoughSteps at enough; omega
  | succ steps ih =>
    refine ⟨unary_step ih, ?_, climb_step ih⟩
    intro c next floor committed tree positive top enough ran
    rw [binary] at ran
    obtain ⟨left, middle, operand, ran⟩ := bind_ok_parts ran
    obtain ⟨first, takes, phrase⟩ := ih.unary (by unfold EnoughSteps; omega) operand
    have shorter := length_lt_of_takes takes phrase.start.ne_nil
    rw [← takes.toKeeps.room] at phrase ⊢
    obtain ⟨more, takesMore, result, ends⟩ := ih.climb positive top (Nat.le_refl 3)
      (by unfold EnoughSteps; omega) phrase ((stops_above _).weaken (by omega)) ran
    exact ⟨_, takes.trans takesMore, result, ends⟩

theorem rule_sound {tree : Arithmetic}
    (ran : PrecedenceClimbing.rule.parse.runAt c = (.ok tree, next)) :
    ∃ taken, c.Takes taken next ∧ ArithmeticPhrase c.room 1 taken tree ∧ Stops 1 next.tokens := by
  unfold PrecedenceClimbing.rule at ran
  rw [runAt_bind_ok (runAt_budget c)] at ran
  exact (climbsSoundly _).binary (Nat.le_refl 1) (by omega) (Nat.le_refl _) ran

end Arithmetic

section Actions

theorem attributeOf_sound {wanted typeName : String}
    (ran : (attributeOf wanted).runAt c = (.ok typeName, next)) :
    c.Takes [.identifier typeName, .tick, .identifier wanted] next := by
  unfold attributeOf at ran
  obtain ⟨name, second, named, ran⟩ := bind_ok_parts ran
  obtain ⟨_, third, tick, ran⟩ := bind_ok_parts ran
  rw [runAt_bind_ok (runAt_current _)] at ran
  split at ran
  · next same =>
    cases ran
    have current : third.stream.current = .identifier wanted := by
      cases token : third.stream.current <;> simp_all [Token.isNamed]
    exact (expectIdentifier_sound named).trans ((expectToken_sound Token.noConfusion tick).trans
      (Cursor.takes_advance current Token.noConfusion))
  · cases ran

theorem readAttribute_sound {e : Expression} (ran : readAttribute.runAt c = (.ok e, next)) :
    ∃ taken, c.Takes taken next ∧ ValuePhrase c.room taken e := by
  unfold readAttribute at ran
  obtain ⟨typeName, second, ticked, ran⟩ := bind_ok_parts ran
  obtain ⟨_, third, opening, ran⟩ := bind_ok_parts ran
  obtain ⟨channel, fourth, named, ran⟩ := bind_ok_parts ran
  obtain ⟨_, last, closing, ran⟩ := bind_ok_parts ran
  cases ran
  have takes := (attributeOf_sound ticked).trans
    ((expectToken_sound Token.noConfusion opening).trans
      ((expectIdentifier_sound named).trans (expectToken_sound Token.noConfusion closing)))
  exact ⟨_, takes, .read _ typeName channel⟩

theorem writeItem_sound {e : Expression} (ran : writeItem.runAt c = (.ok e, next)) :
    ∃ taken, c.Takes taken next ∧ ItemPhrase c.room taken e := by
  unfold writeItem at ran
  rw [atCallStart, runAt_bind_ok (runAt_atNameThen _ c)] at ran
  split at ran
  · obtain ⟨taken, takes, phrase⟩ := call_sound ran
    exact ⟨taken, takes, .call phrase⟩
  · rw [runAt_bind_ok (runAt_current c)] at ran
    split at ran
    · obtain ⟨v, last, found, ran⟩ := bind_ok_parts ran
      cases ran
      obtain ⟨taken, takes, phrase⟩ := variableReference_sound found
      exact ⟨taken, takes, .reference _ phrase⟩
    · cases ran

theorem writeAttribute_sound {a : Action} (ran : writeAttribute.runAt c = (.ok a, next)) :
    ∃ taken, c.Takes taken next ∧ ActionPhrase c.room taken a := by
  unfold writeAttribute at ran
  obtain ⟨typeName, second, ticked, ran⟩ := bind_ok_parts ran
  obtain ⟨_, third, opening, ran⟩ := bind_ok_parts ran
  obtain ⟨channel, fourth, named, ran⟩ := bind_ok_parts ran
  obtain ⟨_, fifth, comma, ran⟩ := bind_ok_parts ran
  obtain ⟨item, sixth, inside, ran⟩ := bind_ok_parts ran
  obtain ⟨_, last, closing, ran⟩ := bind_ok_parts ran
  cases ran
  have head := (attributeOf_sound ticked).trans
    ((expectToken_sound Token.noConfusion opening).trans
      ((expectIdentifier_sound named).trans (expectToken_sound Token.noConfusion comma)))
  obtain ⟨middle, inner, rfl, levels⟩ := nested_sound inside
  obtain ⟨taken, takes, phrase⟩ := writeItem_sound inner
  have whole := head.trans ((Cursor.takes_nested takes).trans
    (expectToken_sound Token.noConfusion closing))
  rw [← head.toKeeps.room, levels]
  exact ⟨_, whole, .write typeName channel phrase⟩

theorem loneVariable_sound {found : Option Variable}
    (ran : loneVariable.runAt c = (.ok found, next)) :
    (∃ v taken, found = some v ∧ c.Takes taken next ∧ VariablePhrase taken v) ∨
      (found = none ∧ c.Takes [] next) := by
  unfold loneVariable at ran
  rw [runAt_bind_ok (runAt_current c)] at ran
  split at ran
  · cases found with
    | some v =>
      obtain ⟨taken, takes, phrase⟩ := variableReference_sound (attempt_some ran).1
      exact .inl ⟨v, taken, rfl, takes, phrase⟩
    | none => exact .inr ⟨rfl, attempt_none steady_variableReference ran⟩
  · cases ran
    exact .inr ⟨rfl, .refl _⟩

theorem rightHandSide_sound {e : Expression}
    (ran : (rightHandSide PrecedenceClimbing.rule).runAt c = (.ok e, next)) :
    ∃ taken, c.Takes taken next ∧ ValuePhrase c.room taken e := by
  unfold rightHandSide at ran
  rw [atAttributeStart, runAt_bind_ok (runAt_atNameThen _ c)] at ran
  split at ran
  · exact readAttribute_sound ran
  rw [runAt_bind_ok (runAt_current c)] at ran
  split at ran
  · obtain ⟨value, takes, rfl⟩ := boolean_sound ran
    exact ⟨_, takes, .boolean _ value⟩
  · obtain ⟨content, quote, takes, rfl⟩ := string_sound ran
    exact ⟨_, takes, .string _ content quote⟩
  · rw [atCallStart, runAt_bind_ok (runAt_atNameThen _ c)] at ran
    split at ran
    · obtain ⟨taken, takes, phrase⟩ := call_sound ran
      exact ⟨taken, takes, .call phrase⟩
    · obtain ⟨found, middle, lone, ran⟩ := bind_ok_parts ran
      rcases loneVariable_sound lone with ⟨v, taken, rfl, takes, phrase⟩ | ⟨rfl, restored⟩
      · cases ran
        exact ⟨taken, takes, .expr (.term (.unary (.reference _ phrase)))⟩
      · obtain ⟨tree, last, climbed, ran⟩ := bind_ok_parts ran
        cases ran
        obtain ⟨taken, takes, phrase, -⟩ := rule_sound climbed
        rw [restored.toKeeps.room] at phrase
        exact ⟨_, restored.trans takes, .expr phrase⟩

theorem action_sound {a : Action}
    (ran : (action PrecedenceClimbing.rule).runAt c = (.ok a, next)) :
    ∃ taken, c.Takes taken next ∧ ActionPhrase c.room taken a := by
  unfold action at ran
  rw [atAttributeStart, runAt_bind_ok (runAt_atNameThen _ c)] at ran
  split at ran
  · exact writeAttribute_sound ran
  · obtain ⟨target, second, named, ran⟩ := bind_ok_parts ran
    have name := expectIdentifier_sound named
    rw [runAt_bind_ok (runAt_current second)] at ran
    split at ran
    · next current =>
      have assign := Cursor.takes_advance current Token.noConfusion
      rw [runAt_bind_ok (runAt_advance second)] at ran
      obtain ⟨value, last, right, ran⟩ := bind_ok_parts ran
      cases ran
      obtain ⟨taken, takes, phrase⟩ := rightHandSide_sound right
      rw [assign.toKeeps.room, name.toKeeps.room] at phrase
      exact ⟨_, name.trans (assign.trans takes), .assignment target phrase⟩
    · cases ran

theorem completeAction_sound {a : Action}
    (ran : (completeAction PrecedenceClimbing.rule).runAt c = (.ok a, next)) :
    ∃ taken, c.Takes taken next ∧ next.stream.current = .eof ∧ ActionPhrase c.room taken a := by
  unfold completeAction at ran
  obtain ⟨parsed, last, found, ran⟩ := bind_ok_parts ran
  rw [runAt_bind_ok (runAt_get last)] at ran
  split at ran
  · next atEnd =>
    cases ran
    obtain ⟨taken, takes, phrase⟩ := action_sound found
    exact ⟨taken, takes, by simpa [Stream.atEnd, Token.isEof] using atEnd, phrase⟩
  · cases ran

end Actions

end StateActions
