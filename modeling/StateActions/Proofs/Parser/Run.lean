import StateActions.Grammar.Production

namespace StateActions

namespace Cursor

-- The tokens that are left, the end mark included. Places do not matter to any production.
def tokens (c : Cursor) : List Token := c.stream.ahead.map (·.token)

def room (c : Cursor) : Nat := c.maxDepth - c.depth

-- What a complete step leaves alone: the input as a whole, the level of nesting and the mark of a
-- breakdown. How far the step went is told by `tokens`.
structure Keeps (c next : Cursor) : Prop where
  all : next.stream.all = c.stream.all
  endSpan : next.stream.endSpan = c.stream.endSpan
  depth : next.depth = c.depth
  maxDepth : next.maxDepth = c.maxDepth
  crashed : next.crashed = c.crashed

structure Takes (c : Cursor) (taken : List Token) (next : Cursor) : Prop extends Keeps c next where
  split : c.tokens = taken ++ next.tokens

theorem Keeps.refl (c : Cursor) : Keeps c c := ⟨rfl, rfl, rfl, rfl, rfl⟩

theorem Keeps.trans {c middle next : Cursor} (first : Keeps c middle) (second : Keeps middle next) :
    Keeps c next :=
  ⟨second.all.trans first.all, second.endSpan.trans first.endSpan,
    second.depth.trans first.depth, second.maxDepth.trans first.maxDepth,
    second.crashed.trans first.crashed⟩

theorem Keeps.room {c next : Cursor} (keeps : Keeps c next) : next.room = c.room := by
  simp only [Cursor.room, keeps.depth, keeps.maxDepth]

theorem Takes.refl (c : Cursor) : Takes c [] c := ⟨.refl c, rfl⟩

theorem Takes.trans {c middle next : Cursor} {left right : List Token}
    (first : Takes c left middle) (second : Takes middle right next) :
    Takes c (left ++ right) next :=
  ⟨first.toKeeps.trans second.toKeeps, by rw [first.split, second.split, List.append_assoc]⟩

theorem current_eq (c : Cursor) : c.stream.current = c.tokens.head?.getD .eof := by
  simp [Stream.current, Stream.current?, Cursor.tokens, List.head?_map]

theorem peek_eq (c : Cursor) (n : Nat) : c.stream.peek n = (c.tokens[n]?).getD .eof := by
  simp [Stream.peek, Stream.peek?, Cursor.tokens]

theorem current_of_tokens {c : Cursor} {t : Token} {rest : List Token}
    (tokens : c.tokens = t :: rest) : c.stream.current = t := by
  rw [current_eq, tokens]
  rfl

-- Only a token that is there can be seen, so seeing anything but the end mark tells the tokens.
theorem tokens_of_current {c : Cursor} {t : Token} (current : c.stream.current = t)
    (inner : t ≠ .eof) : ∃ rest, c.tokens = t :: rest := by
  rw [current_eq] at current
  cases tokens : c.tokens with
  | nil => rw [tokens] at current; exact absurd current.symm inner
  | cons head tail => rw [tokens] at current; exact ⟨tail, congrArg (· :: tail) current⟩

theorem keeps_advance (c : Cursor) : Keeps c c.advance := by
  refine ⟨Stream.all_advance _, ?_, rfl, rfl, rfl⟩
  unfold Cursor.advance Stream.advance
  split
  · rfl
  · split <;> rfl

theorem tokens_advance {c : Cursor} {t : Token} {rest : List Token}
    (tokens : c.tokens = t :: rest) (inner : t ≠ .eof) : c.advance.tokens = rest := by
  obtain ⟨head, tail, ahead, rfl, rfl⟩ := List.map_eq_cons_iff.mp tokens
  have passes : c.stream.advance.ahead = tail := by
    unfold Stream.advance
    simp [ahead, Token.isEof, inner]
  simp only [Cursor.tokens, Cursor.advance, passes]

theorem takes_advance {c : Cursor} {t : Token} (current : c.stream.current = t)
    (inner : t ≠ .eof) : Takes c [t] c.advance := by
  obtain ⟨rest, tokens⟩ := tokens_of_current current inner
  exact ⟨keeps_advance c, by rw [tokens, tokens_advance tokens inner]; rfl⟩

@[simp] theorem stream_opened (c : Cursor) (context : String) :
    (c.opened context).stream = c.stream := by
  unfold opened; simp only; split <;> rfl

@[simp] theorem depth_opened (c : Cursor) (context : String) :
    (c.opened context).depth = c.depth + 1 := by
  unfold opened; simp only; split <;> rfl

@[simp] theorem maxDepth_opened (c : Cursor) (context : String) :
    (c.opened context).maxDepth = c.maxDepth := by
  unfold opened; simp only; split <;> rfl

@[simp] theorem crashed_opened (c : Cursor) (context : String) :
    (c.opened context).crashed = c.crashed := by
  unfold opened; simp only; split <;> rfl

@[simp] theorem tokens_opened (c : Cursor) (context : String) :
    (c.opened context).tokens = c.tokens := by
  simp only [Cursor.tokens, stream_opened]

@[simp] theorem stream_closed (c : Cursor) : c.closed.stream = c.stream := by
  unfold closed; simp only; split <;> rfl

@[simp] theorem depth_closed (c : Cursor) : c.closed.depth = c.depth - 1 := by
  unfold closed; simp only; split <;> rfl

@[simp] theorem maxDepth_closed (c : Cursor) : c.closed.maxDepth = c.maxDepth := by
  unfold closed; simp only; split <;> rfl

@[simp] theorem crashed_closed (c : Cursor) : c.closed.crashed = c.crashed := by
  unfold closed; simp only; split <;> rfl

@[simp] theorem tokens_closed (c : Cursor) : c.closed.tokens = c.tokens := by
  simp only [Cursor.tokens, stream_closed]

theorem room_opened (c : Cursor) (context : String) : (c.opened context).room = c.room - 1 := by
  simp only [Cursor.room, depth_opened, maxDepth_opened]
  omega

theorem keeps_nested {c next : Cursor} {context : String} (keeps : Keeps (c.opened context) next) :
    Keeps c next.closed := by
  refine ⟨?_, ?_, ?_, ?_, ?_⟩
  · rw [stream_closed, keeps.all, stream_opened]
  · rw [stream_closed, keeps.endSpan, stream_opened]
  · rw [depth_closed, keeps.depth, depth_opened, Nat.add_sub_cancel]
  · rw [maxDepth_closed, keeps.maxDepth, maxDepth_opened]
  · rw [crashed_closed, keeps.crashed, crashed_opened]

theorem takes_nested {c next : Cursor} {context : String} {taken : List Token}
    (takes : Takes (c.opened context) taken next) : Takes c taken next.closed :=
  ⟨keeps_nested takes.toKeeps, by rw [← tokens_opened c context, takes.split, tokens_closed]⟩

end Cursor

namespace Parser

variable {α β : Type}

@[simp] theorem runAt_pure (a : α) (c : Cursor) : (pure a : Parser α).runAt c = (.ok a, c) := rfl

theorem runAt_bind (p : Parser α) (f : α → Parser β) (c : Cursor) :
    (p >>= f).runAt c = match p.runAt c with
      | (.ok a, next) => (f a).runAt next
      | (.error e, next) => (.error e, next) := by
  unfold runAt
  simp only [ExceptT.run_bind, StateT.run_bind]
  show (_ : Id _) = _
  rcases StateT.run (ExceptT.run p) c with ⟨outcome, next⟩
  cases outcome <;> rfl

theorem runAt_bind_ok {p : Parser α} {c next : Cursor} {a : α} (ran : p.runAt c = (.ok a, next))
    (f : α → Parser β) : (p >>= f).runAt c = (f a).runAt next := by
  rw [runAt_bind, ran]

theorem runAt_bind_error {p : Parser α} {c next : Cursor} {e : ParseError}
    (ran : p.runAt c = (.error e, next)) (f : α → Parser β) :
    (p >>= f).runAt c = (.error e, next) := by
  rw [runAt_bind, ran]

theorem bind_ok_parts {p : Parser α} {f : α → Parser β} {c next : Cursor} {b : β}
    (ran : (p >>= f).runAt c = (.ok b, next)) :
    ∃ a middle, p.runAt c = (.ok a, middle) ∧ (f a).runAt middle = (.ok b, next) := by
  rw [runAt_bind] at ran
  rcases first : p.runAt c with ⟨outcome, middle⟩
  rw [first] at ran
  cases outcome with
  | ok a => exact ⟨a, middle, rfl, ran⟩
  | error e => simp at ran

@[simp] theorem runAt_current (c : Cursor) : current.runAt c = (.ok c.stream.current, c) := rfl

@[simp] theorem runAt_get (c : Cursor) : (get : Parser Cursor).runAt c = (.ok c, c) := rfl

@[simp] theorem runAt_advance (c : Cursor) : advance.runAt c = (.ok (), c.advance) := rfl

@[simp] theorem runAt_fail (error : Cursor → ParseError) (c : Cursor) :
    (fail error : Parser α).runAt c = (.error (error c), c) := rfl

@[simp] theorem runAt_budget (c : Cursor) :
    budget.runAt c = (.ok (2 * c.tokens.length + 2), c) := by
  simp only [Cursor.tokens, List.length_map]
  rfl

@[simp] theorem runAt_atNameThen (token : Token) (c : Cursor) :
    (atNameThen token).runAt c =
      (.ok (c.stream.current.isIdentifier && c.stream.peek 1 = token), c) := rfl

theorem runAt_expectToken (token : Token) (committed : Bool) (c : Cursor) :
    (expectToken token committed).runAt c =
      if c.stream.current = token then (.ok (), c.advance)
      else (.error (c.missing token.describe committed), c) := by
  unfold expectToken
  rw [runAt_bind_ok (runAt_current c)]
  split <;> rfl

theorem runAt_enter (context : String) (c : Cursor) :
    (enter context).runAt c =
      if c.depth ≥ c.maxDepth then (.error c.tooDeep, c) else (.ok (), c.opened context) := by
  unfold enter
  rw [runAt_bind_ok (runAt_get c)]
  split <;> rfl

theorem runAt_lift (p : Parser α) (c : Cursor) :
    Parser.runAt (ExceptT.lift (ExceptT.run p)) c = (.ok (p.runAt c).1, (p.runAt c).2) := rfl

theorem runAt_nested (context : String) (inner : Parser α) (c : Cursor) :
    (nested context inner).runAt c =
      if c.depth ≥ c.maxDepth then (.error c.tooDeep, c)
      else
        ((inner.runAt (c.opened context)).1, (inner.runAt (c.opened context)).2.closed) := by
  unfold nested
  split
  · next deep =>
    exact runAt_bind_error (by rw [runAt_enter, if_pos deep]) _
  · next shallow =>
    rw [runAt_bind_ok (by rw [runAt_enter, if_neg shallow])]
    rw [runAt_bind_ok (runAt_lift inner _)]
    rcases inner.runAt (c.opened context) with ⟨outcome, next⟩
    cases outcome <;> rfl

theorem runAt_attempt (p : Parser α) (wanted : Cursor → Bool) (c : Cursor) :
    (attempt p wanted).runAt c = match p.runAt c with
      | (.ok a, next) =>
        if wanted next then (.ok (some a), next) else (.ok none, { next with stream := c.stream })
      | (.error _, next) => (.ok none, { next with stream := c.stream }) := by
  unfold attempt
  rw [runAt_bind_ok (runAt_get c)]
  rw [runAt_bind_ok (runAt_lift p c)]
  rcases p.runAt c with ⟨outcome, next⟩
  cases outcome with
  | error e => rfl
  | ok a =>
    simp only
    rw [runAt_bind_ok (runAt_get next)]
    split <;> rfl

def Steady (p : Parser α) : Prop := ∀ c : Cursor, c.Keeps (p.runAt c).2

theorem Steady.bind {p : Parser α} {f : α → Parser β} (first : Steady p)
    (second : ∀ a, Steady (f a)) : Steady (p >>= f) := by
  intro c
  have keeps := first c
  rcases ran : p.runAt c with ⟨outcome, middle⟩
  rw [ran] at keeps
  cases outcome with
  | ok a => rw [runAt_bind_ok ran]; exact keeps.trans (second a middle)
  | error e => rw [runAt_bind_error ran]; exact keeps

theorem steady_pure (a : α) : Steady (pure a : Parser α) := fun c => .refl c

theorem steady_fail (error : Cursor → ParseError) : Steady (fail error : Parser α) :=
  fun c => .refl c

theorem steady_current : Steady current := fun c => .refl c

theorem steady_advance : Steady advance := fun c => c.keeps_advance

theorem steady_budget : Steady budget := fun c => .refl c

theorem steady_expectIdentifier (expected : String) (committed : Bool) :
    Steady (expectIdentifier expected committed) := by
  refine steady_current.bind fun token => ?_
  cases token with
  | identifier name => exact steady_advance.bind fun _ => steady_pure name
  | _ => exact steady_fail _

theorem steady_path (steps : Nat) : Steady (path steps) := by
  induction steps with
  | zero => exact steady_pure []
  | succ steps ih =>
    refine steady_current.bind fun token => ?_
    split
    · refine steady_advance.bind fun _ => (steady_expectIdentifier _ _).bind fun name => ?_
      exact ih.bind fun names => steady_pure (name :: names)
    · exact steady_pure []

theorem steady_variableReference : Steady variableReference := by
  refine steady_budget.bind fun steps => (steady_expectIdentifier _ _).bind fun name => ?_
  exact (steady_path steps).bind fun names => steady_pure (Variable.mk name names)

-- An attempt that is given up leaves nothing behind.
theorem attempt_none {p : Parser α} (steady : Steady p) {wanted : Cursor → Bool} {c next : Cursor}
    (ran : (attempt p wanted).runAt c = (.ok none, next)) : c.Takes [] next := by
  have keeps := steady c
  rw [runAt_attempt] at ran
  rcases outcome : p.runAt c with ⟨result, middle⟩
  rw [outcome] at ran keeps
  cases result with
  | ok a =>
    simp only at ran
    split at ran
    · cases ran
    · cases ran
      exact ⟨⟨rfl, rfl, keeps.depth, keeps.maxDepth, keeps.crashed⟩, rfl⟩
  | error e =>
    cases ran
    exact ⟨⟨rfl, rfl, keeps.depth, keeps.maxDepth, keeps.crashed⟩, rfl⟩

theorem attempt_some {p : Parser α} {wanted : Cursor → Bool} {c next : Cursor} {a : α}
    (ran : (attempt p wanted).runAt c = (.ok (some a), next)) :
    p.runAt c = (.ok a, next) ∧ wanted next = true := by
  rw [runAt_attempt] at ran
  rcases outcome : p.runAt c with ⟨result, middle⟩
  rw [outcome] at ran
  cases result with
  | ok found =>
    simp only at ran
    split at ran
    · next here => cases ran; exact ⟨rfl, here⟩
    · cases ran
  | error e => cases ran

theorem attempt_total (p : Parser α) (wanted : Cursor → Bool) (c : Cursor) :
    ∃ found next, (attempt p wanted).runAt c = (.ok found, next) := by
  rw [runAt_attempt]
  rcases p.runAt c with ⟨result, middle⟩
  cases result with
  | ok found =>
    simp only
    split <;> exact ⟨_, _, rfl⟩
  | error e => exact ⟨_, _, rfl⟩

end Parser

end StateActions
