import StateActions.Proofs.Parser.Soundness

namespace StateActions

open StateActions.Parser

variable {α β : Type}

-- From `c` the step goes on as `goal` does from the place where `rest` is left. It may only fail to
-- do so for want of room, when fewer than `need` levels are left, and then with the nesting limit.
def Leads (p : Parser α) (c : Cursor) (need : Nat) (goal : Parser α) (rest : List Token) : Prop :=
  (∃ next, p.runAt c = goal.runAt next ∧ c.Keeps next ∧ next.tokens = rest) ∨
    (c.room < need ∧ ∃ actual span next,
      p.runAt c = (.error (.limitExceeded .nestingDepth actual c.maxDepth span), next))

namespace Leads

variable {p goal : Parser α} {c : Cursor} {need : Nat} {rest middle : List Token}

theorem stay (left : c.tokens = rest) : Leads p c need p rest := .inl ⟨c, rfl, .refl c, left⟩

theorem of_eq {q : Parser α} (same : p.runAt c = q.runAt c) (leads : Leads q c need goal rest) :
    Leads p c need goal rest := by
  unfold Leads at leads ⊢
  rw [same]
  exact leads

theorem trans {q : Parser α} (first : Leads p c need q middle)
    (second : ∀ m, c.Keeps m → m.tokens = middle → Leads q m need goal rest) :
    Leads p c need goal rest := by
  rcases first with ⟨m, ran, keeps, tokens⟩ | limited
  · rcases second m keeps tokens with
      ⟨next, ran', keeps', tokens'⟩ | ⟨tight, actual, span, next, ran'⟩
    · exact .inl ⟨next, ran.trans ran', keeps.trans keeps', tokens'⟩
    · rw [keeps.room] at tight
      rw [keeps.maxDepth] at ran'
      exact .inr ⟨tight, actual, span, next, ran.trans ran'⟩
  · exact .inr limited

theorem bind {f : α → Parser β} {goal : Parser β} {a : α} (first : Leads p c need (pure a) middle)
    (second : ∀ m, c.Keeps m → m.tokens = middle → Leads (f a) m need goal rest) :
    Leads (p >>= f) c need goal rest := by
  rcases first with ⟨m, ran, keeps, tokens⟩ | ⟨tight, actual, span, next, ran⟩
  · have step : Leads (p >>= f) c need (f a) middle :=
      .inl ⟨m, runAt_bind_ok ran f, keeps, tokens⟩
    exact step.trans second
  · exact .inr ⟨tight, actual, span, next, runAt_bind_error ran f⟩

theorem nested {a : α} (context : String)
    (inside : Leads p (c.opened context) need (pure a) rest) :
    Leads (Parser.nested context p) c (need + 1) (pure a) rest := by
  unfold Leads
  rw [runAt_nested]
  split
  · next deep =>
    refine .inr ⟨?_, c.depth + 1, c.stream.currentSpan, c, rfl⟩
    unfold Cursor.room
    omega
  · next shallow =>
    rcases inside with ⟨next, ran, keeps, tokens⟩ | ⟨tight, actual, span, next, ran⟩
    · rw [runAt_pure] at ran
      rw [ran]
      exact .inl ⟨next.closed, rfl, Cursor.keeps_nested keeps, by rw [Cursor.tokens_closed, tokens]⟩
    · rw [Cursor.maxDepth_opened] at ran
      rw [ran]
      rw [Cursor.room_opened] at tight
      exact .inr ⟨by omega, actual, span, next.closed, rfl⟩

end Leads

section Steps

variable {c : Cursor} {need : Nat} {rest : List Token} {goal : Parser β}

theorem leads_advance {t : Token} (tokens : c.tokens = t :: rest) (inner : t ≠ .eof) :
    Leads advance c need (pure ()) rest :=
  .inl ⟨c.advance, rfl, c.keeps_advance, Cursor.tokens_advance tokens inner⟩

theorem leads_current {f : Token → Parser β} {t : Token} {ahead : List Token}
    (tokens : c.tokens = t :: ahead) (goes : Leads (f t) c need goal rest) :
    Leads (current >>= f) c need goal rest :=
  goes.of_eq (by rw [runAt_bind_ok (runAt_current c), Cursor.current_of_tokens tokens])

theorem leads_expectToken {token : Token} {committed : Bool} (tokens : c.tokens = token :: rest)
    (inner : token ≠ .eof) : Leads (expectToken token committed) c need (pure ()) rest :=
  .inl ⟨c.advance, by rw [runAt_expectToken, if_pos (Cursor.current_of_tokens tokens)]; rfl,
    c.keeps_advance, Cursor.tokens_advance tokens inner⟩

theorem leads_expectIdentifier {expected name : String} {committed : Bool}
    (tokens : c.tokens = .identifier name :: rest) :
    Leads (expectIdentifier expected committed) c need (pure name) rest := by
  unfold expectIdentifier
  refine leads_current tokens ?_
  exact (leads_advance tokens Token.noConfusion).bind fun m _ left => .stay left

theorem leads_atNameThen {token t : Token} {ahead : List Token} {f : Bool → Parser β}
    (tokens : c.tokens = t :: ahead)
    (goes : Leads (f (t.isIdentifier && ahead.head?.getD .eof = token)) c need goal rest) :
    Leads (atNameThen token >>= f) c need goal rest := by
  refine goes.of_eq ?_
  rw [runAt_bind_ok (runAt_atNameThen token c), Cursor.current_of_tokens tokens, Cursor.peek_eq,
    tokens, List.getElem?_cons_succ, List.head?_eq_getElem?]

theorem leads_budget {f : Nat → Parser β}
    (goes : Leads (f (2 * c.tokens.length + 2)) c need goal rest) :
    Leads (budget >>= f) c need goal rest :=
  goes.of_eq (by rw [runAt_bind_ok (runAt_budget c)])

end Steps

section Variables

variable {c : Cursor} {need : Nat} {rest : List Token}

theorem path_complete {tokens : List Token} {names : List String}
    (phrase : PathPhrase tokens names) {steps : Nat} (ahead : c.tokens = tokens ++ rest)
    (ends : rest.head? ≠ some .dot) (enough : tokens.length ≤ steps) :
    Leads (path steps) c need (pure names) rest := by
  induction phrase generalizing c steps with
  | nil =>
    rw [List.nil_append] at ahead
    cases steps with
    | zero => exact .stay ahead
    | succ steps =>
      refine .inl ⟨c, ?_, .refl c, ahead⟩
      have current : c.stream.current ≠ .dot := by
        rw [Cursor.current_eq, ahead]
        cases rest with
        | nil => exact Token.noConfusion
        | cons t more => exact fun same => ends (congrArg some same)
      unfold path
      rw [runAt_bind_ok (runAt_current c), if_neg current]
  | component name rest' ih =>
    cases steps with
    | zero => cases enough
    | succ steps =>
      simp only [List.length_cons] at enough
      unfold path
      refine leads_current ahead ?_
      rw [if_pos rfl]
      refine (leads_advance ahead Token.noConfusion).bind fun m _ left => ?_
      refine (leads_expectIdentifier left).bind fun m _ left => ?_
      refine (ih left (by omega)).bind fun m _ left => .stay left

theorem variableWithin_complete {tokens : List Token} {v : Variable}
    (phrase : VariablePhrase tokens v) {steps : Nat} (ahead : c.tokens = tokens ++ rest)
    (ends : rest.head? ≠ some .dot) (enough : tokens.length ≤ steps + 1) :
    Leads (variableWithin steps) c need (pure v) rest := by
  obtain ⟨name, path⟩ := phrase
  simp only [List.length_cons] at enough
  unfold variableWithin
  refine (leads_expectIdentifier ahead).bind fun m _ left => ?_
  exact (path_complete path left ends (by omega)).bind fun m _ left => .stay left

theorem variableReference_complete {tokens : List Token} {v : Variable}
    (phrase : VariablePhrase tokens v) (ahead : c.tokens = tokens ++ rest)
    (ends : rest.head? ≠ some .dot) : Leads variableReference c need (pure v) rest := by
  unfold variableReference
  refine leads_budget (variableWithin_complete phrase ahead ends ?_)
  rw [ahead, List.length_append]
  omega

end Variables

section Arithmetic

open PrecedenceClimbing

-- What may follow a phrase of a stratum: neither more of a path nor an operator of a higher one.
structure Ends (level : Nat) (rest : List Token) : Prop where
  path : rest.head? ≠ some .dot
  stops : Stops (level + 1) rest

theorem ends_operator (o : Operator) (rest : List Token) :
    Ends o.precedence (o.token :: rest) := by
  refine ⟨by cases o <;> simp [Operator.token], ?_⟩
  intro other _ same
  have operators := congrArg Operator.ofToken? (List.cons.inj same).1
  rw [Operator.ofToken?_token, Operator.ofToken?_token] at operators
  cases operators
  exact Nat.lt_succ_self _

theorem ends_rightParen (level : Nat) (rest : List Token) : Ends level (.rightParen :: rest) := by
  refine ⟨by simp, ?_⟩
  intro o _ same
  cases o <;> cases same

theorem Ends.weaken {level higher : Nat} {rest : List Token} (ends : Ends level rest)
    (below : level ≤ higher) : Ends higher rest :=
  ⟨ends.path, ends.stops.weaken (by omega)⟩

theorem climb_stops {c : Cursor} {steps floor : Nat} {left : Arithmetic}
    (stops : Stops floor c.tokens) : (climb steps floor left).runAt c = (.ok left, c) := by
  cases steps with
  | zero => rfl
  | succ steps =>
    rw [climb, runAt_bind_ok (runAt_current c)]
    cases found : Operator.ofToken? c.stream.current with
    | none => rfl
    | some o =>
      have current := Operator.token_of_ofToken? found
      obtain ⟨rest, tokens⟩ := Cursor.tokens_of_current current o.token_ne_eof
      simp only [if_pos (stops o rest tokens)]
      rfl

-- An operand before its phrase, and a climb that starts there: it gets past the phrase with the
-- tree of the phrase as its left operand. Whether it then goes on depends on what follows.
structure ClimbsThrough (room level : Nat) (tokens : List Token) (tree : Arithmetic) : Prop where
  unary (operand : level = 3) {c : Cursor} {steps : Nat} {committed : Bool} {rest : List Token}
    (ahead : c.tokens = tokens ++ rest) (ends : rest.head? ≠ some .dot)
    (enough : EnoughSteps steps c) : Leads (unary steps committed) c room (pure tree) rest
  binary {c : Cursor} {steps floor : Nat} {rest : List Token} (committed : Bool)
    (below : floor ≤ level) (ahead : c.tokens = tokens ++ rest) (ends : Ends level rest)
    (enough : 2 * c.tokens.length + 2 ≤ steps) :
    ∃ left, 2 * rest.length + 1 ≤ left ∧
      Leads (binary steps floor committed) c room (climb left floor tree) rest

theorem climbsThrough_operand {room : Nat} {tokens : List Token} {tree : Arithmetic}
    (operand : ∀ {c : Cursor} {steps : Nat} {committed : Bool} {rest : List Token},
      c.tokens = tokens ++ rest → rest.head? ≠ some .dot → EnoughSteps steps c →
        Leads (unary steps committed) c room (pure tree) rest) :
    ClimbsThrough room 3 tokens tree := by
  refine ⟨fun _ => operand, ?_⟩
  intro c steps floor rest committed _ ahead ends enough
  cases steps with
  | zero => omega
  | succ steps =>
    have shorter : rest.length ≤ c.tokens.length := by rw [ahead, List.length_append]; omega
    refine ⟨steps, by omega, ?_⟩
    rw [binary]
    exact (operand ahead ends.path (by unfold EnoughSteps; omega)).bind fun m _ left => .stay left

theorem ClimbsThrough.operand {room level : Nat} {tokens : List Token} {tree : Arithmetic}
    (through : ClimbsThrough room level tokens tree) {c : Cursor} {steps floor : Nat}
    {committed : Bool} {rest : List Token} (below : floor ≤ level)
    (ahead : c.tokens = tokens ++ rest) (ends : Ends level rest) (stops : Stops floor rest)
    (enough : 2 * c.tokens.length + 2 ≤ steps) :
    Leads (PrecedenceClimbing.binary steps floor committed) c room (pure tree) rest := by
  obtain ⟨left, _, climbs⟩ := through.binary committed below ahead ends enough
  refine climbs.trans fun m _ tokens => .inl ⟨m, ?_, .refl m, tokens⟩
  rw [climb_stops (tokens ▸ stops)]
  rfl

theorem climbsThrough_binary {room : Nat} {before after : List Token} {left right : Arithmetic}
    (operator : Operator) (leftThrough : ClimbsThrough room operator.precedence before left)
    (rightThrough : ClimbsThrough room (operator.precedence + 1) after right) :
    ClimbsThrough room operator.precedence (before ++ operator.token :: after)
      (.binary operator left right) := by
  have small := operator.precedence_cases
  refine ⟨fun operand => by omega, ?_⟩
  intro c steps floor rest committed below ahead ends enough
  rw [List.append_assoc, List.cons_append] at ahead
  obtain ⟨spare, enoughLeft, climbs⟩ :=
    leftThrough.binary committed below ahead (ends_operator operator _) enough
  simp only [List.length_cons, List.length_append] at enoughLeft
  cases spare with
  | zero => omega
  | succ spare =>
    refine ⟨spare, by omega, climbs.trans fun m _ tokens => ?_⟩
    rw [climb]
    refine leads_current tokens ?_
    simp only [Operator.ofToken?_token, if_neg (Nat.not_lt.mpr below)]
    refine (leads_advance tokens operator.token_ne_eof).bind fun m _ tokens => ?_
    have enoughRight : 2 * m.tokens.length + 2 ≤ spare := by
      rw [tokens, List.length_append]; omega
    refine (rightThrough.operand (Nat.le_refl _) tokens (ends.weaken (by omega)) ends.stops
      enoughRight).bind fun m _ tokens => .stay tokens

theorem climbsThrough_minus {room : Nat} {tokens : List Token} {tree : Arithmetic}
    (through : ClimbsThrough room 3 tokens tree) :
    ClimbsThrough (room + 1) 3 (.minus :: tokens) (.negate tree) := by
  refine climbsThrough_operand ?_
  intro c steps committed rest ahead ends enough
  unfold EnoughSteps at enough
  rw [List.cons_append] at ahead
  cases steps with
  | zero => omega
  | succ steps =>
    rw [PrecedenceClimbing.unary]
    refine leads_current ahead ?_
    refine (leads_advance ahead Token.noConfusion).bind fun m _ left => ?_
    have inside : Leads (PrecedenceClimbing.unary steps true) (m.opened "negation") room
        (pure tree) rest := by
      refine through.unary rfl (by rw [Cursor.tokens_opened, left]) ends ?_
      rw [EnoughSteps, Cursor.tokens_opened, left]
      rw [ahead, List.length_cons] at enough
      omega
    exact (inside.nested "negation").bind fun m _ left => .stay left

theorem climbsThrough_group {room : Nat} {tokens : List Token} {tree : Arithmetic}
    (through : ClimbsThrough room 1 tokens tree) :
    ClimbsThrough (room + 1) 3 (.leftParen :: tokens ++ [.rightParen]) tree := by
  refine climbsThrough_operand ?_
  intro c steps committed rest ahead ends enough
  unfold EnoughSteps at enough
  rw [List.append_assoc, List.cons_append, List.singleton_append] at ahead
  cases steps with
  | zero => omega
  | succ steps =>
    rw [PrecedenceClimbing.unary]
    refine leads_current ahead ?_
    refine (leads_advance ahead Token.noConfusion).bind fun m _ left => ?_
    have inside : Leads (PrecedenceClimbing.binary steps 1 true)
        (m.opened "parenthesized expression") room (pure tree) (.rightParen :: rest) := by
      refine through.operand (Nat.le_refl 1) (by rw [Cursor.tokens_opened, left])
        (ends_rightParen 1 rest) (ends_rightParen 0 rest).stops ?_
      rw [Cursor.tokens_opened, left]
      rw [ahead, List.length_cons] at enough
      omega
    refine (inside.nested "parenthesized expression").bind fun m _ left => ?_
    exact (leads_expectToken left Token.noConfusion).bind fun m _ left => .stay left

theorem climbsThrough {room level : Nat} {tokens : List Token} {tree : Arithmetic}
    (phrase : ArithmeticPhrase room level tokens tree) :
    ClimbsThrough room level tokens tree := by
  induction phrase with
  | term _ ih =>
    exact ⟨by omega, fun committed below ahead ends =>
      ih.binary committed (by omega) ahead (ends.weaken (by omega))⟩
  | unary _ ih =>
    exact ⟨by omega, fun committed below ahead ends =>
      ih.binary committed (by omega) ahead (ends.weaken (by omega))⟩
  | binary operator _ _ left right => exact climbsThrough_binary operator left right
  | minus _ ih => exact climbsThrough_minus ih
  | number room value =>
    refine climbsThrough_operand ?_
    intro c steps committed rest ahead _ enough
    cases steps with
    | zero => unfold EnoughSteps at enough; omega
    | succ steps =>
      rw [PrecedenceClimbing.unary]
      refine leads_current ahead ?_
      exact (leads_advance ahead Token.noConfusion).bind fun m _ left => .stay left
  | reference room phrase =>
    refine climbsThrough_operand ?_
    intro c steps committed rest ahead ends enough
    unfold EnoughSteps at enough
    cases steps with
    | zero => omega
    | succ steps =>
      obtain ⟨name, path⟩ := phrase
      rw [PrecedenceClimbing.unary]
      refine leads_current ahead ?_
      refine (variableWithin_complete (.dotted name path) ahead ends ?_).bind
        fun m _ left => .stay left
      rw [ahead, List.length_append] at enough
      omega
  | group _ ih => exact climbsThrough_group ih

theorem rule_complete {c : Cursor} {room : Nat} {tokens rest : List Token} {tree : Arithmetic}
    (phrase : ArithmeticPhrase room 1 tokens tree) (ahead : c.tokens = tokens ++ rest)
    (path : rest.head? ≠ some .dot) (stops : Stops 1 rest) :
    Leads PrecedenceClimbing.rule.parse c room (pure tree) rest :=
  leads_budget ((climbsThrough phrase).operand (Nat.le_refl 1) ahead
    ⟨path, stops.weaken (by omega)⟩ stops (Nat.le_refl _))

end Arithmetic

section Calls

structure EndsVariable (rest : List Token) : Prop where
  path : rest.head? ≠ some .dot
  call : rest.head?.getD .eof ≠ .leftParen

theorem endsVariable_comma (rest : List Token) : EndsVariable (.comma :: rest) :=
  ⟨by simp, by simp⟩

theorem endsVariable_rightParen (rest : List Token) : EndsVariable (.rightParen :: rest) :=
  ⟨by simp, by simp⟩

-- A path is either empty or begins with a dot, so the second token of a variable is no parenthesis.
theorem EndsVariable.after_path {tokens rest : List Token} {names : List String}
    (ends : EndsVariable rest) (path : PathPhrase tokens names) :
    (tokens ++ rest).head?.getD .eof ≠ .leftParen := by
  cases path with
  | nil => exact ends.call
  | component name _ => exact Token.noConfusion

mutual

theorem callWith_complete {room : Nat} {tokens : List Token} {value : Expression} {c : Cursor}
    {rest : List Token} {steps : Nat} :
    CallPhrase room tokens value → c.tokens = tokens ++ rest → tokens.length ≤ steps + 1 →
      Leads (callWith (argumentList (arguments steps))) c room (pure value) rest
  | .empty room name, ahead, _ => by
    unfold callWith
    refine (leads_expectIdentifier ahead).bind fun m _ left => ?_
    refine (leads_expectToken left Token.noConfusion).bind fun m _ left => ?_
    have inside : Leads (argumentList (arguments steps)) (m.opened "call") room (pure []) rest := by
      have closing : (m.opened "call").tokens = .rightParen :: rest := by
        rw [Cursor.tokens_opened, left]; rfl
      refine leads_current closing ?_
      rw [if_pos rfl]
      exact (leads_advance closing Token.noConfusion).bind fun m _ left => .stay left
    exact (inside.nested "call").bind fun m _ left => .stay left
  | @CallPhrase.filled room _ values name list, ahead, enough => by
    rw [List.append_assoc, List.cons_append, List.cons_append, List.singleton_append] at ahead
    simp only [List.length_append, List.length_cons, List.length_nil] at enough
    unfold callWith
    refine (leads_expectIdentifier ahead).bind fun m _ left => ?_
    refine (leads_expectToken left Token.noConfusion).bind fun m _ left => ?_
    have inside : Leads (argumentList (arguments steps)) (m.opened "call") room (pure values)
        rest := by
      obtain ⟨t, others, begins, inner⟩ := list.start
      refine leads_current (t := t) (by rw [Cursor.tokens_opened, left, begins]; rfl) ?_
      rw [if_neg inner]
      exact arguments_complete list (by rw [Cursor.tokens_opened, left]) (by omega)
    exact (inside.nested "call").bind fun m _ left => .stay left

theorem argumentWith_complete {room : Nat} {tokens : List Token} {value : Expression}
    {c : Cursor} {rest : List Token} {steps : Nat} :
    ArgumentPhrase room tokens value → c.tokens = tokens ++ rest → EndsVariable rest →
      tokens.length ≤ steps + 1 →
      Leads (argumentWith steps (arguments steps)) c room (pure value) rest
  | .call phrase, ahead, _, enough => by
    obtain ⟨name, others, begins⟩ := phrase.start
    have known : c.tokens = .identifier name :: .leftParen :: (others ++ rest) := by
      rw [ahead, begins]; rfl
    unfold argumentWith
    refine leads_current known (leads_atNameThen known ?_)
    exact callWith_complete phrase ahead enough
  | .number _ value, ahead, _, _ => by
    unfold argumentWith
    refine leads_current ahead (leads_current ahead ?_)
    exact (leads_advance ahead Token.noConfusion).bind fun m _ left => .stay left
  | .string _ content quote, ahead, _, _ => by
    unfold argumentWith
    refine leads_current ahead (leads_current ahead ?_)
    exact (leads_advance ahead Token.noConfusion).bind fun m _ left => .stay left
  | .boolean _ value, ahead, _, _ => by
    unfold argumentWith
    refine leads_current ahead (leads_current ahead ?_)
    exact (leads_advance ahead Token.noConfusion).bind fun m _ left => .stay left
  | .reference _ (.dotted name path), ahead, ends, enough => by
    unfold argumentWith
    refine leads_current ahead (leads_atNameThen ahead ?_)
    rw [List.append_eq, decide_eq_false (ends.after_path path)]
    exact (variableWithin_complete (.dotted name path) ahead ends.path enough).bind
      fun m _ left => .stay left

theorem arguments_complete {room : Nat} {tokens : List Token} {values : List Expression}
    {c : Cursor} {rest : List Token} {steps : Nat} :
    ArgumentsPhrase room tokens values → c.tokens = tokens ++ .rightParen :: rest →
      tokens.length ≤ steps → Leads (arguments steps) c room (pure values) rest
  | .last only, ahead, enough => by
    cases steps with
    | zero =>
      obtain ⟨t, others, rfl, _⟩ := only.start
      cases enough
    | succ steps =>
      unfold arguments
      refine (argumentWith_complete only ahead (endsVariable_rightParen rest) enough).bind
        fun m _ left => ?_
      refine leads_current left ?_
      exact (leads_advance left Token.noConfusion).bind fun m _ left => .stay left
  | .more first others, ahead, enough => by
    rw [List.append_assoc, List.cons_append] at ahead
    rw [List.length_append, List.length_cons] at enough
    cases steps with
    | zero => cases enough
    | succ steps =>
      unfold arguments
      refine (argumentWith_complete first ahead (endsVariable_comma _) (by omega)).bind
        fun m _ left => ?_
      refine leads_current left ?_
      refine (leads_advance left Token.noConfusion).bind fun m _ left => ?_
      exact (arguments_complete others left (by omega)).bind fun m _ left => .stay left

end

theorem call_complete {room : Nat} {tokens : List Token} {value : Expression} {c : Cursor}
    {rest : List Token} (phrase : CallPhrase room tokens value)
    (ahead : c.tokens = tokens ++ rest) :
    Leads call c room (pure value) rest := by
  refine leads_budget (callWith_complete phrase ahead ?_)
  rw [ahead, List.length_append]
  omega

end Calls

section Actions

variable {c : Cursor} {room : Nat} {tokens : List Token}

theorem eq_of_append_eof {tokens others rest : List Token} (inner : .eof ∉ tokens)
    (inner' : .eof ∉ others) (atEnd : rest.head?.getD .eof = .eof)
    (same : tokens ++ [.eof] = others ++ rest) : tokens = others := by
  induction tokens generalizing others with
  | nil =>
    cases others with
    | nil => rfl
    | cons t more =>
      have head := (List.cons.inj same).1
      exact absurd (head ▸ List.mem_cons_self) inner'
  | cons t tokens ih =>
    cases others with
    | nil =>
      rw [List.nil_append] at same
      rw [← same] at atEnd
      have head : t = .eof := atEnd
      exact absurd (head ▸ List.mem_cons_self) inner
    | cons u others =>
      obtain ⟨rfl, tail⟩ := List.cons.inj same
      rw [ih (fun member => inner (List.mem_cons_of_mem _ member))
        (fun member => inner' (List.mem_cons_of_mem _ member)) tail]

theorem attributeOf_complete {wanted typeName : String} {rest : List Token}
    (ahead : c.tokens = .identifier typeName :: .tick :: .identifier wanted :: rest) :
    Leads (attributeOf wanted) c room (pure typeName) rest := by
  unfold attributeOf
  refine (leads_expectIdentifier ahead).bind fun m _ left => ?_
  refine (leads_expectToken left Token.noConfusion).bind fun m _ left => ?_
  refine leads_current left ?_
  rw [if_pos (by simp [Token.isNamed])]
  exact (leads_advance left Token.noConfusion).bind fun m _ left => .stay left

theorem readAttribute_complete {typeName channel : String} {rest : List Token}
    (ahead : c.tokens = .identifier typeName :: .tick :: .identifier "Read" :: .leftParen ::
      .identifier channel :: .rightParen :: rest) :
    Leads readAttribute c room (pure (.readAttribute typeName channel)) rest := by
  unfold readAttribute
  refine (attributeOf_complete ahead).bind fun m _ left => ?_
  refine (leads_expectToken left Token.noConfusion).bind fun m _ left => ?_
  refine (leads_expectIdentifier left).bind fun m _ left => ?_
  exact (leads_expectToken left Token.noConfusion).bind fun m _ left => .stay left

theorem writeItem_complete {item : Expression} {rest : List Token}
    (phrase : ItemPhrase room tokens item) (ahead : c.tokens = tokens ++ .rightParen :: rest) :
    Leads writeItem c room (pure item) (.rightParen :: rest) := by
  unfold writeItem
  cases phrase with
  | call phrase =>
    obtain ⟨name, others, begins⟩ := phrase.start
    have known : c.tokens = .identifier name :: .leftParen :: (others ++ .rightParen :: rest) := by
      rw [ahead, begins]; rfl
    exact leads_atNameThen known (call_complete phrase ahead)
  | reference _ phrase =>
    obtain ⟨name, path⟩ := phrase
    rw [List.cons_append] at ahead
    refine leads_atNameThen ahead ?_
    rw [decide_eq_false ((endsVariable_rightParen rest).after_path path)]
    refine leads_current ahead ?_
    exact (variableReference_complete (.dotted name path) ahead (by simp)).bind
      fun m _ left => .stay left

theorem writeAttribute_complete {typeName channel : String} {item : Expression}
    {rest : List Token} (phrase : ItemPhrase room tokens item)
    (ahead : c.tokens = .identifier typeName :: .tick :: .identifier "Write" :: .leftParen ::
      .identifier channel :: .comma :: (tokens ++ .rightParen :: rest)) :
    Leads writeAttribute c (room + 1) (pure (.writeAttribute typeName channel item)) rest := by
  unfold writeAttribute
  refine (attributeOf_complete ahead).bind fun m _ left => ?_
  refine (leads_expectToken left Token.noConfusion).bind fun m _ left => ?_
  refine (leads_expectIdentifier left).bind fun m _ left => ?_
  refine (leads_expectToken left Token.noConfusion).bind fun m _ left => ?_
  have inside := writeItem_complete phrase ((m.tokens_opened "write item").trans left)
  refine (inside.nested "write item").bind fun m _ left => ?_
  exact (leads_expectToken left Token.noConfusion).bind fun m _ left => .stay left

-- Before arithmetic a variable is found only if it is all there is, and then it is the tree.
-- Otherwise the parse stands where it stood.
theorem loneVariable_complete {tree : Arithmetic} (phrase : ArithmeticPhrase room 1 tokens tree)
    (ahead : c.tokens = tokens ++ [.eof]) :
    (∃ v, tree = .variable v ∧ Leads loneVariable c room (pure (some v)) [.eof]) ∨
      Leads loneVariable c room (pure none) (tokens ++ [.eof]) := by
  unfold loneVariable
  cases name : c.stream.current.isIdentifier with
  | false =>
    refine .inr (.of_eq ?_ (.stay ahead))
    rw [runAt_bind_ok (runAt_current c), name]
    rfl
  | true =>
    obtain ⟨found, next, ran⟩ := attempt_total variableReference (·.stream.atEnd) c
    have whole := (runAt_bind_ok (runAt_current c) fun t => if t.isIdentifier then
      attempt variableReference (·.stream.atEnd) else pure none).trans (by rw [if_pos name, ran])
    cases found with
    | none =>
      have restored := attempt_none steady_variableReference ran
      have tokens := restored.split.symm.trans ahead
      exact .inr (.inl ⟨next, whole, restored.toKeeps, tokens⟩)
    | some v =>
      obtain ⟨found, atEnd⟩ := attempt_some ran
      obtain ⟨taken, takes, written⟩ := variableReference_sound found
      have current : next.stream.current = .eof := by simpa [Stream.atEnd, Token.isEof] using atEnd
      rw [Cursor.current_eq] at current
      have split := ahead.symm.trans takes.split
      obtain rfl := eq_of_append_eof phrase.no_eof written.no_eof current split
      have tokens := (List.append_cancel_left split).symm
      exact .inl ⟨v, phrase.eq_variable written, .inl ⟨next, whole, takes.toKeeps, tokens⟩⟩

def variableOrArithmetic : Parser Expression := do
  match ← loneVariable with
  | some v => return .variable v
  | none => return .ofArithmetic (← PrecedenceClimbing.rule.parse)

theorem variableOrArithmetic_complete {tree : Arithmetic}
    (phrase : ArithmeticPhrase room 1 tokens tree) (ahead : c.tokens = tokens ++ [.eof]) :
    Leads variableOrArithmetic c room (pure (.ofArithmetic tree)) [.eof] := by
  have stops : Stops 1 [Token.eof] := by intro o _ same; cases o <;> cases same
  unfold variableOrArithmetic
  rcases loneVariable_complete phrase ahead with ⟨v, rfl, lone⟩ | none
  · exact lone.bind fun m _ left => .stay left
  · refine none.bind fun m _ left => ?_
    exact (rule_complete phrase left (by simp) stops).bind fun m _ left => .stay left

-- Tokens that begin like arithmetic are passed on by every other kind of right-hand side: they are
-- no attribute, no literal and no call.
theorem rightHandSide_arithmetic {goal : Parser Expression} (start : ArithmeticStart tokens)
    (ahead : c.tokens = tokens ++ [.eof]) (last : Leads variableOrArithmetic c room goal [.eof]) :
    Leads (rightHandSide PrecedenceClimbing.rule) c room goal [.eof] := by
  unfold rightHandSide
  cases start with
  | minus _ | number _ _ | leftParen _ | name _ =>
    rw [List.cons_append] at ahead
    exact leads_atNameThen ahead (leads_current ahead (leads_atNameThen ahead last))
  | continued name others continues =>
    rw [List.cons_append, List.cons_append] at ahead
    refine leads_atNameThen ahead ?_
    rcases continues with rfl | ⟨o, rfl⟩
    · exact leads_current ahead (leads_atNameThen ahead last)
    · cases o <;> exact leads_current ahead (leads_atNameThen ahead last)

theorem rightHandSide_complete {value : Expression} (phrase : ValuePhrase room tokens value)
    (ahead : c.tokens = tokens ++ [.eof]) :
    Leads (rightHandSide PrecedenceClimbing.rule) c room (pure value) [.eof] := by
  cases phrase with
  | read typeName channel => exact leads_atNameThen ahead (readAttribute_complete ahead)
  | boolean value =>
    refine leads_atNameThen ahead (leads_current ahead (leads_current ahead ?_))
    exact (leads_advance ahead Token.noConfusion).bind fun m _ left => .stay left
  | string content quote =>
    refine leads_atNameThen ahead (leads_current ahead (leads_current ahead ?_))
    exact (leads_advance ahead Token.noConfusion).bind fun m _ left => .stay left
  | call phrase =>
    obtain ⟨name, others, begins⟩ := phrase.start
    have known : c.tokens = .identifier name :: .leftParen :: (others ++ [.eof]) := by
      rw [ahead, begins]; rfl
    refine leads_atNameThen known (leads_current known (leads_atNameThen known ?_))
    exact call_complete phrase ahead
  | expr phrase =>
    exact rightHandSide_arithmetic phrase.start ahead (variableOrArithmetic_complete phrase ahead)

theorem action_complete {a : Action} (phrase : ActionPhrase room tokens a)
    (ahead : c.tokens = tokens ++ [.eof]) :
    Leads (action PrecedenceClimbing.rule) c room (pure a) [.eof] := by
  unfold action
  cases phrase with
  | assignment target value =>
    refine leads_atNameThen ahead ?_
    refine (leads_expectIdentifier ahead).bind fun m _ left => ?_
    refine leads_current left ?_
    rw [if_pos rfl]
    refine (leads_advance left Token.noConfusion).bind fun m _ left => ?_
    exact (rightHandSide_complete value left).bind fun m _ left => .stay left
  | write typeName channel item =>
    rw [List.append_assoc] at ahead
    exact leads_atNameThen ahead (writeAttribute_complete item ahead)

theorem completeAction_complete {a : Action} (phrase : ActionPhrase room tokens a)
    (ahead : c.tokens = tokens ++ [.eof]) :
    Leads (completeAction PrecedenceClimbing.rule) c room (pure a) [.eof] := by
  unfold completeAction
  refine (action_complete phrase ahead).bind fun m _ left => ?_
  refine .of_eq ?_ (.stay left)
  rw [runAt_bind_ok (runAt_get m)]
  simp [Stream.atEnd, Cursor.current_of_tokens left, Token.isEof]

end Actions

end StateActions
