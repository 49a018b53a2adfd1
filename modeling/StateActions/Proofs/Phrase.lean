import StateActions.Grammar.Production

namespace StateActions

namespace Operator

def token : Operator → Token
  | .add => .plus
  | .subtract => .minus
  | .multiply => .star
  | .divide => .slash

@[simp] theorem ofToken?_token (o : Operator) : ofToken? o.token = some o := by cases o <;> rfl

theorem token_of_ofToken? {t : Token} {o : Operator} (found : ofToken? t = some o) :
    t = o.token := by
  cases t <;> simp only [ofToken?, Option.some.injEq, reduceCtorEq] at found <;> subst found <;> rfl

theorem token_ne_eof (o : Operator) : o.token ≠ .eof := by cases o <;> exact Token.noConfusion

theorem precedence_cases (o : Operator) : o.precedence = 1 ∨ o.precedence = 2 := by
  cases o <;> simp [precedence]

end Operator

-- `('.' id)*`
inductive PathPhrase : List Token → List String → Prop
  | nil : PathPhrase [] []
  | component {tokens : List Token} {names : List String} (name : String)
      (rest : PathPhrase tokens names) :
      PathPhrase (.dot :: .identifier name :: tokens) (name :: names)

-- variable ::= id ('.' id)*
inductive VariablePhrase : List Token → Variable → Prop
  | dotted {tokens : List Token} {names : List String} (name : String)
      (path : PathPhrase tokens names) :
      VariablePhrase (.identifier name :: tokens) ⟨name, names⟩

-- Arithmetic in three strata, numbered as operators bind:
--   1  expr ::= term | expr ('+' | '-') term
--   2  term ::= unary | term ('*' | '/') unary
--   3  unary ::= '-' unary | number | variable | '(' expr ')'
-- The recursion stands on the left, so operators of one stratum group to the left.
inductive ArithmeticPhrase : Nat → Nat → List Token → Arithmetic → Prop
  | term {room : Nat} {tokens : List Token} {tree : Arithmetic}
      (term : ArithmeticPhrase room 2 tokens tree) : ArithmeticPhrase room 1 tokens tree
  | unary {room : Nat} {tokens : List Token} {tree : Arithmetic}
      (unary : ArithmeticPhrase room 3 tokens tree) : ArithmeticPhrase room 2 tokens tree
  | binary {room : Nat} {before after : List Token} {left right : Arithmetic}
      (operator : Operator)
      (leftPhrase : ArithmeticPhrase room operator.precedence before left)
      (rightPhrase : ArithmeticPhrase room (operator.precedence + 1) after right) :
      ArithmeticPhrase room operator.precedence (before ++ operator.token :: after)
        (.binary operator left right)
  | minus {room : Nat} {tokens : List Token} {tree : Arithmetic}
      (operand : ArithmeticPhrase room 3 tokens tree) :
      ArithmeticPhrase (room + 1) 3 (.minus :: tokens) (.negate tree)
  | number (room value : Nat) : ArithmeticPhrase room 3 [.number value] (.number value)
  | reference {tokens : List Token} {v : Variable} (room : Nat) (phrase : VariablePhrase tokens v) :
      ArithmeticPhrase room 3 tokens (.variable v)
  | group {room : Nat} {tokens : List Token} {tree : Arithmetic}
      (inner : ArithmeticPhrase room 1 tokens tree) :
      ArithmeticPhrase (room + 1) 3 (.leftParen :: tokens ++ [.rightParen]) tree

mutual

-- call ::= id '(' [arg (',' arg)*] ')'
inductive CallPhrase : Nat → List Token → Expression → Prop
  | empty (room : Nat) (name : String) :
      CallPhrase (room + 1) [.identifier name, .leftParen, .rightParen] (.call name [])
  | filled {room : Nat} {tokens : List Token} {values : List Expression} (name : String)
      (list : ArgumentsPhrase room tokens values) :
      CallPhrase (room + 1) (.identifier name :: .leftParen :: tokens ++ [.rightParen])
        (.call name values)

-- arg ::= call | number | string | boolean | variable
inductive ArgumentPhrase : Nat → List Token → Expression → Prop
  | call {room : Nat} {tokens : List Token} {value : Expression}
      (phrase : CallPhrase room tokens value) : ArgumentPhrase room tokens value
  | number (room value : Nat) : ArgumentPhrase room [.number value] (.number value)
  | string (room : Nat) (content : String) (quote : Quote) :
      ArgumentPhrase room [.string content quote] (.string content)
  | boolean (room : Nat) (value : Bool) : ArgumentPhrase room [.boolean value] (.boolean value)
  | reference {tokens : List Token} {v : Variable} (room : Nat) (phrase : VariablePhrase tokens v) :
      ArgumentPhrase room tokens (.variable v)

-- arg (',' arg)*
inductive ArgumentsPhrase : Nat → List Token → List Expression → Prop
  | last {room : Nat} {tokens : List Token} {value : Expression}
      (only : ArgumentPhrase room tokens value) : ArgumentsPhrase room tokens [value]
  | more {room : Nat} {tokens others : List Token} {value : Expression}
      {values : List Expression} (first : ArgumentPhrase room tokens value)
      (rest : ArgumentsPhrase room others values) :
      ArgumentsPhrase room (tokens ++ .comma :: others) (value :: values)

end

-- rhs ::= id Tick 'Read' '(' id ')' | boolean | string | call | expr
-- A lone number or variable among the expressions stands for itself.
inductive ValuePhrase : Nat → List Token → Expression → Prop
  | read (room : Nat) (typeName channel : String) :
      ValuePhrase room
        [.identifier typeName, .tick, .identifier "Read", .leftParen, .identifier channel,
          .rightParen]
        (.readAttribute typeName channel)
  | boolean (room : Nat) (value : Bool) : ValuePhrase room [.boolean value] (.boolean value)
  | string (room : Nat) (content : String) (quote : Quote) :
      ValuePhrase room [.string content quote] (.string content)
  | call {room : Nat} {tokens : List Token} {value : Expression}
      (phrase : CallPhrase room tokens value) : ValuePhrase room tokens value
  | expr {room : Nat} {tokens : List Token} {tree : Arithmetic}
      (phrase : ArithmeticPhrase room 1 tokens tree) :
      ValuePhrase room tokens (.ofArithmetic tree)

-- item ::= call | variable
inductive ItemPhrase : Nat → List Token → Expression → Prop
  | call {room : Nat} {tokens : List Token} {value : Expression}
      (phrase : CallPhrase room tokens value) : ItemPhrase room tokens value
  | reference {tokens : List Token} {v : Variable} (room : Nat) (phrase : VariablePhrase tokens v) :
      ItemPhrase room tokens (.variable v)

-- action ::= id ':=' rhs | id Tick 'Write' '(' id ',' item ')'
inductive ActionPhrase : Nat → List Token → Action → Prop
  | assignment {room : Nat} {tokens : List Token} {value : Expression} (target : String)
      (phrase : ValuePhrase room tokens value) :
      ActionPhrase room (.identifier target :: .assign :: tokens) (.assignment target value)
  | write {room : Nat} {tokens : List Token} {item : Expression} (typeName channel : String)
      (phrase : ItemPhrase room tokens item) :
      ActionPhrase (room + 1)
        (.identifier typeName :: .tick :: .identifier "Write" :: .leftParen ::
          .identifier channel :: .comma :: tokens ++ [.rightParen])
        (.writeAttribute typeName channel item)

def Variable.tokens (v : Variable) : List Token :=
  .identifier v.name :: v.path.flatMap fun name => [.dot, .identifier name]

theorem pathPhrase_iff {tokens : List Token} {names : List String} :
    PathPhrase tokens names ↔ tokens = names.flatMap fun name => [.dot, .identifier name] := by
  constructor
  · intro phrase
    induction phrase with
    | nil => rfl
    | component name rest ih => rw [ih]; rfl
  · rintro rfl
    induction names with
    | nil => exact .nil
    | cons name names ih => exact .component name ih

theorem variablePhrase_iff {tokens : List Token} {v : Variable} :
    VariablePhrase tokens v ↔ tokens = v.tokens := by
  constructor
  · rintro ⟨name, path⟩
    rw [pathPhrase_iff.mp path, Variable.tokens]
  · rintro rfl
    exact .dotted v.name (pathPhrase_iff.mpr rfl)

theorem PathPhrase.unique {tokens : List Token} {names others : List String}
    (phrase : PathPhrase tokens names) (other : PathPhrase tokens others) : names = others := by
  induction phrase generalizing others with
  | nil => cases other; rfl
  | component name rest ih =>
    cases other with
    | component _ tail => rw [ih tail]

theorem VariablePhrase.unique {tokens : List Token} {v w : Variable}
    (phrase : VariablePhrase tokens v) (other : VariablePhrase tokens w) : v = w := by
  obtain ⟨name, path⟩ := phrase
  cases other with
  | dotted _ tail => rw [path.unique tail]

theorem PathPhrase.no_operator {tokens : List Token} {names : List String}
    (phrase : PathPhrase tokens names) (o : Operator) : o.token ∉ tokens := by
  induction phrase with
  | nil => exact List.not_mem_nil
  | component name rest ih =>
    intro member
    rcases List.mem_cons.mp member with dot | member
    · cases o <;> cases dot
    · rcases List.mem_cons.mp member with name | member
      · cases o <;> cases name
      · exact ih member

theorem VariablePhrase.no_operator {tokens : List Token} {v : Variable}
    (phrase : VariablePhrase tokens v) (o : Operator) : o.token ∉ tokens := by
  obtain ⟨name, path⟩ := phrase
  intro member
  rcases List.mem_cons.mp member with name | member
  · cases o <;> cases name
  · exact path.no_operator o member

theorem ArithmeticPhrase.eq_variable {room level : Nat} {tokens : List Token} {tree : Arithmetic}
    {v : Variable} (phrase : ArithmeticPhrase room level tokens tree)
    (written : VariablePhrase tokens v) : tree = .variable v := by
  induction phrase with
  | term _ ih => exact ih written
  | unary _ ih => exact ih written
  | binary operator _ _ _ _ =>
    exact absurd (List.mem_append_right _ List.mem_cons_self) (written.no_operator operator)
  | reference room phrase => rw [phrase.unique written]
  | minus _ _ => cases written
  | number _ _ => cases written
  | group _ _ => cases written

theorem ArithmeticPhrase.lower {room level floor : Nat} {tokens : List Token} {tree : Arithmetic}
    (phrase : ArithmeticPhrase room level tokens tree) (positive : 1 ≤ floor)
    (below : floor ≤ level) (top : level ≤ 3) : ArithmeticPhrase room floor tokens tree := by
  rcases Nat.eq_or_lt_of_le below with rfl | strict
  · exact phrase
  · obtain rfl | rfl : level = 2 ∨ level = 3 := by omega
    · obtain rfl : floor = 1 := by omega
      exact .term phrase
    · obtain rfl | rfl : floor = 1 ∨ floor = 2 := by omega
      · exact .term (.unary phrase)
      · exact .unary phrase

-- No operator that binds at least as tightly as `floor` is next, so a phrase of that stratum cannot
-- go on.
def Stops (floor : Nat) (tokens : List Token) : Prop :=
  ∀ (o : Operator) (rest : List Token), tokens = o.token :: rest → o.precedence < floor

theorem stops_above (tokens : List Token) : Stops 3 tokens := by
  intro o rest _
  rcases o.precedence_cases with low | high <;> omega

theorem Stops.weaken {floor higher : Nat} {tokens : List Token} (stops : Stops floor tokens)
    (below : floor ≤ higher) : Stops higher tokens :=
  fun o rest same => Nat.lt_of_lt_of_le (stops o rest same) below

def Token.continuesName (t : Token) : Prop := t = .dot ∨ ∃ o : Operator, t = o.token

inductive ArithmeticStart : List Token → Prop
  | minus (rest : List Token) : ArithmeticStart (.minus :: rest)
  | number (value : Nat) (rest : List Token) : ArithmeticStart (.number value :: rest)
  | leftParen (rest : List Token) : ArithmeticStart (.leftParen :: rest)
  | name (name : String) : ArithmeticStart [.identifier name]
  | continued (name : String) {t : Token} (rest : List Token) (continues : t.continuesName) :
      ArithmeticStart (.identifier name :: t :: rest)

theorem ArithmeticStart.append {tokens : List Token} (start : ArithmeticStart tokens)
    (o : Operator) (rest : List Token) : ArithmeticStart (tokens ++ o.token :: rest) := by
  cases start with
  | minus => exact .minus _
  | number => exact .number _ _
  | leftParen => exact .leftParen _
  | name name => exact .continued name rest (.inr ⟨o, rfl⟩)
  | continued name tail continues => exact .continued name _ continues

theorem ArithmeticPhrase.start {room level : Nat} {tokens : List Token} {tree : Arithmetic}
    (phrase : ArithmeticPhrase room level tokens tree) : ArithmeticStart tokens := by
  induction phrase with
  | term _ ih => exact ih
  | unary _ ih => exact ih
  | binary operator _ _ left _ => exact left.append operator _
  | minus _ _ => exact .minus _
  | number _ value => exact .number value _
  | reference _ phrase =>
    obtain ⟨name, path⟩ := phrase
    cases path with
    | nil => exact .name name
    | component next rest => exact .continued name _ (.inl rfl)
  | group _ _ => exact .leftParen _

theorem CallPhrase.start {room : Nat} {tokens : List Token} {value : Expression}
    (phrase : CallPhrase room tokens value) :
    ∃ name rest, tokens = .identifier name :: .leftParen :: rest := by
  cases phrase with
  | empty _ name => exact ⟨name, _, rfl⟩
  | filled name _ => exact ⟨name, _, rfl⟩

theorem ArgumentPhrase.start {room : Nat} {tokens : List Token} {value : Expression}
    (phrase : ArgumentPhrase room tokens value) :
    ∃ t rest, tokens = t :: rest ∧ t ≠ .rightParen := by
  cases phrase with
  | call phrase =>
    obtain ⟨name, rest, rfl⟩ := phrase.start
    exact ⟨_, _, rfl, Token.noConfusion⟩
  | number _ _ => exact ⟨_, _, rfl, Token.noConfusion⟩
  | string _ _ _ => exact ⟨_, _, rfl, Token.noConfusion⟩
  | boolean _ _ => exact ⟨_, _, rfl, Token.noConfusion⟩
  | reference _ phrase =>
    obtain ⟨name, _⟩ := phrase
    exact ⟨_, _, rfl, Token.noConfusion⟩

theorem ArgumentsPhrase.start {room : Nat} {tokens : List Token} {values : List Expression}
    (phrase : ArgumentsPhrase room tokens values) :
    ∃ t rest, tokens = t :: rest ∧ t ≠ .rightParen := by
  cases phrase with
  | last only => exact only.start
  | more first _ =>
    obtain ⟨t, rest, rfl, inner⟩ := first.start
    exact ⟨t, _, rfl, inner⟩

theorem VariablePhrase.no_eof {tokens : List Token} {v : Variable}
    (phrase : VariablePhrase tokens v) : .eof ∉ tokens := by
  rw [variablePhrase_iff.mp phrase]
  simp [Variable.tokens]

theorem ArithmeticPhrase.no_eof {room level : Nat} {tokens : List Token} {tree : Arithmetic}
    (phrase : ArithmeticPhrase room level tokens tree) : .eof ∉ tokens := by
  induction phrase with
  | term _ ih => exact ih
  | unary _ ih => exact ih
  | binary operator _ _ left right => simp [left, right, operator.token_ne_eof.symm]
  | minus _ ih => simp [ih]
  | number _ _ => simp
  | reference _ phrase => exact phrase.no_eof
  | group _ ih => simp [ih]

mutual

theorem CallPhrase.no_eof {room : Nat} {tokens : List Token} {value : Expression} :
    CallPhrase room tokens value → .eof ∉ tokens
  | .empty _ _ => by simp
  | .filled _ list => by simp [list.no_eof]

theorem ArgumentPhrase.no_eof {room : Nat} {tokens : List Token} {value : Expression} :
    ArgumentPhrase room tokens value → .eof ∉ tokens
  | .call phrase => phrase.no_eof
  | .number _ _ | .string _ _ _ | .boolean _ _ => by simp
  | .reference _ phrase => phrase.no_eof

theorem ArgumentsPhrase.no_eof {room : Nat} {tokens : List Token} {values : List Expression} :
    ArgumentsPhrase room tokens values → .eof ∉ tokens
  | .last only => only.no_eof
  | .more first rest => by simp [first.no_eof, rest.no_eof]

end

theorem ActionPhrase.no_eof {room : Nat} {tokens : List Token} {a : Action}
    (phrase : ActionPhrase room tokens a) : .eof ∉ tokens := by
  cases phrase with
  | assignment target value =>
    cases value with
    | read _ _ => simp
    | boolean _ => simp
    | string _ _ => simp
    | call phrase => simp [phrase.no_eof]
    | expr phrase => simp [phrase.no_eof]
  | write typeName channel item =>
    cases item with
    | call phrase => simp [phrase.no_eof]
    | reference _ phrase => simp [phrase.no_eof]

end StateActions
