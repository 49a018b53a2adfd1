import StateActions.Action.Printer
import StateActions.Proofs.Phrase
import StateActions.Proofs.Token.WellFormed

namespace StateActions

-- Without escapes a string can hold at most one of the two quotes.
def StringFits (text : String) : Prop :=
  ¬('\x27' ∈ text.toList ∧ '\x22' ∈ text.toList) ∧ text.utf8ByteSize ≤ Limits.stringSize

instance (text : String) : Decidable (StringFits text) := inferInstanceAs (Decidable (_ ∧ _))

def Variable.WellFormed (v : Variable) : Prop := ∀ name ∈ v.components, IsName name

instance (v : Variable) : Decidable v.WellFormed :=
  inferInstanceAs (Decidable (∀ name ∈ v.components, IsName name))

namespace Arithmetic

def WellFormed : Arithmetic → Prop
  | .number _ => True
  | .variable v => v.WellFormed
  | .negate operand => operand.WellFormed
  | .binary _ left right => left.WellFormed ∧ right.WellFormed

def decideWellFormed : (tree : Arithmetic) → Decidable tree.WellFormed
  | .number _ => .isTrue trivial
  | .variable v => inferInstanceAs (Decidable v.WellFormed)
  | .negate operand => operand.decideWellFormed
  | .binary _ left right =>
    have := left.decideWellFormed
    have := right.decideWellFormed
    inferInstanceAs (Decidable (_ ∧ _))

instance : DecidablePred WellFormed := decideWellFormed

-- A tree without operators stands for itself and needs no arithmetic around it.
def isLeaf : Arithmetic → Bool
  | .number _ | .variable _ => true
  | .negate _ | .binary .. => false

def grouped (parenthesised : Bool) (levels : Nat) : Nat :=
  if parenthesised then levels + 1 else levels

-- How many minus signs and printed parentheses stand around one place.
def nesting : Arithmetic → Nat
  | .number _ | .variable _ => 0
  | .negate operand => 1 + grouped (operand.binding < 3) operand.nesting
  | .binary operator left right =>
    max (grouped (left.binding < operator.precedence) left.nesting)
      (grouped (right.binding ≤ operator.precedence) right.nesting)

end Arithmetic

namespace Expression

mutual

def IsArgument : Expression → Prop
  | .variable v => v.WellFormed
  | .number _ | .boolean _ => True
  | .string text => StringFits text
  | .call name values => IsName name ∧ AreArguments values
  | .readAttribute .. | .arithmetic _ => False

def AreArguments : List Expression → Prop
  | [] => True
  | e :: rest => IsArgument e ∧ AreArguments rest

end

mutual

def decideIsArgument : (e : Expression) → Decidable e.IsArgument
  | .variable v => inferInstanceAs (Decidable v.WellFormed)
  | .number _ | .boolean _ => .isTrue trivial
  | .string text => inferInstanceAs (Decidable (StringFits text))
  | .call name values =>
    have := decideAreArguments values
    inferInstanceAs (Decidable (IsName name ∧ AreArguments values))
  | .readAttribute .. | .arithmetic _ => .isFalse id

def decideAreArguments : (values : List Expression) → Decidable (AreArguments values)
  | [] => .isTrue trivial
  | e :: rest =>
    have := decideIsArgument e
    have := decideAreArguments rest
    inferInstanceAs (Decidable (IsArgument e ∧ AreArguments rest))

end

instance : DecidablePred IsArgument := decideIsArgument

def IsValue : Expression → Prop
  | .readAttribute typeName channel => IsName typeName ∧ IsName channel
  | .arithmetic tree => tree.WellFormed ∧ tree.isLeaf = false
  | other => other.IsArgument

instance : DecidablePred IsValue
  | .readAttribute .. | .arithmetic _ => inferInstanceAs (Decidable (_ ∧ _))
  | .variable _ | .number _ | .string _ | .boolean _ | .call .. =>
    inferInstanceAs (Decidable (IsArgument _))

def IsItem : Expression → Prop
  | .call name values => (Expression.call name values).IsArgument
  | .variable v => v.WellFormed
  | _ => False

instance : DecidablePred IsItem
  | .call name values => inferInstanceAs (Decidable (Expression.call name values).IsArgument)
  | .variable v => inferInstanceAs (Decidable v.WellFormed)
  | .number _ | .string _ | .boolean _ | .readAttribute .. | .arithmetic _ => .isFalse id

mutual

def nesting : Expression → Nat
  | .call _ values => 1 + nestingList values
  | .arithmetic tree => tree.nesting
  | .variable _ | .number _ | .string _ | .boolean _ | .readAttribute .. => 0

def nestingList : List Expression → Nat
  | [] => 0
  | e :: rest => max e.nesting (nestingList rest)

end

end Expression

namespace Action

def WellFormed : Action → Prop
  | .assignment target value => IsName target ∧ value.IsValue
  | .writeAttribute typeName channel item => IsName typeName ∧ IsName channel ∧ item.IsItem

instance : DecidablePred WellFormed
  | .assignment .. | .writeAttribute .. => inferInstanceAs (Decidable (_ ∧ _))

-- The item of a write counts as a level of its own.
def nesting : Action → Nat
  | .assignment _ value => value.nesting
  | .writeAttribute _ _ item => 1 + item.nesting

end Action

section Phrases

variable {room : Nat} {tokens : List Token}

theorem isName_of_mem {name : String} (formed : ∀ t ∈ tokens, t.WellFormed)
    (member : .identifier name ∈ tokens) : IsName name := formed _ member

theorem VariablePhrase.wellFormed {v : Variable} (phrase : VariablePhrase tokens v)
    (formed : ∀ t ∈ tokens, t.WellFormed) : v.WellFormed := by
  rw [variablePhrase_iff.mp phrase] at formed
  intro name member
  rcases List.mem_cons.mp member with rfl | inPath
  · exact isName_of_mem formed List.mem_cons_self
  · refine isName_of_mem formed (List.mem_cons_of_mem _ (List.mem_flatMap.mpr ⟨name, inPath, ?_⟩))
    simp

theorem stringFits_of_token {content : String} {quote : Quote}
    (formed : (Token.string content quote).WellFormed) : StringFits content := by
  refine ⟨?_, formed.2⟩
  rintro ⟨single, double⟩
  cases quote with
  | single => exact formed.1 single
  | double => exact formed.1 double

theorem ArithmeticPhrase.wellFormed {level : Nat} {tree : Arithmetic}
    (phrase : ArithmeticPhrase room level tokens tree)
    (formed : ∀ t ∈ tokens, t.WellFormed) : tree.WellFormed := by
  induction phrase with
  | term _ ih => exact ih formed
  | unary _ ih => exact ih formed
  | binary operator _ _ left right =>
    refine ⟨left fun t member => formed t (List.mem_append_left _ member), right fun t member => ?_⟩
    exact formed t (List.mem_append_right _ (List.mem_cons_of_mem _ member))
  | minus _ ih => exact ih fun t member => formed t (List.mem_cons_of_mem _ member)
  | number _ _ => trivial
  | reference _ phrase => exact phrase.wellFormed formed
  | group _ ih =>
    refine ih fun t member => formed t ?_
    exact List.mem_append_left _ (List.mem_cons_of_mem _ member)

theorem Arithmetic.nesting_le_grouped (parenthesised : Bool) (levels : Nat) :
    levels ≤ grouped parenthesised levels := by
  cases parenthesised <;> simp [grouped]

theorem Arithmetic.grouped_le {parenthesised : Bool} {levels room : Nat} (fits : levels ≤ room) :
    grouped parenthesised levels ≤ room + 1 := by
  cases parenthesised <;> simp [grouped] <;> omega

theorem Arithmetic.grouped_of_not {needed : Prop} [Decidable needed] {levels : Nat}
    (plain : ¬needed) : grouped (decide needed) levels = levels := by
  rw [decide_eq_false plain]; rfl

theorem Arithmetic.one_le_binding (tree : Arithmetic) : 1 ≤ tree.binding := by
  cases tree with
  | binary operator _ _ => cases operator <;> simp [binding, Operator.precedence]
  | _ => simp [binding]

-- A phrase of a stratum may be printed as an operand of that stratum: parentheses that the printer
-- adds there were there before.
theorem ArithmeticPhrase.nesting_le {level : Nat} {tree : Arithmetic}
    (phrase : ArithmeticPhrase room level tokens tree) :
    Arithmetic.grouped (tree.binding < level) tree.nesting ≤ room := by
  induction phrase with
  | @term _ _ tree _ ih =>
    rw [Arithmetic.grouped_of_not (Nat.not_lt.mpr tree.one_le_binding)]
    exact Nat.le_trans (Arithmetic.nesting_le_grouped _ _) ih
  | @unary _ _ tree _ ih =>
    refine Nat.le_trans ?_ ih
    by_cases below : tree.binding < 2
    · simp [below, Nat.lt_succ_of_lt below]
    · rw [Arithmetic.grouped_of_not below]
      exact Arithmetic.nesting_le_grouped _ _
  | @binary _ _ _ left right operator _ _ leftFits rightFits =>
    have own : ¬(Arithmetic.binary operator left right).binding < operator.precedence :=
      Nat.lt_irrefl _
    rw [Arithmetic.grouped_of_not own]
    simp only [Nat.lt_succ_iff] at rightFits
    exact Nat.max_le.mpr ⟨leftFits, rightFits⟩
  | @minus _ _ tree _ ih =>
    have own : ¬(Arithmetic.negate tree).binding < 3 := Nat.lt_irrefl 3
    rw [Arithmetic.grouped_of_not own, Arithmetic.nesting]
    omega
  | number _ _ => simp [Arithmetic.binding, Arithmetic.grouped, Arithmetic.nesting]
  | reference _ _ => simp [Arithmetic.binding, Arithmetic.grouped, Arithmetic.nesting]
  | group _ ih => exact Arithmetic.grouped_le (Nat.le_trans (Arithmetic.nesting_le_grouped _ _) ih)

mutual

theorem CallPhrase.isArgument {room : Nat} {tokens : List Token} {value : Expression} :
    CallPhrase room tokens value → (∀ t ∈ tokens, t.WellFormed) → value.IsArgument
  | .empty _ _, formed => ⟨isName_of_mem formed List.mem_cons_self, trivial⟩
  | .filled name list, formed => by
    refine ⟨isName_of_mem formed List.mem_cons_self, list.areArguments fun t member => ?_⟩
    refine formed t (List.mem_append_left _ ?_)
    exact List.mem_cons_of_mem _ (List.mem_cons_of_mem _ member)

theorem ArgumentPhrase.isArgument {room : Nat} {tokens : List Token} {value : Expression} :
    ArgumentPhrase room tokens value → (∀ t ∈ tokens, t.WellFormed) → value.IsArgument
  | .call phrase, formed => phrase.isArgument formed
  | .number _ _, _ | .boolean _ _, _ => trivial
  | .string _ _ _, formed => stringFits_of_token (formed _ List.mem_cons_self)
  | .reference _ phrase, formed => phrase.wellFormed formed

theorem ArgumentsPhrase.areArguments {room : Nat} {tokens : List Token}
    {values : List Expression} :
    ArgumentsPhrase room tokens values → (∀ t ∈ tokens, t.WellFormed) →
      Expression.AreArguments values
  | .last only, formed => ⟨only.isArgument formed, trivial⟩
  | .more first rest, formed =>
    ⟨first.isArgument fun t member => formed t (List.mem_append_left _ member),
      rest.areArguments fun t member =>
        formed t (List.mem_append_right _ (List.mem_cons_of_mem _ member))⟩

end

mutual

theorem CallPhrase.nesting_le {room : Nat} {tokens : List Token} {value : Expression} :
    CallPhrase room tokens value → value.nesting ≤ room
  | .empty _ _ => by simp [Expression.nesting, Expression.nestingList]
  | .filled _ list => by
    have inside := list.nesting_le
    simp only [Expression.nesting]
    omega

theorem ArgumentPhrase.nesting_le {room : Nat} {tokens : List Token} {value : Expression} :
    ArgumentPhrase room tokens value → value.nesting ≤ room
  | .call phrase => phrase.nesting_le
  | .number _ _ | .string _ _ _ | .boolean _ _ | .reference _ _ => Nat.zero_le _

theorem ArgumentsPhrase.nesting_le {room : Nat} {tokens : List Token}
    {values : List Expression} :
    ArgumentsPhrase room tokens values → Expression.nestingList values ≤ room
  | .last only => by simpa [Expression.nestingList] using only.nesting_le
  | .more first rest => Nat.max_le.mpr ⟨first.nesting_le, rest.nesting_le⟩

end

theorem CallPhrase.eq_call {value : Expression} (phrase : CallPhrase room tokens value) :
    ∃ name values, value = .call name values := by
  cases phrase with
  | empty _ name => exact ⟨name, [], rfl⟩
  | filled name _ => exact ⟨name, _, rfl⟩

theorem isValue_ofArithmetic {tree : Arithmetic} (formed : tree.WellFormed) :
    (Expression.ofArithmetic tree).IsValue := by
  cases tree with
  | number _ => trivial
  | «variable» _ => exact formed
  | negate _ => exact ⟨formed, rfl⟩
  | binary _ _ _ => exact ⟨formed, rfl⟩

theorem nesting_ofArithmetic (tree : Arithmetic) :
    (Expression.ofArithmetic tree).nesting = tree.nesting := by
  cases tree <;> simp [Expression.ofArithmetic, Expression.nesting, Arithmetic.nesting]

theorem ValuePhrase.isValue {value : Expression} (phrase : ValuePhrase room tokens value)
    (formed : ∀ t ∈ tokens, t.WellFormed) : value.IsValue := by
  cases phrase with
  | read typeName channel =>
    exact ⟨isName_of_mem formed (by simp), isName_of_mem formed (by simp)⟩
  | boolean _ => trivial
  | string content quote => exact stringFits_of_token (formed _ List.mem_cons_self)
  | call phrase =>
    have argument := phrase.isArgument formed
    obtain ⟨name, values, rfl⟩ := phrase.eq_call
    exact argument
  | expr phrase => exact isValue_ofArithmetic (phrase.wellFormed formed)

theorem ItemPhrase.isItem {item : Expression} (phrase : ItemPhrase room tokens item)
    (formed : ∀ t ∈ tokens, t.WellFormed) : item.IsItem := by
  cases phrase with
  | call phrase =>
    have argument := phrase.isArgument formed
    obtain ⟨name, values, rfl⟩ := phrase.eq_call
    exact argument
  | reference _ phrase => exact phrase.wellFormed formed

theorem ActionPhrase.wellFormed {a : Action} (phrase : ActionPhrase room tokens a)
    (formed : ∀ t ∈ tokens, t.WellFormed) : a.WellFormed := by
  cases phrase with
  | assignment target value =>
    refine ⟨isName_of_mem formed List.mem_cons_self, value.isValue fun t member => ?_⟩
    exact formed t (List.mem_cons_of_mem _ (List.mem_cons_of_mem _ member))
  | write typeName channel item =>
    refine ⟨isName_of_mem formed List.mem_cons_self, isName_of_mem formed (by simp),
      item.isItem fun t member => formed t ?_⟩
    simp [member]

theorem ActionPhrase.nesting_le {a : Action} (phrase : ActionPhrase room tokens a) :
    a.nesting ≤ room := by
  cases phrase with
  | assignment target value =>
    cases value with
    | read _ _ => exact Nat.zero_le _
    | boolean _ => exact Nat.zero_le _
    | string _ _ => exact Nat.zero_le _
    | call phrase => exact phrase.nesting_le
    | expr phrase =>
      rw [Action.nesting, nesting_ofArithmetic]
      exact Nat.le_trans (Arithmetic.nesting_le_grouped _ _) phrase.nesting_le
  | write typeName channel item =>
    rw [Action.nesting, Nat.add_comm]
    refine Nat.succ_le_succ ?_
    cases item with
    | call phrase => exact phrase.nesting_le
    | reference _ _ => exact Nat.zero_le _

end Phrases

end StateActions
