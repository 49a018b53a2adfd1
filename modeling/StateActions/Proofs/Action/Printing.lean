import StateActions.Proofs.Action.WellFormed
import StateActions.Proofs.Token.Spelling

namespace StateActions

def stringToken (text : String) : Token :=
  .string text (if text.contains '\x22' then .single else .double)

namespace Arithmetic

def enclosed (parenthesised : Bool) (tokens : List Token) : List Token :=
  if parenthesised then .leftParen :: tokens ++ [.rightParen] else tokens

def printed : Arithmetic → List Token
  | .number value => [.number value]
  | .variable v => v.tokens
  | .negate operand => .minus :: enclosed (operand.binding < 3) operand.printed
  | .binary operator left right =>
    enclosed (left.binding < operator.precedence) left.printed ++
      .space :: operator.token :: .space ::
      enclosed (right.binding ≤ operator.precedence) right.printed

def numbers : Arithmetic → List Nat
  | .number value => [value]
  | .variable _ => []
  | .negate operand => operand.numbers
  | .binary _ left right => left.numbers ++ right.numbers

end Arithmetic

namespace Expression

mutual

def printed : Expression → List Token
  | .variable v => v.tokens
  | .number value => [.number value]
  | .string text => [stringToken text]
  | .boolean value => [.boolean value]
  | .call name values =>
    .identifier name :: .space :: .leftParen :: printedList values ++ [.rightParen]
  | .readAttribute typeName channel =>
    [.identifier typeName, .tick, .identifier "Read", .space, .leftParen, .identifier channel,
      .rightParen]
  | .arithmetic tree => tree.printed

def printedList : List Expression → List Token
  | [] => []
  | [e] => e.printed
  | e :: rest => e.printed ++ .comma :: .space :: printedList rest

end

mutual

def numbers : Expression → List Nat
  | .number value => [value]
  | .call _ values => numbersList values
  | .arithmetic tree => tree.numbers
  | .variable _ | .string _ | .boolean _ | .readAttribute .. => []

def numbersList : List Expression → List Nat
  | [] => []
  | e :: rest => e.numbers ++ numbersList rest

end

end Expression

namespace Action

def printed : Action → List Token
  | .assignment target value => .identifier target :: .space :: .assign :: .space :: value.printed
  | .writeAttribute typeName channel item =>
    .identifier typeName :: .tick :: .identifier "Write" :: .space :: .leftParen ::
      .identifier channel :: .comma :: .space :: item.printed ++ [.rightParen]

def numbers (a : Action) : List Nat := a.expression.numbers

end Action

section Text

theorem toList_variable (v : Variable) : v.print.toList = spell v.tokens := by
  obtain ⟨name, path⟩ := v
  unfold Variable.print Variable.components Variable.tokens
  induction path generalizing name with
  | nil => simp [Token.spelling, String.intercalate_singleton]
  | cons next path ih =>
    rw [String.intercalate_cons_cons, String.toList_append, String.toList_append, ih next]
    simp [Token.spelling]

theorem toList_parenthesised (needed : Bool) {text : String} {tokens : List Token}
    (same : text.toList = spell tokens) :
    (Arithmetic.parenthesised needed text).toList = spell (Arithmetic.enclosed needed tokens) := by
  cases needed <;> simp [Arithmetic.parenthesised, Arithmetic.enclosed, same, Token.spelling]

theorem symbol_eq_spelling (o : Operator) : o.symbol = o.token.spelling := by cases o <;> rfl

theorem toList_arithmetic (tree : Arithmetic) : tree.print.toList = spell tree.printed := by
  induction tree with
  | number value => simp [Arithmetic.print, Arithmetic.printed, Token.spelling]
  | «variable» v => exact toList_variable v
  | negate operand ih =>
    simp [Arithmetic.print, Arithmetic.printed, toList_parenthesised _ ih, Token.spelling]
  | binary operator left right leftText rightText =>
    simp [Arithmetic.print, Arithmetic.printed, toList_parenthesised _ leftText,
      toList_parenthesised _ rightText, symbol_eq_spelling, Token.spelling]

theorem toList_printString (text : String) :
    (Expression.printString text).toList = spell [stringToken text] := by
  unfold Expression.printString stringToken
  split <;> simp [Token.spelling, Quote.char]

mutual

theorem toList_expression : ∀ e : Expression, e.print.toList = spell e.printed
  | .variable v => toList_variable v
  | .number value => by simp [Expression.print, Expression.printed, Token.spelling]
  | .string text => toList_printString text
  | .boolean value => by cases value <;> simp [Expression.print, Expression.printed, Token.spelling]
  | .call name values => by
    have list := toList_printList values
    simp [Expression.print, Expression.printed, list, Token.spelling]
  | .readAttribute typeName channel => by
    simp [Expression.print, Expression.printed, Token.spelling]
  | .arithmetic tree => toList_arithmetic tree

theorem toList_printList : ∀ values : List Expression,
    (", ".intercalate (Expression.printList values)).toList = spell (Expression.printedList values)
  | [] => rfl
  | [e] => by
    simp [Expression.printList, Expression.printedList, toList_expression e]
  | e :: next :: rest => by
    have others := toList_printList (next :: rest)
    simp only [Expression.printList] at others ⊢
    rw [String.intercalate_cons_cons, String.toList_append, String.toList_append, others,
      toList_expression e]
    simp [Expression.printedList, Token.spelling]

end

theorem toList_print (a : Action) : a.print.toList = spell a.printed := by
  cases a with
  | assignment target value =>
    simp [Action.print, Action.printed, toList_expression, Token.spelling]
  | writeAttribute typeName channel item =>
    simp [Action.print, Action.printed, toList_expression, Token.spelling]

end Text

section Separation

namespace Token

def isMark : Token → Bool
  | .identifier _ | .boolean _ | .number _ | .string .. | .tick | .eof => false
  | _ => true

variable {previous mark : Token} {tokens others : List Token}

theorem isMark_parts (isMark : mark.isMark = true) :
    mark.isWordy = false ∧ mark.isIdentifier = false ∧ mark ≠ .tick ∧
      mark.isSingleQuoted = false := by
  cases mark with
  | identifier _ => cases isMark
  | boolean _ => cases isMark
  | number _ => cases isMark
  | string _ _ => cases isMark
  | tick => cases isMark
  | eof => cases isMark
  | _ => exact ⟨rfl, rfl, Token.noConfusion, rfl⟩

theorem adjacent_mark (isMark : mark.isMark = true) : Adjacent previous mark := by
  obtain ⟨wordy, -, tick, quoted⟩ := isMark_parts isMark
  exact ⟨fun _ => wordy, fun same => absurd same tick, fun single => by simp [quoted] at single⟩

theorem readable_after_mark (isMark : mark.isMark = true) :
    Readable mark tokens ↔ Readable .space tokens := by
  obtain ⟨wordy, name, -, -⟩ := isMark_parts isMark
  have same : ∀ t, Adjacent mark t ↔ Adjacent .space t := by
    intro t
    constructor
    · rintro ⟨-, tick, -⟩
      exact ⟨Bool.noConfusion, fun eq => name.symm.trans (tick eq), fun _ => rfl⟩
    · rintro ⟨-, tick, -⟩
      exact ⟨fun eq => by simp [wordy] at eq, fun eq => name.trans (tick eq), fun _ => name⟩
  cases tokens with
  | nil => simp
  | cons t tokens => rw [Readable, Readable, List.isChain_cons_cons, List.isChain_cons_cons, same]

-- A mark parts what stands before it from what stands after it.
theorem readable_append_mark (isMark : mark.isMark = true) :
    Readable previous (tokens ++ mark :: others) ↔
      Readable previous tokens ∧ Readable .space others := by
  rw [← readable_after_mark isMark, Readable, ← List.cons_append, List.isChain_append]
  constructor
  · rintro ⟨before, after, -⟩
    exact ⟨before, after⟩
  · rintro ⟨before, after⟩
    refine ⟨before, after, ?_⟩
    rintro t _ _ ⟨⟩
    exact adjacent_mark isMark

theorem readable_mark_cons (isMark : mark.isMark = true) :
    Readable previous (mark :: others) ↔ Readable .space others := by
  rw [← List.nil_append (mark :: others), readable_append_mark isMark]
  simp

theorem readable_after_space {t : Token} (other : t ≠ .tick) (rest : Readable t tokens) :
    Readable .space (t :: tokens) :=
  List.isChain_cons_cons.mpr
    ⟨⟨Bool.noConfusion, fun same => absurd same other, fun _ => rfl⟩, rest⟩

theorem readable_single {t : Token} (other : t ≠ .tick) : Readable .space [t] :=
  readable_after_space other (List.isChain_singleton _)

end Token

open Token

theorem readable_variable (v : Variable) : Readable .space v.tokens := by
  refine readable_after_space Token.noConfusion ?_
  generalize Token.identifier v.name = previous
  induction v.path generalizing previous with
  | nil => exact List.isChain_singleton _
  | cons name path ih =>
    refine (readable_mark_cons rfl).mpr (readable_after_space Token.noConfusion ?_)
    exact ih _

theorem readable_enclosed {parenthesised : Bool} {tokens : List Token}
    (inner : Readable .space tokens) :
    Readable .space (Arithmetic.enclosed parenthesised tokens) := by
  cases parenthesised with
  | false => exact inner
  | true =>
    refine (readable_mark_cons rfl).mpr ((readable_append_mark rfl).mpr ⟨inner, ?_⟩)
    exact List.isChain_singleton _

theorem isMark_operator (o : Operator) : o.token.isMark = true := by cases o <;> rfl

theorem readable_arithmetic (tree : Arithmetic) : Readable .space tree.printed := by
  induction tree with
  | number value => exact readable_single Token.noConfusion
  | «variable» v => exact readable_variable v
  | negate operand ih => exact (readable_mark_cons rfl).mpr (readable_enclosed ih)
  | binary operator left right leftReadable rightReadable =>
    refine (readable_append_mark rfl).mpr ⟨readable_enclosed leftReadable, ?_⟩
    refine (readable_mark_cons (isMark_operator operator)).mpr ?_
    exact (readable_mark_cons rfl).mpr (readable_enclosed rightReadable)

-- A name, a tick and a name again: the one place where a tick is written.
theorem readable_attribute {typeName field : String} {tokens : List Token}
    (rest : Readable (.identifier field) tokens) :
    Readable .space (.identifier typeName :: .tick :: .identifier field :: tokens) := by
  refine readable_after_space Token.noConfusion (List.isChain_cons_cons.mpr ⟨?_, ?_⟩)
  · exact ⟨fun _ => rfl, fun _ => rfl, Bool.noConfusion⟩
  · exact List.isChain_cons_cons.mpr ⟨⟨Bool.noConfusion, Token.noConfusion, Bool.noConfusion⟩, rest⟩

mutual

theorem readable_expression : ∀ e : Expression, Readable .space e.printed
  | .variable v => readable_variable v
  | .number _ | .string _ | .boolean _ => readable_single Token.noConfusion
  | .call name values => by
    refine readable_after_space Token.noConfusion ((readable_mark_cons rfl).mpr ?_)
    refine (readable_mark_cons rfl).mpr ((readable_append_mark rfl).mpr ⟨?_, ?_⟩)
    · exact readable_printedList values
    · exact List.isChain_singleton _
  | .readAttribute typeName channel =>
    readable_attribute ((readable_mark_cons rfl).mpr ((readable_mark_cons rfl).mpr
      (readable_after_space Token.noConfusion ((readable_mark_cons rfl).mpr
        (List.isChain_singleton _)))))
  | .arithmetic tree => readable_arithmetic tree

theorem readable_printedList : ∀ values : List Expression,
    Readable .space (Expression.printedList values)
  | [] => List.isChain_singleton _
  | [e] => readable_expression e
  | e :: next :: rest => by
    refine (readable_append_mark rfl).mpr ⟨readable_expression e, ?_⟩
    exact (readable_mark_cons rfl).mpr (readable_printedList (next :: rest))

end

-- The tokens of the canonical text can be cut apart again.
theorem readable_printed (a : Action) : Readable .space a.printed := by
  cases a with
  | assignment target value =>
    refine readable_after_space Token.noConfusion ((readable_mark_cons rfl).mpr ?_)
    exact (readable_mark_cons rfl).mpr ((readable_mark_cons rfl).mpr (readable_expression value))
  | writeAttribute typeName channel item =>
    refine readable_attribute ((readable_mark_cons rfl).mpr ((readable_mark_cons rfl).mpr ?_))
    refine readable_after_space Token.noConfusion ((readable_mark_cons rfl).mpr ?_)
    refine (readable_mark_cons rfl).mpr ((readable_append_mark rfl).mpr ⟨?_, ?_⟩)
    · exact readable_expression item
    · exact List.isChain_singleton _

end Separation

section Members

variable {P : Token → Prop}

theorem forall_enclosed {parenthesised : Bool} {tokens : List Token} (left : P .leftParen)
    (right : P .rightParen) :
    (∀ t ∈ Arithmetic.enclosed parenthesised tokens, P t) ↔ ∀ t ∈ tokens, P t := by
  cases parenthesised with
  | false => rfl
  | true =>
    rw [Arithmetic.enclosed, if_pos rfl, List.cons_append, List.forall_mem_cons,
      List.forall_mem_append, List.forall_mem_singleton]
    exact ⟨fun all => all.2.1, fun inner => ⟨left, inner, right⟩⟩

theorem forall_variable {v : Variable} (dot : P .dot) :
    (∀ t ∈ v.tokens, P t) ↔ ∀ name ∈ v.components, P (.identifier name) := by
  simp only [Variable.tokens, Variable.components, List.forall_mem_cons, List.mem_flatMap]
  refine and_congr_right fun _ => ⟨fun each name member => ?_, fun each t member => ?_⟩
  · exact each _ ⟨name, member, by simp⟩
  · obtain ⟨name, inPath, written⟩ := member
    rcases List.mem_pair.mp written with rfl | rfl
    · exact dot
    · exact each name inPath

theorem wellFormed_stringToken {text : String} (fits : StringFits text) :
    (stringToken text).WellFormed := by
  obtain ⟨quotes, short⟩ := fits
  unfold stringToken
  rw [String.contains_char_eq]
  by_cases double : '\x22' ∈ text.toList
  · rw [if_pos (by simpa using double)]
    exact ⟨fun single => quotes ⟨single, double⟩, short⟩
  · rw [if_neg (by simpa using double)]
    exact ⟨double, short⟩

theorem wellFormed_operator (o : Operator) : o.token.WellFormed := by cases o <;> trivial

theorem wellFormed_arithmetic {tree : Arithmetic} (formed : tree.WellFormed) :
    ∀ t ∈ tree.printed, t.WellFormed := by
  induction tree with
  | number value => simp [Arithmetic.printed, Token.WellFormed]
  | «variable» v => exact (forall_variable trivial).mpr formed
  | negate operand ih =>
    exact List.forall_mem_cons.mpr ⟨trivial, (forall_enclosed trivial trivial).mpr (ih formed)⟩
  | binary operator left right leftFormed rightFormed =>
    refine List.forall_mem_append.mpr
      ⟨(forall_enclosed trivial trivial).mpr (leftFormed formed.1), ?_⟩
    refine List.forall_mem_cons.mpr ⟨trivial, List.forall_mem_cons.mpr ⟨wellFormed_operator _, ?_⟩⟩
    exact List.forall_mem_cons.mpr
      ⟨trivial, (forall_enclosed trivial trivial).mpr (rightFormed formed.2)⟩

mutual

theorem wellFormed_argument : ∀ e : Expression, e.IsArgument → ∀ t ∈ e.printed, t.WellFormed
  | .variable v, formed => (forall_variable trivial).mpr formed
  | .number _, _ | .boolean _, _ => by simp [Expression.printed, Token.WellFormed]
  | .string text, fits => List.forall_mem_singleton.mpr (wellFormed_stringToken fits)
  | .call name values, formed => by
    have list := wellFormed_printedList values formed.2
    refine List.forall_mem_cons.mpr ⟨formed.1, List.forall_mem_cons.mpr ⟨trivial, ?_⟩⟩
    refine List.forall_mem_cons.mpr ⟨trivial, List.forall_mem_append.mpr ⟨list, ?_⟩⟩
    exact List.forall_mem_singleton.mpr trivial
  | .readAttribute .., impossible | .arithmetic _, impossible => impossible.elim

theorem wellFormed_printedList : ∀ values : List Expression, Expression.AreArguments values →
    ∀ t ∈ Expression.printedList values, t.WellFormed
  | [], _ => by simp [Expression.printedList]
  | [e], formed => wellFormed_argument e formed.1
  | e :: next :: rest, formed => by
    have others := wellFormed_printedList (next :: rest) formed.2
    refine List.forall_mem_append.mpr ⟨wellFormed_argument e formed.1, ?_⟩
    exact List.forall_mem_cons.mpr ⟨trivial, List.forall_mem_cons.mpr ⟨trivial, others⟩⟩

end

theorem wellFormed_value {e : Expression} (formed : e.IsValue) :
    ∀ t ∈ e.printed, t.WellFormed := by
  cases e with
  | readAttribute typeName channel =>
    have read : IsName "Read" := by decide
    simp [Expression.printed, Token.WellFormed, formed.1, formed.2, read]
  | arithmetic tree => exact wellFormed_arithmetic formed.1
  | _ => exact wellFormed_argument _ formed

theorem isArgument_of_isItem {e : Expression} (item : e.IsItem) : e.IsArgument := by
  cases e with
  | call name values => exact item
  | «variable» v => exact item
  | _ => exact item.elim

theorem wellFormed_printed {a : Action} (formed : a.WellFormed) :
    ∀ t ∈ a.printed, t.WellFormed := by
  cases a with
  | assignment target value =>
    have tokens := wellFormed_value formed.2
    simpa [Action.printed, Token.WellFormed, formed.1] using tokens
  | writeAttribute typeName channel item =>
    obtain ⟨type, destination, item⟩ := formed
    have tokens := wellFormed_argument _ (isArgument_of_isItem item)
    have write : IsName "Write" := by decide
    simp only [Action.printed, List.forall_mem_cons, List.cons_append, List.forall_mem_append]
    exact ⟨type, trivial, write, trivial, trivial, destination, trivial, trivial, tokens,
      trivial, List.forall_mem_nil _⟩

def DecimalsFit (numbers : List Nat) : Prop :=
  ∀ n ∈ numbers, (toString n).length ≤ Limits.numberDigits

instance (numbers : List Nat) : Decidable (DecimalsFit numbers) :=
  inferInstanceAs (Decidable (∀ n ∈ numbers, (toString n).length ≤ Limits.numberDigits))

def Token.numbers : Token → List Nat
  | .number value => [value]
  | _ => []

theorem digitsFit_iff {tokens : List Token} :
    (∀ t ∈ tokens, t.DigitsFit) ↔ DecimalsFit (tokens.flatMap Token.numbers) := by
  induction tokens with
  | nil => simp [DecimalsFit]
  | cons t tokens ih =>
    rw [List.forall_mem_cons, ih]
    cases t with
    | number value => simp [DecimalsFit, Token.numbers, Token.DigitsFit]
    | _ => exact and_iff_right trivial

theorem numbers_enclosed (parenthesised : Bool) (tokens : List Token) :
    (Arithmetic.enclosed parenthesised tokens).flatMap Token.numbers =
      tokens.flatMap Token.numbers := by
  cases parenthesised <;> simp [Arithmetic.enclosed, Token.numbers]

theorem numbers_variable (v : Variable) : v.tokens.flatMap Token.numbers = [] := by
  rw [List.flatMap_eq_nil_iff]
  exact (forall_variable (P := fun t => t.numbers = []) rfl).mpr fun _ _ => rfl

theorem numbers_operator (o : Operator) : o.token.numbers = [] := by cases o <;> rfl

theorem numbers_arithmetic (tree : Arithmetic) :
    tree.printed.flatMap Token.numbers = tree.numbers := by
  induction tree with
  | number value => rfl
  | «variable» v => exact numbers_variable v
  | negate operand ih =>
    simp [Arithmetic.printed, Arithmetic.numbers, numbers_enclosed, ih, Token.numbers]
  | binary operator left right leftNumbers rightNumbers =>
    have blank : Token.numbers .space = [] := rfl
    simp [Arithmetic.printed, Arithmetic.numbers, numbers_enclosed, leftNumbers, rightNumbers,
      numbers_operator, blank]

mutual

theorem numbers_expression : ∀ e : Expression, e.printed.flatMap Token.numbers = e.numbers
  | .variable v => numbers_variable v
  | .number _ | .string _ | .boolean _ | .readAttribute .. => rfl
  | .call name values => by
    simp [Expression.printed, Expression.numbers, Token.numbers, numbers_printedList values]
  | .arithmetic tree => numbers_arithmetic tree

theorem numbers_printedList : ∀ values : List Expression,
    (Expression.printedList values).flatMap Token.numbers = Expression.numbersList values
  | [] => rfl
  | [e] => by simp [Expression.printedList, Expression.numbersList, numbers_expression e]
  | e :: next :: rest => by
    have others := numbers_printedList (next :: rest)
    rw [Expression.numbersList, ← others, ← numbers_expression e]
    simp [Expression.printedList, Token.numbers]

end

theorem numbers_printed (a : Action) : a.printed.flatMap Token.numbers = a.numbers := by
  cases a with
  | assignment target value =>
    simp [Action.printed, Action.numbers, Action.expression, Token.numbers, numbers_expression]
  | writeAttribute typeName channel item =>
    simp [Action.printed, Action.numbers, Action.expression, Token.numbers, numbers_expression]

end Members

section Phrases

theorem filter_closed (tokens : List Token) :
    (tokens ++ [Token.rightParen]).filter Token.isSignificant =
      tokens.filter Token.isSignificant ++ [.rightParen] :=
  List.filter_append _ _

theorem filter_enclosed (parenthesised : Bool) (tokens : List Token) :
    (Arithmetic.enclosed parenthesised tokens).filter Token.isSignificant =
      Arithmetic.enclosed parenthesised (tokens.filter Token.isSignificant) := by
  cases parenthesised with
  | false => rfl
  | true => exact congrArg (.leftParen :: ·) (filter_closed tokens)

theorem filter_variable (v : Variable) : v.tokens.filter Token.isSignificant = v.tokens := by
  rw [List.filter_eq_self]
  exact (forall_variable (P := fun t => t.isSignificant = true) rfl).mpr fun _ _ => rfl

theorem isSignificant_operator (o : Operator) : o.token.isSignificant = true := by
  cases o <;> rfl

-- A tree that makes a phrase of its own stratum makes one of every stratum as an operand: the
-- printer parenthesises it where its own stratum is too low.
theorem phrase_enclosed {tree : Arithmetic} {tokens : List Token} {room level : Nat}
    (own : ∀ room, tree.nesting ≤ room → ArithmeticPhrase room (min tree.binding 3) tokens tree)
    (positive : 1 ≤ level) (top : level ≤ 3)
    (fits : Arithmetic.grouped (tree.binding < level) tree.nesting ≤ room) :
    ArithmeticPhrase room level (Arithmetic.enclosed (tree.binding < level) tokens) tree := by
  by_cases below : tree.binding < level
  · simp only [below, decide_true, Arithmetic.grouped, Arithmetic.enclosed, if_true] at fits ⊢
    obtain ⟨inside, rfl⟩ := Nat.exists_eq_add_one.mpr (show 0 < room by omega)
    have inner : ArithmeticPhrase inside 1 tokens tree := (own inside (by omega)).lower
      (Nat.le_refl 1) (Nat.le_min.mpr ⟨tree.one_le_binding, by omega⟩) (Nat.min_le_right _ _)
    exact (ArithmeticPhrase.group inner).lower positive top (Nat.le_refl 3)
  · simp only [below, decide_false, Arithmetic.grouped, Arithmetic.enclosed] at fits ⊢
    exact (own room fits).lower positive (Nat.le_min.mpr ⟨Nat.le_of_not_lt below, top⟩)
      (Nat.min_le_right _ _)

theorem arithmeticPhrase_printed (tree : Arithmetic) (room : Nat) (fits : tree.nesting ≤ room) :
    ArithmeticPhrase room (min tree.binding 3) (tree.printed.filter Token.isSignificant) tree := by
  induction tree generalizing room with
  | number value => exact .number room value
  | «variable» v => exact .reference room (variablePhrase_iff.mpr (filter_variable v))
  | negate operand ih =>
    rw [Arithmetic.nesting] at fits
    obtain ⟨inside, rfl⟩ := Nat.exists_eq_add_one.mpr (show 0 < room by omega)
    rw [Nat.add_comm, Nat.add_le_add_iff_right] at fits
    have operand := phrase_enclosed ih (by omega) (Nat.le_refl 3) fits
    rw [← filter_enclosed] at operand
    exact .minus operand
  | binary operator left right leftPhrase rightPhrase =>
    obtain ⟨leftFits, rightFits⟩ := Nat.max_le.mp fits
    have low : 1 ≤ operator.precedence ∧ operator.precedence < 3 := by
      rcases operator.precedence_cases with same | same <;> omega
    -- The right operand stands one stratum higher, so an operator that binds alike is
    -- parenthesised.
    have higherFits :
        Arithmetic.grouped (right.binding < operator.precedence + 1) right.nesting ≤ room := by
      simpa only [Nat.lt_succ_iff] using rightFits
    have before := phrase_enclosed leftPhrase low.1 (Nat.le_of_lt low.2) leftFits
    have after := phrase_enclosed rightPhrase (Nat.le_succ_of_le low.1) low.2 higherFits
    rw [← filter_enclosed] at before after
    have whole := ArithmeticPhrase.binary operator before after
    have level : min (Arithmetic.binary operator left right).binding 3 = operator.precedence :=
      Nat.min_eq_left (Nat.le_of_lt low.2)
    have blank : Token.isSignificant .space = false := rfl
    rw [level]
    simpa [Arithmetic.printed, Nat.lt_succ_iff, List.filter_cons, isSignificant_operator, blank]
      using whole

theorem expressionPhrase_printed (tree : Arithmetic) {room : Nat} (fits : tree.nesting ≤ room) :
    ArithmeticPhrase room 1 (tree.printed.filter Token.isSignificant) tree :=
  (arithmeticPhrase_printed tree room fits).lower (Nat.le_refl 1)
    (Nat.le_min.mpr ⟨tree.one_le_binding, by omega⟩) (Nat.min_le_right _ _)

mutual

theorem argumentPhrase_printed : ∀ (e : Expression) (room : Nat), e.IsArgument → e.nesting ≤ room →
    ArgumentPhrase room (e.printed.filter Token.isSignificant) e
  | .variable v, room, _, _ => .reference room (variablePhrase_iff.mpr (filter_variable v))
  | .number value, room, _, _ => .number room value
  | .string text, room, _, _ => .string room text _
  | .boolean value, room, _, _ => .boolean room value
  | .call name [], room, _, fits => by
    rw [Expression.nesting] at fits
    obtain ⟨inside, rfl⟩ := Nat.exists_eq_add_one.mpr (show 0 < room by omega)
    exact .call (.empty inside name)
  | .call name (first :: rest), room, formed, fits => by
    rw [Expression.nesting] at fits
    obtain ⟨inside, rfl⟩ := Nat.exists_eq_add_one.mpr (show 0 < room by omega)
    rw [Nat.add_comm, Nat.add_le_add_iff_right] at fits
    have list := argumentsPhrase_printed (first :: rest) inside (List.cons_ne_nil _ _) formed.2 fits
    have call := CallPhrase.filled name list
    rw [List.cons_append, List.cons_append, ← filter_closed] at call
    exact .call call
  | .readAttribute .., _, impossible, _ | .arithmetic _, _, impossible, _ => impossible.elim

theorem argumentsPhrase_printed : ∀ (values : List Expression) (room : Nat), values ≠ [] →
    Expression.AreArguments values → Expression.nestingList values ≤ room →
    ArgumentsPhrase room ((Expression.printedList values).filter Token.isSignificant) values
  | [], _, filled, _, _ => absurd rfl filled
  | [e], room, _, formed, fits =>
    .last (argumentPhrase_printed e room formed.1 (Nat.max_le.mp fits).1)
  | e :: next :: rest, room, _, formed, fits => by
    obtain ⟨firstFits, restFit⟩ := Nat.max_le.mp fits
    have others := argumentsPhrase_printed (next :: rest) room (List.cons_ne_nil _ _) formed.2
      restFit
    rw [Expression.printedList, List.filter_append]
    · exact .more (argumentPhrase_printed e room formed.1 firstFits) others
    · exact List.cons_ne_nil _ _

end

theorem callPhrase_printed {name : String} {values : List Expression} {room : Nat}
    (formed : (Expression.call name values).IsArgument)
    (fits : (Expression.call name values).nesting ≤ room) :
    CallPhrase room ((Expression.call name values).printed.filter Token.isSignificant)
      (.call name values) := by
  cases argumentPhrase_printed _ room formed fits with
  | call phrase => exact phrase

theorem valuePhrase_printed {e : Expression} {room : Nat} (formed : e.IsValue)
    (fits : e.nesting ≤ room) :
    ValuePhrase room (e.printed.filter Token.isSignificant) e := by
  cases e with
  | «variable» v =>
    exact .expr (expressionPhrase_printed (.variable v) (Nat.zero_le _))
  | number value => exact .expr (expressionPhrase_printed (.number value) (Nat.zero_le _))
  | string text => exact .string room text _
  | boolean value => exact .boolean room value
  | call name values => exact .call (callPhrase_printed formed fits)
  | readAttribute typeName channel => exact .read room typeName channel
  | arithmetic tree =>
    have phrase := ValuePhrase.expr (expressionPhrase_printed tree fits)
    cases tree with
    | number _ => cases formed.2
    | «variable» _ => cases formed.2
    | negate _ => exact phrase
    | binary _ _ _ => exact phrase

theorem itemPhrase_printed {e : Expression} {room : Nat} (formed : e.IsItem)
    (fits : e.nesting ≤ room) :
    ItemPhrase room (e.printed.filter Token.isSignificant) e := by
  cases e with
  | call name values => exact .call (callPhrase_printed formed fits)
  | «variable» v => exact .reference room (variablePhrase_iff.mpr (filter_variable v))
  | _ => exact formed.elim

theorem actionPhrase_printed {a : Action} {room : Nat} (formed : a.WellFormed)
    (fits : a.nesting ≤ room) :
    ActionPhrase room (a.printed.filter Token.isSignificant) a := by
  cases a with
  | assignment target value =>
    exact .assignment target (valuePhrase_printed formed.2 fits)
  | writeAttribute typeName channel item =>
    rw [Action.nesting] at fits
    obtain ⟨inside, rfl⟩ := Nat.exists_eq_add_one.mpr (show 0 < room by omega)
    rw [Nat.add_comm, Nat.add_le_add_iff_right] at fits
    have phrase := ActionPhrase.write typeName channel (itemPhrase_printed formed.2.2 fits)
    simp only [List.cons_append, ← filter_closed] at phrase
    exact phrase

end Phrases

end StateActions
