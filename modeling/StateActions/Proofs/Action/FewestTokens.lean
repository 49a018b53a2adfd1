import StateActions.Proofs.Action.RoundTrip
import StateActions.Proofs.Log.Reports

namespace StateActions

namespace Token

def isParenthesis : Token → Bool
  | .leftParen | .rightParen => true
  | _ => false

-- The token as the printer writes it. Only the quotes of a string may change.
def canonical : Token → Token
  | .string content _ => stringToken content
  | other => other

theorem isParenthesis_canonical (t : Token) : t.canonical.isParenthesis = t.isParenthesis := by
  cases t <;> rfl

end Token

theorem canonical_operator (o : Operator) : o.token.canonical = o.token := by cases o <;> rfl

theorem canonical_variable (v : Variable) : v.tokens.map Token.canonical = v.tokens := by
  have same : ∀ t ∈ v.tokens, t.canonical = t :=
    (forall_variable (P := fun t => t.canonical = t) rfl).mpr fun _ _ => rfl
  exact (List.map_congr_left same).trans (List.map_id _)

namespace Arithmetic

variable {tokens others : List Token}

theorem sublist_enclosed (parenthesised : Bool) (tokens : List Token) :
    tokens.Sublist (enclosed parenthesised tokens) := by
  cases parenthesised with
  | false => exact .refl tokens
  | true => exact (List.sublist_append_left tokens [.rightParen]).cons _

theorem enclosed_sublist (parenthesised : Bool) (inner : tokens.Sublist others) :
    (enclosed parenthesised tokens).Sublist (.leftParen :: others ++ [.rightParen]) := by
  cases parenthesised with
  | false => exact (inner.trans (List.sublist_append_left others [.rightParen])).cons _
  | true => exact (inner.append (.refl [Token.rightParen])).cons_cons _

theorem enclosed_mono {first second : Bool} (more : first = true → second = true) :
    (enclosed first tokens).Sublist (enclosed second tokens) := by
  cases first with
  | false => exact sublist_enclosed second tokens
  | true => rw [more rfl]

theorem enclosed_of_not {needed : Prop} [Decidable needed] (plain : ¬needed) :
    enclosed (decide needed) tokens = tokens := by
  rw [decide_eq_false plain]
  rfl

end Arithmetic

section Phrases

variable {room level : Nat} {tokens : List Token} {tree : Arithmetic}

-- A phrase of a stratum holds its tree as the printer writes it for an operand of that stratum.
theorem ArithmeticPhrase.printed_sublist (phrase : ArithmeticPhrase room level tokens tree) :
    (Arithmetic.enclosed (tree.binding < level) (tree.printed.filter Token.isSignificant)).Sublist
      (tokens.map Token.canonical) := by
  induction phrase with
  | @term _ _ tree _ ih =>
    rw [Arithmetic.enclosed_of_not (Nat.not_lt.mpr tree.one_le_binding)]
    exact (Arithmetic.sublist_enclosed _ _).trans ih
  | @unary _ _ tree _ ih =>
    refine (Arithmetic.enclosed_mono fun below => ?_).trans ih
    exact decide_eq_true (Nat.lt_succ_of_lt (of_decide_eq_true below))
  | @binary _ _ _ left right operator _ _ before after =>
    have own : ¬(Arithmetic.binary operator left right).binding < operator.precedence :=
      Nat.lt_irrefl _
    have blank : Token.isSignificant .space = false := rfl
    simp only [Nat.lt_succ_iff, ← filter_enclosed] at before after
    rw [Arithmetic.enclosed_of_not own, Arithmetic.printed, List.filter_append, List.map_append,
      List.map_cons, canonical_operator]
    simp only [List.filter_cons, blank, isSignificant_operator, if_true]
    exact before.append (after.cons_cons _)
  | @minus _ _ tree _ ih =>
    have own : ¬(Arithmetic.negate tree).binding < 3 := Nat.lt_irrefl 3
    rw [← filter_enclosed] at ih
    rw [Arithmetic.enclosed_of_not own]
    exact ih.cons_cons _
  | number _ _ => exact .refl _
  | @reference _ v _ phrase =>
    have own : ¬(Arithmetic.variable v).binding < 3 := by simp [Arithmetic.binding]
    rw [Arithmetic.enclosed_of_not own, Arithmetic.printed, filter_variable,
      variablePhrase_iff.mp phrase, canonical_variable]
  | @group _ _ tree _ ih =>
    rw [Arithmetic.enclosed_of_not (Nat.not_lt.mpr tree.one_le_binding)] at ih
    rw [List.map_append]
    exact Arithmetic.enclosed_sublist _ ih

theorem ArgumentsPhrase.ne_nil {values : List Expression}
    (phrase : ArgumentsPhrase room tokens values) : values ≠ [] := by
  cases phrase with
  | last _ => exact List.cons_ne_nil _ _
  | more _ _ => exact List.cons_ne_nil _ _

mutual

theorem CallPhrase.printed_sublist {room : Nat} {tokens : List Token} {value : Expression} :
    CallPhrase room tokens value →
      (value.printed.filter Token.isSignificant).Sublist (tokens.map Token.canonical)
  | .empty _ _ => .refl _
  | .filled name list => by
    have closed := list.printed_sublist.append (.refl [Token.rightParen])
    rw [← filter_closed] at closed
    rw [List.map_append]
    exact (List.Sublist.refl [.identifier name, .leftParen]).append closed

theorem ArgumentPhrase.printed_sublist {room : Nat} {tokens : List Token} {value : Expression} :
    ArgumentPhrase room tokens value →
      (value.printed.filter Token.isSignificant).Sublist (tokens.map Token.canonical)
  | .call phrase => phrase.printed_sublist
  | .number _ _ | .string _ _ _ | .boolean _ _ => .refl _
  | .reference _ phrase => by
    rw [Expression.printed, filter_variable, variablePhrase_iff.mp phrase, canonical_variable]

theorem ArgumentsPhrase.printed_sublist {room : Nat} {tokens : List Token}
    {values : List Expression} : ArgumentsPhrase room tokens values →
      ((Expression.printedList values).filter Token.isSignificant).Sublist
        (tokens.map Token.canonical)
  | .last only => only.printed_sublist
  | .more first rest => by
    rw [Expression.printedList, List.filter_append, List.map_append]
    · have others := rest.printed_sublist.cons_cons Token.comma
      exact first.printed_sublist.append others
    · exact rest.ne_nil

end

theorem printed_ofArithmetic (tree : Arithmetic) :
    (Expression.ofArithmetic tree).printed = tree.printed := by
  cases tree <;> rfl

theorem ValuePhrase.printed_sublist {value : Expression} (phrase : ValuePhrase room tokens value) :
    (value.printed.filter Token.isSignificant).Sublist (tokens.map Token.canonical) := by
  cases phrase with
  | read _ _ => exact .refl _
  | boolean _ => exact .refl _
  | string _ _ => exact .refl _
  | call phrase => exact phrase.printed_sublist
  | expr phrase =>
    rw [printed_ofArithmetic]
    exact (Arithmetic.sublist_enclosed _ _).trans phrase.printed_sublist

theorem ItemPhrase.printed_sublist {item : Expression} (phrase : ItemPhrase room tokens item) :
    (item.printed.filter Token.isSignificant).Sublist (tokens.map Token.canonical) := by
  cases phrase with
  | call phrase => exact phrase.printed_sublist
  | reference _ phrase => exact (ArgumentPhrase.reference room phrase).printed_sublist

theorem ActionPhrase.printed_sublist {a : Action} (phrase : ActionPhrase room tokens a) :
    (a.printed.filter Token.isSignificant).Sublist (tokens.map Token.canonical) := by
  cases phrase with
  | assignment target value => exact (value.printed_sublist.cons_cons _).cons_cons _
  | write typeName channel item =>
    have closed := item.printed_sublist.append (.refl [Token.rightParen])
    rw [← filter_closed] at closed
    rw [List.map_append]
    exact (List.Sublist.refl [.identifier typeName, .tick, .identifier "Write", .leftParen,
      .identifier channel, .comma]).append closed

end Phrases

section Plainness

variable {a : Action} {room : Nat} {tokens : List Token}

structure Nests (a : Action) (tokens : List Token) (levels : Nat) : Prop where
  phrase : ActionPhrase levels tokens a
  least : ∀ room, ActionPhrase room tokens a → levels ≤ room

theorem exists_nests (phrase : ActionPhrase room tokens a) : ∃ levels, Nests a tokens levels := by
  classical
  have some : ∃ levels, ActionPhrase levels tokens a := ⟨room, phrase⟩
  exact ⟨Nat.find some, Nat.find_spec some, fun _ phrase => Nat.find_min' some phrase⟩

theorem nests_printed (formed : a.WellFormed) :
    Nests a (a.printed.filter Token.isSignificant) a.nesting :=
  ⟨actionPhrase_printed formed (Nat.le_refl _), fun _ phrase => phrase.nesting_le⟩

-- The first of two ways to write `a` has no more parentheses and no more tokens, and nests no
-- deeper.
structure Plainer (a : Action) (tokens others : List Token) : Prop where
  parentheses : tokens.countP Token.isParenthesis ≤ others.countP Token.isParenthesis
  length : tokens.length ≤ others.length
  nesting : ∃ levels deeper, Nests a tokens levels ∧ Nests a others deeper ∧ levels ≤ deeper

theorem plainer_printed (formed : a.WellFormed) (phrase : ActionPhrase room tokens a) :
    Plainer a (a.printed.filter Token.isSignificant) tokens := by
  have held := phrase.printed_sublist
  obtain ⟨deeper, nests⟩ := exists_nests phrase
  refine ⟨?_, ?_, a.nesting, deeper, nests_printed formed, nests, nests.phrase.nesting_le⟩
  · have fewer := held.countP_le (p := Token.isParenthesis)
    rw [List.countP_map] at fewer
    simpa only [Function.comp_def, Token.isParenthesis_canonical] using fewer
  · exact held.length_le.trans_eq (List.length_map _)

end Plainness

namespace Grammar

variable {g : Grammar} {text : String} {a : Action}

theorem print_not_tooDeep (climbing : g.arithmetic = PrecedenceClimbing.rule)
    (formed : a.WellFormed) (shallow : a.nesting ≤ g.parser.depth) (actual maximum : Nat)
    (span : Span) :
    (g.parse a.print).result ≠ .error (.limitExceeded .nestingDepth actual maximum span) := by
  intro failed
  cases cut : (Tokenization.ofText g.lexical a.print).tokens with
  | error e =>
    rw [parse_of_lexError cut] at failed
    cases e <;> cases failed
  | ok tokens =>
    rw [result_print climbing formed shallow (keepsLimits_of_tokens formed cut)] at failed
    cases failed

-- No text of an action has fewer parentheses or fewer tokens than its canonical text, blanks apart,
-- or nests less deeply. The canonical text is cut into these tokens and read as the action, unless
-- it is too large; too deep it is never.
theorem print_plainest (climbing : g.arithmetic = PrecedenceClimbing.rule)
    (parsed : (g.parse text).result = .ok a) :
    ∃ body stop, (Lexer.run g.lexical.detailedMetrics text).tokens =
        .ok (body ++ [⟨.eof, stop⟩]) ∧
      Plainer a (a.printed.filter Token.isSignificant)
        ((body.map (·.token)).filter Token.isSignificant) ∧
      a.print.toList = spell a.printed ∧
      (∀ placed, (Lexer.run g.lexical.detailedMetrics a.print).tokens = .ok placed →
        placed.map (·.token) = a.printed ++ [.eof] ∧ (g.parse a.print).result = .ok a) ∧
      ∀ actual maximum span,
        (g.parse a.print).result ≠ .error (.limitExceeded .nestingDepth actual maximum span) := by
  have formed : a.WellFormed := by
    obtain ⟨tokens, inside, phrase⟩ := phrase_of_result climbing parsed
    exact phrase.wellFormed inside
  obtain ⟨body, stop, cut, -, phrase⟩ := (parse_ok_iff climbing).mp parsed
  have shallow := phrase.nesting_le
  refine ⟨body, stop, cut, plainer_printed formed phrase, toList_print a, ?_,
    print_not_tooDeep climbing formed shallow⟩
  intro placed again
  have limits := keepsLimits_of_tokens formed again
  obtain ⟨found, last, found_cut, same⟩ := finds_print formed limits g.lexical.detailedMetrics
  rw [found_cut] at again
  cases again
  refine ⟨?_, result_print climbing formed shallow limits⟩
  simp [same]

theorem print_plainest_negation :
    ∃ a body stop, (({} : Grammar).parse "x:=(-((a))-((b-(1))))").result = .ok a ∧
      a.print = "x := -a - (b - 1)" ∧
      (Lexer.run true "x:=(-((a))-((b-(1))))").tokens = .ok (body ++ [⟨.eof, stop⟩]) ∧
      Plainer a (a.printed.filter Token.isSignificant)
        ((body.map (·.token)).filter Token.isSignificant) := by
  have parsed : (({} : Grammar).parse "x:=(-((a))-((b-(1))))").result = .ok (.assignment "x"
      (.arithmetic (.binary .subtract (.negate (.variable ⟨"a", []⟩))
        (.binary .subtract (.variable ⟨"b", []⟩) (.number 1))))) := by decide +kernel
  obtain ⟨body, stop, cut, plainer, -⟩ := print_plainest rfl parsed
  exact ⟨_, body, stop, parsed, by decide +kernel, cut, plainer⟩

end Grammar

end StateActions
