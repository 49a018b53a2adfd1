import StateActions.Proofs.Action.Printing
import StateActions.Proofs.Action.Numerals

namespace StateActions

-- The canonical text is within the limits of a text: digits of a numeral, bytes and tokens.
structure Action.KeepsLimits (a : Action) : Prop where
  decimals : DecimalsFit a.numbers
  short : a.print.utf8ByteSize ≤ Limits.actionLength
  few : a.printed.length ≤ Limits.tokenCount

variable {a : Action}

theorem finds_print (formed : a.WellFormed) (limits : a.KeepsLimits) (detailed : Bool) :
    Lexer.Finds (Lexer.run detailed a.print) [] a.printed := by
  have digits : ∀ t ∈ a.printed, t.DigitsFit := by
    rw [digitsFit_iff, numbers_printed]
    exact limits.decimals
  exact Lexer.run_spelled (toList_print a) (readable_printed a) (wellFormed_printed formed) digits
    limits.few limits.short

theorem keepsLimits_of_tokens {detailed : Bool} {tokens : List PlacedToken}
    (formed : a.WellFormed) (cut : (Lexer.run detailed a.print).tokens = .ok tokens) :
    a.KeepsLimits := by
  obtain ⟨short, few, digits⟩ := Lexer.run_spelled_limits (toList_print a) (readable_printed a)
    (wellFormed_printed formed) cut
  rw [digitsFit_iff, numbers_printed] at digits
  exact ⟨digits, short, few⟩

namespace Grammar

variable {g : Grammar} {text : String}

theorem result_print (climbing : g.arithmetic = PrecedenceClimbing.rule) (formed : a.WellFormed)
    (shallow : a.nesting ≤ g.parser.depth) (limits : a.KeepsLimits) :
    (g.parse a.print).result = .ok a :=
  result_of_finds climbing (finds_print formed limits _) (wellFormed_printed formed)
    (actionPhrase_printed formed shallow)

-- A well-formed action is read back from its canonical text, under every depth limit that the text
-- keeps: it is cut into the tokens that were printed, and these give the action.
theorem parse_print (climbing : g.arithmetic = PrecedenceClimbing.rule)
    (positive : 1 ≤ g.parser.maxDepth) (bounded : g.parser.maxDepth ≤ Limits.parseDepth)
    (formed : a.WellFormed) (shallow : a.nesting ≤ g.parser.maxDepth) (limits : a.KeepsLimits) :
    Lexer.Finds (Lexer.run g.lexical.detailedMetrics a.print) [] a.printed ∧
      (g.parse a.print).result = .ok a ∧ (g.parse a.print).crashed = false := by
  have depth : g.parser.depth = g.parser.maxDepth := depth_eq_self positive bounded
  have parsed := result_print climbing formed (depth ▸ shallow) limits
  exact ⟨finds_print formed limits _, parsed, crashed_of_result climbing parsed⟩

theorem parse_print_negation :
    ∃ a : Action, a.print = "x := a.b - -(1 - (c - 2)) * 3" ∧ a.WellFormed ∧ a.nesting ≤ 3 ∧
      a.KeepsLimits ∧
      (({ parser := { maxDepth := 3 } } : Grammar).parse a.print).result = .ok a := by
  refine ⟨.assignment "x" (.arithmetic (.binary .subtract (.variable ⟨"a", ["b"]⟩)
    (.binary .multiply (.negate (.binary .subtract (.number 1)
      (.binary .subtract (.variable ⟨"c", []⟩) (.number 2)))) (.number 3)))),
    by decide +kernel, by decide, by decide, ⟨by decide, by decide, by decide⟩, ?_⟩
  exact (parse_print rfl (by decide) (by decide) (by decide) (by decide)
    ⟨by decide, by decide, by decide⟩).2.1

end Grammar

-- What was read once is read again from its canonical text exactly when that text keeps the limits,
-- and never as something else.
theorem parse_print_iff {text : String} (parsed : parse text = .ok a) :
    (parse a.print = .ok a ↔ a.KeepsLimits) ∧ ∀ b, parse a.print = .ok b → b = a := by
  obtain ⟨tokens, formed, phrase⟩ := Grammar.phrase_of_result rfl parsed
  have wellFormed := phrase.wellFormed formed
  have again (limits : a.KeepsLimits) : parse a.print = .ok a :=
    Grammar.result_print rfl wellFormed phrase.nesting_le limits
  have kept {b : Action} (accepted : parse a.print = .ok b) : a.KeepsLimits := by
    obtain ⟨placed, cut⟩ := Grammar.tokens_of_result accepted
    exact keepsLimits_of_tokens wellFormed cut
  refine ⟨⟨kept, again⟩, fun b accepted => ?_⟩
  rw [again (kept accepted)] at accepted
  exact (Except.ok.inj accepted).symm

section Hexadecimal

variable {n : Nat}

def hexadecimal (n : Nat) : String := "x := 16#" ++ String.ofList (List.replicate n 'F') ++ "#"

theorem Numeral.ofDigits_replicate (n : Nat) :
    Nat.ofDigits 16 (List.replicate n 15) + 1 = 16 ^ n := by
  induction n with
  | zero => rfl
  | succ n ih =>
    rw [List.replicate_succ, Nat.ofDigits_cons, Nat.pow_succ, ← ih]
    omega

theorem denotes_hexadecimal (positive : 1 ≤ n) (bounded : n ≤ Limits.numberDigits) :
    Numeral.Denotes ('1' :: '6' :: '#' :: (List.replicate n 'F' ++ ['#'])) (16 ^ n - 1) := by
  have sixteen : Numeral.Positional 10 ['1', '6'] 16 :=
    ⟨by decide, by decide, [1, 6], .cons (by decide) (.cons (by decide) .nil), by decide⟩
  have run : Numeral.Positional 16 (List.replicate n 'F') (16 ^ n - 1) := by
    refine ⟨?_, ?_, List.replicate n 15, ?_, ?_⟩
    · rw [Ne, List.replicate_eq_nil_iff]
      omega
    · rwa [List.length_replicate]
    · rw [List.forall₂_iff_zip]
      refine ⟨by simp, fun {c v} member => ?_⟩
      rw [List.zip_replicate, List.mem_replicate] at member
      cases member.2
      decide
    · rw [List.reverse_replicate, ← Numeral.ofDigits_replicate, Nat.add_sub_cancel]
  exact .based sixteen (by decide) (by decide) run

theorem parse_hexadecimal (positive : 1 ≤ n) (bounded : n ≤ Limits.numberDigits) :
    parse (hexadecimal n) = .ok (.assignment "x" (.number (16 ^ n - 1))) := by
  have text : hexadecimal n =
      "x := " ++ ("16#" ++ String.ofList (List.replicate n 'F') ++ "#") := by
    rw [hexadecimal, show "x := 16#" = "x := " ++ "16#" from rfl]
    simp only [String.append_assoc]
  rw [text]
  refine parse_assigned ?_
  simpa using denotes_hexadecimal positive bounded

theorem parse_print_iff_hexadecimal :
    ∃ a, parse (hexadecimal Limits.numberDigits) = .ok a ∧ parse a.print ≠ .ok a := by
  have parsed := parse_hexadecimal (n := Limits.numberDigits) (by decide) (Nat.le_refl _)
  refine ⟨_, parsed, fun again => ?_⟩
  have limits := (parse_print_iff parsed).1.mp again
  have digits := limits.decimals _ (List.mem_singleton.mpr rfl)
  rw [← String.length_toList, toList_toString,
    Nat.length_toDigits_le_iff (by decide) (by decide)] at digits
  have longer : 10 ^ Limits.numberDigits < 16 ^ Limits.numberDigits :=
    Nat.pow_lt_pow_left (by decide) (by decide)
  omega

end Hexadecimal

end StateActions
