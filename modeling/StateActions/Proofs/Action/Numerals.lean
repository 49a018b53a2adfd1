import Mathlib.Data.Nat.Digits.Lemmas
import StateActions.Proofs.Parse

namespace StateActions

namespace Numeral

def lowerDigits : List Char :=
  ['0', '1', '2', '3', '4', '5', '6', '7', '8', '9', 'a', 'b', 'c', 'd', 'e', 'f']

def upperDigits : List Char :=
  ['0', '1', '2', '3', '4', '5', '6', '7', '8', '9', 'A', 'B', 'C', 'D', 'E', 'F']

def IsDigit (base : Nat) (c : Char) (v : Nat) : Prop :=
  v < base ∧ (lowerDigits[v]? = some c ∨ upperDigits[v]? = some c)

instance (base : Nat) (c : Char) (v : Nat) : Decidable (IsDigit base c v) :=
  inferInstanceAs (Decidable (_ ∧ _))

-- A run of digits that is not too long stands for a number by the powers of the base. The digit of
-- the lowest power comes last.
structure Positional (base : Nat) (digits : List Char) (n : Nat) : Prop where
  filled : digits ≠ []
  short : digits.length ≤ Limits.numberDigits
  reads : ∃ values, List.Forall₂ (IsDigit base) digits values ∧
    n = Nat.ofDigits base values.reverse

inductive Denotes : List Char → Nat → Prop
  | decimal {digits : List Char} {n : Nat} (run : Positional 10 digits n) : Denotes digits n
  | based {head digits : List Char} {base n : Nat} (named : Positional 10 head base)
      (low : 2 ≤ base) (high : base ≤ 16) (run : Positional base digits n) :
      Denotes (head ++ '#' :: (digits ++ ['#'])) n

variable {base n v : Nat} {c : Char} {digits : List Char}

theorem IsDigit.listed (digit : IsDigit base c v) :
    v < 16 ∧ ∃ digits ∈ [lowerDigits, upperDigits], digits[v]? = some c := by
  obtain ⟨-, lower | upper⟩ := digit
  · exact ⟨(List.getElem?_eq_some_iff.mp lower).1, _, List.mem_cons_self, lower⟩
  · exact ⟨(List.getElem?_eq_some_iff.mp upper).1, _, .tail _ List.mem_cons_self, upper⟩

theorem IsDigit.digit?_eq (digit : IsDigit base c v) : digit? c = some v := by
  have all : ∀ v < 16, ∀ digits ∈ [lowerDigits, upperDigits],
      (digits[v]?).bind digit? = some v := by decide
  obtain ⟨small, digits, member, here⟩ := digit.listed
  have found := all v small digits member
  rwa [here] at found

theorem IsDigit.isDigitIn (digit : IsDigit base c v) : Numeral.isDigitIn base c = true := by
  rw [Numeral.isDigitIn, digit.digit?_eq]
  exact decide_eq_true digit.1

theorem IsDigit.isDigit (digit : IsDigit 10 c v) : c.isDigit = true := by
  have all : ∀ v < 10, ∀ digits ∈ [lowerDigits, upperDigits],
      (digits[v]?).any Char.isDigit = true := by decide
  obtain ⟨-, digits, member, here⟩ := digit.listed
  have found := all v digit.1 digits member
  rwa [here] at found

-- The digits are read from the left, and what was read before them is moved up by their number.
theorem foldl_eq_ofDigits {values : List Nat}
    (reads : List.Forall₂ (IsDigit base) digits values) (before : Nat) :
    digits.foldl (fun n c => n * base + (digit? c).getD 0) before =
      Nat.ofDigits base values.reverse + base ^ values.length * before := by
  induction reads generalizing before with
  | nil => simp
  | @cons c v digits values first _ ih =>
    have digit : (digit? c).getD 0 = v := by rw [first.digit?_eq]; rfl
    rw [List.foldl_cons, digit, ih, List.reverse_cons, Nat.ofDigits_append, List.length_reverse,
      Nat.ofDigits_singleton, List.length_cons]
    ring

theorem Positional.value_eq (run : Positional base digits n) : value base digits = n := by
  obtain ⟨values, reads, rfl⟩ := run.reads
  exact (foldl_eq_ofDigits reads 0).trans (by simp)

theorem exists_isDigit {values : List Nat} (reads : List.Forall₂ (IsDigit base) digits values) :
    ∀ c ∈ digits, ∃ v, IsDigit base c v := by
  induction reads with
  | nil => exact List.forall_mem_nil _
  | cons first _ ih => exact List.forall_mem_cons.mpr ⟨⟨_, first⟩, ih⟩

theorem Positional.exists_digit (run : Positional base digits n) :
    ∀ c ∈ digits, ∃ v, IsDigit base c v := by
  obtain ⟨values, reads, -⟩ := run.reads
  exact exists_isDigit reads

theorem Denotes.exists_form (denotes : Denotes digits n) (afterName : Bool) :
    ∃ f : Form, f.Formed afterName ∧ f.Fits ∧ f.text = digits ∧ f.token = .number n ∧
      ∀ rest, Lexer.EndsWord rest → f.Stops rest := by
  cases denotes with
  | decimal run =>
    refine ⟨.decimal digits, ⟨run.filled, fun c member => ?_⟩, run.short, rfl, ?_, fun _ ends => ends⟩
    · obtain ⟨v, digit⟩ := run.exists_digit c member
      exact digit.isDigit
    · rw [Form.token, run.value_eq]
  | @based head digits base _ named low high run =>
    refine ⟨.based head digits,
      ⟨⟨named.filled, fun c member => ?_⟩, ?_, run.filled, fun c member => ?_⟩,
      ⟨named.short, run.short⟩, rfl, ?_, fun _ ends c next => (ends c next).1⟩
    · obtain ⟨v, digit⟩ := named.exists_digit c member
      exact digit.isDigit
    · rw [named.value_eq]
      exact ⟨low, high⟩
    · obtain ⟨v, digit⟩ := run.exists_digit c member
      rw [named.value_eq]
      exact digit.isDigitIn
    · rw [Form.token, named.value_eq, run.value_eq]

theorem Denotes.length_le (denotes : Denotes digits n) :
    digits.length ≤ 2 * Limits.numberDigits + 2 := by
  cases denotes with
  | decimal run =>
    have short := run.short
    omega
  | based named _ _ run =>
    have short := run.short
    have shortHead := named.short
    simp only [List.length_append, List.length_cons, List.length_nil]
    omega

end Numeral

namespace Lexer

open Numeral

variable {n : Nat} {text : String}

theorem lexeme_denotes {c : Char} {more rest : List Char} (denotes : Denotes (c :: more) n)
    (ends : EndsWord rest) (afterName : Bool) (start : Position) :
    ∃ measure, lexeme afterName start c (more ++ rest) =
      .ok ⟨.number n, c :: more, rest, measure⟩ := by
  obtain ⟨f, formed, fits, text, token, stops⟩ := denotes.exists_form afterName
  rw [← token, ← text]
  exact ⟨f.measure, lexeme_of_stops formed fits (stops rest ends) text⟩

theorem finds_of_splits {forms : List Form} (detailed : Bool)
    (short : text.utf8ByteSize ≤ Limits.actionLength) (splits : Form.Splits false text.toList forms)
    (few : forms.length ≤ Limits.tokenCount) :
    Finds (run detailed text) [] (forms.map (·.token)) := by
  obtain ⟨found, stop, laid, same⟩ := Form.layOut_closed .start forms
  refine ⟨found, stop, ?_, same⟩
  rw [(run_exact detailed text _).mpr ⟨short, forms, splits, few, rfl⟩, laid]
  rfl

theorem finds_assigned (denotes : Denotes text.toList n) (detailed : Bool) :
    Finds (run detailed ("x := " ++ text)) []
      [.identifier "x", .space, .assign, .space, .number n] := by
  obtain ⟨f, formed, fits, text_eq, token, stops⟩ := denotes.exists_form false
  have last : Form.Splits false text.toList [f] := by
    rw [← text_eq, ← List.append_nil f.text]
    exact splits_cons formed fits (stops [] (by rintro d ⟨⟩)) (.nil _)
  have splits : Form.Splits false ("x := " ++ text).toList
      [.name ['x'], .fixed [' '] .space, .fixed [':', '='] .assign, .fixed [' '] .space, f] := by
    have whole : ("x := " ++ text).toList =
        ['x'] ++ ([' '] ++ ([':', '='] ++ ([' '] ++ text.toList))) := String.toList_append
    have ends : ∀ rest, EndsWord ([' '] ++ rest) := by
      rintro rest d ⟨⟩
      decide
    rw [whole]
    refine splits_cons (f := .name ['x']) ⟨rfl, by decide, by decide⟩ (Nat.le_add_left 1 254)
      (ends _) ?_
    refine splits_fixed [' '] (by simp [Form.table]) (absurd · (by decide)) ?_
    refine splits_fixed [':', '='] (by simp [Form.table]) (absurd · (by decide)) ?_
    exact splits_fixed [' '] (by simp [Form.table]) (absurd · (by decide)) last
  have short : ("x := " ++ text).utf8ByteSize ≤ Limits.actionLength := by
    have size := utf8ByteSize_ofList text.toList
    rw [String.ofList_toList] at size
    have narrow := Text.byteLength_le text.toList
    have few := denotes.length_le
    have head : "x := ".utf8ByteSize = 5 := by decide
    rw [String.utf8ByteSize_append, head, size]
    unfold Limits.actionLength
    unfold Limits.numberDigits at few
    omega
  have finds := finds_of_splits detailed short splits (Nat.le_of_ble_eq_true rfl)
  rwa [List.map_cons, List.map_cons, List.map_cons, List.map_cons, List.map_cons, List.map_nil,
    token] at finds

end Lexer

section Assigned

variable {left right : String} {m n : Nat}

theorem parse_assigned (denotes : Numeral.Denotes left.toList n) :
    parse ("x := " ++ left) = .ok (.assignment "x" (.number n)) := by
  refine Grammar.result_of_finds rfl (Lexer.finds_assigned denotes _) ?_ ?_
  · have name : IsName "x" := by decide
    simp [Token.WellFormed, name]
  · exact .assignment "x" (.expr (.term (.unary (.number _ _))))

-- Whatever base it is written in, a numeral is read as the number that it stands for, so what is
-- assigned is the same for two numerals exactly when their numbers are.
theorem parse_assigned_eq_iff (first : Numeral.Denotes left.toList m)
    (second : Numeral.Denotes right.toList n) :
    (∀ afterName start c more rest, left.toList = c :: more → Lexer.EndsWord rest →
      ∃ measure, Lexer.lexeme afterName start c (more ++ rest) =
        .ok ⟨.number m, left.toList, rest, measure⟩) ∧
      parse ("x := " ++ left) = .ok (.assignment "x" (.number m)) ∧
      (parse ("x := " ++ left) = parse ("x := " ++ right) ↔ m = n) := by
  refine ⟨fun afterName start c more rest text ends => ?_, parse_assigned first, ?_⟩
  · rw [text] at first ⊢
    exact Lexer.lexeme_denotes first ends afterName start
  · rw [parse_assigned first, parse_assigned second]
    simp

theorem parse_assigned_eq_iff_hexadecimal :
    Numeral.Denotes "0016#fF#".toList 255 ∧ Numeral.Denotes "0255".toList 255 ∧
      parse "x := 0016#fF#" = parse "x := 0255" := by
  have sixteen : Numeral.Positional 10 ['0', '0', '1', '6'] 16 :=
    ⟨by decide, by decide, [0, 0, 1, 6], by decide, by decide⟩
  have letters : Numeral.Positional 16 ['f', 'F'] 255 :=
    ⟨by decide, by decide, [15, 15], by decide, by decide⟩
  have plain : Numeral.Positional 10 ['0', '2', '5', '5'] 255 :=
    ⟨by decide, by decide, [0, 2, 5, 5], by decide, by decide⟩
  have left : Numeral.Denotes "0016#fF#".toList 255 :=
    .based sixteen (by decide) (by decide) letters
  have right : Numeral.Denotes "0255".toList 255 := .decimal plain
  exact ⟨left, right, (parse_assigned_eq_iff left right).2.2.mpr rfl⟩

end Assigned

end StateActions
