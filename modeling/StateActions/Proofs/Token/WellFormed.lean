import StateActions.Token.Lexer

namespace StateActions

def isWord : List Char → Bool
  | [] => false
  | first :: rest => first.isAlpha && rest.all fun c => c.isAlphanum || c == '_'

-- `[A-Za-z][A-Za-z0-9_]*` of bounded length, and neither of the two boolean words.
def IsName (name : String) : Prop :=
  isWord name.toList = true ∧ name.length ≤ Limits.identifierLength ∧ name ≠ "True" ∧
    name ≠ "False"

instance (name : String) : Decidable (IsName name) := inferInstanceAs (Decidable (_ ∧ _))

namespace Token

-- A token that a text can hold. Numbers are not bounded here: a short numeral in a high base may
-- have a long decimal form.
def WellFormed : Token → Prop
  | .identifier name => IsName name
  | .string content quote =>
    quote.char ∉ content.toList ∧ content.utf8ByteSize ≤ Limits.stringSize
  | .eof => False
  | _ => True

instance decidableWellFormed : (t : Token) → Decidable t.WellFormed
  | .identifier name => inferInstanceAs (Decidable (IsName name))
  | .string content quote =>
    inferInstanceAs (Decidable (quote.char ∉ content.toList ∧
      content.utf8ByteSize ≤ Limits.stringSize))
  | .eof => instDecidableFalse
  | .boolean _ | .number _ | .assign | .leftParen | .rightParen | .comma | .dot | .tick | .plus
  | .minus | .star | .slash | .space | .tab | .newline => instDecidableTrue

theorem WellFormed.ne_eof {t : Token} (formed : t.WellFormed) : t ≠ .eof := by
  rintro rfl
  exact formed

end Token

theorem utf8ByteSize_ofList (text : List Char) :
    (String.ofList text).utf8ByteSize = Text.byteLength text := by
  induction text with
  | nil => rfl
  | cons c rest ih =>
    rw [String.ofList_cons, String.utf8ByteSize_append, ih, Text.byteLength_cons]
    simp

theorem Text.byteLength_replicate {c : Char} (narrow : c.utf8Size = 1) (n : Nat) :
    byteLength (List.replicate n c) = n := by
  induction n with
  | zero => rfl
  | succ n ih =>
    rw [List.replicate_succ, byteLength_cons, narrow, ih]
    exact Nat.add_comm 1 n

theorem Text.byteLength_le (text : List Char) : byteLength text ≤ 4 * text.length := by
  induction text with
  | nil => exact Nat.le_refl 0
  | cons c rest ih =>
    have narrow := c.utf8Size_le_four
    rw [byteLength_cons, List.length_cons]
    omega

end StateActions
