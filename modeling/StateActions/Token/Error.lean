import StateActions.Limits
import StateActions.Log.Code
import StateActions.Source.Position

namespace StateActions

inductive LexError
  | invalidCharacter (character : Char) (expected : String) (span : Span)
  | unterminatedString (quote : Char) (openedAt : Nat) (span : Span)
  | invalidNumber (text : String) (span : Span)
  | invalidBasedLiteral (expected found : String) (span : Span)
  | actionTooLong (length : Nat) (span : Span)
  | identifierTooLong (length : Nat) (span : Span)
  | stringTooLarge (size : Nat) (span : Span)
  | numberTooLong (digits : Nat) (span : Span)
  | tooManyTokens (count : Nat) (span : Span)
deriving DecidableEq, Repr, Inhabited

namespace LexError

def span : LexError → Span
  | .invalidCharacter _ _ span | .unterminatedString _ _ span | .invalidNumber _ span
  | .invalidBasedLiteral _ _ span | .actionTooLong _ span | .identifierTooLong _ span
  | .stringTooLarge _ span | .numberTooLong _ span | .tooManyTokens _ span => span

def code : LexError → Log.Code
  | .invalidCharacter .. => .invalidCharacter
  | .unterminatedString .. => .unterminatedString
  | .invalidNumber .. => .invalidNumber
  | .invalidBasedLiteral .. => .invalidBasedLiteral
  | .actionTooLong .. => .actionTooLong
  | .identifierTooLong .. => .identifierTooLong
  | .stringTooLarge .. => .stringTooLarge
  | .numberTooLong .. => .numberTooLong
  | .tooManyTokens .. => .tooManyTokens

def message : LexError → String
  | .invalidCharacter character _ span =>
    "Invalid character '" ++ ("".push character) ++ s!"' at position {span.start.offset}"
  | .unterminatedString _ openedAt _ =>
    s!"Unterminated string literal opened at position {openedAt}"
  | .invalidNumber text span =>
    "Invalid number '" ++ text ++ s!"' at position {span.start.offset}"
  | .invalidBasedLiteral expected found span =>
    "Invalid based literal: expected " ++ expected ++ ", found " ++ found ++
      s!" at position {span.start.offset}"
  | .actionTooLong length _ =>
    s!"Action too long: {length} bytes (max {Limits.actionLength})"
  | .identifierTooLong length _ =>
    s!"Identifier too long: {length} characters (max {Limits.identifierLength})"
  | .stringTooLarge size _ => s!"String too large: {size} bytes (max {Limits.stringSize})"
  | .numberTooLong digits _ => s!"Number too long: {digits} digits (max {Limits.numberDigits})"
  | .tooManyTokens count _ => s!"Too many tokens: {count} (max {Limits.tokenCount})"

end LexError

end StateActions
