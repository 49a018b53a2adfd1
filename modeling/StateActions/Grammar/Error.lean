import StateActions.Source.LineTable
import StateActions.Token.Basic
import StateActions.Token.Error

namespace StateActions

inductive LimitKind
  | actionLength
  | identifierLength
  | stringSize
  | numberDigits
  | tokenCount
  | nestingDepth
deriving DecidableEq, Repr, Inhabited

namespace LimitKind

def all : List LimitKind :=
  [.actionLength, .identifierLength, .stringSize, .numberDigits, .tokenCount, .nestingDepth]

def name : LimitKind → String
  | .actionLength => "ActionLength"
  | .identifierLength => "IdentifierLength"
  | .stringSize => "StringSize"
  | .numberDigits => "NumberDigits"
  | .tokenCount => "TokenCount"
  | .nestingDepth => "NestingDepth"

def phrase : LimitKind → String
  | .actionLength => "action length"
  | .identifierLength => "identifier length"
  | .stringSize => "string size"
  | .numberDigits => "number digits"
  | .tokenCount => "token count"
  | .nestingDepth => "nesting depth"

def code : LimitKind → Log.Code
  | .actionLength => .actionTooLong
  | .identifierLength => .identifierTooLong
  | .stringSize => .stringTooLarge
  | .numberDigits => .numberTooLong
  | .tokenCount => .tooManyTokens
  | .nestingDepth => .nestingTooDeep

end LimitKind

-- A lexical mismatch: no alternative fits. Trailing input: a complete action is followed by more. A
-- structural mismatch: a form was begun and could not be completed.
inductive ParseError
  | lexicalMismatch (expected found : String) (span : Span)
  | trailingInput (found : String) (span : Span)
  | structuralMismatch (expected found : String) (span : Span)
  | limitExceeded (limit : LimitKind) (actual maximum : Nat) (span : Span)
deriving DecidableEq, Repr, Inhabited

namespace ParseError

def span : ParseError → Span
  | .lexicalMismatch _ _ span | .trailingInput _ span | .structuralMismatch _ _ span
  | .limitExceeded _ _ _ span => span

def position (e : ParseError) : Nat := e.span.start.offset

def expected : ParseError → String
  | .lexicalMismatch expected .. | .structuralMismatch expected .. => expected
  | .trailingInput .. => "end of input"
  | .limitExceeded limit _ maximum _ => s!"at most {maximum} for " ++ limit.phrase

def found : ParseError → String
  | .lexicalMismatch _ found _ | .structuralMismatch _ found _ | .trailingInput found _ => found
  | .limitExceeded _ actual _ _ => toString actual

def kind : ParseError → String
  | .lexicalMismatch .. => "lexical mismatch"
  | .trailingInput .. => "unexpected trailing input"
  | .structuralMismatch .. => "structural mismatch"
  | .limitExceeded .. => "limit exceeded"

def code : ParseError → Log.Code
  | .lexicalMismatch .. => .lexicalMismatch
  | .trailingInput .. => .trailingInput
  | .structuralMismatch .. => .structuralMismatch
  | .limitExceeded limit .. => limit.code

def message (e : ParseError) : String :=
  "expected " ++ e.expected ++ s!" at position {e.position}, found " ++ e.found

def report (e : ParseError) (source : String) : String :=
  let table := LineTable.ofText source
  let start := table.positionAt e.span.start.offset
  let stop := table.positionAt (max e.span.stop.offset start.offset)
  let excerpt := table.excerpt ⟨start, stop⟩ e.message
  String.ofList (excerpt.toList.reverse.dropWhile Text.isBlank).reverse ++ "\n  = help: " ++ e.code.advice

-- A text that cannot be cut into tokens is no action either.
def ofLexError : LexError → ParseError
  | .invalidCharacter character expected span =>
    .lexicalMismatch expected ("'" ++ ("".push character) ++ "'") span
  | .unterminatedString quote _ span =>
    .structuralMismatch ("closing '" ++ ("".push quote) ++ "'") "end of input" span
  | .invalidNumber text span =>
    .lexicalMismatch "number followed by a delimiter" ("'" ++ text ++ "'") span
  | .invalidBasedLiteral expected found span => .structuralMismatch expected found span
  | .actionTooLong length span => .limitExceeded .actionLength length Limits.actionLength span
  | .identifierTooLong length span =>
    .limitExceeded .identifierLength length Limits.identifierLength span
  | .stringTooLarge size span => .limitExceeded .stringSize size Limits.stringSize span
  | .numberTooLong digits span => .limitExceeded .numberDigits digits Limits.numberDigits span
  | .tooManyTokens count span => .limitExceeded .tokenCount count Limits.tokenCount span

theorem span_ofLexError (e : LexError) : (ofLexError e).span = e.span := by cases e <;> rfl

end ParseError

end StateActions
