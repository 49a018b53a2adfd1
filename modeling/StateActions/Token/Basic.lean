namespace StateActions

inductive Quote
  | single
  | double
deriving DecidableEq, Repr, Inhabited

namespace Quote

def char : Quote → Char
  | .single => '\x27'
  | .double => '\x22'

def ofChar? (c : Char) : Option Quote :=
  if c = '\x27' then some .single else if c = '\x22' then some .double else none

theorem ofChar?_char (q : Quote) : ofChar? q.char = some q := by cases q <;> rfl

end Quote

-- A number keeps its value only, whatever base it was written in; a string has no escapes.
inductive Token
  | identifier (name : String)
  | boolean (value : Bool)
  | number (value : Nat)
  | string (content : String) (quote : Quote)
  | assign
  | leftParen
  | rightParen
  | comma
  | dot
  | tick
  | plus
  | minus
  | star
  | slash
  | space
  | tab
  | newline
  | eof
deriving DecidableEq, Repr, Inhabited

inductive TokenClass
  | identifier
  | literal
  | punctuation
  | operator
  | whitespace
  | special
deriving DecidableEq, Repr, Inhabited

def TokenClass.name : TokenClass → String
  | .identifier => "Identifier"
  | .literal => "Literal"
  | .punctuation => "Punctuation"
  | .operator => "Operator"
  | .whitespace => "Whitespace"
  | .special => "Special"

namespace Token

def tokenClass : Token → TokenClass
  | .identifier _ => .identifier
  | .boolean _ | .number _ | .string .. => .literal
  | .assign | .leftParen | .rightParen | .comma | .dot | .tick => .punctuation
  | .plus | .minus | .star | .slash => .operator
  | .space | .tab | .newline => .whitespace
  | .eof => .special

def kind : Token → String
  | .identifier _ => "Identifier"
  | .boolean _ => "Boolean"
  | .number _ => "Number"
  | .string .. => "String"
  | .assign => "Assign"
  | .leftParen => "LeftParen"
  | .rightParen => "RightParen"
  | .comma => "Comma"
  | .dot => "Dot"
  | .tick => "Tick"
  | .plus => "Plus"
  | .minus => "Minus"
  | .star => "Star"
  | .slash => "Slash"
  | .space => "Space"
  | .tab => "Tab"
  | .newline => "Newline"
  | .eof => "Eof"

def plain : List Token :=
  [.assign, .leftParen, .rightParen, .comma, .dot, .tick, .plus, .minus, .star, .slash, .space,
    .tab, .newline, .eof]

def ofKind? (name : String) : Option Token := plain.find? (·.kind == name)

theorem ofKind?_kind : ∀ t ∈ plain, ofKind? t.kind = some t := by decide

def isIdentifier : Token → Bool
  | .identifier _ => true
  | _ => false

def isNamed (name : String) : Token → Bool
  | .identifier other => other == name
  | _ => false

def isOperator (t : Token) : Bool := t.tokenClass == .operator

def isWhitespace (t : Token) : Bool := t.tokenClass == .whitespace

def isSignificant (t : Token) : Bool := !t.isWhitespace

def isEof (t : Token) : Bool := t == .eof

def spelling : Token → String
  | .identifier name => name
  | .boolean true => "True"
  | .boolean false => "False"
  | .number value => toString value
  | .string content quote => ("".push quote.char ++ content).push quote.char
  | .assign => ":="
  | .leftParen => "("
  | .rightParen => ")"
  | .comma => ","
  | .dot => "."
  | .tick => "'"
  | .plus => "+"
  | .minus => "-"
  | .star => "*"
  | .slash => "/"
  | .space => " "
  | .tab => "\t"
  | .newline => "\n"
  | .eof => ""

def describe : Token → String
  | .identifier name => "identifier '" ++ name ++ "'"
  | .boolean value => "boolean '" ++ spelling (.boolean value) ++ "'"
  | .number value => "number " ++ toString value
  | .string content quote => "string " ++ spelling (.string content quote)
  | .eof => "end of input"
  | .tick => "attribute tick"
  | other => "'" ++ other.spelling ++ "'"

def ofWord (word : String) : Token :=
  if word = "True" then .boolean true else if word = "False" then .boolean false
  else .identifier word

def ofSymbol? : Char → Option Token
  | '(' => some .leftParen
  | ')' => some .rightParen
  | ',' => some .comma
  | '.' => some .dot
  | '+' => some .plus
  | '-' => some .minus
  | '*' => some .star
  | '/' => some .slash
  | _ => none

end Token

end StateActions
