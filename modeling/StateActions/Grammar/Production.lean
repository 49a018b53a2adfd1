import StateActions.Grammar.Arithmetic

namespace StateActions.Parser

def boolean : Parser Expression := do
  match ← current with
  | .boolean value => advance; return .boolean value
  | _ => fail (·.mismatch "boolean literal")

def number : Parser Expression := do
  match ← current with
  | .number value => advance; return .number value
  | _ => fail (·.mismatch "number literal")

def string : Parser Expression := do
  match ← current with
  | .string content _ => advance; return .string content
  | _ => fail (·.mismatch "string literal")

def literal : Parser Expression := do
  match ← current with
  | .boolean _ => boolean
  | .number _ => number
  | .string .. => string
  | _ => fail (·.mismatch "literal")

def atNameThen (token : Token) : Parser Bool := do
  let stream := (← get).stream
  return stream.current.isIdentifier && stream.peek 1 = token

def atCallStart : Parser Bool := atNameThen .leftParen

def atAttributeStart : Parser Bool := atNameThen .tick

-- `identifier '(' list`, where `list` takes the arguments and the closing parenthesis.
def callWith (list : Parser (List Expression)) : Parser Expression := do
  let name ← expectIdentifier "function name" false
  expectToken .leftParen false
  return .call name (← nested "call" list)

-- `[argument (',' argument)*] ')'` with `arguments` for a list that is not empty.
def argumentList (arguments : Parser (List Expression)) : Parser (List Expression) := do
  if (← current) = .rightParen then advance; return [] else arguments

-- `call | number | string | boolean | variable`.
def argumentWith (steps : Nat) (arguments : Parser (List Expression)) : Parser Expression := do
  match ← current with
  | .identifier _ =>
    if ← atCallStart then callWith (argumentList arguments)
    else return .variable (← variableWithin steps)
  | .number _ => number
  | .string .. => string
  | .boolean _ => boolean
  | _ => fail (·.structural "argument")

-- `argument (',' argument)* ')'`.
def arguments : Nat → Parser (List Expression)
  | 0 => fail (·.structural "argument")
  | steps + 1 => do
    let first ← argumentWith steps (arguments steps)
    match ← current with
    | .comma => advance; return first :: (← arguments steps)
    | .rightParen => advance; return [first]
    | _ => fail (·.structural "',' or ')'")

def call : Parser Expression := do callWith (argumentList (arguments (← budget)))

def argument : Parser Expression := do
  let steps ← budget
  argumentWith steps (arguments steps)

def attributeOf (wanted : String) : Parser String := do
  let typeName ← expectIdentifier "type name" false
  expectToken .tick false
  if (← current).isNamed wanted then advance; return typeName
  else fail (·.structural ("'" ++ wanted ++ "'"))

-- `identifier tick "Read" '(' identifier ')'`.
def readAttribute : Parser Expression := do
  let typeName ← attributeOf "Read"
  expectToken .leftParen true
  let channel ← expectIdentifier "channel name" true
  expectToken .rightParen true
  return .readAttribute typeName channel

def writeItem : Parser Expression := do
  if ← atCallStart then call
  else if (← current).isIdentifier then return .variable (← variableReference)
  else fail (·.structural "call or variable")

-- `identifier tick "Write" '(' identifier ',' (call | variable) ')'`.
def writeAttribute : Parser Action := do
  let typeName ← attributeOf "Write"
  expectToken .leftParen true
  let channel ← expectIdentifier "channel name" true
  expectToken .comma true
  let item ← nested "write item" writeItem
  expectToken .rightParen true
  return .writeAttribute typeName channel item

def loneVariable : Parser (Option Variable) := do
  if (← current).isIdentifier then attempt variableReference (·.stream.atEnd) else return none

-- The alternatives in order: attribute read, boolean, string, call, a variable up to the end,
-- arithmetic. Only the variable is given up for another alternative.
def rightHandSide (rule : ArithmeticRule) : Parser Expression := do
  if ← atAttributeStart then readAttribute
  else match ← current with
    | .boolean _ => boolean
    | .string .. => string
    | _ =>
      if ← atCallStart then call
      else match ← loneVariable with
        | some v => return .variable v
        | none => return .ofArithmetic (← rule.parse)

def action (rule : ArithmeticRule) : Parser Action := do
  if ← atAttributeStart then writeAttribute
  else
    let target ← expectIdentifier "identifier" false
    if (← current) = .assign then
      advance
      return .assignment target (← rightHandSide rule)
    else fail (·.mismatch "':=' or attribute tick")

def completeAction (rule : ArithmeticRule) : Parser Action := do
  let parsed ← action rule
  if (← get).stream.atEnd then return parsed
  else fail fun c => .trailingInput c.stream.current.describe c.stream.currentSpan

end StateActions.Parser
