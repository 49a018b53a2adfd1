import StateActions.Action.Basic
import StateActions.Grammar.Cursor

namespace StateActions

-- A grammar of arithmetic that can stand in the action grammar. It stops before the first token
-- that cannot go on with the expression.
structure ArithmeticRule where
  name : String
  parse : Parser Arithmetic

namespace Parser

-- Steps allowed to a production: no production takes more than two for one token.
def budget : Parser Nat := do return 2 * (← get).stream.ahead.length + 2

def path : Nat → Parser (List String)
  | 0 => return []
  | steps + 1 => do
    if (← current) = .dot then
      advance
      let name ← expectIdentifier "identifier after '.'" true
      return name :: (← path steps)
    else return []

-- `identifier ('.' identifier)*`, which never takes a parenthesis that follows.
def variableWithin (steps : Nat) : Parser Variable := do
  let name ← expectIdentifier "identifier" false
  return ⟨name, ← path steps⟩

def variableReference : Parser Variable := do variableWithin (← budget)

end Parser

def Operator.ofToken? : Token → Option Operator
  | .plus => some .add
  | .minus => some .subtract
  | .star => some .multiply
  | .slash => some .divide
  | _ => none

namespace PrecedenceClimbing

open StateActions.Parser

mutual

-- `unary (op binary(prec op + 1))*` for the operators that bind at least as tightly as `floor`.
-- `committed` tells that something was consumed that needs an operand after it.
def binary (steps floor : Nat) (committed : Bool) : Parser Arithmetic :=
  match steps with
  | 0 => fail (·.mismatch "expression")
  | steps + 1 => do climb steps floor (← unary steps committed)

def climb (steps floor : Nat) (left : Arithmetic) : Parser Arithmetic :=
  match steps with
  | 0 => return left
  | steps + 1 => do
    match Operator.ofToken? (← current) with
    | none => return left
    | some operator =>
      if operator.precedence < floor then return left
      else
        advance
        let right ← binary steps (operator.precedence + 1) true
        climb steps floor (.binary operator left right)

-- `'-' unary | primary`.
def unary (steps : Nat) (committed : Bool) : Parser Arithmetic :=
  match steps with
  | 0 => fail (·.mismatch "expression")
  | steps + 1 => do
    match ← current with
    | .minus =>
      advance
      return .negate (← nested "negation" (unary steps true))
    | .number value => advance; return .number value
    | .identifier _ => return .variable (← variableWithin steps)
    | .leftParen =>
      advance
      let inner ← nested "parenthesized expression" (binary steps 1 true)
      expectToken .rightParen true
      return inner
    | _ => fail fun c => if committed then c.structural "operand" else c.mismatch "expression"

end

def rule : ArithmeticRule := ⟨"precedence-climbing", do binary (← budget) 1 false⟩

end PrecedenceClimbing

namespace ArithmeticRule

def leavesOnly : ArithmeticRule :=
  ⟨"leaves-only", do
    match ← Parser.current with
    | .number value => Parser.advance; return .number value
    | _ => Parser.fail (·.mismatch "number")⟩

def broken : ArithmeticRule :=
  ⟨"broken", do
    modify ({ · with crashed := true })
    Parser.fail (·.mismatch "expression")⟩

end ArithmeticRule

end StateActions
