import StateActions.Action.Basic

namespace StateActions

def Variable.print (v : Variable) : String := ".".intercalate v.components

namespace Arithmetic

-- How tightly a tree holds together: operators as they bind, a minus sign above them, leaves above
-- all.
def binding : Arithmetic → Nat
  | .number _ | .variable _ => 4
  | .negate _ => 3
  | .binary operator .. => operator.precedence

def parenthesised (needed : Bool) (text : String) : String :=
  if needed then "(" ++ text ++ ")" else text

def print : Arithmetic → String
  | .number value => toString value
  | .variable v => v.print
  | .negate operand => "-" ++ parenthesised (operand.binding < 3) operand.print
  | .binary operator left right =>
    parenthesised (left.binding < operator.precedence) left.print ++
      " " ++ operator.symbol ++ " " ++
      parenthesised (right.binding ≤ operator.precedence) right.print

end Arithmetic

namespace Expression

def printString (text : String) : String :=
  if text.contains '\x22' then "'" ++ text ++ "'" else "\"" ++ text ++ "\""

mutual

def print : Expression → String
  | .variable v => v.print
  | .number value => toString value
  | .string text => printString text
  | .boolean true => "True"
  | .boolean false => "False"
  | .call name arguments => name ++ " (" ++ ", ".intercalate (printList arguments) ++ ")"
  | .readAttribute typeName channel => typeName ++ "'Read (" ++ channel ++ ")"
  | .arithmetic tree => tree.print

def printList : List Expression → List String
  | [] => []
  | e :: rest => e.print :: printList rest

end

end Expression

def Action.print : Action → String
  | .assignment target value => target ++ " := " ++ value.print
  | .writeAttribute typeName channel item =>
    typeName ++ "'Write (" ++ channel ++ ", " ++ item.print ++ ")"

end StateActions
