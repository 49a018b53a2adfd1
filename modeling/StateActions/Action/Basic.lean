namespace StateActions

structure Variable where
  name : String
  path : List String := []
deriving DecidableEq, Repr, Inhabited

namespace Variable

def isSimple (v : Variable) : Bool := v.path.isEmpty

def components (v : Variable) : List String := v.name :: v.path

end Variable

inductive Operator
  | add
  | subtract
  | multiply
  | divide
deriving DecidableEq, Repr, Inhabited

namespace Operator

def symbol : Operator → String
  | .add => "+"
  | .subtract => "-"
  | .multiply => "*"
  | .divide => "/"

def name : Operator → String
  | .add => "Add"
  | .subtract => "Subtract"
  | .multiply => "Multiply"
  | .divide => "Divide"

def all : List Operator := [.add, .subtract, .multiply, .divide]

def ofSymbol? (text : String) : Option Operator := all.find? (·.symbol == text)

def ofName? (text : String) : Option Operator := all.find? (·.name == text)

def precedence : Operator → Nat
  | .add | .subtract => 1
  | .multiply | .divide => 2

theorem ofSymbol?_symbol (o : Operator) : ofSymbol? o.symbol = some o := by cases o <;> rfl

theorem ofName?_name (o : Operator) : ofName? o.name = some o := by cases o <;> rfl

end Operator

inductive Arithmetic
  | number (value : Nat)
  | variable (reference : Variable)
  | negate (operand : Arithmetic)
  | binary (operator : Operator) (left right : Arithmetic)
deriving DecidableEq, Repr, Inhabited

def Arithmetic.depth : Arithmetic → Nat
  | .number _ | .variable _ => 1
  | .negate operand => 1 + operand.depth
  | .binary _ left right => 1 + max left.depth right.depth

inductive Expression
  | variable (reference : Variable)
  | number (value : Nat)
  | string (text : String)
  | boolean (value : Bool)
  | call (name : String) (arguments : List Expression)
  | readAttribute (typeName channel : String)
  | arithmetic (tree : Arithmetic)
deriving Repr, Inhabited

namespace Expression

mutual

def same : Expression → Expression → Bool
  | .variable v, .variable w => v == w
  | .number m, .number n => m == n
  | .string s, .string t => s == t
  | .boolean a, .boolean b => a == b
  | .call f as, .call g bs => f == g && sameList as bs
  | .readAttribute t c, .readAttribute u d => t == u && c == d
  | .arithmetic a, .arithmetic b => a == b
  | _, _ => false

def sameList : List Expression → List Expression → Bool
  | [], [] => true
  | a :: as, b :: bs => same a b && sameList as bs
  | _, _ => false

end

mutual

theorem same_iff : ∀ a b : Expression, same a b = true ↔ a = b
  | .call f as, b => by
    cases b <;> simp [same, sameList_iff as]
  | .variable _, b | .number _, b | .string _, b | .boolean _, b | .readAttribute .., b
  | .arithmetic _, b => by
    cases b <;> simp [same]

theorem sameList_iff : ∀ as bs : List Expression, sameList as bs = true ↔ as = bs
  | [], bs => by cases bs <;> simp [sameList]
  | a :: as, bs => by cases bs <;> simp [sameList, same_iff a, sameList_iff as]

end

instance : DecidableEq Expression := fun a b => decidable_of_iff _ (same_iff a b)

def kind : Expression → String
  | .variable _ => "variable"
  | .number _ => "number"
  | .string _ => "string"
  | .boolean _ => "boolean"
  | .call .. => "call"
  | .readAttribute .. => "read_attribute"
  | .arithmetic _ => "arithmetic"

mutual

-- The nesting of calls and arithmetic nodes; a leaf counts one.
def depth : Expression → Nat
  | .call _ arguments => 1 + depthList arguments
  | .arithmetic tree => tree.depth
  | _ => 1

def depthList : List Expression → Nat
  | [] => 0
  | e :: rest => max e.depth (depthList rest)

end

-- Arithmetic as an expression. A lone number or variable needs no arithmetic node.
def ofArithmetic : Arithmetic → Expression
  | .number value => .number value
  | .variable v => .variable v
  | other => .arithmetic other

end Expression

inductive Action
  | assignment (target : String) (value : Expression)
  | writeAttribute (typeName channel : String) (item : Expression)
deriving DecidableEq, Repr, Inhabited

namespace Action

def expression : Action → Expression
  | .assignment _ value => value
  | .writeAttribute _ _ item => item

def kind : Action → String
  | .assignment .. => "assignment"
  | .writeAttribute .. => "write_attribute"

end Action

end StateActions
