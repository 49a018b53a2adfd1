import StateActions.Action.Basic
import StateActions.Json.Library

namespace StateActions

open Json (Library)

-- Numbers are decimal strings, so that any size survives.
def Json.ofNumber (n : Nat) : Json := .string (toString n)

def Json.Library.number? (l : Library) (x : l.Source) : Option Nat :=
  (l.string? x).bind Numeral.ofDecimal?

section Documents

variable (l : Library)

def Variable.document (v : Variable) : Json :=
  l.record [("name", .string v.name), ("path", .array (v.path.map .string))]

def Arithmetic.document : Arithmetic → Json
  | .number value => l.internal "kind" "Number" [("value", .ofNumber value)]
  | .variable v => l.internal "kind" "Variable" [("variable", v.document l)]
  | .negate operand => l.internal "kind" "Negate" [("operand", operand.document)]
  | .binary operator left right =>
    l.internal "kind" "Binary"
      [("operator", l.unit operator.name), ("left", left.document), ("right", right.document)]

mutual

def Expression.document : Expression → Json
  | .variable v => l.adjacent "kind" "value" "Variable" (v.document l)
  | .number value => l.adjacent "kind" "value" "NumberLiteral" (.ofNumber value)
  | .string text => l.adjacent "kind" "value" "StringLiteral" (.string text)
  | .boolean value => l.adjacent "kind" "value" "BooleanLiteral" (.bool value)
  | .call name arguments =>
    l.adjacent "kind" "value" "Call"
      (l.record [("name", .string name), ("args", .array (Expression.documents arguments))])
  | .readAttribute typeName channel =>
    l.adjacent "kind" "value" "ReadAttribute"
      (l.record [("type_name", .string typeName), ("channel", .string channel)])
  | .arithmetic tree => l.adjacent "kind" "value" "Arithmetic" (tree.document l)

def Expression.documents : List Expression → List Json
  | [] => []
  | e :: rest => e.document :: Expression.documents rest

end

def Action.document : Action → Json
  | .assignment target value =>
    l.internal "kind" "Assignment" [("target", .string target), ("value", value.document l)]
  | .writeAttribute typeName channel item =>
    l.internal "kind" "WriteAttribute"
      [("type_name", .string typeName), ("channel", .string channel), ("item", item.document l)]

end Documents

section Sources

variable (l : Library)

def Variable.ofSource? (x : l.Source) : Option Variable := do
  match ← l.record? ["name", "path"] x with
  | [name, path] => return ⟨← l.string? name, ← (← l.sequence? path).mapM l.string?⟩
  | _ => none

def Arithmetic.variants : List (String × List String) :=
  [("Number", ["value"]), ("Variable", ["variable"]), ("Negate", ["operand"]),
    ("Binary", ["operator", "left", "right"])]

-- A tree that takes at most so many levels.
def Arithmetic.ofSource? (levels : Nat) (x : l.Source) : Option Arithmetic :=
  match levels with
  | 0 => none
  | levels + 1 => do
    match ← l.internal? "kind" variants x with
    | ("Number", [value]) => return .number (← l.number? value)
    | ("Variable", [v]) => return .variable (← Variable.ofSource? l v)
    | ("Negate", [operand]) => return .negate (← ofSource? levels operand)
    | ("Binary", [operator, left, right]) =>
      let name ← l.unit? (Operator.all.map (·.name)) operator
      return .binary (← Operator.ofName? name) (← ofSource? levels left) (← ofSource? levels right)
    | _ => none

def Expression.variants : List String :=
  ["Variable", "NumberLiteral", "StringLiteral", "BooleanLiteral", "Call", "ReadAttribute",
    "Arithmetic"]

def Expression.ofSource? (levels : Nat) (x : l.Source) : Option Expression :=
  match levels with
  | 0 => none
  | levels + 1 => do
    let (variant, value) ← l.adjacent? "kind" "value" variants x
    match variant with
    | "Variable" => return .variable (← Variable.ofSource? l value)
    | "NumberLiteral" => return .number (← l.number? value)
    | "StringLiteral" => return .string (← l.string? value)
    | "BooleanLiteral" => return .boolean (← l.bool? value)
    | "Call" =>
      match ← l.fields? ["name", "args"] value with
      | [name, arguments] =>
        return .call (← l.string? name) (← (← l.sequence? arguments).mapM (ofSource? levels))
      | _ => none
    | "ReadAttribute" =>
      match ← l.fields? ["type_name", "channel"] value with
      | [typeName, channel] => return .readAttribute (← l.string? typeName) (← l.string? channel)
      | _ => none
    | "Arithmetic" => return .arithmetic (← Arithmetic.ofSource? l levels value)
    | _ => none

def Action.variants : List (String × List String) :=
  [("Assignment", ["target", "value"]), ("WriteAttribute", ["type_name", "channel", "item"])]

def Action.ofSource? (levels : Nat) (x : l.Source) : Option Action := do
  match ← l.internal? "kind" variants x with
  | ("Assignment", [target, value]) =>
    return .assignment (← l.string? target) (← Expression.ofSource? l levels value)
  | ("WriteAttribute", [typeName, channel, item]) =>
    return .writeAttribute (← l.string? typeName) (← l.string? channel)
      (← Expression.ofSource? l levels item)
  | _ => none

end Sources

namespace Json.Library

def actionOf? (l : Library) (text : String) : Option Action :=
  (l.source? text).bind (Action.ofSource? l nestingLimit)

def expressionOf? (l : Library) (text : String) : Option Expression :=
  (l.source? text).bind (Expression.ofSource? l nestingLimit)

def arithmeticOf? (l : Library) (text : String) : Option Arithmetic :=
  (l.source? text).bind (Arithmetic.ofSource? l nestingLimit)

def variableOf? (l : Library) (text : String) : Option Variable :=
  (l.source? text).bind (Variable.ofSource? l)

end Json.Library

def Action.toJson (a : Action) : Json := a.document Json.library

def Expression.toJson (e : Expression) : Json := e.document Json.library

def Arithmetic.toJson (t : Arithmetic) : Json := t.document Json.library

def Variable.toJson (v : Variable) : Json := v.document Json.library

end StateActions
