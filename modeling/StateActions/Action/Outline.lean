import StateActions.Action.Basic
import StateActions.Text.Outline

namespace StateActions

def Variable.outline (v : Variable) : Outline :=
  .record "Variable" [("name", .quoted v.name), ("path", .list (v.path.map .quoted))]

def Arithmetic.outline : Arithmetic → Outline
  | .number value => .record "Number" [("value", .nat value)]
  | .variable v => .record "Variable" [("variable", v.outline)]
  | .negate operand => .record "Negate" [("operand", operand.outline)]
  | .binary operator left right =>
    .record "Binary"
      [("operator", .atom operator.name), ("left", left.outline), ("right", right.outline)]

namespace Expression

mutual

def outline : Expression → Outline
  | .variable v => .tagged "Variable" v.outline
  | .number value => .tagged "NumberLiteral" (.nat value)
  | .string text => .tagged "StringLiteral" (.quoted text)
  | .boolean value => .tagged "BooleanLiteral" (.bool value)
  | .call name arguments =>
    .record "Call" [("name", .quoted name), ("args", .list (outlineList arguments))]
  | .readAttribute typeName channel =>
    .record "ReadAttribute" [("type_name", .quoted typeName), ("channel", .quoted channel)]
  | .arithmetic tree => .tagged "Arithmetic" tree.outline

def outlineList : List Expression → List Outline
  | [] => []
  | e :: rest => e.outline :: outlineList rest

end

end Expression

def Action.outline : Action → Outline
  | .assignment target value =>
    .record "Assignment" [("target", .quoted target), ("value", value.outline)]
  | .writeAttribute typeName channel item =>
    .record "WriteAttribute"
      [("type_name", .quoted typeName), ("channel", .quoted channel), ("item", item.outline)]

end StateActions
