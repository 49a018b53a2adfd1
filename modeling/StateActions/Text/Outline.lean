import StateActions.Text.Basic
import StateActions.Text.Printable

namespace StateActions

inductive Outline
  | atom (text : String)
  | tagged (name : String) (item : Outline)
  | record (name : String) (fields : List (String × Outline))
  | list (items : List Outline)
deriving Repr, Inhabited

namespace Outline

def escape (c : Char) : String :=
  if c = '\x22' then "\\\""
  else if c = '\\' then "\\\\"
  else if c = '\n' then "\\n"
  else if c = '\r' then "\\r"
  else if c = '\t' then "\\t"
  else if c = '\x00' then "\\0"
  else if Text.isPrintable c then "".push c
  else "\\u\x7b" ++ Text.hex c.toNat ++ "\x7d"

def quoted (text : String) : Outline :=
  .atom ("\"" ++ text.foldl (fun out c => out ++ escape c) "" ++ "\"")

def bool (b : Bool) : Outline := .atom (toString b)

def nat (n : Nat) : Outline := .atom (toString n)

mutual

def inline : Outline → String
  | .atom text => text
  | .tagged name item => name ++ "(" ++ item.inline ++ ")"
  | .record name fields => name ++ " \x7b " ++ ", ".intercalate (inlineFields fields) ++ " \x7d"
  | .list items => "[" ++ ", ".intercalate (inlineItems items) ++ "]"

def inlineFields : List (String × Outline) → List String
  | [] => []
  | (key, item) :: rest => (key ++ ": " ++ item.inline) :: inlineFields rest

def inlineItems : List Outline → List String
  | [] => []
  | item :: rest => item.inline :: inlineItems rest

end

mutual

def indented (margin : String) : Outline → String
  | .atom text => text
  | .tagged name item =>
    let inner := margin ++ "    "
    name ++ "(\n" ++ inner ++ item.indented inner ++ ",\n" ++ margin ++ ")"
  | .record name fields =>
    name ++ " \x7b\n" ++ indentedFields (margin ++ "    ") fields ++ margin ++ "\x7d"
  | .list [] => "[]"
  | .list items => "[\n" ++ indentedItems (margin ++ "    ") items ++ margin ++ "]"

def indentedFields (margin : String) : List (String × Outline) → String
  | [] => ""
  | (key, item) :: rest =>
    margin ++ key ++ ": " ++ item.indented margin ++ ",\n" ++ indentedFields margin rest

def indentedItems (margin : String) : List Outline → String
  | [] => ""
  | item :: rest => margin ++ item.indented margin ++ ",\n" ++ indentedItems margin rest

end

end Outline

end StateActions
