import StateActions.Text.Basic

namespace StateActions

-- A number is kept as it is written. `skipped` stands for a text that has the shape of a value but
-- none that can be held: a string with half of a surrogate pair or a number out of range.
inductive Json
  | null
  | bool (value : Bool)
  | number (text : String)
  | string (text : String)
  | skipped
  | array (items : List Json)
  | object (fields : List (String × Json))
deriving Repr, Inhabited

namespace Json

def nat (n : Nat) : Json := .number (toString n)

def escape (c : Char) : String :=
  if c = '\x22' then "\\\""
  else if c = '\\' then "\\\\"
  else if c = '\x08' then "\\b"
  else if c = '\t' then "\\t"
  else if c = '\n' then "\\n"
  else if c = '\x0c' then "\\f"
  else if c = '\r' then "\\r"
  else if c.toNat < 0x20 then "\\u" ++ Text.hexPadded 4 c.toNat
  else "".push c

def quoted (text : String) : String :=
  text.foldl (fun out c => out ++ escape c) "\"" ++ "\""

mutual

def compact : Json → String
  | .null | .skipped => "null"
  | .bool value => toString value
  | .number text => text
  | .string text => quoted text
  | .array items => "[" ++ ",".intercalate (compactItems items) ++ "]"
  | .object fields => "\x7b" ++ ",".intercalate (compactFields fields) ++ "\x7d"

def compactItems : List Json → List String
  | [] => []
  | item :: rest => item.compact :: compactItems rest

def compactFields : List (String × Json) → List String
  | [] => []
  | (key, item) :: rest => (quoted key ++ ":" ++ item.compact) :: compactFields rest

end

mutual

-- One item a line and two spaces for each level. The lines after the first start at `margin`.
def pretty (margin : String) : Json → String
  | .array [] => "[]"
  | .array items =>
    let inner := margin ++ "  "
    "[\n" ++ ",\n".intercalate (prettyItems inner items) ++ "\n" ++ margin ++ "]"
  | .object [] => "\x7b\x7d"
  | .object fields =>
    let inner := margin ++ "  "
    "\x7b\n" ++ ",\n".intercalate (prettyFields inner fields) ++ "\n" ++ margin ++ "\x7d"
  | .null | .skipped => "null"
  | .bool value => toString value
  | .number text => text
  | .string text => quoted text

def prettyItems (margin : String) : List Json → List String
  | [] => []
  | item :: rest => (margin ++ item.pretty margin) :: prettyItems margin rest

def prettyFields (margin : String) : List (String × Json) → List String
  | [] => []
  | (key, item) :: rest =>
    (margin ++ quoted key ++ ": " ++ item.pretty margin) :: prettyFields margin rest

end

def nestingLimit : Nat := 127

mutual

def readable (levels : Nat) : Json → Bool
  | .skipped => false
  | .array items => levels > 0 && readableItems (levels - 1) items
  | .object fields => levels > 0 && readableFields (levels - 1) fields
  | _ => true

def readableItems (levels : Nat) : List Json → Bool
  | [] => true
  | item :: rest => item.readable levels && readableItems levels rest

def readableFields (levels : Nat) : List (String × Json) → Bool
  | [] => true
  | (_, item) :: rest => item.readable levels && readableFields levels rest

end

def field? (key : String) (fields : List (String × Json)) : Option Json :=
  match fields.filter (·.1 == key) with
  | [(_, value)] => some value
  | _ => none

end Json

end StateActions
