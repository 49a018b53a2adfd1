import StateActions.Toml.Scalar

namespace StateActions.Toml

def isSpace (c : Char) : Bool := c == ' ' || c == '\t'

def skipSpace (text : List Char) : List Char := text.dropWhile isSpace

def isForbidden (c : Char) : Bool := (c.toNat < 0x20 && c != '\t') || c.toNat == 0x7F

def lineEnd? (text : List Char) : Option (List Char) :=
  let rest := match skipSpace text with
    | '#' :: comment => comment.dropWhile (! isForbidden ·)
    | rest => rest
  match rest with
  | [] => some []
  | '\n' :: rest => some rest
  | '\r' :: '\n' :: rest => some rest
  | _ => none

def skipLines? (steps : Nat) (text : List Char) : Option (List Char) :=
  match steps with
  | 0 => none
  | steps + 1 =>
    match skipSpace text with
    | '#' :: rest =>
      match lineEnd? ('#' :: rest) with
      | some rest => skipLines? steps rest
      | none => none
    | '\n' :: rest => skipLines? steps rest
    | '\r' :: '\n' :: rest => skipLines? steps rest
    | rest => some rest

def scalarValue? (digits : List Char) : Option Char :=
  let n := Numeral.value 16 digits
  if digits.all isHexDigit && (n < 0xD800 || (0xDFFF < n && n < 0x110000)) then some (Char.ofNat n)
  else none

def escape? : List Char → Option (Char × List Char)
  | 'b' :: rest => some ('\x08', rest)
  | 't' :: rest => some ('\t', rest)
  | 'n' :: rest => some ('\n', rest)
  | 'f' :: rest => some ('\x0c', rest)
  | 'r' :: rest => some ('\r', rest)
  | '\x22' :: rest => some ('\x22', rest)
  | '\\' :: rest => some ('\\', rest)
  | 'u' :: rest => if rest.length < 4 then none else
    (scalarValue? (rest.take 4)).map fun c => (c, rest.drop 4)
  | 'U' :: rest => if rest.length < 8 then none else
    (scalarValue? (rest.take 8)).map fun c => (c, rest.drop 8)
  | _ => none

def stringRest? (steps : Nat) (quote : Char) (done text : List Char) :
    Option (String × List Char) :=
  match steps, text with
  | 0, _ => none
  | _, [] => none
  | steps + 1, c :: rest =>
    if c = quote then some (String.ofList done.reverse, rest)
    else if c = '\\' ∧ quote = '\x22' then
      match escape? rest with
      | some (c, rest) => stringRest? steps quote (c :: done) rest
      | none => none
    else if isForbidden c then none
    else stringRest? steps quote (c :: done) rest

def endsLine (text : List Char) : Bool :=
  match skipSpace text with
  | '\n' :: _ => true
  | '\r' :: '\n' :: _ => true
  | _ => false

-- Drops blanks and line ends. A carriage return is part of a line end only before its line feed.
def skipBlankLines : List Char → List Char
  | '\r' :: '\n' :: rest => skipBlankLines rest
  | c :: rest => if isSpace c || c == '\n' then skipBlankLines rest else c :: rest
  | [] => []

-- The rest of a string on several lines. Up to two quotes may stand right before its end.
def blockRest? (steps : Nat) (quote : Char) (done text : List Char) :
    Option (String × List Char) :=
  match steps, text with
  | 0, _ => none
  | _, [] => none
  | steps + 1, c :: rest =>
    if c = quote then
      let run := (c :: rest).takeWhile (· == quote)
      let left := (c :: rest).dropWhile (· == quote)
      if run.length < 3 then blockRest? steps quote (c :: done) rest
      else if run.length > 5 then none
      else some (String.ofList ((run.drop 3) ++ done).reverse, left)
    else if c = '\\' ∧ quote = '\x22' then
      if endsLine rest then blockRest? steps quote done (skipBlankLines rest)
      else match escape? rest with
        | some (c, rest) => blockRest? steps quote (c :: done) rest
        | none => none
    else if c = '\n' then blockRest? steps quote (c :: done) rest
    else if c = '\r' then
      match rest with
      | '\n' :: rest => blockRest? steps quote ('\n' :: done) rest
      | _ => none
    else if isForbidden c then none
    else blockRest? steps quote (c :: done) rest

def dropLineEnd : List Char → List Char
  | '\n' :: rest => rest
  | '\r' :: '\n' :: rest => rest
  | rest => rest

def isBareKey (c : Char) : Bool := c.isAlphanum || c == '_' || c == '-'

def keyPart? (text : List Char) : Option (String × List Char) :=
  match text with
  | '\x22' :: rest => stringRest? (rest.length + 1) '\x22' [] rest
  | '\x27' :: rest => stringRest? (rest.length + 1) '\x27' [] rest
  | _ =>
    match text.takeWhile isBareKey with
    | [] => none
    | part => some (String.ofList part, text.dropWhile isBareKey)

def nestingLimit : Nat := 79

def keyParts? (parts : Nat) (text : List Char) : Option (List String × List Char) :=
  match parts with
  | 0 => none
  | parts + 1 =>
    match keyPart? (skipSpace text) with
    | none => none
    | some (part, rest) =>
      match skipSpace rest with
      | '.' :: rest => (keyParts? parts rest).map fun (found, rest) => (part :: found, rest)
      | rest => some ([part], rest)

def key? (text : List Char) : Option (List String × List Char) := keyParts? nestingLimit text

-- The characters that numbers, moments and words are made of. A blank may stand once, between a
-- date and a time.
def scalarText (text : List Char) : List Char :=
  let isPart := fun c : Char =>
    c.isAlphanum || c == '_' || c == '+' || c == '-' || c == '.' || c == ':'
  let first := text.takeWhile isPart
  match date? first, text.drop first.length with
  | some [], ' ' :: d :: rest =>
    if d.isDigit then first ++ ' ' :: (d :: rest).takeWhile isPart else first
  | _, _ => first

mutual

def value? (steps levels : Nat) (text : List Char) : Option (Toml × List Char) :=
  match steps with
  | 0 => none
  | steps + 1 =>
    match text with
    | '\x22' :: '\x22' :: '\x22' :: rest =>
      (blockRest? steps '\x22' [] (dropLineEnd rest)).map fun (s, rest) =>
        (.text s, rest)
    | '\x27' :: '\x27' :: '\x27' :: rest =>
      (blockRest? steps '\x27' [] (dropLineEnd rest)).map fun (s, rest) =>
        (.text s, rest)
    | '\x22' :: rest =>
      (stringRest? steps '\x22' [] rest).map fun (s, rest) => (.text s, rest)
    | '\x27' :: rest =>
      (stringRest? steps '\x27' [] rest).map fun (s, rest) => (.text s, rest)
    | '[' :: rest =>
      if levels = 0 then none
      else (items? steps (levels - 1) rest).map fun (items, rest) => (.array items, rest)
    | '\x7b' :: rest =>
      if levels = 0 then none
      else match skipSpace rest with
        | '\x7d' :: rest => some (.inline [], rest)
        | rest =>
          (pairs? steps (levels - 1) [] rest).map fun (fields, rest) => (.inline fields, rest)
    | _ =>
      let lexeme := scalarText text
      (scalar? lexeme).map fun value => (value, text.drop lexeme.length)

def items? (steps levels : Nat) (text : List Char) : Option (List Toml × List Char) :=
  match steps with
  | 0 => none
  | steps + 1 =>
    match skipLines? steps text with
    | none => none
    | some (']' :: rest) => some ([], rest)
    | some text =>
      match value? steps levels text with
      | none => none
      | some (item, rest) =>
        match skipLines? steps rest with
        | some (']' :: rest) => some ([item], rest)
        | some (',' :: rest) =>
          (items? steps levels rest).map fun (items, rest) => (item :: items, rest)
        | _ => none

def pairs? (steps levels : Nat) (fields : Fields) (text : List Char) :
    Option (Fields × List Char) :=
  match steps with
  | 0 => none
  | steps + 1 =>
    match key? text with
    | some (key, '=' :: rest) =>
      match value? steps levels (skipSpace rest) with
      | none => none
      | some (value, rest) =>
        match assign? value key fields with
        | none => none
        | some fields =>
          match skipSpace rest with
          | '\x7d' :: rest => some (fields, rest)
          | ',' :: rest => pairs? steps levels fields rest
          | _ => none
    | _ => none

end

def arrayHeader? (text : List Char) : Option (List String × List Char) :=
  match text with
  | '[' :: rest =>
    match key? rest with
    | some (path, ']' :: ']' :: rest) => some (path, rest)
    | _ => none
  | _ => none

def header? (text : List Char) : Option (List String × List Char) :=
  match key? text with
  | some (path, ']' :: rest) => some (path, rest)
  | _ => none

def atLast? (change : String → Fields → Option Fields) (path : List String) (root : Fields) :
    Option Fields :=
  match path.getLast? with
  | none => none
  | some key => below? (change key) path.dropLast root

def lines? (steps : Nat) (here : List String) (root : Fields) (text : List Char) : Option Fields :=
  match steps with
  | 0 => none
  | steps + 1 =>
    match skipSpace text with
    | [] => some root
    | '[' :: rest =>
      match arrayHeader? rest with
      | some (path, rest) => do lines? steps path (← atLast? append? path root) (← lineEnd? rest)
      | none => do
        let (path, rest) ← header? rest
        lines? steps path (← atLast? open? path root) (← lineEnd? rest)
    | c :: rest =>
      if c = '#' ∨ c = '\n' ∨ c = '\r' then do lines? steps here root (← lineEnd? (c :: rest))
      else do
        let (key, rest) ← key? (c :: rest)
        let (value, rest) ← value? (2 * steps + 2) nestingLimit (skipSpace (← skip? '=' rest))
        lines? steps here (← below? (assign? value key) here root) (← lineEnd? rest)

def ofText? (document : String) : Option Fields :=
  let text := match document.toList with
    | '\uFEFF' :: rest => rest
    | all => all
  lines? (text.length + 1) [] [] text

end StateActions.Toml
