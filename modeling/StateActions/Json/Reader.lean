import StateActions.Json.Basic
import StateActions.Number.Decimal

namespace StateActions.Json

def isSpace (c : Char) : Bool := c == ' ' || c == '\n' || c == '\t' || c == '\r'

def skipSpace (text : List Char) : List Char := text.dropWhile isSpace

def unit? (a b c d : Char) : Option Nat :=
  if [a, b, c, d].all (Numeral.isDigitIn 16) then some (Numeral.value 16 [a, b, c, d]) else none

def isHighSurrogate (n : Nat) : Bool := 0xD800 ≤ n && n ≤ 0xDBFF

def isLowSurrogate (n : Nat) : Bool := 0xDC00 ≤ n && n ≤ 0xDFFF

def simpleEscape? : Char → Option Char
  | '\x22' => some '\x22'
  | '\\' => some '\\'
  | '/' => some '/'
  | 'b' => some '\x08'
  | 'f' => some '\x0c'
  | 'n' => some '\n'
  | 'r' => some '\r'
  | 't' => some '\t'
  | _ => none

-- The rest of a string after its opening quote. `done` holds the characters found, the last one
-- first, and is `none` once one of them was half of a surrogate pair.
def stringRest (done : Option (List Char)) : List Char → Option (Option (List Char) × List Char)
  | '\x22' :: rest => some (done.map List.reverse, rest)
  | '\\' :: 'u' :: a :: b :: c :: d :: '\\' :: 'u' :: e :: f :: g :: h :: rest =>
    match unit? a b c d with
    | none => none
    | some high =>
      match unit? e f g h with
      | none => none
      | some low =>
        if isHighSurrogate high && isLowSurrogate low then
          let code := 0x10000 + (high - 0xD800) * 0x400 + (low - 0xDC00)
          stringRest (done.map (Char.ofNat code :: ·)) rest
        else if isHighSurrogate high || isLowSurrogate high then
          stringRest none ('\\' :: 'u' :: e :: f :: g :: h :: rest)
        else
          stringRest (done.map (Char.ofNat high :: ·)) ('\\' :: 'u' :: e :: f :: g :: h :: rest)
  | '\\' :: 'u' :: a :: b :: c :: d :: rest =>
    match unit? a b c d with
    | none => none
    | some code =>
      if isHighSurrogate code || isLowSurrogate code then stringRest none rest
      else stringRest (done.map (Char.ofNat code :: ·)) rest
  | '\\' :: c :: rest =>
    match simpleEscape? c with
    | none => none
    | some e => stringRest (done.map (e :: ·)) rest
  | c :: rest => if c.toNat < 0x20 ∨ c = '\\' then none else stringRest (done.map (c :: ·)) rest
  | [] => none

def digits? (text : List Char) : Option (List Char × List Char) :=
  match text.takeWhile Char.isDigit with
  | [] => none
  | digits => some (digits, text.dropWhile Char.isDigit)

def integer? (text : List Char) : Option (List Char × List Char) := do
  let (digits, rest) ← digits? text
  if digits.head? = some '0' ∧ digits.length > 1 then none else some (digits, rest)

def fraction? : List Char → Option (List Char × List Char)
  | '.' :: rest => (digits? rest).map fun (digits, rest) => ('.' :: digits, rest)
  | rest => some ([], rest)

def isExponentMark (c : Char) : Bool := c == 'e' || c == 'E'

def isSign (c : Char) : Bool := c == '+' || c == '-'

def exponent? : List Char → Option (List Char × List Char)
  | [] => some ([], [])
  | mark :: text =>
    if isExponentMark mark then
      let sign := (text.take 1).filter isSign
      (digits? (text.drop sign.length)).map fun (digits, rest) => (mark :: sign ++ digits, rest)
    else some ([], mark :: text)

-- Where the digits of an exponent stop to count.
def exponentBound : Nat := 2147483648

def exponentValue (written : List Char) : Int :=
  let n : Int := Numeral.valueUpTo exponentBound 10 (written.filter Char.isDigit)
  if written.contains '-' then -n else n

def number? (text : List Char) : Option (Json × List Char) := do
  let minus := (text.take 1).filter (· == '-')
  let (whole, rest) ← integer? (text.drop minus.length)
  let (fraction, rest) ← fraction? rest
  let (exponent, rest) ← exponent? rest
  if Decimal.isInScaledRange ⟨whole, fraction.drop 1, exponentValue exponent⟩ then
    some (.number (String.ofList (minus ++ whole ++ fraction ++ exponent)), rest)
  else some (.skipped, rest)

def literal? (word : List Char) (value : Json) (text : List Char) : Option (Json × List Char) :=
  if word.isPrefixOf text then some (value, text.drop word.length) else none

mutual

def value? (steps : Nat) (text : List Char) : Option (Json × List Char) :=
  match steps with
  | 0 => none
  | steps + 1 =>
    match skipSpace text with
    | '\x22' :: rest =>
      (stringRest (some []) rest).map fun (found, rest) =>
        ((found.map fun s => Json.string (String.ofList s)).getD .skipped, rest)
    | '[' :: rest =>
      match skipSpace rest with
      | ']' :: rest => some (.array [], rest)
      | rest => (items? steps rest).map fun (items, rest) => (.array items, rest)
    | '\x7b' :: rest =>
      match skipSpace rest with
      | '\x7d' :: rest => some (.object [], rest)
      | rest =>
        (fields? steps rest).map fun (fields, rest) =>
          ((fields.map Json.object).getD .skipped, rest)
    | 'n' :: rest => literal? "ull".toList .null rest
    | 't' :: rest => literal? "rue".toList (.bool true) rest
    | 'f' :: rest => literal? "alse".toList (.bool false) rest
    | rest => number? rest

def items? (steps : Nat) (text : List Char) : Option (List Json × List Char) :=
  match steps with
  | 0 => none
  | steps + 1 =>
    match value? steps text with
    | none => none
    | some (item, rest) =>
      match skipSpace rest with
      | ']' :: rest => some ([item], rest)
      | ',' :: rest => (items? steps rest).map fun (items, rest) => (item :: items, rest)
      | _ => none

-- Fields between commas, up to the closing brace. A key that cannot be held spoils all.
def fields? (steps : Nat) (text : List Char) :
    Option (Option (List (String × Json)) × List Char) :=
  match steps with
  | 0 => none
  | steps + 1 =>
    match skipSpace text with
    | '\x22' :: rest =>
      match stringRest (some []) rest with
      | none => none
      | some (key, rest) =>
        match skipSpace rest with
        | ':' :: rest =>
          match value? steps rest with
          | none => none
          | some (item, rest) =>
            let field := key.map fun k => (String.ofList k, item)
            match skipSpace rest with
            | '\x7d' :: rest => some (field.map ([·]), rest)
            | ',' :: rest =>
              (fields? steps rest).map fun (fields, rest) =>
                (field.bind fun f => fields.map (f :: ·), rest)
            | _ => none
        | _ => none
    | _ => none

end

def ofText? (text : String) : Option Json :=
  let text := text.toList
  match value? (2 * text.length + 2) text with
  | some (value, rest) => if (skipSpace rest).isEmpty then some value else none
  | none => none

end StateActions.Json
