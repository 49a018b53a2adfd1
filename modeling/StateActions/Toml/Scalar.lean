import StateActions.Number.Decimal
import StateActions.Toml.Basic

namespace StateActions.Toml

def isHexDigit (c : Char) : Bool := Numeral.isDigitIn 16 c

def plainDigits? (isDigit : Char → Bool) : List Char → Option (List Char)
  | [] => none
  | [c] => if isDigit c then some [c] else none
  | c :: '_' :: rest => if isDigit c then (plainDigits? isDigit rest).map (c :: ·) else none
  | c :: rest => if isDigit c then (plainDigits? isDigit rest).map (c :: ·) else none

def unsigned : List Char → List Char
  | '+' :: rest => rest
  | '-' :: rest => rest
  | rest => rest

def wholeDigits? (text : List Char) : Option (List Char) := do
  let digits ← plainDigits? Char.isDigit text
  if digits.head? = some '0' ∧ digits.length > 1 then none else some digits

def integer? (text : List Char) : Option Int := do
  let magnitude ← match text with
    | '0' :: 'x' :: rest => (plainDigits? (Numeral.isDigitIn 16) rest).map (Numeral.value 16)
    | '0' :: 'o' :: rest => (plainDigits? (Numeral.isDigitIn 8) rest).map (Numeral.value 8)
    | '0' :: 'b' :: rest => (plainDigits? (Numeral.isDigitIn 2) rest).map (Numeral.value 2)
    | _ => (wholeDigits? (unsigned text)).map (Numeral.value 10)
  let value : Int := if text.head? = some '-' then -magnitude else magnitude
  if -9223372036854775808 ≤ value ∧ value ≤ 9223372036854775807 then some value else none

def markedDigits? : List Char → Option (List Char)
  | [] => some []
  | _ :: rest => plainDigits? Char.isDigit rest

def exponentBound : Nat := 65536

-- The exponent after its mark, if there is one. It is read until it reaches the bound, so a longer
-- one counts for less than it says. That shows only in a number with as many digits as the bound.
def exponent? : List Char → Option Int
  | [] => some 0
  | _ :: rest => do
    let digits ← plainDigits? Char.isDigit (unsigned rest)
    let n : Int := Numeral.valueUpTo exponentBound 10 digits
    return if rest.head? = some '-' then -n else n

-- A number with a point or an exponent, or one of the two words. A number without a minus sign has
-- to lie within the range of doubles.
def isFloat (text : List Char) : Bool :=
  let body := unsigned text
  let isMark := fun c => c == 'e' || c == 'E'
  let mantissa := body.takeWhile (! isMark ·)
  let power := body.dropWhile (! isMark ·)
  let point := mantissa.dropWhile (· != '.')
  if body = "inf".toList ∨ body = "nan".toList then true
  else if point.isEmpty ∧ power.isEmpty then false
  else match wholeDigits? (mantissa.takeWhile (· != '.')), markedDigits? point, exponent? power with
    | some whole, some fraction, some exponent =>
      text.head? = some '-' || Decimal.isInRange ⟨whole, fraction, exponent⟩
    | _, _, _ => false

def field? (width : Nat) (text : List Char) : Option (Nat × List Char) :=
  let digits := text.take width
  if digits.length = width ∧ digits.all Char.isDigit then
    some (Numeral.value 10 digits, text.drop width)
  else none

def skip? (c : Char) : List Char → Option (List Char)
  | d :: rest => if c = d then some rest else none
  | [] => none

def daysIn (year month : Nat) : Nat :=
  if month = 2 then
    if year % 4 = 0 ∧ (year % 100 ≠ 0 ∨ year % 400 = 0) then 29 else 28
  else if month = 4 ∨ month = 6 ∨ month = 9 ∨ month = 11 then 30
  else 31

def date? (text : List Char) : Option (List Char) := do
  let (year, rest) ← field? 4 text
  let (month, rest) ← field? 2 (← skip? '-' rest)
  let (day, rest) ← field? 2 (← skip? '-' rest)
  if 1 ≤ month ∧ month ≤ 12 ∧ 1 ≤ day ∧ day ≤ daysIn year month then some rest else none

def time? (text : List Char) : Option (List Char) := do
  let (hour, rest) ← field? 2 text
  let (minute, rest) ← field? 2 (← skip? ':' rest)
  let (second, rest) ← field? 2 (← skip? ':' rest)
  if hour ≤ 23 ∧ minute ≤ 59 ∧ second ≤ 60 then
    match rest with
    | '.' :: rest =>
      if (rest.takeWhile Char.isDigit).isEmpty then none else some (rest.dropWhile Char.isDigit)
    | rest => some rest
  else none

def isOffset (text : List Char) : Bool :=
  match text with
  | [] => true
  | sign :: rest =>
    if sign = 'Z' ∨ sign = 'z' then rest.isEmpty
    else if sign = '+' ∨ sign = '-' then
      match field? 2 rest with
      | some (hours, ':' :: rest) =>
        match field? 2 rest with
        | some (minutes, []) => hours ≤ 23 && minutes ≤ 59
        | _ => false
      | _ => false
    else false

def isMoment (text : List Char) : Bool :=
  match date? text with
  | some [] => true
  | some (mark :: rest) =>
    (mark = 'T' || mark = 't' || mark = ' ') && (time? rest).any isOffset
  | none => (time? text).any (·.isEmpty)

def scalar? (text : List Char) : Option Toml :=
  if text = "true".toList then some (.bool true)
  else if text = "false".toList then some (.bool false)
  else match integer? text with
    | some value => some (.integer value)
    | none =>
      if isFloat text then some .float
      else if isMoment text then some .moment
      else none

end StateActions.Toml
