namespace StateActions.Numeral

def digit? (c : Char) : Option Nat :=
  let n := c.toNat
  if 0x30 ≤ n ∧ n ≤ 0x39 then some (n - 0x30)
  else if 0x41 ≤ n ∧ n ≤ 0x46 then some (n - 0x37)
  else if 0x61 ≤ n ∧ n ≤ 0x66 then some (n - 0x57)
  else none

def isDigitIn (base : Nat) (c : Char) : Bool := (digit? c).any (· < base)

def value (base : Nat) (digits : List Char) : Nat :=
  digits.foldl (fun n c => n * base + (digit? c).getD 0) 0

@[simp] theorem value_nil (base : Nat) : value base [] = 0 := rfl

-- The number is read only until it reaches `bound`. The digits after that are passed over.
def valueUpTo (bound base : Nat) (digits : List Char) : Nat :=
  digits.foldl (fun n c => if n < bound then n * base + (digit? c).getD 0 else n) 0

def isBase (base : Nat) : Bool := 2 ≤ base && base ≤ 16

-- A decimal text with one optional plus sign, where underscores may stand after the first digit.
def ofDecimal? (text : String) : Option Nat :=
  let digits := match text.toList with
    | '+' :: rest => rest
    | all => all
  match digits with
  | [] => none
  | first :: rest =>
    if first.isDigit && rest.all (fun c => c.isDigit || c == '_') then
      some (value 10 (first :: rest.filter (· ≠ '_')))
    else none

def largestWord : Nat := 18446744073709551615

def ofWord? (text : String) : Option Nat :=
  let digits := match text.toList with
    | '+' :: rest => rest
    | all => all
  if !digits.isEmpty && digits.all Char.isDigit && value 10 digits ≤ largestWord then
    some (value 10 digits)
  else none

end StateActions.Numeral
