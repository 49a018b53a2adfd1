namespace StateActions

-- The nearest whole number to a quotient; a half goes to the even neighbour.
def roundDiv (num den : Nat) : Nat :=
  let quotient := num / den
  let twice := 2 * (num % den)
  if twice > den ∨ (twice = den ∧ quotient % 2 = 1) then quotient + 1 else quotient

-- `mantissa · 2 ^ exponent`, with a mantissa below `2 ^ 53` or equal to it.
structure Binary64 where
  mantissa : Nat
  exponent : Int
deriving DecidableEq, Repr, Inhabited

namespace Binary64

def ratio (x : Binary64) : Nat × Nat :=
  if x.exponent ≥ 0 then (x.mantissa * Nat.pow 2 x.exponent.toNat, 1)
  else (x.mantissa, Nat.pow 2 (-x.exponent).toNat)

def scaled (num den : Nat) (exponent : Int) : Nat × Nat :=
  if exponent ≥ 0 then (num, den * Nat.pow 2 exponent.toNat)
  else (num * Nat.pow 2 (-exponent).toNat, den)

def ofRatio (num den : Nat) : Binary64 :=
  if num = 0 ∨ den = 0 then ⟨0, 0⟩
  else
    let exponent : Int := Nat.log2 num - Nat.log2 den - 53
    let (n, d) := scaled num den exponent
    if n < d * Nat.pow 2 53 then ⟨roundDiv n d, exponent⟩
    else
      let (n, d) := scaled num den (exponent + 1)
      ⟨roundDiv n d, exponent + 1⟩

def ofNat (n : Nat) : Binary64 := ofRatio n 1

def add (x y : Binary64) : Binary64 :=
  let (a, b) := x.ratio
  let (c, d) := y.ratio
  ofRatio (a * d + c * b) (b * d)

def mul (x y : Binary64) : Binary64 :=
  let (a, b) := x.ratio
  let (c, d) := y.ratio
  ofRatio (a * c) (b * d)

def div (x y : Binary64) : Binary64 :=
  let (a, b) := x.ratio
  let (c, d) := y.ratio
  ofRatio (a * d) (b * c)

def below (x : Binary64) (n : Nat) : Bool :=
  let (a, b) := x.ratio
  a < n * b

-- The text with `places` digits after the point. The value is taken as it is and a half goes to the
-- even neighbour.
def fixed (places : Nat) (x : Binary64) : String :=
  let (a, b) := x.ratio
  let units := toString (roundDiv (a * Nat.pow 10 places) b)
  let digits := "".pushn '0' (places + 1 - units.length) ++ units
  let chars := digits.toList
  let whole := String.ofList (chars.take (chars.length - places))
  if places = 0 then whole
  else whole ++ "." ++ String.ofList (chars.drop (chars.length - places))

-- Seconds from a number of nanoseconds: whole seconds and the part of one are taken apart and
-- added.
def ofNanoseconds (n : Nat) : Binary64 :=
  (ofNat (n / 1000000000)).add ((ofNat (n % 1000000000)).div (ofNat 1000000000))

end Binary64

end StateActions
