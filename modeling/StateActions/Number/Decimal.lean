import StateActions.Number.Binary64
import StateActions.Token.Numeral

namespace StateActions

structure Decimal where
  whole : List Char
  fraction : List Char
  exponent : Int
deriving DecidableEq, Repr, Inhabited

namespace Decimal

-- Every number from here on is nearer to `2 ^ 1024` than to the largest double, or equally near.
def doubleBound : Nat := Nat.pow 2 1024 - Nat.pow 2 970

def boundPlaces : Nat := 309

-- Whether the nearest double is finite. If the number has as many places before its point as the
-- bound, their digits tell, because the bound is a whole number; if not, the number of places does.
def isInRange (d : Decimal) : Bool :=
  let digits := (d.whole ++ d.fraction).dropWhile (· == '0')
  let places := digits.length + d.exponent - d.fraction.length
  if digits.isEmpty ∨ places < boundPlaces then true
  else if places > boundPlaces then false
  else
    Numeral.value 10 (digits.take boundPlaces) * Nat.pow 10 (boundPlaces - digits.length) <
      doubleBound

def takeUp (n : Nat) : List Char → Nat × List Char
  | [] => (n, [])
  | c :: rest =>
    let next := Numeral.value 10 [c] + 10 * n
    if next ≤ Numeral.largestWord then takeUp next rest else (n, c :: rest)

-- The leading digits as a word, and the power of ten that goes with them. Digits that do not fit
-- are taken for zeros.
def leading (d : Decimal) : Nat × Int :=
  let (n, dropped) := takeUp 0 d.whole
  let (n, unused) := takeUp n d.fraction
  (n, d.exponent + dropped.length + unused.length - d.fraction.length)

def largestPower : Nat := 308

-- Whether the leading digits times the power of ten, with both rounded and their product rounded
-- again, come out finite.
def isInScaledRange (d : Decimal) : Bool :=
  let (n, exponent) := d.leading
  if n = 0 ∨ exponent < 0 then true
  else if exponent > largestPower then false
  else ((Binary64.ofNat n).mul (.ofNat (Nat.pow 10 exponent.toNat))).below (Nat.pow 2 1024)

end Decimal

end StateActions
