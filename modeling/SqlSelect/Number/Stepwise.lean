import SqlSelect.Number.Reading
/-!
Reading decimal notation in steps, each of them rounded: the leading digits, as many as 64 bits
hold, make a double, which is multiplied or divided by a power of ten. The result may miss the
nearest double in its last digits.
-/

namespace SqlSelect.Binary64

def magnitude (x : Binary64) : Nat :=
  x.significand * Nat.pow 2 x.shift

def mul (x y : Binary64) : Binary64 :=
  ofRatio (x.isNegative != y.isNegative) (x.magnitude * y.magnitude) (Nat.pow 2 (2 * double.depth))

def div (x y : Binary64) : Binary64 :=
  ofRatio (x.isNegative != y.isNegative) x.magnitude y.magnitude

def powerOfTen (n : Nat) : Binary64 :=
  ofRatio false (Nat.pow 10 n) 1

def maxPower : Nat := 308

-- Multiplies by `10 ^ n` at once. A number other than zero is infinite where the power is.
def scaleUp (x : Binary64) (n : Nat) : Binary64 :=
  if x.isZero then x
  else if n ≤ maxPower then x.mul (powerOfTen n)
  else infinity x.isNegative

-- Divides by `10 ^ n`, by no more than `10 ^ 308` at a time.
def scaleDown (x : Binary64) (n : Nat) : Binary64 :=
  if x.isZero then x
  else if n ≤ maxPower then x.div (powerOfTen n)
  else scaleDown (x.div (powerOfTen maxPower)) (n - maxPower)
termination_by n
decreasing_by simp only [maxPower] at *; omega

-- Appends digits to a number while it stays below `2 ^ 64`; also the digits that are left.
def takeLeading (n : Nat) : List Char → Nat × List Char
  | [] => (n, [])
  | c :: cs =>
    let next := n * 10 + Text.digitValue c
    if next < Nat.pow 2 64 then takeLeading next cs else (n, c :: cs)

namespace Numeral

-- The leading digits and the power of ten that belongs to them. Digits left over before the point
-- still count as places; behind the point they do not.
def leading (n : Numeral) : Nat × Int :=
  let (first, unread) := takeLeading 0 n.whole
  let (digits, rest) := takeLeading first n.fraction
  let places : Int := n.fraction.length - rest.length
  (digits, n.exponent + unread.length - places)

def stepwise (n : Numeral) : Binary64 :=
  let (digits, exponent) := n.leading
  let start := ofRatio n.negative digits 1
  if 0 ≤ exponent then start.scaleUp exponent.toNat else start.scaleDown exponent.natAbs

end Numeral

end SqlSelect.Binary64
