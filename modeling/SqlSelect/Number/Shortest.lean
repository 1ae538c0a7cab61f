import SqlSelect.Number.Binary64
/-!
The fewest decimal digits that read back as a given finite double, and the texts made of them.
-/

namespace SqlSelect.Binary64

-- `digits * 10 ^ exponent`.
structure Decimal where
  digits : Nat
  exponent : Int

-- Which way the last digit goes when two shortest decimals are equally near.
inductive Tie where
  | up
  | even
deriving DecidableEq

-- The scale of the exact arithmetic: numbers are counted in units of `1 / (2 ^ 1076 * 10 ^ 345)`,
-- in which every double, every bound between two doubles and every decimal grid point is whole.
def tenDepth : Nat := 345

-- A positive double in exact units, between the bounds of the numbers that round to it.
structure Bracket where
  low : Nat
  value : Nat
  high : Nat
  -- A bound itself rounds to the number.
  closed : Bool

def bracket (x : Binary64) : Bracket :=
  let step := Nat.pow 2 x.shift * Nat.pow 10 tenDepth
  let value := 4 * x.significand * step
  -- The neighbour below a power of two is only half as far away.
  let below := if x.fraction = 0 && 1 < x.exponentField then step else 2 * step
  ⟨value - below, value, value + 2 * step, x.significand % 2 = 0⟩

def Bracket.holds (b : Bracket) (point : Nat) : Bool :=
  if b.closed then b.low ≤ point && point ≤ b.high else b.low < point && point < b.high

-- The better of the two neighbours of the value on the grid of multiples of `10 ^ (e - 345)`, if
-- one of them reads back.
def Bracket.onGrid (b : Bracket) (tie : Tie) (e : Nat) : Option Decimal :=
  let grid := Nat.pow 2 1076 * Nat.pow 10 e
  let c := b.value / grid
  let rest := b.value % grid
  let up :=
    -- Where both neighbours read back, the nearer one is taken.
    if b.holds (c * grid) && b.holds ((c + 1) * grid) then
      grid < 2 * rest || (grid = 2 * rest && (tie = .up || c % 2 = 1))
    else b.holds ((c + 1) * grid)
  if up then some ⟨c + 1, (e : Int) - tenDepth⟩
  else if b.holds (c * grid) then some ⟨c, (e : Int) - tenDepth⟩
  else none

def Bracket.search (b : Bracket) (tie : Tie) : (fuel e : Nat) → Decimal
  | 0, e => ⟨b.value / (Nat.pow 2 1076 * Nat.pow 10 e), (e : Int) - tenDepth⟩
  | fuel + 1, e =>
    match b.onGrid tie e with
    | some d => d
    | none => b.search tie fuel (e - 1)

def Decimal.trimmed (d : Decimal) : (fuel : Nat) → Decimal
  | 0 => d
  | fuel + 1 =>
    if d.digits != 0 && d.digits % 10 = 0 then
      Decimal.trimmed ⟨d.digits / 10, d.exponent + 1⟩ fuel
    else d

-- The shortest decimal that reads back as the magnitude of a finite nonzero `x`, the nearest of
-- those. The first grid has the value's leading digit as its unit.
def shortest (tie : Tie) (x : Binary64) : Decimal :=
  let b := x.bracket
  let e := (Nat.repr (b.value / Nat.pow 2 1076)).length - 1
  (b.search tie 18 e).trimmed 18

def zeros (n : Nat) : String :=
  String.ofList (List.replicate n '0')

-- Without an exponent, and without a point in whole numbers.
def Decimal.positional (d : Decimal) : String :=
  let digits := Nat.repr d.digits
  if 0 ≤ d.exponent then digits ++ zeros d.exponent.toNat
  else
    let places := (-d.exponent).toNat
    if places < digits.length then
      let whole := digits.length - places
      String.ofList (digits.toList.take whole) ++ "." ++ String.ofList (digits.toList.drop whole)
    else "0." ++ zeros (places - digits.length) ++ digits

-- One digit before the point, then a signed exponent.
def Decimal.scientific (d : Decimal) : String :=
  let digits := (Nat.repr d.digits).toList
  let e : Int := d.exponent + digits.length - 1
  let fraction := String.ofList (digits.drop 1)
  String.ofList (digits.take 1) ++ (if fraction.isEmpty then "" else "." ++ fraction) ++
    (if e < 0 then "e-" else "e+") ++ Nat.repr e.natAbs

def signText (x : Binary64) : String :=
  if x.isNegative then "-" else ""

-- Shortest digits, never with an exponent; a whole number has no point.
def text (x : Binary64) : String :=
  if x.isNaN then "NaN"
  else if !x.isFinite then x.signText ++ "inf"
  else if x.isZero then x.signText ++ "0"
  else x.signText ++ (x.shortest .up).positional

-- The form in JSON: a whole number keeps `.0`, and an exponent is used from `1e+16` up and below
-- `0.00001`.
def jsonText (x : Binary64) : String :=
  if x.isZero then x.signText ++ "0.0"
  else
    let d := x.shortest .even
    let point : Int := d.exponent + (Nat.repr d.digits).length
    x.signText ++
      (if 16 < point || point < -4 then d.scientific
       else if 0 ≤ d.exponent then d.positional ++ ".0"
       else d.positional)

end SqlSelect.Binary64
