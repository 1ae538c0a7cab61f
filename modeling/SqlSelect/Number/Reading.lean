import SqlSelect.Number.Binary64
import SqlSelect.Text.Basic
/-!
Decimal notation of floating-point numbers.
-/

namespace SqlSelect.Binary64

structure Numeral where
  negative : Bool
  whole : List Char
  fraction : List Char
  exponent : Int

-- The value is `digits * 10 ^ scale`.
def Numeral.digits (n : Numeral) : Nat :=
  Text.ofDigits (n.whole ++ n.fraction)

def Numeral.scale (n : Numeral) : Int :=
  n.exponent - n.fraction.length

-- Rounds with `ofRatio`. A value beyond `10 ^ 400` is infinite and one below `10 ^ -400` is zero in
-- every format, and is not computed.
def Numeral.round (ofRatio : Bool → Nat → Nat → Binary64) (n : Numeral) : Binary64 :=
  -- The value is below `10 ^ size` and, unless it is zero, not far below it.
  let size : Int := n.scale + (Nat.repr n.digits).length
  if n.digits = 0 || size < -400 then ofRatio n.negative 0 1
  else if 400 < size then infinity n.negative
  else if 0 ≤ n.scale then ofRatio n.negative (n.digits * Nat.pow 10 n.scale.toNat) 1
  else ofRatio n.negative n.digits (Nat.pow 10 (-n.scale).toNat)

def Numeral.toDouble (n : Numeral) : Binary64 :=
  n.round ofRatio

def ofInt (n : Int) : Binary64 :=
  ofRatio (n < 0) n.natAbs 1

def splitSign : List Char → Bool × List Char
  | '-' :: cs => (true, cs)
  | '+' :: cs => (false, cs)
  | cs => (false, cs)

-- Digits with at most one point, at least one digit, and an optional exponent.
def numeral? (text : String) : Option Numeral :=
  let (negative, cs) := splitSign text.toList
  let (mantissa, exponent) := cs.span fun c => c != 'e' && c != 'E'
  let (whole, fraction) := mantissa.span (· != '.')
  let (negativeExponent, power) := splitSign (exponent.drop 1)
  let places := fraction.drop 1
  if (whole ++ places).isEmpty || !(whole ++ places).all Char.isDigit then none
  else if !exponent.isEmpty && (power.isEmpty || !power.all Char.isDigit) then none
  else
    let e : Int := Text.ofDigits power
    some ⟨negative, whole, places, if negativeExponent then -e else e⟩

def ofText? (ofRatio : Bool → Nat → Nat → Binary64) (text : String) : Option Binary64 :=
  match text with
  | "NaN" => some nan
  | "inf" => some (infinity false)
  | "-inf" => some (infinity true)
  | _ => (numeral? text).map (·.round ofRatio)

end SqlSelect.Binary64
