/-!
Floating-point numbers of 64 bits, and the nearest one to a ratio of natural numbers.
-/

namespace SqlSelect

-- A number in the 64-bit binary format, by its bit pattern.
structure Binary64 where
  bits : UInt64
deriving DecidableEq, Inhabited

namespace Binary64

-- A binary format: bits of the significand, and the power `d` such that `2 ^ -d` is the least
-- positive number.
structure Format where
  precision : Nat
  depth : Nat

def single : Format := ⟨24, 149⟩

def double : Format := ⟨53, 1074⟩

-- The quotient rounded to the nearest natural number, a half going to the even one.
def roundQuotient (num den : Nat) : Nat :=
  let q := num / den
  let r := 2 * (num % den)
  if r < den then q else if den < r then q + 1 else q + q % 2

-- Significand and shift of the number of the format nearest to `num / den`: the number is the
-- significand times `2 ^ shift`, in units of the least positive number.
def nearest (f : Format) (num den : Nat) : Nat × Nat :=
  let scaled := num * Nat.pow 2 f.depth
  let shift := Nat.log2 (scaled / den) + 1 - f.precision
  (roundQuotient scaled (den * Nat.pow 2 shift), shift)

def signBit (negative : Bool) : Nat :=
  if negative then Nat.pow 2 63 else 0

def infinityBits : Nat := 2047 * Nat.pow 2 52

-- The double nearest to `num / den`. A significand of 53 bits carries into the exponent field, so
-- that the sum below holds for every size.
def ofRatio (negative : Bool) (num den : Nat) : Binary64 :=
  let (m, shift) := nearest double num den
  ⟨UInt64.ofNat (signBit negative + min infinityBits (shift * Nat.pow 2 52 + m))⟩

def infinity (negative : Bool) : Binary64 :=
  ⟨UInt64.ofNat (signBit negative + infinityBits)⟩

def nan : Binary64 :=
  ⟨UInt64.ofNat (infinityBits + Nat.pow 2 51)⟩

def ofRatioSingle (negative : Bool) (num den : Nat) : Binary64 :=
  let (m, shift) := nearest single num den
  -- `2 ^ 128` in units of `2 ^ -149`
  if Nat.pow 2 277 ≤ m * Nat.pow 2 shift then infinity negative
  else ofRatio negative (m * Nat.pow 2 shift) (Nat.pow 2 149)

def isNegative (x : Binary64) : Bool :=
  Nat.pow 2 63 ≤ x.bits.toNat

def exponentField (x : Binary64) : Nat :=
  x.bits.toNat / Nat.pow 2 52 % 2048

def fraction (x : Binary64) : Nat :=
  x.bits.toNat % Nat.pow 2 52

def isNaN (x : Binary64) : Bool :=
  x.exponentField = 2047 && x.fraction != 0

def isFinite (x : Binary64) : Bool :=
  x.exponentField != 2047

def isZero (x : Binary64) : Bool :=
  x.exponentField = 0 && x.fraction = 0

-- A finite number is `significand * 2 ^ shift`, in units of `2 ^ -1074`.
def significand (x : Binary64) : Nat :=
  if x.exponentField = 0 then x.fraction else Nat.pow 2 52 + x.fraction

def shift (x : Binary64) : Nat :=
  x.exponentField - 1

end Binary64

end SqlSelect
