/-!
# Binary64

64-bit binary floating-point numbers as bit patterns: one sign bit, 11 exponent bits, 52 fraction
bits. Everything is exact arithmetic on natural numbers. A finite pattern stands for
`±significand · 2^exponent`; `ofNat` and `ofRatio` round to the nearest number, ties to even.
-/
namespace SymbolTables

structure Binary64 where
  bits : UInt64
deriving DecidableEq, Inhabited

namespace Binary64

/-- `2^52`, the number of fractions. -/
def fractionCount : Nat := 0x10000000000000

/-- The pattern of infinity as a number: all exponent bits set, all fraction bits clear. -/
def overflow : Nat := 2047 * fractionCount

def isNegative (x : Binary64) : Bool := 0x8000000000000000 ≤ x.bits.toNat

/-- The exponent bits as a number. -/
def exponentField (x : Binary64) : Nat := x.bits.toNat / fractionCount % 2048

/-- The fraction bits as a number. -/
def fraction (x : Binary64) : Nat := x.bits.toNat % fractionCount

def isFinite (x : Binary64) : Bool := x.exponentField != 2047

def isNaN (x : Binary64) : Bool := x.exponentField == 2047 && x.fraction != 0

def isInfinite (x : Binary64) : Bool := x.exponentField == 2047 && x.fraction == 0

/-- The integer part of `±significand · 2^exponent`. -/
def significand (x : Binary64) : Nat :=
  if x.exponentField = 0 then x.fraction else fractionCount + x.fraction

/-- The power of two in `±significand · 2^exponent`. -/
def exponent (x : Binary64) : Int := (max x.exponentField 1 : Nat) - 1075

def isZero (x : Binary64) : Bool := x.isFinite && x.significand == 0

/-- Equality of numbers: the two zeros are equal, a NaN equals nothing. -/
def equals (x y : Binary64) : Bool := !x.isNaN && (x == y || (x.isZero && y.isZero))

def zero : Binary64 := ⟨0⟩

def infinity : Binary64 := ⟨0x7FF0000000000000⟩

def negate (x : Binary64) : Binary64 := ⟨x.bits ^^^ 0x8000000000000000⟩

/-- `num / den` to the nearest integer, ties to even. -/
def divideRounding (num den : Nat) : Nat :=
  let quotient := num / den
  let rest := num % den
  if den < 2 * rest ∨ (den = 2 * rest ∧ quotient % 2 = 1) then quotient + 1 else quotient

/-- The number nearest to `n`, ties to even; beyond the largest number, infinity. -/
def ofNat (n : Nat) : Binary64 :=
  if n = 0 then zero
  else
    let top := n.log2
    let significand := if top ≤ 52 then n <<< (52 - top) else divideRounding n (1 <<< (top - 52))
    -- a significand that rounds up to the next power of two carries into the exponent
    let pattern := (top + 1022) * fractionCount + significand
    if overflow ≤ pattern then infinity else ⟨UInt64.ofNat pattern⟩

def ofInt : Int → Binary64
  | .ofNat n => ofNat n
  | .negSucc n => negate (ofNat (n + 1))

/-- The number nearest to the quotient of two positive integers, ties to even. -/
def ofRatio (num den : Nat) : Binary64 :=
  -- the quotient lies below `2^(scale + 54)`; a scale of 53 significant bits is this or the next
  let scale : Int := (num.log2 : Int) - den.log2 - 53
  let scaled (scale : Int) : Nat × Nat := (num <<< (-scale).toNat, den <<< scale.toNat)
  let scale := if 2 * fractionCount ≤ (scaled scale).1 / (scaled scale).2 then scale + 1 else scale
  let scale := max scale (-1074)
  let pattern := (scale + 1074).toNat * fractionCount + divideRounding (scaled scale).1 (scaled scale).2
  if overflow ≤ pattern then infinity else ⟨UInt64.ofNat pattern⟩

/-- The integer part of the magnitude of a finite number. -/
def wholePart (x : Binary64) : Nat :=
  if 0 ≤ x.exponent then x.significand <<< x.exponent.toNat
  else x.significand >>> (-x.exponent).toNat

/-- The number cut to an integer and clamped to 32 bits; a NaN gives 0. -/
def toInt32 (x : Binary64) : Int32 :=
  if x.isNaN then 0
  else
    let size := if x.isInfinite then 0x80000000 else min x.wholePart 0x80000000
    if x.isNegative then Int32.ofInt (-size) else Int32.ofInt (min size 0x7FFFFFFF)

end Binary64
end SymbolTables
