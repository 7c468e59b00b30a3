import SymbolTables.Binary64

/-!
# Shortest decimals

The decimal with the fewest digits among those that round to a given binary number. Two scaled
natural numbers bound the reals that round to it; the search takes the coarsest power of ten that
has a multiple between them, and of its multiples the one nearest to the number. All arithmetic is
exact.
-/
namespace SymbolTables

/-- `digits · 10^exponent`. -/
structure Decimal where
  digits : Nat
  exponent : Int
deriving DecidableEq

namespace Decimal

/-- Which of two equally near candidates is taken. -/
inductive Tie
  | up
  | even
deriving DecidableEq

/-- The reals that round to one binary number, all in units of `2^scale`. -/
structure Interval where
  value : Nat
  low : Nat
  high : Nat
  /-- Whether the ends belong to it. -/
  closed : Bool
  scale : Int

/-- The interval of a finite, non-zero number. Below a power of two the neighbour is half as far. -/
def Interval.of (x : Binary64) : Interval :=
  let m := x.significand
  { value := 4 * m
    low := if m = Binary64.fractionCount ∧ 1 < x.exponentField then 4 * m - 1 else 4 * m - 2
    high := 4 * m + 2
    closed := m % 2 == 0
    scale := x.exponent - 2 }

/-- Position of a multiple of a power of ten, both in common units. -/
def Interval.contains (i : Interval) (low high point : Nat) : Bool :=
  if i.closed then low ≤ point && point ≤ high else low < point && point < high

/-- The multiple of `10^power` in the interval that is nearest to its value. -/
def Interval.onGrid? (i : Interval) (tie : Tie) (power : Int) : Option Decimal :=
  -- the interval in units of `1 / unit`, a step of the grid in the same units
  let factor := Nat.pow 10 (-power).toNat <<< i.scale.toNat
  let step := Nat.pow 10 power.toNat <<< (-i.scale).toNat
  let value := i.value * factor
  let low := i.low * factor
  let high := i.high * factor
  let below := value / step
  let above := below + 1
  let belowFits := 0 < below && i.contains low high (below * step)
  let aboveFits := i.contains low high (above * step)
  let rest := value % step
  if belowFits && aboveFits then
    if 2 * rest < step then some ⟨below, power⟩
    else if step < 2 * rest then some ⟨above, power⟩
    else match tie with
      | .up => some ⟨above, power⟩
      | .even => if below % 2 = 0 then some ⟨below, power⟩ else some ⟨above, power⟩
  else if belowFits then some ⟨below, power⟩
  else if aboveFits then some ⟨above, power⟩
  else none

/-- The first of `count` descending powers with a hit. -/
def Interval.search (i : Interval) (tie : Tie) (power : Int) : Nat → Option Decimal
  | 0 => none
  | count + 1 =>
    match i.onGrid? tie power with
    | some d => some d
    | none => i.search tie (power - 1) count

/-- A power of ten above the value: `1234 / 4096` is a little more than the logarithm of two. -/
def Interval.topPower (i : Interval) : Int := (i.value.log2 + 1 + i.scale) * 1234 / 4096 + 2

/-- The shortest decimal of a finite, non-zero number. The grid of `10^-1074` holds the number
itself, so the search ends. -/
def shortest (tie : Tie) (x : Binary64) : Decimal :=
  let i := Interval.of x
  (i.search tie i.topPower (i.topPower + 1075).toNat).getD ⟨0, 0⟩

end Decimal
end SymbolTables
