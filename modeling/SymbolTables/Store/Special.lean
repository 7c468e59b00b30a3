import SymbolTables.Binary64

/-!
# Special values

Numbers that stand for something else. Five powers of ten stand for the special values, and
`k · 10^301` for the `k`-th acronym. A NaN counts as "not available", an infinity as the special
value of its sign; `normalize` turns them into the numbers a store keeps.
-/
namespace SymbolTables

inductive SpecialValue
  | undefined
  | notAvailable
  | positiveInfinity
  | negativeInfinity
  | epsilon
deriving DecidableEq

namespace SpecialValue

/-- The number a store keeps for a special value. -/
def stored : SpecialValue → Binary64
  | .undefined => .ofNat (1 * Nat.pow 10 300)
  | .notAvailable => .ofNat (2 * Nat.pow 10 300)
  | .positiveInfinity => .ofNat (3 * Nat.pow 10 300)
  | .negativeInfinity => .ofNat (4 * Nat.pow 10 300)
  | .epsilon => .ofNat (5 * Nat.pow 10 300)

def label : SpecialValue → String
  | .undefined => "UNdef"
  | .notAvailable => "NA"
  | .positiveInfinity => "+Inf"
  | .negativeInfinity => "-Inf"
  | .epsilon => "Eps"

def all : List SpecialValue :=
  [.undefined, .notAvailable, .positiveInfinity, .negativeInfinity, .epsilon]

/-- What a number stands for; `none` for itself. -/
def classify (x : Binary64) : Option SpecialValue :=
  if x.isNaN then some .notAvailable
  else if x.isInfinite then some (if x.isNegative then .negativeInfinity else .positiveInfinity)
  else all.find? fun v => x == v.stored

/-- The number a store keeps in place of a NaN or an infinity. -/
def normalize (x : Binary64) : Binary64 :=
  if x.isNaN then notAvailable.stored
  else if x.isInfinite then
    if x.isNegative then negativeInfinity.stored else positiveInfinity.stored
  else x

end SpecialValue

namespace Acronym

/-- The stored number of the first acronym. -/
def unit : Binary64 := .ofNat (Nat.pow 10 301)

/-- The stored number of acronym `k`. -/
def value (k : Nat) : Binary64 := .ofNat (k * unit.wholePart)

/-- The acronym a number stands for, if any: acronyms are numbered from 1 to `2^32 - 1`. -/
def index? (x : Binary64) : Option Nat :=
  if x.isFinite && !x.isNegative then
    let k := (2 * x.wholePart + unit.wholePart) / (2 * unit.wholePart)
    if 1 ≤ k ∧ k < UInt32.size ∧ value k = x then some k else none
  else none

end Acronym
end SymbolTables
