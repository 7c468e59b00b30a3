import SymbolTables.Binary64

/-!
# Symbols and records

What a store holds: symbols of four kinds over any number of dimensions, and for each symbol its
records, one label key per dimension and five numbers.
-/
namespace SymbolTables

inductive Kind
  | set
  | parameter
  | var
  | equation
deriving DecidableEq

namespace Kind

def name : Kind → String
  | .set => "Set"
  | .parameter => "Parameter"
  | .var => "Variable"
  | .equation => "Equation"

/-- The number that stands for a kind in a store. -/
def code : Kind → Nat
  | .set => 0
  | .parameter => 1
  | .var => 2
  | .equation => 3

def ofCode? : Nat → Option Kind
  | 0 => some .set
  | 1 => some .parameter
  | 2 => some .var
  | 3 => some .equation
  | _ => none

theorem ofCode?_eq_some_iff {n : Nat} {k : Kind} : ofCode? n = some k ↔ k.code = n := by
  constructor
  · intro h
    match n, h with
    | 0, h | 1, h | 2, h | 3, h => cases h; rfl
  · rintro rfl; cases k <;> rfl

end Kind

/-- The five numbers of a record, by name. -/
inductive Slot
  | level
  | marginal
  | lower
  | upper
  | scale
deriving DecidableEq

namespace Slot

/-- In the order in which they are stored. -/
def all : List Slot := [.level, .marginal, .lower, .upper, .scale]

def index : Slot → Nat
  | .level => 0
  | .marginal => 1
  | .lower => 2
  | .upper => 3
  | .scale => 4

def name : Slot → String
  | .level => "Level"
  | .marginal => "Marginal"
  | .lower => "Lower"
  | .upper => "Upper"
  | .scale => "Scale"

theorem mem_all (s : Slot) : s ∈ all := by cases s <;> decide

end Slot

/-- One number per slot. -/
structure Slots where
  level : Binary64
  marginal : Binary64
  lower : Binary64
  upper : Binary64
  scale : Binary64
deriving DecidableEq

namespace Slots

def get (v : Slots) : Slot → Binary64
  | .level => v.level
  | .marginal => v.marginal
  | .lower => v.lower
  | .upper => v.upper
  | .scale => v.scale

/-- The level alone, all other slots zero. -/
def ofLevel (x : Binary64) : Slots := ⟨x, .zero, .zero, .zero, .zero⟩

def map (f : Binary64 → Binary64) (v : Slots) : Slots :=
  ⟨f v.level, f v.marginal, f v.lower, f v.upper, f v.scale⟩

theorem get_map (f : Binary64 → Binary64) (v : Slots) (s : Slot) : (v.map f).get s = f (v.get s) := by
  cases s <;> rfl

end Slots

/-- A symbol as the store describes it. -/
structure Symbol where
  name : String
  kind : Kind
  /-- One domain name per dimension, `*` for any label. -/
  domains : List String
  /-- Explanatory text. -/
  text : String
  recordCount : Nat
deriving DecidableEq

def Symbol.dimensions (s : Symbol) : Nat := s.domains.length

structure Record where
  keys : List Int32
  values : Slots
deriving DecidableEq

end SymbolTables
