import SymbolTables.Decimal.Layout

/-!
# Rows

A row has a cell for every column of its table, absent where the column is not selected or has
nothing to show.
-/
namespace SymbolTables

inductive Cell
  | text (s : String)
  | number (x : Binary64)
deriving DecidableEq

def Cell.text? : Cell → Option String
  | .text s => some s
  | .number _ => none

def Cell.number? : Cell → Option Binary64
  | .text _ => none
  | .number x => some x

/-- The cell as it is shown: a number in full, without an exponent. -/
def Cell.display : Cell → String
  | .text s => s
  | .number x => Decimal.plain.render x

structure Row where
  cells : List (Option Cell)
deriving DecidableEq

namespace Row

/-- A row of absent cells. -/
def blank (width : Nat) : Row := ⟨List.replicate width none⟩

def width (r : Row) : Nat := r.cells.length

def get? (r : Row) (column : Nat) : Option Cell := r.cells[column]?.join

/-- Fill a cell; one beyond the last is passed over. -/
def set (r : Row) (column : Nat) (c : Cell) : Row := ⟨r.cells.set column (some c)⟩

/-- The cell as it is shown; an absent one is empty. -/
def display (r : Row) (column : Nat) : String :=
  match r.get? column with
  | some c => c.display
  | none => ""

@[simp] theorem width_blank (width : Nat) : (blank width).width = width := by simp [blank, Row.width]

@[simp] theorem width_set (r : Row) (column : Nat) (c : Cell) : (r.set column c).width = r.width := by
  simp [set, width]

@[simp] theorem get?_blank (width column : Nat) : (blank width).get? column = none := by
  simp only [blank, get?, List.getElem?_replicate]; split <;> rfl

theorem get?_set (r : Row) (column other : Nat) (c : Cell) :
    (r.set column c).get? other =
      if column = other ∧ other < r.width then some c else r.get? other := by
  simp only [set, get?, width, List.getElem?_set]
  by_cases h : column = other
  · subst h
    by_cases hw : column < r.cells.length <;> simp [hw]
  · simp [h]

end Row
end SymbolTables
