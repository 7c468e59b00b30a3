import SymbolTables.Store.Symbol

/-!
# The columns of a symbol

A symbol is shown as a table: one text column per dimension, then the columns of its kind.

| Kind | Columns behind the dimensions |
|---|---|
| set | `Text` |
| parameter | `Value`, `Value (SV)`, and `Comments` for a scalar with a text |
| variable, equation | `Level`, `Level (SV)`, and so on for every slot |

A number column holds plain numbers only; what a special value stands for is in the text column
behind it.
-/
namespace SymbolTables

inductive ColumnType
  | text
  | number
deriving DecidableEq

def ColumnType.name : ColumnType → String
  | .text => "Text"
  | .number => "Number"

structure Column where
  name : String
  type : ColumnType
deriving DecidableEq

structure Schema where
  table : String
  kind : Kind
  /-- How many columns at the front hold labels. -/
  dimensions : Nat
  columns : List Column
deriving DecidableEq

/-- The domain name that stands for any label. -/
def wildcard : String := "*"

/-- The first of `count` numbered names from `counter` on that is not taken. -/
def firstFree? (taken : List String) (domain : String) (counter : Nat) : Nat → Option String
  | 0 => none
  | count + 1 =>
    if domain ++ toString counter ∈ taken then firstFree? taken domain (counter + 1) count
    else some (domain ++ toString counter)

/-- A column name for a domain: its own name, or, when that is `*` or taken, the name with the least
number behind it that makes it free. One of `taken.length + 1` numbered names is free. -/
def freeName (taken : List String) (domain : String) : String :=
  if domain = wildcard ∨ domain ∈ taken then
    (firstFree? taken domain 0 (taken.length + 1)).getD domain
  else domain

/-- Names for the domains, given the names before them. -/
def columnNamesFrom (taken : List String) : List String → List String
  | [] => []
  | domain :: rest => freeName taken domain :: columnNamesFrom (taken ++ [freeName taken domain]) rest

/-- A name for every dimension, all different and none of them `*`. -/
def columnNames (domains : List String) : List String := columnNamesFrom [] domains

/-- A number column and the text column for its special values. -/
def valuePair (name : String) : List Column := [⟨name, .number⟩, ⟨name ++ " (SV)", .text⟩]

def valueColumnsOf (s : Symbol) : List Column :=
  match s.kind with
  | .set => [⟨"Text", .text⟩]
  | .parameter =>
    valuePair "Value" ++ if s.domains = [] ∧ s.text ≠ "" then [⟨"Comments", .text⟩] else []
  | .var | .equation => Slot.all.flatMap fun slot => valuePair slot.name

namespace Schema

def ofSymbol (s : Symbol) : Schema where
  table := s.name
  kind := s.kind
  dimensions := s.dimensions
  columns := (columnNames s.domains).map (⟨·, .text⟩) ++ valueColumnsOf s

def width (s : Schema) : Nat := s.columns.length

def names (s : Schema) : List String := s.columns.map (·.name)

/-- The first column of this name. -/
def indexOf? (s : Schema) (name : String) : Option Nat :=
  s.columns.findIdx? fun c => c.name == name

def isDimension (s : Schema) (column : Nat) : Bool := column < s.dimensions

/-- The number column and the text column of a slot, for kinds that have it. -/
def valueColumns (s : Schema) (slot : Slot) : Option (Nat × Nat) :=
  match s.kind with
  | .set => none
  | .parameter => if slot = .level then some (s.dimensions, s.dimensions + 1) else none
  | .var | .equation =>
    some (s.dimensions + 2 * slot.index, s.dimensions + 2 * slot.index + 1)

/-- The column for the text of a scalar, if there is one. -/
def commentsColumn (s : Schema) : Option Nat :=
  if s.kind = .parameter ∧ s.dimensions + 2 < s.width then some (s.dimensions + 2) else none

/-- Give a column another name; a column beyond the last is passed over. -/
def rename (s : Schema) (column : Nat) (name : String) : Schema :=
  { s with columns := s.columns.modify column fun c => { c with name } }

end Schema
end SymbolTables
