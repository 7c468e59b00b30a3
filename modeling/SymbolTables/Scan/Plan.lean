import SymbolTables.Query.Resolve

/-!
# Scan plans

A plan says which symbol to read, which columns to fill, and which labels the records must have.
Labels other than the empty one are looked for while reading; that a label is empty can only be
checked on the decoded label, because the reading side takes an empty text for "any".
-/
namespace SymbolTables

structure ScanPlan where
  symbol : Nat
  schema : Schema
  /-- For every column whether it is filled. -/
  selected : List Bool
  /-- For every dimension the label wanted, or the empty text. -/
  filter : List String
  /-- Dimensions whose label must be empty. -/
  emptyDimensions : List Nat
  filtered : Bool
deriving DecidableEq

namespace ScanPlan

def isSelected (p : ScanPlan) (column : Nat) : Bool := p.selected[column]?.getD false

def unknownColumn (column : Nat) : Failure :=
  .fieldNotFound s!"The field position \"@{column}\" is not valid" s!"@{column}"

def unknownField (r : FieldRef) : Failure :=
  .fieldNotFound s!"The field \"{r.token}\" is not valid" r.token

def notADimension (name : String) : Failure :=
  .unsupportedFilter s!"The field \"{name}\" is not a dimension and cannot be filtered" name

/-- The name of a column; beyond the last one its number. -/
def columnName (schema : Schema) (column : Nat) : String :=
  match schema.columns[column]? with
  | some c => c.name
  | none => s!"@{column}"

/-- Mark columns as selected; fails at the first that is beyond the last one. -/
def select (selected : List Bool) : List Nat → Except Failure (List Bool)
  | [] => .ok selected
  | column :: rest =>
    if column < selected.length then select (selected.set column true) rest
    else .error (unknownColumn column)

/-- Put a condition on top of those before it. A later label for a dimension replaces an earlier
one. -/
def restrict (schema : Schema) (filter : List String × List Nat) (c : ColumnCondition) :
    Except Failure (List String × List Nat) :=
  if !schema.isDimension c.column then .error (notADimension (columnName schema c.column))
  else if c.value = "" then
    .ok (filter.1, if c.column ∈ filter.2 then filter.2 else filter.2 ++ [c.column])
  else .ok (filter.1.set c.column c.value, filter.2)

/-- A plan from column numbers. -/
def ofColumns (symbol : Nat) (schema : Schema) (selected : List Nat)
    (conditions : List ColumnCondition) : Except Failure ScanPlan := do
  let selected ← select (List.replicate schema.width false) selected
  let (filter, emptyDimensions) ←
    conditions.foldlM (restrict schema) (List.replicate schema.dimensions "", [])
  return { symbol, schema, selected, filter, emptyDimensions, filtered := !conditions.isEmpty }

/-- The column of a reference; positions and names do not exclude each other here. -/
def fieldColumn (schema : Schema) (r : FieldRef) : Except Failure Nat :=
  match r with
  | .name name =>
    match schema.indexOf? name with
    | some index => .ok index
    | none => .error (unknownField r)
  | .position index => if index < schema.width then .ok index else .error (unknownField r)

/-- A plan from column names and conditions on fields. -/
def ofNames (symbol : Nat) (schema : Schema) (names : List String) (conditions : List Condition) :
    Except Failure ScanPlan := do
  let selected ← names.mapM fun name => fieldColumn schema (.name name)
  let conditions ← conditions.mapM fun c => do
    return ColumnCondition.mk (← fieldColumn schema c.field) c.value
  ofColumns symbol schema selected conditions

end ScanPlan
end SymbolTables
