import SymbolTables.Failure
import SymbolTables.Query.Basic
import SymbolTables.Table.Schema

/-!
# Resolving references

The references of a query become column numbers of a table. A column that is referenced by position
anywhere is shown under its token `@N`, so it may not be referenced by name as well.
-/
namespace SymbolTables

/-- A condition on a column. -/
structure ColumnCondition where
  column : Nat
  value : String
deriving DecidableEq

structure ResolvedQuery where
  /-- The table as the query names its columns. -/
  schema : Schema
  /-- Selected columns in the order of their first mention. -/
  selected : List Nat
  conditions : List ColumnCondition
deriving DecidableEq

namespace Resolve

def unknownName (name : String) : Failure :=
  .fieldNotFound s!"The field \"{name}\" is not valid" name

def unknownPosition (r : FieldRef) : Failure :=
  .fieldNotFound s!"The field position \"{r.token}\" is not valid" r.token

def namedTwice (name : String) (r : FieldRef) : Failure :=
  .fieldNotFound
    s!"The field \"{name}\" is referenced both by position \"{r.token}\" and by name" name

/-- The column of one reference, given all references of the query. -/
def column (schema : Schema) (references : List FieldRef) (r : FieldRef) : Except Failure Nat :=
  match r with
  | .position index =>
    match schema.columns[index]? with
    | none => .error (unknownPosition r)
    | some c =>
      if .name c.name ∈ references then .error (namedTwice c.name r) else .ok index
  | .name name =>
    match schema.indexOf? name with
    | some index => .ok index
    | none => .error (unknownName name)

/-- The columns of references in their order; the first that fails decides. -/
def columns (schema : Schema) (references : List FieldRef) : List FieldRef → Except Failure (List Nat)
  | [] => .ok []
  | r :: rest => do
    let first ← column schema references r
    return first :: (← columns schema references rest)

/-- A column referenced by position gets its token as its name. -/
def renamePosition (schema : Schema) (r : FieldRef) : Schema :=
  match r with
  | .position index => schema.rename index r.token
  | .name _ => schema

/-- Each number once, where it comes first. -/
def firstMentions (columns : List Nat) : List Nat :=
  columns.foldl (fun seen c => if c ∈ seen then seen else seen ++ [c]) []

end Resolve

open Resolve in
/-- Resolve the selected fields and the conditions of a query against a table. -/
def resolve (schema : Schema) (fields : List FieldRef) (conditions : List Condition) :
    Except Failure ResolvedQuery := do
  let references := Query.references fields conditions
  let selected ← columns schema references fields
  let filtered ← columns schema references (conditions.map (·.field))
  return {
    schema := references.foldl renamePosition schema
    selected := firstMentions selected
    conditions := filtered.zipWith (fun column c => ⟨column, c.value⟩) conditions }

end SymbolTables
