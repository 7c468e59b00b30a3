import SymbolTables.Query.FieldRef

/-!
# Queries

`SELECT fields FROM "table <file>" WHERE field = "label" AND …`, as data.
-/
namespace SymbolTables

/-- A field has to hold a label; the empty label is one too. -/
structure Condition where
  field : FieldRef
  value : String
deriving DecidableEq

structure Query where
  fields : List FieldRef
  table : String
  file : String
  conditions : List Condition
deriving DecidableEq

/-- Every reference of a query, selected fields first. -/
def Query.references (fields : List FieldRef) (conditions : List Condition) : List FieldRef :=
  fields ++ conditions.map (·.field)

end SymbolTables
