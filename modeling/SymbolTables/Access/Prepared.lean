import SymbolTables.Scan.Stream

/-!
# Prepared queries

A query bound to a store: its table is found, its references are resolved and its conditions are
checked, but nothing has been read. What is wrong with a query shows here; a scan fails only for
what it reads.
-/
namespace SymbolTables

structure PreparedQuery where
  /-- The table as the query names its columns. -/
  schema : Schema
  plan : ScanPlan
deriving DecidableEq

namespace PreparedQuery

def ofQuery (store : Store) (query : Query) : Except Failure PreparedQuery := do
  match store.findSymbol query.table with
  | none => .error (.tableNotFound query.table)
  | some nr =>
    let schema := Schema.ofSymbol (← store.symbolInfo nr)
    let resolved ← resolve schema query.fields query.conditions
    let plan ← ScanPlan.ofColumns nr schema resolved.selected resolved.conditions
    return { schema := resolved.schema, plan }

/-- Start the scan; its columns are reported as the query names them. -/
def start (p : PreparedQuery) (store : Store) (slot : ReaderSlot) (capacity : Nat) :
    Except Failure (RowStream × ReaderSlot) := do
  let (stream, slot) ← RowStream.start store slot p.plan capacity
  return (stream.withSchema p.schema, slot)

end PreparedQuery
end SymbolTables
