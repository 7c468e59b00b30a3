import SymbolTables.Scan.Filtered

/-!
# Row streams

The rows of a plan, pulled one at a time: a sequential scan when the plan has no conditions, a
filtered scan otherwise. Rows come in store order, and a failure is the last thing a stream reports.
-/
namespace SymbolTables

/-- Rows that the queue of a filtered scan holds unless told otherwise. -/
def defaultCapacity : Nat := 1024

inductive Scan
  | sequential (scan : SequentialScan)
  | filtered (scan : FilteredScan)

structure RowStream where
  /-- The table as its columns are reported. -/
  schema : Schema
  scan : Scan

namespace RowStream

/-- Start a plan. A sequential scan claims the reader slot at once, a filtered one when its producer
starts. -/
def start (store : Store) (slot : ReaderSlot) (plan : ScanPlan) (capacity : Nat) :
    Except Failure (RowStream × ReaderSlot) := do
  let decoder ← Decoder.ofPlan store plan
  if plan.filtered then
    let (slot, scan) := (FilteredScan.start store plan decoder (max capacity 1)).settle slot
    return (⟨plan.schema, .filtered scan⟩, slot)
  else
    let (reader, slot) ← store.readRaw slot plan.symbol
    return (⟨plan.schema, .sequential ⟨some reader, decoder⟩⟩, slot)

/-- Start a scan of the symbol that a table names. -/
def ofSchema (store : Store) (slot : ReaderSlot) (schema : Schema) (names : List String)
    (conditions : List Condition) : Except Failure (RowStream × ReaderSlot) := do
  match store.findSymbol schema.table with
  | none => .error (.tableNotFound schema.table)
  | some symbol =>
    start store slot (← ScanPlan.ofNames symbol schema names conditions) defaultCapacity

/-- Report the columns under other names. -/
def withSchema (s : RowStream) (schema : Schema) : RowStream := { s with schema }

def isFiltered (s : RowStream) : Bool :=
  match s.scan with
  | .sequential _ => false
  | .filtered _ => true

/-- One pull. -/
def next (slot : ReaderSlot) (s : RowStream) : Option Item × ReaderSlot × RowStream :=
  match s.scan with
  | .sequential scan =>
    let (item, slot, scan) := scan.next slot
    (item, slot, { s with scan := .sequential scan })
  | .filtered scan =>
    let (item, slot, scan) := scan.next slot
    (item, slot, { s with scan := .filtered scan })

/-- Drop the stream; the slot is free of it afterwards. -/
def drop (slot : ReaderSlot) (s : RowStream) : ReaderSlot :=
  match s.scan with
  | .sequential scan => scan.drop slot
  | .filtered scan => scan.drop slot

end RowStream
end SymbolTables
