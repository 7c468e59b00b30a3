import SymbolTables.Scan.Stream

/-!
# Record batches

Rows by column: a batch has for every column of its table the values of all its rows, absent cells
included, and every value has the type of its column. `Batches` cuts a stream into batches of equal
size. The rows before a failure make a last batch; the failure comes after it and is reported once.
A stream without rows gives one empty batch.
-/
namespace SymbolTables

inductive ColumnData
  | text (values : List (Option String))
  | number (values : List (Option Binary64))
deriving DecidableEq

structure BatchColumn where
  name : String
  data : ColumnData
deriving DecidableEq

structure Batch where
  rows : Nat
  columns : List BatchColumn
deriving DecidableEq

namespace Batch

def typeMismatch (column : String) : Failure :=
  .internal s!"cell type does not match column {column}" none

/-- A batch is as long as its columns; without columns it has no length. -/
def noColumns : Failure :=
  .internal ("Failed to create RecordBatch: Invalid argument error: "
    ++ "must either specify a row count or at least one column") none

/-- The cells of a text column. -/
def textCell (column : String) : Option Cell → Except Failure (Option String)
  | none => .ok none
  | some (.text s) => .ok (some s)
  | some (.number _) => .error (typeMismatch column)

/-- The cells of a number column. -/
def numberCell (column : String) : Option Cell → Except Failure (Option Binary64)
  | none => .ok none
  | some (.number x) => .ok (some x)
  | some (.text _) => .error (typeMismatch column)

/-- The values of one column in all rows. -/
def columnOfRows (rows : List Row) (column : Column) (index : Nat) : Except Failure BatchColumn :=
  match column.type with
  | .text => do
    return ⟨column.name, .text (← rows.mapM fun row => textCell column.name (row.get? index))⟩
  | .number => do
    return ⟨column.name, .number (← rows.mapM fun row => numberCell column.name (row.get? index))⟩

/-- The columns from position `index` on. -/
def columnsOfRows (rows : List Row) (index : Nat) : List Column → Except Failure (List BatchColumn)
  | [] => .ok []
  | column :: rest => do
    let first ← columnOfRows rows column index
    return first :: (← columnsOfRows rows (index + 1) rest)

/-- Turn rows into a batch; the first column with a cell of the wrong type decides a failure. -/
def ofRows (schema : Schema) (rows : List Row) : Except Failure Batch := do
  let columns ← columnsOfRows rows 0 schema.columns
  if columns.isEmpty then .error noColumns else return ⟨rows.length, columns⟩

end Batch

/-- What one pull at the batches brings. -/
inductive BatchItem
  | batch (b : Batch)
  | failed (f : Failure)
  | crashed

structure Batches where
  schema : Schema
  /-- The stream, until it has ended or failed. -/
  stream : Option RowStream
  /-- Rows of the next batch. -/
  pending : List Row
  size : Nat
  /-- A failure that is still to be reported. -/
  failure : Option Failure
  /-- Whether a batch has been made. -/
  emitted : Bool

namespace Batches

def ofStream (stream : RowStream) (size : Nat) : Batches where
  schema := stream.schema
  stream := some stream
  pending := []
  size := max size 1
  failure := none
  emitted := false

/-- Make a batch of the pending rows. -/
def flush (b : Batches) : BatchItem × Batches :=
  let item := match Batch.ofRows b.schema b.pending with
    | .ok batch => BatchItem.batch batch
    | .error f => .failed f
  (item, { b with pending := [], emitted := true })

/-- After the stream: the last batch, then the failure, then nothing. -/
def finish (b : Batches) : Option BatchItem × Batches :=
  if !b.pending.isEmpty || (!b.emitted && b.failure.isNone) then
    let (item, b) := b.flush
    (some item, b)
  else (b.failure.map .failed, { b with failure := none })

/-- Pull the stream until a batch is full or the stream is over. -/
def fill (slot : ReaderSlot) (b : Batches) (stream : RowStream) :
    Option BatchItem × ReaderSlot × Batches :=
  match stream.next slot with
  | (some (.row row), slot, stream) =>
    let full := b.size ≤ b.pending.length + 1
    let b := { b with pending := b.pending ++ [row], stream := some stream }
    if full then
      let (item, b) := b.flush
      (some item, slot, b)
    else fill slot b stream
  | (some (.failed f), slot, stream) =>
    let (item, b) := { b with stream := none, failure := some f }.finish
    (item, stream.drop slot, b)
  | (some .crashed, slot, stream) => (some .crashed, slot, { b with stream := some stream })
  | (none, slot, stream) =>
    let (item, b) := { b with stream := none }.finish
    (item, stream.drop slot, b)
termination_by b.size - b.pending.length
decreasing_by simp_all; omega

/-- One pull. -/
def next (slot : ReaderSlot) (b : Batches) : Option BatchItem × ReaderSlot × Batches :=
  match b.stream with
  | some stream => b.fill slot stream
  | none =>
    let (item, b) := b.finish
    (item, slot, b)

/-- Drop the batches and the stream they still hold. -/
def drop (slot : ReaderSlot) (b : Batches) : ReaderSlot :=
  match b.stream with
  | some stream => stream.drop slot
  | none => slot

end Batches
end SymbolTables
