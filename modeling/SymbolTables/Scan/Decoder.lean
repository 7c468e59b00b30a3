import SymbolTables.Scan.LabelCache
import SymbolTables.Scan.Plan
import SymbolTables.Scan.Value
import SymbolTables.Table.Row

/-!
# Decoding records

A decoder turns the records of one symbol into rows of its plan. A record may be discarded, because
a label that has to be empty is not, or fail. The plan's table is taken as the caller gave it; if it
lacks a column that the kind of the symbol has, decoding runs off its layout, which is an outcome of
its own.
-/
namespace SymbolTables

/-- Why a record gives no row. -/
inductive NoRow
  | discarded
  | failed (f : Failure)
  /-- A column was asked for that the table does not have. -/
  | outsideLayout

structure Decoder where
  store : Store
  symbol : Symbol
  schema : Schema
  selected : List Bool
  emptyDimensions : List Nat
  cache : LabelCache
  /-- Records discarded so far. -/
  discarded : Nat

namespace Decoder

def schemaMismatch (table symbol : String) : Failure :=
  .internal s!"schema of {table} does not match symbol {symbol}" none

def missingKeys (locator symbol : String) : Failure :=
  .storageAt locator s!"record of {symbol} has fewer keys than dimensions"

def missingSlot (kind : Kind) (slot : Slot) : Failure :=
  .internal s!"{kind.name} has no {slot.name} column" none

/-- A decoder for a plan; kind and dimensions of its table have to be those of the symbol. -/
def ofPlan (store : Store) (plan : ScanPlan) : Except Failure Decoder := do
  let symbol ← store.symbolInfo plan.symbol
  if symbol.kind ≠ plan.schema.kind ∨ symbol.dimensions ≠ plan.schema.dimensions then
    .error (schemaMismatch plan.schema.table symbol.name)
  else
    return {
      store, symbol
      schema := plan.schema
      selected := plan.selected
      emptyDimensions := plan.emptyDimensions
      cache := .ofDimensions symbol.dimensions
      discarded := 0 }

/-- Whether a column is selected. -/
def isSelected (d : Decoder) (column : Nat) : Except NoRow Bool :=
  match d.selected[column]? with
  | some b => .ok b
  | none => .error .outsideLayout

/-- Fill in the labels of the given dimensions, one after the other. -/
def labels (d : Decoder) (r : Record) : List Nat → LabelCache → Row → Except NoRow Row × LabelCache
  | [], cache, row => (.ok row, cache)
  | dimension :: rest, cache, row =>
    match r.keys[dimension]? with
    | none => (.error (.failed (missingKeys d.store.locator d.symbol.name)), cache)
    | some key =>
      match cache.resolve d.store dimension key with
      | (.error f, cache) => (.error (.failed f), cache)
      | (.ok label, cache) =>
        if label ≠ "" ∧ dimension ∈ d.emptyDimensions then (.error .discarded, cache)
        else match d.isSelected dimension with
          | .error e => (.error e, cache)
          | .ok true => d.labels r rest cache (row.set dimension (.text label))
          | .ok false => d.labels r rest cache row

/-- The name of a column. -/
def columnName (d : Decoder) (column : Nat) : Except NoRow String :=
  match d.schema.columns[column]? with
  | some c => .ok c.name
  | none => .error .outsideLayout

/-- Fill in the two columns of a slot. A special value is ambiguous when only its number column is
selected. -/
def slotCells (d : Decoder) (r : Record) (row : Row) (slot : Slot) : Except NoRow Row := do
  match d.schema.valueColumns slot with
  | none => .error (.failed (missingSlot d.symbol.kind slot))
  | some (numberColumn, textColumn) =>
    let numberSelected ← d.isSelected numberColumn
    let textSelected ← d.isSelected textColumn
    if !numberSelected && !textSelected then return row
    let value := SlotValue.decode d.store (r.values.get slot)
    if value.isSpecial && !textSelected then
      let numberName ← d.columnName numberColumn
      let textName ← d.columnName textColumn
      .error (.failed (.ambiguousSpecialValue numberName textName))
    else
      let row :=
        match value.number? with
        | some x => if numberSelected then row.set numberColumn (.number x) else row
        | none => row
      return match value.text? with
        | some text => if textSelected then row.set textColumn (.text text) else row
        | none => row

/-- The text of a set element that has none. -/
def elementMarker : String := "Y"

/-- Fill in the columns behind the dimensions. -/
def valueCells (d : Decoder) (r : Record) (row : Row) : Except NoRow Row := do
  match d.symbol.kind with
  | .set =>
    let column := d.schema.dimensions
    if ← d.isSelected column then
      let text := d.store.elementText r.values.level.toInt32
      return row.set column (.text (text.getD elementMarker))
    else return row
  | .parameter =>
    let row ← d.slotCells r row .level
    match d.schema.commentsColumn with
    | none => return row
    | some column =>
      if ← d.isSelected column then return row.set column (.text d.symbol.text) else return row
  | .var | .equation => Slot.all.foldlM (d.slotCells r) row

/-- Decode one record. Labels looked up on the way stay in the cache, whatever comes of the
record. -/
def decode (d : Decoder) (r : Record) : Except NoRow Row × Decoder :=
  match d.labels r (List.range d.schema.dimensions) d.cache (.blank d.schema.width) with
  | (.error .discarded, cache) =>
    (.error .discarded, { d with cache, discarded := d.discarded + 1 })
  | (.error e, cache) => (.error e, { d with cache })
  | (.ok row, cache) => (d.valueCells r row, { d with cache })

end Decoder
end SymbolTables
