import SymbolTables.Proofs.Scan.Batches
import SymbolTables.Proofs.Scan.Cells

/-!
# Batches hold the rows of their stream

The batches of a stream are its rows, cut into parts of the size asked for (`Batch.Cuts`), and each
batch shows the cells of its part column by column, absent ones too (`Batch.Holds`). A batch can be
made of any rows whose cells have the types of their columns, and so have the rows of a stream over
the table of a symbol, under whatever names its columns are reported.

* `cuts_chunks`: how the rows are cut.
* `ofRows_typed`: a batch of rows with cells of the right types.
* `typed_of_take`: the rows that a stream gives, after whatever pulls.
* `batches_of_rows`: the answers of the batches, up to the first failure or the end.
-/
namespace SymbolTables

open List (Forall₂)

/-! ## Parts -/

namespace Batch

/-- The rows, cut into parts: all but the last have the size, and the last is not empty. -/
structure Cuts (size : Nat) (rows : List Row) (parts : List (List Row)) : Prop where
  flatten : parts.flatten = rows
  full : ∀ part ∈ parts.dropLast, part.length = size
  bounded : ∀ part ∈ parts, part ≠ [] ∧ part.length ≤ size
  count : parts.length = (rows.length + size - 1) / size

theorem cuts_nil {size : Nat} (hsize : 0 < size) : Cuts size [] [] where
  flatten := rfl
  full := fun _ h => nomatch h
  bounded := fun _ h => nomatch h
  count := (Nat.div_eq_of_lt (by simp only [List.length_nil]; omega)).symm

/-- One part, that is not larger than the size. -/
theorem cuts_single {size : Nat} {part : List Row} (hpart : part ≠ []) (hlen : part.length ≤ size) :
    Cuts size part [part] where
  flatten := by simp
  full := fun _ h => nomatch h
  bounded := fun p hp => by
    obtain rfl := List.mem_singleton.1 hp
    exact ⟨hpart, hlen⟩
  count := by
    have hpos : 0 < part.length := List.length_pos_iff.2 hpart
    rw [List.length_singleton, eq_comm, Nat.div_eq_iff (by omega)]
    omega

/-- A part of full size in front of others. -/
theorem Cuts.cons {size : Nat} {part rows : List Row} {parts : List (List Row)}
    (h : Cuts size rows parts) (hsize : 0 < size) (hpart : part.length = size) :
    Cuts size (part ++ rows) (part :: parts) where
  flatten := by rw [List.flatten_cons, h.flatten]
  full := fun p hp => by
    cases parts with
    | nil => cases hp
    | cons first rest =>
      rw [List.dropLast_cons_of_ne_nil (List.cons_ne_nil _ _)] at hp
      rcases List.mem_cons.1 hp with rfl | hp
      · exact hpart
      · exact h.full p hp
  bounded := fun p hp => by
    rcases List.mem_cons.1 hp with rfl | hp
    · exact ⟨List.ne_nil_of_length_pos (by omega), by omega⟩
    · exact h.bounded p hp
  count := by
    have hsum : (part ++ rows).length + size - 1 = rows.length + size - 1 + size := by
      rw [List.length_append]
      omega
    rw [hsum, Nat.add_div_right _ hsize, List.length_cons, h.count]

/-- The rows of one batch after the other, with those that are pending in front. -/
theorem cuts_chunks {size : Nat} (hsize : 0 < size) :
    ∀ {rows pending : List Row}, pending.length < size →
      Cuts size (pending ++ rows) (chunks size pending rows)
  | [], pending, hpending => by
    rw [chunks, List.append_nil]
    by_cases hp : pending = []
    · subst hp
      exact cuts_nil hsize
    · rw [if_neg hp]
      exact cuts_single hp (Nat.le_of_lt hpending)
  | row :: rest, pending, hpending => by
    rw [chunks, List.append_cons]
    have hlen : (pending ++ [row]).length = pending.length + 1 := by simp
    split
    · have hrest : Cuts size ([] ++ rest) (chunks size [] rest) := cuts_chunks hsize hsize
      exact hrest.cons hsize (by omega)
    · exact cuts_chunks hsize (by omega)

end Batch

/-! ## Cells -/

namespace ColumnData

def type : ColumnData → ColumnType
  | .text _ => .text
  | .number _ => .number

/-- The values as cells of rows. -/
def cells : ColumnData → List (Option Cell)
  | .text values => values.map fun value => value.map .text
  | .number values => values.map fun value => value.map .number

end ColumnData

namespace Batch

/-- The values of a column: its type, and the cells of the rows there, absent ones too. -/
def Shows (rows : List Row) (column : Column) (index : Nat) (data : ColumnData) : Prop :=
  data.type = column.type ∧ data.cells = rows.map fun row => row.get? index

/-- The batch has the rows, and shows them in the columns of the table. -/
structure Holds (schema : Schema) (part : List Row) (batch : Batch) : Prop where
  rows : batch.rows = part.length
  width : batch.columns.length = schema.width
  column : ∀ (index : Nat) column, schema.columns[index]? = some column →
    ∃ data, batch.columns[index]? = some ⟨column.name, data⟩ ∧ Shows part column index data

/-- All cells of the rows in this column have its type. -/
def ColumnTyped (rows : List Row) (column : Column) (index : Nat) : Prop :=
  ∀ row ∈ rows, ∀ cell, row.get? index = some cell → cell.type = column.type

theorem textCell_ok {column : String} {cell : Option Cell} {value : Option String}
    (h : textCell column cell = .ok value) : cell = value.map .text := by
  rcases cell with _ | _ | _ <;> cases h <;> rfl

theorem numberCell_ok {column : String} {cell : Option Cell} {value : Option Binary64}
    (h : numberCell column cell = .ok value) : cell = value.map .number := by
  rcases cell with _ | _ | _ <;> cases h <;> rfl

section
variable {rows : List Row}

/-- Values that are read from the cells of a column show them. -/
theorem cells_of_mapM {α : Type} {index : Nat} {read : Option Cell → Except Failure (Option α)}
    {cellOf : α → Cell} (hread : ∀ cell value, read cell = .ok value → cell = value.map cellOf)
    {values : List (Option α)}
    (h : (rows.mapM fun row => read (row.get? index)) = .ok values) :
    values.map (fun value => value.map cellOf) = rows.map fun row => row.get? index := by
  have hcells : Forall₂ Eq (rows.map fun row => row.get? index)
      (values.map fun value => value.map cellOf) := by
    rw [List.forall₂_map_left_iff, List.forall₂_map_right_iff]
    exact (mapM_ok_forall₂ h).imp fun row value hvalue => hread _ _ hvalue
  rw [List.forall₂_eq_eq_eq] at hcells
  exact hcells.symm

theorem columnOfRows_ok {column : Column} {index : Nat} (h : ColumnTyped rows column index) :
    ∃ data, columnOfRows rows column index = .ok ⟨column.name, data⟩ ∧
      Shows rows column index data := by
  obtain ⟨name, type⟩ := column
  cases type with
  | text =>
    have hcells : ∀ row ∈ rows, ∃ value, textCell name (row.get? index) = .ok value := by
      intro row hrow
      have htype := h row hrow
      generalize row.get? index = cell at htype ⊢
      rcases cell with _ | _ | _
      · exact ⟨none, rfl⟩
      · exact ⟨_, rfl⟩
      · cases htype _ rfl
    obtain ⟨values, hvalues⟩ := exists_mapM_ok hcells
    refine ⟨.text values, ?_, rfl, cells_of_mapM (fun _ _ => textCell_ok) hvalues⟩
    simp only [columnOfRows, hvalues]
    rfl
  | number =>
    have hcells : ∀ row ∈ rows, ∃ value, numberCell name (row.get? index) = .ok value := by
      intro row hrow
      have htype := h row hrow
      generalize row.get? index = cell at htype ⊢
      rcases cell with _ | _ | _
      · exact ⟨none, rfl⟩
      · cases htype _ rfl
      · exact ⟨_, rfl⟩
    obtain ⟨values, hvalues⟩ := exists_mapM_ok hcells
    refine ⟨.number values, ?_, rfl, cells_of_mapM (fun _ _ => numberCell_ok) hvalues⟩
    simp only [columnOfRows, hvalues]
    rfl

/-- The columns from a position on. -/
theorem columnsOfRows_ok :
    ∀ {columns : List Column} {start : Nat},
      (∀ (i : Nat) column, columns[i]? = some column → ColumnTyped rows column (start + i)) →
      ∃ made, columnsOfRows rows start columns = .ok made ∧ made.length = columns.length ∧
        ∀ (i : Nat) column, columns[i]? = some column →
          ∃ data, made[i]? = some ⟨column.name, data⟩ ∧ Shows rows column (start + i) data
  | [], _, _ => ⟨[], rfl, rfl, fun _ _ h => (by cases h)⟩
  | first :: rest, start, h => by
    have hshift : ∀ i, start + 1 + i = start + (i + 1) := by
      intro i
      omega
    obtain ⟨data, hdata, hshows⟩ := columnOfRows_ok (h 0 first rfl)
    have hrest : ∀ (i : Nat) column, rest[i]? = some column →
        ColumnTyped rows column (start + 1 + i) := by
      intro i column hi
      rw [hshift]
      exact h (i + 1) column hi
    obtain ⟨made, hmade, hlen, hcolumns⟩ := columnsOfRows_ok hrest
    rw [Nat.add_zero] at hdata hshows
    refine ⟨⟨first.name, data⟩ :: made, ?_, by rw [List.length_cons, hlen, List.length_cons], ?_⟩
    · simp only [columnsOfRows, hdata, hmade]
      rfl
    · intro i column hi
      cases i with
      | zero =>
        obtain rfl := Option.some.inj hi
        exact ⟨data, rfl, hshows⟩
      | succ i =>
        rw [← hshift]
        exact hcolumns i column hi

/-- A batch can be made of rows whose cells have the types of their columns, and holds them. -/
theorem ofRows_typed {schema : Schema} (hwidth : 0 < schema.width)
    (h : ∀ row ∈ rows, row.Typed schema) :
    ∃ batch, ofRows schema rows = .ok batch ∧ Holds schema rows batch := by
  have hcolumns : ∀ (i : Nat) column, schema.columns[i]? = some column →
      ColumnTyped rows column (0 + i) := by
    intro i column hi row hrow cell hcell
    rw [Nat.zero_add] at hcell
    have htype := h row hrow i cell hcell
    rw [hi] at htype
    exact (Option.some.inj htype).symm
  obtain ⟨made, hmade, hlen, hshows⟩ := columnsOfRows_ok hcolumns
  have hnonempty : made.isEmpty = false := by
    rw [List.isEmpty_eq_false_iff, ← List.length_pos_iff, hlen]
    exact hwidth
  refine ⟨⟨rows.length, made⟩, ?_, rfl, hlen, fun index column hi => ?_⟩
  · simp only [ofRows, hmade, bind, Except.bind, hnonempty]
    rfl
  · obtain ⟨data, hdata, hcells⟩ := hshows index column hi
    rw [Nat.zero_add] at hcells
    exact ⟨data, hdata, hcells⟩

end
end Batch

/-! ## Streams over the table of a symbol -/

/-- No table is without columns. -/
theorem Schema.width_ofSymbol_pos (symbol : Symbol) : 0 < (ofSymbol symbol).width := by
  have hvalues : 0 < (valueColumnsOf symbol).length := by
    unfold valueColumnsOf
    cases symbol.kind <;> simp [valuePair, Slot.all]
  simp only [width, ofSymbol, List.length_append]
  omega

/-- Renaming leaves the types of the columns. -/
theorem Schema.types_renamed (references : List FieldRef) (s : Schema) :
    (references.foldl Resolve.renamePosition s).columns.map (·.type) =
      s.columns.map (·.type) := by
  apply List.ext_getElem?
  intro column
  rw [List.getElem?_map, List.getElem?_map, columns_renamed]
  cases s.columns[column]? with
  | none => rfl
  | some c =>
    simp only [Option.map_some]
    split <;> rfl

/-- Only the types of the columns matter for the cells of a row. -/
theorem Row.Typed.of_types {row : Row} {s t : Schema}
    (htypes : t.columns.map (·.type) = s.columns.map (·.type)) (h : row.Typed s) :
    row.Typed t := by
  intro column cell hcell
  rw [← List.getElem?_map, htypes, List.getElem?_map]
  exact h column cell hcell

namespace RowStream

/-- A stream over the table of a symbol: it has been started for a plan, and then pulled at, with
the slot as each pull finds it, or been given tokens for the names of columns. -/
inductive Over (symbol : Symbol) : RowStream → Prop
  | started {store : Store} {slot slot' : ReaderSlot} {plan : ScanPlan} {capacity : Nat}
      {s : RowStream} (plans : plan.For (.ofSymbol symbol))
      (start : RowStream.start store slot plan capacity = .ok (s, slot')) : Over symbol s
  | pulled {s : RowStream} (source : Over symbol s) (slot : ReaderSlot) :
      Over symbol (s.next slot).2.2
  | renamed {s : RowStream} (source : Over symbol s) (references : List FieldRef) :
      Over symbol (s.withSchema (references.foldl Resolve.renamePosition s.schema))

theorem Only.mono {P Q : Item → Prop} {s : RowStream} (h : s.Only P)
    (himp : ∀ item, P item → Q item) : s.Only Q := by
  obtain ⟨schema, scan⟩ := s
  cases scan with
  | sequential scan =>
    intro reader hreader
    obtain ⟨hagrees, hitems⟩ := h reader hreader
    exact ⟨hagrees, fun pull hmem item hitem => himp item (hitems pull hmem item hitem)⟩
  | filtered scan =>
    obtain ⟨rows, o, slot, answers, R, hitems⟩ := h
    exact ⟨rows, o, slot, answers, R, fun item hmem => himp item (hitems item hmem)⟩

theorem schema_start {store : Store} {slot slot' : ReaderSlot} {plan : ScanPlan} {capacity : Nat}
    {s : RowStream} (h : start store slot plan capacity = .ok (s, slot')) :
    s.schema = plan.schema := by
  unfold start at h
  obtain ⟨decoder, -, h⟩ := bind_eq_ok_iff.1 h
  split at h
  · cases h
    rfl
  · obtain ⟨pair, -, h⟩ := bind_eq_ok_iff.1 h
    cases h
    rfl

theorem schema_next (s : RowStream) (slot : ReaderSlot) : (s.next slot).2.2.schema = s.schema := by
  obtain ⟨schema, scan⟩ := s
  cases scan <;> rfl

/-- What is still to come of such a stream are rows with cells of the types of its columns, among
other items, and its columns have the types of the table. -/
theorem Over.typed {symbol : Symbol} {s : RowStream} (h : s.Over symbol) :
    s.Only (fun item => ∀ row, item = .row row → row.Typed (.ofSymbol symbol)) ∧
      s.schema.columns.map (·.type) = (Schema.ofSymbol symbol).columns.map (·.type) := by
  induction h with
  | @started store slot slot' plan capacity s plans start =>
    obtain ⟨decoder, -, -, hd, -⟩ := brings_start start
    refine ⟨(only_of_start hd start).mono fun item horigin row hrow => ?_, ?_⟩
    · subst hrow
      obtain ⟨r, hr⟩ := rowOf_of_origin horigin
      exact (typed_of_rowOf plans hd (Schema.fits_ofSymbol symbol) hr).2
    · rw [schema_start start, plans.schema_eq.1]
  | pulled _ slot ih =>
    rw [schema_next]
    exact ⟨(only_next ih.1 slot).2, ih.2⟩
  | renamed _ references ih =>
    exact ⟨ih.1, (Schema.types_renamed references _).trans ih.2⟩

/-- All rows that are taken from a stream are still to come of it. -/
theorem only_take {P : Item → Prop} : ∀ (k : Nat) {s : RowStream}, s.Only P →
    ∀ slot : ReaderSlot, ∀ row ∈ (s.take k slot).1, P (.row row)
  | 0, _, _, _, _, hrow => by cases hrow
  | k + 1, s, h, slot, row, hrow => by
    obtain ⟨hitem, hnext⟩ := only_next h slot
    unfold take at hrow
    generalize s.next slot = p at hitem hnext hrow
    obtain ⟨item, slot₁, s₁⟩ := p
    rcases item with _ | item
    · cases hrow
    cases item with
    | failed f => cases hrow
    | crashed => cases hrow
    | row first =>
      rcases List.mem_cons.1 hrow with rfl | hrow
      · exact hitem _ rfl
      · exact only_take k hnext slot₁ row hrow

end RowStream

/-! ## Batches -/

namespace Batches

open Batch

/-- The first answers are items that come, and behind them is the first of the others. -/
theorem range_map_append {α : Type} (items more : List α) :
    ((List.range (items.length + 1)).map fun i => (items ++ more)[i]?) =
      items.map some ++ [more.head?] := by
  rw [List.range_succ, List.map_append, List.map_singleton,
    List.getElem?_append_right (Nat.le_refl _), Nat.sub_self, List.head?_eq_getElem?]
  congr 1
  apply List.ext_getElem?
  intro i
  rw [List.getElem?_map, List.getElem?_map]
  by_cases hi : i < items.length
  · rw [List.getElem?_range hi, List.getElem?_eq_getElem hi]
    simp [List.getElem?_append_left hi, List.getElem?_eq_getElem hi]
  · rw [List.getElem?_eq_none (by simpa using hi), List.getElem?_eq_none (by simpa using hi)]
    rfl

/-- A batch for every part. -/
theorem exists_batches {schema : Schema} :
    ∀ {parts : List (List Row)},
      (∀ part ∈ parts, ∃ batch, ofRows schema part = .ok batch ∧ Holds schema part batch) →
      ∃ batches, Forall₂ (Holds schema) parts batches ∧
        parts.map (itemOf schema) = batches.map .batch
  | [], _ => ⟨[], .nil, rfl⟩
  | part :: parts, h => by
    obtain ⟨batch, hbatch, hholds⟩ := h part List.mem_cons_self
    obtain ⟨batches, hall, hitems⟩ := exists_batches fun p hp => h p (List.mem_cons_of_mem _ hp)
    refine ⟨batch :: batches, .cons hholds hall, ?_⟩
    rw [List.map_cons, hitems, itemOf, hbatch]
    rfl

section
variable {schema : Schema} {size : Nat} {rows : List Row} {failure : Option Failure}

theorem subset_of_cuts {parts : List (List Row)} (h : Cuts size rows parts) {part : List Row}
    (hpart : part ∈ parts) : part ⊆ rows := by
  intro row hrow
  rw [← h.flatten]
  exact List.mem_flatten.2 ⟨part, hpart, hrow⟩

/-- The parts of a stream for which batches come in front of its failure: the rows, cut to size, or
one part without rows, if there are none and there is no failure either. -/
def PartsOf (size : Nat) (rows : List Row) (failure : Option Failure) (parts : List (List Row)) :
    Prop :=
  if rows = [] then parts = if failure.isNone then [[]] else [] else Cuts size rows parts

/-- Batches of parts come first, and then the failure, or nothing. -/
theorem itemsOf_split (hsize : 0 < size) :
    ∃ parts more, PartsOf size rows failure parts ∧ (∀ part ∈ parts, part ⊆ rows) ∧
      itemsOf schema size rows failure = parts.map (itemOf schema) ++ more ∧
      more.head? = failure.map .failed := by
  unfold PartsOf itemsOf
  by_cases hrows : rows = []
  · simp only [if_pos hrows]
    cases failure with
    | none => exact ⟨[[]], [], rfl, by simp, rfl, rfl⟩
    | some f => exact ⟨[], [.failed f, itemOf schema []], rfl, by simp, rfl, rfl⟩
  · simp only [if_neg hrows]
    have hcuts : Cuts size ([] ++ rows) (chunks size [] rows) := cuts_chunks hsize hsize
    refine ⟨_, _, hcuts, fun part hpart => subset_of_cuts hcuts hpart, rfl, ?_⟩
    cases failure <;> rfl

/-- All that comes is the failure, or a batch of some of the rows. -/
theorem item_of_itemsOf {item : BatchItem} (hsize : 0 < size)
    (h : item ∈ itemsOf schema size rows failure) :
    (∃ f, failure = some f ∧ item = .failed f) ∨
      ∃ part, part ⊆ rows ∧ item = itemOf schema part := by
  have hfailed : item ∈ failure.toList.map BatchItem.failed → ∃ f, failure = some f ∧
      item = .failed f := by
    intro hmem
    obtain ⟨f, hf, rfl⟩ := List.mem_map.1 hmem
    exact ⟨f, Option.mem_toList.1 hf, rfl⟩
  unfold itemsOf at h
  split at h
  · rcases List.mem_append.1 h with h | h
    · exact .inl (hfailed h)
    · exact .inr ⟨[], List.nil_subset _, List.mem_singleton.1 h⟩
  · rcases List.mem_append.1 h with h | h
    · obtain ⟨part, hpart, rfl⟩ := List.mem_map.1 h
      have hcuts : Cuts size ([] ++ rows) (chunks size [] rows) := cuts_chunks hsize hsize
      exact .inr ⟨part, subset_of_cuts hcuts hpart, rfl⟩
    · exact .inl (hfailed h)

end

/-- **Batches hold all rows.** A stream over the table of a symbol, under whatever names its columns
are reported, that gives some rows and then ends or fails: up to the first failure or the end, its
batches bring the rows, cut to the size asked for, where no size counts as 1. If there are no rows,
there is one empty batch for a stream that ends, and none for one that fails. The failure of the
stream comes behind them, and no other failure ever comes: all batches can be made. -/
theorem batches_of_rows {symbol : Symbol} {s s' : RowStream} (hs : s.Over symbol) {k : Nat}
    {slot slot' : ReaderSlot} {rows : List Row} {failure : Option Failure}
    (h : s.take k slot = (rows, Ending.ofFailure failure, slot', s')) (size : Nat) :
    (∃ parts batches, PartsOf (max size 1) rows failure parts ∧
      Forall₂ (Holds s.schema) parts batches ∧
      pulls (parts.length + 1) slot (ofStream s size) =
        batches.map (fun batch => some (.batch batch)) ++ [failure.map .failed]) ∧
    ∀ n item, some item ∈ pulls n slot (ofStream s size) →
      (∃ batch, item = .batch batch) ∨ ∃ f, failure = some f ∧ item = .failed f := by
  obtain ⟨honly, htypes⟩ := hs.typed
  have hsize : 0 < max size 1 := Nat.le_max_right _ _
  have hwidth : 0 < s.schema.width := by
    have hlen := congrArg List.length htypes
    rw [List.length_map, List.length_map] at hlen
    exact Nat.lt_of_lt_of_eq (Schema.width_ofSymbol_pos symbol) hlen.symm
  have htyped : ∀ row ∈ rows, row.Typed s.schema := by
    intro row hrow
    have hrow' : row ∈ (s.take k slot).1 := by rwa [h]
    exact (RowStream.only_take k honly slot row hrow' row rfl).of_types htypes
  have hmade : ∀ part, part ⊆ rows →
      ∃ batch, ofRows s.schema part = .ok batch ∧ Holds s.schema part batch :=
    fun part hpart => ofRows_typed hwidth fun row hrow => htyped row (hpart hrow)
  have hpulls : ∀ n, pulls n slot (ofStream s size) =
      (List.range n).map fun i => (itemsOf s.schema (max size 1) rows failure)[i]? := fun n =>
    pulls_of_owes n (.streaming s k rows failure rfl rfl (by rw [h]) (by rw [h])
      (owed_ofStream failure s size rows).symm)
  constructor
  · obtain ⟨parts, more, hparts, hsubset, hitems, hhead⟩ :=
      @itemsOf_split s.schema _ rows failure hsize
    obtain ⟨batches, hall, hbatches⟩ := exists_batches fun part hpart =>
      hmade part (hsubset part hpart)
    refine ⟨parts, batches, hparts, hall, ?_⟩
    have hlen : parts.length = (batches.map BatchItem.batch).length := by
      rw [List.length_map, hall.length_eq]
    rw [hpulls, hitems, hbatches, hlen, range_map_append, hhead, List.map_map]
    rfl
  · intro n item hitem
    rw [hpulls] at hitem
    obtain ⟨i, -, hi⟩ := List.mem_map.1 hitem
    rcases item_of_itemsOf hsize (List.mem_of_getElem? hi) with hfailed | ⟨part, hpart, rfl⟩
    · exact .inr hfailed
    · obtain ⟨batch, hbatch, -⟩ := hmade part hpart
      refine .inl ⟨batch, ?_⟩
      rw [itemOf, hbatch]

/-- A parameter over two dimensions. -/
def sampleSymbol : Symbol := ⟨"p", .parameter, ["i", "j"], "", 4⟩

/-- The labels of a store whose reader fails after three records, with the second column reported
under its token: a batch of two rows, one of one row, and the failure. -/
theorem batches_of_rows_sample : ∃ plan stream slot rows slot' stream',
    ScanPlan.ofColumns 0 (.ofSymbol sampleSymbol) [0, 1] [] = .ok plan ∧
      RowStream.start Exchange.sampleStore .free plan 1 = .ok (stream, slot) ∧
      (stream.withSchema ([.position 1].foldl Resolve.renamePosition stream.schema)).take 4 slot =
        (rows, Ending.ofFailure (some sampleFailure), slot', stream') ∧
      rows.length = 3 ∧
      ∃ batches : List Batch, batches.length = 2 ∧
        pulls 3 slot (ofStream (stream.withSchema
          ([.position 1].foldl Resolve.renamePosition stream.schema)) 2) =
            batches.map (fun batch => some (.batch batch)) ++ [some (.failed sampleFailure)] := by
  have brings : ∀ plan stream slot rows slot' stream',
      ScanPlan.ofColumns 0 (.ofSymbol sampleSymbol) [0, 1] [] = .ok plan →
      RowStream.start Exchange.sampleStore .free plan 1 = .ok (stream, slot) →
      (stream.withSchema ([.position 1].foldl Resolve.renamePosition stream.schema)).take 4 slot =
        (rows, Ending.ofFailure (some sampleFailure), slot', stream') →
      rows.length = 3 →
      ∃ batches : List Batch, batches.length = 2 ∧
        pulls 3 slot (ofStream (stream.withSchema
          ([.position 1].foldl Resolve.renamePosition stream.schema)) 2) =
            batches.map (fun batch => some (.batch batch)) ++ [some (.failed sampleFailure)] := by
    intro plan stream slot rows slot' stream' hplan hstart htake hlen
    obtain ⟨⟨parts, batches, hparts, hall, hpulls⟩, -⟩ :=
      batches_of_rows (.renamed (.started (.columns hplan) hstart) [.position 1]) htake 2
    have hrows : rows ≠ [] := List.ne_nil_of_length_pos (by omega)
    rw [PartsOf, if_neg hrows] at hparts
    have hcount : parts.length = 2 := by rw [hparts.count, hlen]; rfl
    rw [hcount] at hpulls
    exact ⟨batches, hall.length_eq.symm.trans hcount, hpulls⟩
  exact ⟨_, _, _, _, _, _, rfl, rfl, rfl, rfl, brings _ _ _ _ _ _ rfl rfl rfl rfl⟩

end Batches
end SymbolTables
