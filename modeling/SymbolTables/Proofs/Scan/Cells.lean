import SymbolTables.Proofs.Scan.Conditions
import SymbolTables.Proofs.Scan.Delivery

/-!
# The cells of a row and the columns of its table

A plan is opened for any table whose kind and number of dimensions are those of the symbol; at the
columns that the table lists nobody looks. Decoding fills in the layout of the table all the same
(`Row.Fills`): where the columns begin with the layout (`Schema.Fits`), every cell has the type of
its column and no column is missing, and for every other table there is a store and a plan with which
it goes wrong.

* `fills_of_rowOf`: a record gives a row by filling in cells of the layout.
* `visits_of_rowOf`: every column of the layout is looked up on the way.
* `openable_iff_fits`: the tables that may be opened.
-/
namespace SymbolTables

/-! ## Rows -/

namespace Row

/-- Fill in a cell, if the column is selected and there is something to show. -/
def fill (row : Row) (column : Nat) : Bool → Option Cell → Row
  | true, some cell => row.set column cell
  | _, _ => row

@[simp] theorem fill_none (row : Row) (column : Nat) (selected : Bool) :
    row.fill column selected none = row := by
  cases selected <;> rfl

/-- One row comes from another by filling in cells in the columns that the layout has for them. -/
inductive Fills (s : Schema) (row : Row) : Row → Prop
  | refl : Fills s row row
  | set {row' : Row} {column : Nat} {cell : Cell} (fills : Fills s row row')
      (place : s.Place column cell.type) : Fills s row (row'.set column cell)

section
variable {s : Schema} {row row' row'' : Row} {column : Nat}

theorem Fills.trans (h : Fills s row row') (h' : Fills s row' row'') : Fills s row row'' := by
  induction h' with
  | refl => exact h
  | set _ place ih => exact ih.set place

theorem Fills.width_eq (h : Fills s row row') : row'.width = row.width := by
  induction h with
  | refl => rfl
  | set _ _ ih => rw [width_set, ih]

/-- A cell that is there stays there. -/
theorem Fills.isSome (h : Fills s row row') (hc : (row.get? column).isSome) :
    (row'.get? column).isSome := by
  induction h with
  | refl => exact hc
  | set _ _ ih =>
    rw [get?_set]
    split
    · rfl
    · exact ih

/-- All cells of a row that is filled in from a blank one have the types of the layout. -/
theorem Fills.type_eq {width : Nat} {cell : Cell} (h : Fills s (blank width) row)
    (hc : row.get? column = some cell) : s.layout[column]? = some cell.type := by
  induction h with
  | refl => simp at hc
  | set _ place ih =>
    rw [get?_set] at hc
    split at hc
    · rename_i heq
      obtain rfl := Option.some.inj hc
      rw [← heq.1]
      exact Schema.layout_of_place place
    · exact ih hc

theorem fills_fill {selected : Bool} {cell : Option Cell}
    (h : ∀ c, cell = some c → s.Place column c.type) : Fills s row (row.fill column selected cell) := by
  match selected, cell, h with
  | true, some c, h => exact Fills.refl.set (h c rfl)
  | true, none, _ => exact .refl
  | false, _, _ => exact .refl

theorem isSome_fill (cell : Cell) (h : column < row.width) :
    ((row.fill column true (some cell)).get? column).isSome := by
  simp [fill, get?_set, h]

/-- Steps that fill in cells fill in cells together, and each of them has been taken. -/
theorem fills_foldlM {α ε : Type} {f : Row → α → Except ε Row} :
    ∀ {items : List α} {row row' : Row},
      (∀ a ∈ items, ∀ row row', f row a = .ok row' → Fills s row row') →
        items.foldlM f row = .ok row' → Fills s row row' ∧
          ∀ a ∈ items, ∃ before after, Fills s row before ∧ f before a = .ok after ∧
            Fills s after row'
  | [], _, _, _, h => by
    cases h
    exact ⟨.refl, fun _ ha => nomatch ha⟩
  | first :: rest, row, row', step, h => by
    rw [List.foldlM_cons] at h
    obtain ⟨next, hfirst, h⟩ := bind_eq_ok_iff.1 h
    have hnext := step first List.mem_cons_self _ _ hfirst
    obtain ⟨hrest, htaken⟩ := fills_foldlM (fun a ha => step a (List.mem_cons_of_mem _ ha)) h
    refine ⟨hnext.trans hrest, fun a ha => ?_⟩
    rcases List.mem_cons.1 ha with rfl | ha
    · exact ⟨row, next, .refl, hfirst, hrest⟩
    · obtain ⟨before, after, hbefore, hstep, hafter⟩ := htaken a ha
      exact ⟨before, after, hnext.trans hbefore, hstep, hafter⟩

end
end Row

/-! ## Records -/

namespace Decoder

section
variable {d : Decoder} {r : Record} {row row' : Row}

theorem labelCell_ok {dimension : Nat} (h : d.labelCell r row dimension = .ok row') :
    ∃ selected label, d.selected[dimension]? = some selected ∧
      row' = row.fill dimension selected (some (.text label)) := by
  unfold labelCell at h
  cases hk : r.keys[dimension]? with
  | none => rw [hk] at h; cases h
  | some key =>
    cases hl : d.store.label key with
    | none => simp only [hk, hl] at h; cases h
    | some label =>
      simp only [hk, hl] at h
      split at h
      · cases h
      · cases hs : d.isSelected dimension with
        | error e => rw [hs] at h; cases h
        | ok b =>
          rw [hs] at h
          cases b <;> cases h
          · exact ⟨false, label, isSelected_ok hs, rfl⟩
          · exact ⟨true, label, isSelected_ok hs, rfl⟩

theorem slotCells_ok {slot : Slot} (h : d.slotCells r row slot = .ok row') :
    ∃ number text numberSelected textSelected,
      d.schema.valueColumns slot = some (number, text) ∧
        d.selected[number]? = some numberSelected ∧ d.selected[text]? = some textSelected ∧
        row' = (row.fill number numberSelected
            ((SlotValue.decode d.store (r.values.get slot)).number?.map .number)).fill text
          textSelected ((SlotValue.decode d.store (r.values.get slot)).text?.map .text) := by
  unfold slotCells at h
  split at h
  · cases h
  rename_i number text hcolumns
  obtain ⟨numberSelected, hn, hrest⟩ := bind_eq_ok_iff.1 h
  obtain ⟨textSelected, ht, hcells⟩ := bind_eq_ok_iff.1 hrest
  clear h hrest
  refine ⟨number, text, numberSelected, textSelected, hcolumns, isSelected_ok hn, isSelected_ok ht, ?_⟩
  generalize SlotValue.decode d.store (r.values.get slot) = value at hcells ⊢
  split at hcells
  · rename_i hnone
    obtain ⟨rfl, rfl⟩ : numberSelected = false ∧ textSelected = false := by simpa using hnone
    cases hcells
    rfl
  dsimp only at hcells
  split at hcells
  · obtain ⟨_, -, hfail⟩ := bind_eq_ok_iff.1 hcells
    obtain ⟨_, -, hfail⟩ := bind_eq_ok_iff.1 hfail
    cases hfail
  · cases numberSelected <;> cases textSelected <;> cases value <;> cases hcells <;> rfl

/-- How a row went through a column of the layout: it is known whether the column is selected, and if
it is, the cell is there when the values of the record are special for a text, and plain for a
number. -/
def Visits (d : Decoder) (r : Record) (row : Row) (column : Nat) (type : ColumnType) : Prop :=
  ∃ selected, d.selected[column]? = some selected ∧
    (selected = true → column < row.width →
      (∀ slot, (SlotValue.decode d.store (r.values.get slot)).isSpecial = decide (type = .text)) →
        (row.get? column).isSome)

theorem Visits.fills {column : Nat} {type : ColumnType} (h : d.Visits r row column type)
    (hfills : Row.Fills d.schema row row') : d.Visits r row' column type := by
  obtain ⟨selected, hselected, hcell⟩ := h
  refine ⟨selected, hselected, fun hb hlt hshown => hfills.isSome (hcell hb ?_ hshown)⟩
  rwa [← hfills.width_eq]

theorem visits_fill {column : Nat} {selected : Bool} {cell : Cell}
    (hselected : d.selected[column]? = some selected) (type : ColumnType) :
    d.Visits r (row.fill column selected (some cell)) column type := by
  refine ⟨selected, hselected, fun hb hlt _ => ?_⟩
  subst hb
  exact Row.isSome_fill cell (by simpa [Row.fill] using hlt)

theorem fills_of_labelCell {dimension : Nat} (hdim : dimension < d.schema.dimensions)
    (h : d.labelCell r row dimension = .ok row') : Row.Fills d.schema row row' := by
  obtain ⟨selected, label, -, rfl⟩ := labelCell_ok h
  refine Row.fills_fill fun c hc => ?_
  cases hc
  exact .label hdim

theorem fills_of_slotCells {slot : Slot} (h : d.slotCells r row slot = .ok row') :
    Row.Fills d.schema row row' := by
  obtain ⟨number, text, _, _, hcolumns, -, -, rfl⟩ := slotCells_ok h
  refine (Row.fills_fill fun c hc => ?_).trans (Row.fills_fill fun c hc => ?_)
  · obtain ⟨x, -, rfl⟩ := Option.map_eq_some_iff.1 hc
    exact .number hcolumns
  · obtain ⟨label, -, rfl⟩ := Option.map_eq_some_iff.1 hc
    exact .special hcolumns

theorem visits_of_slotCells {slot : Slot} (h : d.slotCells r row slot = .ok row') :
    ∃ number text, d.schema.valueColumns slot = some (number, text) ∧
      d.Visits r row' number .number ∧ d.Visits r row' text .text := by
  obtain ⟨number, text, _, _, hcolumns, hnumber, htext, rfl⟩ := slotCells_ok h
  refine ⟨number, text, hcolumns, ⟨_, hnumber, fun hb hlt hshown => ?_⟩,
    ⟨_, htext, fun hb hlt hshown => ?_⟩⟩
  all_goals
    subst hb
    specialize hshown slot
    generalize SlotValue.decode d.store (r.values.get slot) = value at *
  · cases value with
    | number x =>
      simp only [SlotValue.number?, SlotValue.text?, Option.map, Row.fill_none] at hlt ⊢
      exact Row.isSome_fill _ (by simpa [Row.fill] using hlt)
    | special v => cases hshown
    | acronym name => cases hshown
  · cases value with
    | number x => cases hshown
    | special v => exact Row.isSome_fill _ (by simpa [Row.fill, SlotValue.text?] using hlt)
    | acronym name => exact Row.isSome_fill _ (by simpa [Row.fill, SlotValue.text?] using hlt)

/-- What is behind the dimensions is filled in, and every column there is looked up. -/
theorem visits_of_valueCells (hkind : d.symbol.kind = d.schema.kind)
    (h : d.valueCells r row = .ok row') :
    Row.Fills d.schema row row' ∧ ∀ {column : Nat} {type : ColumnType},
      d.schema.Place column type → ¬column < d.schema.dimensions → d.Visits r row' column type := by
  unfold valueCells at h
  cases hk : d.symbol.kind with
  | set =>
    simp only [hk] at h
    obtain ⟨b, hs, h⟩ := bind_eq_ok_iff.1 h
    obtain ⟨text, rfl⟩ : ∃ text, row' = row.fill d.schema.dimensions b (some (.text text)) := by
      refine ⟨(d.store.elementText r.values.level.toInt32).getD elementMarker, ?_⟩
      cases b <;> cases h <;> rfl
    rw [hk] at hkind
    refine ⟨Row.fills_fill fun c hc => ?_, fun hplace hdim => ?_⟩
    · cases hc
      exact .element hkind.symm
    · cases hplace with
      | label hlt => exact absurd hlt hdim
      | element => exact visits_fill (isSelected_ok hs) _
      | number hcolumns => simp [Schema.valueColumns, ← hkind] at hcolumns
      | special hcolumns => simp [Schema.valueColumns, ← hkind] at hcolumns
      | comments hcolumn => simp [Schema.commentsColumn, ← hkind] at hcolumn
  | parameter =>
    simp only [hk] at h
    obtain ⟨row₁, hs, h⟩ := bind_eq_ok_iff.1 h
    obtain ⟨_, _, hcolumns, hnumber, htext⟩ := visits_of_slotCells hs
    have hcomments : Row.Fills d.schema row₁ row' ∧ ∀ column,
        d.schema.commentsColumn = some column → d.Visits r row' column .text := by
      split at h
      · rename_i hnone
        cases h
        exact ⟨.refl, fun column hc => by cases hnone.symm.trans hc⟩
      · rename_i column hc
        obtain ⟨b, hb, h⟩ := bind_eq_ok_iff.1 h
        obtain rfl : row' = row₁.fill column b (some (.text d.symbol.text)) := by
          cases b <;> cases h <;> rfl
        refine ⟨Row.fills_fill fun c hcell => ?_, fun column' hc' => ?_⟩
        · cases hcell
          exact .comments hc
        · cases hc.symm.trans hc'
          exact visits_fill (isSelected_ok hb) _
    rw [hk] at hkind
    have hlevel : ∀ slot p, d.schema.valueColumns slot = some p → slot = .level := by
      intro slot p hp
      simp only [Schema.valueColumns, ← hkind, Option.ite_none_right_eq_some] at hp
      exact hp.1
    refine ⟨(fills_of_slotCells hs).trans hcomments.1, fun hplace hdim => ?_⟩
    cases hplace with
    | label hlt => exact absurd hlt hdim
    | element hset => simp [← hkind] at hset
    | number hcolumns' =>
      obtain rfl := hlevel _ _ hcolumns'
      cases hcolumns.symm.trans hcolumns'
      exact hnumber.fills hcomments.1
    | special hcolumns' =>
      obtain rfl := hlevel _ _ hcolumns'
      cases hcolumns.symm.trans hcolumns'
      exact htext.fills hcomments.1
    | comments hcolumn => exact hcomments.2 _ hcolumn
  | var | equation =>
    simp only [hk] at h
    obtain ⟨hfills, htaken⟩ := Row.fills_foldlM (fun _ _ _ _ hs => fills_of_slotCells hs) h
    rw [hk] at hkind
    refine ⟨hfills, fun hplace hdim => ?_⟩
    have hslot : ∀ slot, ∃ number text, d.schema.valueColumns slot = some (number, text) ∧
        d.Visits r row' number .number ∧ d.Visits r row' text .text := by
      intro slot
      obtain ⟨before, after, -, hs, hafter⟩ := htaken slot (Slot.mem_all slot)
      obtain ⟨number, text, hcolumns, hnumber, htext⟩ := visits_of_slotCells hs
      exact ⟨number, text, hcolumns, hnumber.fills hafter, htext.fills hafter⟩
    cases hplace with
    | label hlt => exact absurd hlt hdim
    | element hset => simp [← hkind] at hset
    | number hcolumns =>
      obtain ⟨_, _, hcolumns', hnumber, -⟩ := hslot _
      cases hcolumns.symm.trans hcolumns'
      exact hnumber
    | special hcolumns =>
      obtain ⟨_, _, hcolumns', -, htext⟩ := hslot _
      cases hcolumns.symm.trans hcolumns'
      exact htext
    | comments hcolumn => simp [Schema.commentsColumn, ← hkind] at hcolumn

/-- **A record gives a row by filling in cells of the layout.** -/
theorem fills_of_rowOf (hkind : d.symbol.kind = d.schema.kind) (h : d.rowOf r = .ok row) :
    Row.Fills d.schema (.blank d.schema.width) row := by
  unfold rowOf at h
  split at h
  · cases h
  · rename_i hl
    have hlabels := Row.fills_foldlM
      (fun dimension hdim _ _ hc => fills_of_labelCell (List.mem_range.1 hdim) hc) hl
    exact hlabels.1.trans (visits_of_valueCells hkind h).1

/-- **Every column of the layout is looked up** by a record that gives a row. -/
theorem visits_of_rowOf (hkind : d.symbol.kind = d.schema.kind) (h : d.rowOf r = .ok row)
    {column : Nat} {type : ColumnType} (hplace : d.schema.Place column type) :
    d.Visits r row column type := by
  unfold rowOf at h
  split at h
  · cases h
  · rename_i hl
    obtain ⟨hfills, hvisits⟩ := visits_of_valueCells hkind h
    by_cases hdim : column < d.schema.dimensions
    · have hlabels := Row.fills_foldlM
        (fun dimension hdim _ _ hc => fills_of_labelCell (List.mem_range.1 hdim) hc) hl
      obtain ⟨before, after, -, hc, hafter⟩ := hlabels.2 column (List.mem_range.2 hdim)
      obtain ⟨selected, label, hselected, rfl⟩ := labelCell_ok hc
      exact ((visits_fill hselected type).fills hafter).fills hfills
    · exact hvisits hplace hdim

end

/-- The decoder that some records have been decoded with. -/
def after (d : Decoder) (records : List Record) : Decoder :=
  records.foldl (fun d r => (d.decode r).2) d

theorem decode_after (records : List Record) :
    ∀ {d : Decoder}, d.cache.Agrees d.store → ∀ r, ((d.after records).decode r).1 = d.rowOf r := by
  induction records with
  | nil => exact fun ha r => decode_fst ha r
  | cons first rest ih =>
    intro d ha r
    rw [← rowOf_decode d first]
    exact ih (agrees_decode ha first) r

end Decoder

/-! ## Plans for a table -/

/-- A plan for a table: made from column numbers, or from names and conditions on fields. -/
inductive ScanPlan.For (schema : Schema) (plan : ScanPlan) : Prop
  | columns {nr : Nat} {selected : List Nat} {conditions : List ColumnCondition}
      (h : ofColumns nr schema selected conditions = .ok plan)
  | names {nr : Nat} {names : List String} {conditions : List Condition}
      (h : ofNames nr schema names conditions = .ok plan)

namespace ScanPlan
variable {schema : Schema} {plan : ScanPlan}

theorem For.exists_ofColumns (h : plan.For schema) :
    ∃ nr selected conditions, ofColumns nr schema selected conditions = .ok plan := by
  cases h with
  | columns h => exact ⟨_, _, _, h⟩
  | @names nr names conditions h =>
    unfold ofNames at h
    obtain ⟨_, -, h⟩ := bind_eq_ok_iff.1 h
    obtain ⟨_, -, h⟩ := bind_eq_ok_iff.1 h
    exact ⟨_, _, _, h⟩

theorem length_select :
    ∀ {columns : List Nat} {selected marks : List Bool}, select selected columns = .ok marks →
      marks.length = selected.length
  | [], _, _, h => by cases h; rfl
  | column :: rest, selected, marks, h => by
    unfold select at h
    split at h
    · rw [length_select h, List.length_set]
    · cases h

/-- A plan has its table, and knows of every column whether it is selected. -/
theorem For.schema_eq (h : plan.For schema) :
    plan.schema = schema ∧ plan.selected.length = schema.width := by
  obtain ⟨nr, selected, conditions, h⟩ := h.exists_ofColumns
  refine ⟨(ofColumns_ok h).2.1, ?_⟩
  unfold ofColumns at h
  obtain ⟨marks, hs, h⟩ := bind_eq_ok_iff.1 h
  obtain ⟨_, -, h⟩ := bind_eq_ok_iff.1 h
  cases h
  rw [length_select hs, List.length_replicate]

end ScanPlan

/-! ## Tables that fit -/

/-- Every cell of the row has the type of its column in the table. -/
def Row.Typed (row : Row) (s : Schema) : Prop :=
  ∀ column cell, row.get? column = some cell → s.columns[column]?.map (·.type) = some cell.type

section
variable {store : Store} {schema : Schema} {plan : ScanPlan} {decoder : Decoder}

theorem ScanPlan.For.decoder_eq (hplan : plan.For schema)
    (hd : Decoder.ofPlan store plan = .ok decoder) :
    decoder.schema = schema ∧ decoder.selected.length = schema.width ∧
      decoder.symbol.kind = decoder.schema.kind := by
  obtain ⟨hschema, hlength⟩ := hplan.schema_eq
  obtain ⟨-, hkind, hselected⟩ := Decoder.symbol_ofPlan hd
  refine ⟨(Decoder.ofPlan_ok hd).2.1.trans hschema, ?_, hkind⟩
  rw [hselected, hlength]

/-- In a table as wide as its layout no record leads outside. -/
theorem rowOf_ne_outsideLayout (hplan : plan.For schema)
    (hd : Decoder.ofPlan store plan = .ok decoder) (hwide : schema.layout.length ≤ schema.width)
    (r : Record) : decoder.rowOf r ≠ .error .outsideLayout := by
  intro h
  obtain ⟨hschema, hlength, -⟩ := hplan.decoder_eq hd
  rcases Decoder.fault_of_rowOf h with hdiscarded | hfault
  · cases hdiscarded
  · cases hfault with
    | narrow hnarrow =>
      unfold Decoder.Narrow at hnarrow
      rw [hschema, hlength] at hnarrow
      omega

/-- In a table that fits every cell has the type of its column. -/
theorem typed_of_rowOf (hplan : plan.For schema) (hd : Decoder.ofPlan store plan = .ok decoder)
    (hfits : schema.Fits) {r : Record} {row : Row} (h : decoder.rowOf r = .ok row) :
    row.width = schema.width ∧ row.Typed schema := by
  obtain ⟨hschema, -, hkind⟩ := hplan.decoder_eq hd
  have hfills := Decoder.fills_of_rowOf hkind h
  rw [hschema] at hfills
  refine ⟨by rw [hfills.width_eq, Row.width_blank], fun column cell hc => ?_⟩
  exact hfits.type_eq (hfills.type_eq hc)

end

/-! ## Tables that do not fit -/

namespace Schema

/-- A record with a label in every dimension of the table. -/
def emptyRecord (s : Schema) : Record := ⟨List.replicate s.dimensions 0, .ofLevel .zero⟩

/-- A store with one symbol, of the table's kind and dimensions, and one record. The label is empty,
and the values are all an acronym, if one is given. -/
def emptyStore (s : Schema) (acronym : Option String) : Store where
  locator := ""
  symbols := [⟨s.table, s.kind, List.replicate s.dimensions wildcard, "", 1⟩]
  label := fun _ => some ""
  elementText := fun _ => none
  acronymName := fun _ => acronym
  start := fun _ => .ok [.record s.emptyRecord]

section
variable {s : Schema} {acronym : Option String} {selected : List Nat} {plan : ScanPlan}

theorem isSpecial_emptyRecord (slot : Slot) :
    (SlotValue.decode (s.emptyStore acronym) (s.emptyRecord.values.get slot)).isSpecial =
      acronym.isSome := by
  have hvalue : s.emptyRecord.values.get slot = .zero := by cases slot <;> rfl
  have hplain : SpecialValue.classify .zero = none := by decide +kernel
  rw [hvalue]
  cases acronym with
  | none => simp only [SlotValue.decode, emptyStore, hplain]; rfl
  | some name => rfl

theorem exists_decoder_emptyStore (hplan : ScanPlan.ofColumns 0 s selected [] = .ok plan) :
    ∃ decoder, Decoder.ofPlan (s.emptyStore acronym) plan = .ok decoder := by
  obtain ⟨hnr, hschema, -⟩ := ScanPlan.ofColumns_ok hplan
  simp [Decoder.ofPlan, Store.symbolInfo, emptyStore, hnr, hschema, Symbol.dimensions, bind,
    Except.bind, pure, Except.pure]

/-- The record gives a row, or leads outside. -/
theorem rowOf_emptyRecord (hplan : ScanPlan.ofColumns 0 s selected [] = .ok plan)
    {decoder : Decoder} (hd : Decoder.ofPlan (s.emptyStore acronym) plan = .ok decoder)
    (hplain : acronym = none ∨
      ∀ slot number text, s.valueColumns slot = some (number, text) →
        plan.selected[number]? ≠ some true) {e : NoRow}
    (h : decoder.rowOf s.emptyRecord = .error e) : e = .outsideLayout := by
  obtain ⟨hstore, hschema, hempty, -⟩ := Decoder.ofPlan_ok hd
  obtain ⟨-, hkind, hselected⟩ := Decoder.symbol_ofPlan hd
  obtain ⟨-, hs, -, -, hemp, -⟩ := ScanPlan.ofColumns_ok hplan
  rcases Decoder.fault_of_rowOf h with rfl | hfault
  · obtain ⟨dimension, hmem, -⟩ := Decoder.labelAt_of_discarded h
    rw [hempty, hemp] at hmem
    cases hmem
  cases hfault with
  | unlabelled hlt hlabel =>
    rw [hschema, hs] at hlt
    simp [Store.labelAt, hstore, emptyRecord, emptyStore, hlt] at hlabel
  | ambiguous hcolumns hnumber _ hspecial =>
    rw [hstore, isSpecial_emptyRecord] at hspecial
    rw [hschema, hs] at hcolumns
    rw [hselected] at hnumber
    rcases hplain with rfl | hplain
    · cases hspecial
    · exact absurd hnumber (hplain _ _ _ hcolumns)
  | mismatched hne => exact absurd hkind hne
  | narrow => rfl

/-- A stream starts, and delivers the row if the record gives one. -/
theorem start_emptyStore (hplan : ScanPlan.ofColumns 0 s selected [] = .ok plan)
    {decoder : Decoder} (hd : Decoder.ofPlan (s.emptyStore acronym) plan = .ok decoder) :
    ∃ stream slot, RowStream.start (s.emptyStore acronym) .free plan 1 = .ok (stream, slot) ∧
      ∀ row, decoder.rowOf s.emptyRecord = .ok row → some (.row row) ∈ stream.pulls [slot] := by
  obtain ⟨hnr, -, hfiltered, -⟩ := ScanPlan.ofColumns_ok hplan
  have hread : (s.emptyStore acronym).readRaw .free plan.symbol =
      .ok ([.record s.emptyRecord], ⟨true⟩) := by
    rw [hnr]
    rfl
  have hfiltered : ¬plan.filtered = true := by simp [hfiltered]
  refine ⟨⟨plan.schema, .sequential ⟨some [.record s.emptyRecord], decoder⟩⟩, ⟨true⟩, ?_, ?_⟩
  · simp only [RowStream.start, hd, hread, bind, Except.bind, pure, Except.pure, if_neg hfiltered]
  · intro row hrow
    have hrest : SequentialScan.rest decoder [.record s.emptyRecord] = ([row], .completed) := by
      simp [SequentialScan.rest, Reader.rows, hrow, Reader.prepend]
    obtain ⟨reader', d', hadvance, -⟩ :=
      SequentialScan.advance_row (Decoder.agrees_ofPlan hd) hrest
    simp [RowStream.pulls, RowStream.next, SequentialScan.next, hadvance]

end
end Schema

/-! ## Tables that may be opened -/

/-- What is to hold of a table for which plans are opened: whatever the store, no record of the
symbol leads outside the table or the selection, whichever records have been decoded before it, and
every row that is delivered has the width of the table and, in each cell, the type of the column. -/
def Schema.Openable (schema : Schema) : Prop :=
  ∀ (store : Store) (slot slot' : ReaderSlot) (plan : ScanPlan) (capacity : Nat) (stream : RowStream),
    plan.For schema → RowStream.start store slot plan capacity = .ok (stream, slot') →
      ∃ decoder, Decoder.ofPlan store plan = .ok decoder ∧
        (∀ earlier r, ((decoder.after earlier).decode r).1 ≠ .error .outsideLayout) ∧
        ∀ row, Delivered store slot plan (.row row) → row.width = schema.width ∧ row.Typed schema

namespace Schema
variable {schema : Schema}

theorem openable_of_fits (hfits : schema.Fits) : schema.Openable := by
  intro store slot slot' plan capacity stream hplan hstart
  obtain ⟨decoder, -, -, hd, -⟩ := RowStream.brings_start hstart
  refine ⟨decoder, hd, fun earlier r => ?_, fun row hrow => ?_⟩
  · rw [Decoder.decode_after earlier (Decoder.agrees_ofPlan hd)]
    exact rowOf_ne_outsideLayout hplan hd hfits.length_le r
  · obtain ⟨r, hr⟩ := rowOf_of_delivered hd hrow
    exact typed_of_rowOf hplan hd hfits hr

/-- If the table may be opened, the record of the sample store gives a row, and its cells have the
types of their columns. -/
theorem Openable.exists_row (h : schema.Openable) {acronym : Option String} {selected : List Nat}
    {plan : ScanPlan} (hplan : ScanPlan.ofColumns 0 schema selected [] = .ok plan)
    (hplain : acronym = none ∨
      ∀ slot number text, schema.valueColumns slot = some (number, text) →
        plan.selected[number]? ≠ some true) :
    ∃ decoder row, Decoder.ofPlan (schema.emptyStore acronym) plan = .ok decoder ∧
      decoder.rowOf schema.emptyRecord = .ok row ∧ row.Typed schema := by
  obtain ⟨decoder, hd⟩ := @exists_decoder_emptyStore schema acronym selected plan hplan
  obtain ⟨stream, slot, hstart, hdelivers⟩ := start_emptyStore hplan hd
  obtain ⟨decoder', hd', hinside, htyped⟩ := h _ _ _ _ _ _ (.columns hplan) hstart
  obtain rfl := Except.ok.inj (hd.symm.trans hd')
  cases hrow : decoder.rowOf schema.emptyRecord with
  | ok row =>
    exact ⟨decoder, row, hd, hrow, (htyped row (.pulled hstart (hdelivers row hrow))).2⟩
  | error e =>
    obtain rfl := rowOf_emptyRecord hplan hd hplain hrow
    have hdecode := Decoder.decode_after [] (Decoder.agrees_ofPlan hd) schema.emptyRecord
    exact absurd (hdecode.trans hrow) (hinside [] schema.emptyRecord)

theorem Openable.length_le (h : schema.Openable) : schema.layout.length ≤ schema.width := by
  by_contra hnarrow
  have hlt : schema.width < schema.layout.length := Nat.lt_of_not_le hnarrow
  have hplan : ScanPlan.ofColumns 0 schema [] [] = .ok
      { symbol := 0, schema, selected := List.replicate schema.width false,
        filter := List.replicate schema.dimensions "", emptyDimensions := [], filtered := false } :=
    rfl
  obtain ⟨decoder, row, hd, hrow, -⟩ := h.exists_row hplan (.inl rfl)
  obtain ⟨hschema, hlength, hkind⟩ := (ScanPlan.For.columns hplan).decoder_eq hd
  -- the first column that is missing has been looked up all the same
  have hplace := place_of_layout (List.getElem?_eq_getElem hlt)
  generalize schema.layout[schema.width] = type at hplace
  rw [← hschema] at hplace
  obtain ⟨b, hb, -⟩ := Decoder.visits_of_rowOf hkind hrow hplace
  have := (List.getElem?_eq_some_iff.1 hb).1
  rw [hschema] at this
  omega

theorem Openable.fits (h : schema.Openable) : schema.Fits := by
  refine List.prefix_iff_getElem?.2 fun column hlt => ?_
  have hwidth : column < schema.width := Nat.lt_of_lt_of_le hlt h.length_le
  have hlayout := List.getElem?_eq_getElem hlt
  generalize schema.layout[column] = type at hlayout ⊢
  have hplace := place_of_layout hlayout
  have hplan : ScanPlan.ofColumns 0 schema [column] [] = .ok
      { symbol := 0, schema, selected := (List.replicate schema.width false).set column true,
        filter := List.replicate schema.dimensions "", emptyDimensions := [], filtered := false } := by
    simp [ScanPlan.ofColumns, ScanPlan.select, hwidth, bind, Except.bind, pure, Except.pure]
  -- a text is shown for an acronym, a number for a plain value
  obtain ⟨decoder, row, hd, hrow, htyped⟩ :=
    @Openable.exists_row schema h (if type = .text then some "" else none) _ _ hplan (by
      cases htype : type with
      | number => exact .inl rfl
      | text =>
        refine .inr fun slot number text hcolumns hselected => ?_
        have hnumber : number = column := by
          by_contra hne
          rw [List.getElem?_set_ne (Ne.symm hne), List.getElem?_replicate] at hselected
          split at hselected <;> cases hselected
        subst hnumber
        have := layout_of_place (.number hcolumns)
        rw [hlayout, htype] at this
        cases this)
  obtain ⟨hschema, -, hkind⟩ := (ScanPlan.For.columns hplan).decoder_eq hd
  obtain ⟨hstore, -⟩ := Decoder.ofPlan_ok hd
  obtain ⟨-, -, hselected⟩ := Decoder.symbol_ofPlan hd
  have hfills := Decoder.fills_of_rowOf hkind hrow
  obtain ⟨b, hb, hcell⟩ := Decoder.visits_of_rowOf hkind hrow (hschema ▸ hplace)
  have hsome : (row.get? column).isSome := by
    refine hcell ?_ ?_ fun slot => ?_
    · rw [hselected, List.getElem?_set_self (by simpa using hwidth)] at hb
      exact (Option.some.inj hb).symm
    · rw [hfills.width_eq, Row.width_blank, hschema]
      exact hwidth
    · rw [hstore, isSpecial_emptyRecord]
      cases type <;> rfl
  obtain ⟨cell, hcell⟩ := Option.isSome_iff_exists.1 hsome
  have htype := hfills.type_eq hcell
  rw [hschema, hlayout] at htype
  rw [List.getElem?_map, htyped column cell hcell, htype]

/-- The table of a symbol may be opened. -/
theorem openable_ofSymbol (symbol : Symbol) : (ofSymbol symbol).Openable :=
  openable_of_fits (fits_ofSymbol symbol)

/-- **The tables that may be opened** are those whose columns begin with the layout of their kind and
dimensions, and no others: opening a plan compares kind and dimensions with the symbol, and leaves
the columns to whoever made the table. -/
theorem openable_iff_fits (schema : Schema) : schema.Openable ↔ schema.Fits :=
  ⟨Openable.fits, openable_of_fits⟩

/-- A parameter's table that ends behind the dimensions. -/
example : ¬Openable ⟨"p", .parameter, 1, [⟨"i", .text⟩]⟩ := fun h => absurd h.length_le (by decide)

end Schema

end SymbolTables
