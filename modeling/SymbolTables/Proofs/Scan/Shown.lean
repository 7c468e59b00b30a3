import SymbolTables.Proofs.Scan.Cells
import SymbolTables.Proofs.Table.Roles

/-!
# What a record shows

`Store.shown` says what a record has to show in a column, by what the column is for. A decoder fills
the columns in their order, and a row shows the first `n` of them (`ScanPlan.Shows`) when nothing else
is in it.

* `shows_labels`, `discarded_of_discards`: the dimensions, when no label should be empty that is not.
* `shows_slots`: the values, up to the first that is ambiguous.
* `decode_of_labelled`: what becomes of a record with a label in every dimension.
-/
namespace SymbolTables

/-- What a record of the symbol has to show in the column for a role. -/
def Store.shown (store : Store) (s : Symbol) (r : Record) : ColumnRole → Option Cell
  | .label dimension => (store.labelAt r dimension).map .text
  | .element => some (.text ((store.elementText r.values.level.toInt32).getD "Y"))
  | .number slot => (SlotValue.decode store (r.values.get slot)).number?.map .number
  | .special slot => (SlotValue.decode store (r.values.get slot)).text?.map .text
  | .comments => some (.text s.text)

theorem Row.get?_fill (row : Row) (column : Nat) (selected : Bool) (cell : Option Cell) (other : Nat) :
    (row.fill column selected cell).get? other =
      if column = other ∧ other < row.width ∧ selected = true ∧ cell.isSome then cell
      else row.get? other := by
  cases selected <;> cases cell <;> simp [fill, get?_set]

namespace ScanPlan

/-- Whether the column for a role is selected. -/
def selects (p : ScanPlan) (s : Symbol) (role : ColumnRole) : Bool :=
  p.isSelected (s.roles.idxOf role)

/-- The record has a label that should be empty and is not. -/
def Discards (p : ScanPlan) (store : Store) (r : Record) : Prop :=
  ∃ dimension ∈ p.emptyDimensions, ∃ label, store.labelAt r dimension = some label ∧ label ≠ ""

/-- Whether a slot has a special value of which only the number column is selected. -/
def ambiguous (p : ScanPlan) (store : Store) (s : Symbol) (r : Record) (slot : Slot) : Bool :=
  p.selects s (.number slot) && !p.selects s (.special slot) &&
    (SlotValue.decode store (r.values.get slot)).isSpecial

/-- The failure that an ambiguous slot leads to. -/
def ambiguity (s : Symbol) (slot : Slot) : Failure :=
  .ambiguousSpecialValue (s.slotTitle slot) (s.slotTitle slot ++ " (SV)")

/-- The first `n` columns show what the record has to show where they are selected, and there is
nothing in any other column. -/
structure Shows (p : ScanPlan) (store : Store) (s : Symbol) (r : Record) (n : Nat) (row : Row) :
    Prop where
  width : row.width = s.roles.length
  cells : ∀ column role, s.roles[column]? = some role →
    row.get? column = if column < n ∧ p.isSelected column then store.shown s r role else none

/-- The decoder of a plan for the table of a symbol. -/
def decoder (p : ScanPlan) (store : Store) (s : Symbol) : Decoder where
  store := store
  symbol := s
  schema := .ofSymbol s
  selected := p.selected
  emptyDimensions := p.emptyDimensions
  cache := .ofDimensions s.dimensions
  discarded := 0

section
variable {p : ScanPlan} {store : Store} {s : Symbol} {r : Record} {row : Row} {n : Nat}

theorem shows_blank : p.Shows store s r 0 (.blank s.roles.length) where
  width := Row.width_blank _
  cells := fun column role _ => by simp

/-- The next column is filled. -/
theorem Shows.fill (h : p.Shows store s r n row) {role : ColumnRole}
    (hn : s.roles[n]? = some role) :
    p.Shows store s r (n + 1) (row.fill n (p.isSelected n) (store.shown s r role)) where
  width := by
    rw [← h.width]
    unfold Row.fill
    split
    · exact Row.width_set ..
    · rfl
  cells := by
    intro column role' hcolumn
    have hlt : column < row.width := by
      rw [h.width]
      exact (List.getElem?_eq_some_iff.1 hcolumn).1
    rw [Row.get?_fill, h.cells column role' hcolumn]
    by_cases heq : n = column
    · subst heq
      obtain rfl := Option.some.inj (hn.symm.trans hcolumn)
      cases p.isSelected n <;> cases store.shown s r role <;> simp [hlt]
    · have : column < n + 1 ↔ column < n := by omega
      simp [heq, this]

/-! ## The decoder of a plan -/

section
variable (hplan : p.For (.ofSymbol s))
include hplan

theorem ofPlan_decoder (hsymbol : store.symbolInfo p.symbol = .ok s) :
    Decoder.ofPlan store p = .ok (p.decoder store s) := by
  have hschema := hplan.schema_eq.1
  simp [Decoder.ofPlan, hsymbol, hschema, Schema.ofSymbol, decoder, bind, Except.bind, pure,
    Except.pure]

theorem selected_of_roles {column : Nat} {role : ColumnRole}
    (h : s.roles[column]? = some role) :
    (p.decoder store s).selected[column]? = some (p.isSelected column) := by
  have hlt := (List.getElem?_eq_some_iff.1 h).1
  rw [← Symbol.width_ofSymbol, ← hplan.schema_eq.2] at hlt
  rw [decoder, isSelected, List.getElem?_eq_getElem hlt]
  rfl

theorem emptyDimensions_lt : ∀ dimension ∈ p.emptyDimensions, dimension < s.dimensions := by
  obtain ⟨nr, selected, conditions, h⟩ := hplan.exists_ofColumns
  obtain ⟨-, -, -, hdimensions, hempty, -⟩ := ofColumns_ok h
  intro dimension hmem
  exact hdimensions _ ((hempty dimension).1 hmem)

/-! ## Labels -/

theorem labelCell_of_labelAt {dimension : Nat} {label : String} (hdim : dimension < s.dimensions)
    (h : store.labelAt r dimension = some label) :
    (p.decoder store s).labelCell r row dimension =
      if label ≠ "" ∧ dimension ∈ p.emptyDimensions then .error .discarded
      else .ok (row.fill dimension (p.isSelected dimension) (store.shown s r (.label dimension))) := by
  have hselected : (p.decoder store s).selected[dimension]? = some (p.isSelected dimension) :=
    selected_of_roles hplan (Symbol.roles_label hdim)
  obtain ⟨key, hkey, hlabel⟩ := Option.bind_eq_some_iff.1 h
  unfold Decoder.labelCell Decoder.isSelected
  simp only [hkey, hselected]
  have hlabel' : (p.decoder store s).store.label key = some label := hlabel
  have hempty : (p.decoder store s).emptyDimensions = p.emptyDimensions := rfl
  simp only [hlabel', hempty, Store.shown, h, Option.map_some]
  split
  · rfl
  · cases p.isSelected dimension <;> rfl

variable (hlabels : ∀ dimension < s.dimensions, ∃ label, store.labelAt r dimension = some label)
include hlabels

/-- Where no label should be empty that is not, the labels are shown. -/
theorem shows_labels (hkept : ¬p.Discards store r) : ∀ n ≤ s.dimensions, ∃ row,
    (List.range n).foldlM ((p.decoder store s).labelCell r) (.blank s.roles.length) = .ok row ∧
      p.Shows store s r n row
  | 0, _ => ⟨_, rfl, shows_blank⟩
  | n + 1, hn => by
    obtain ⟨row, hrow, hshows⟩ := shows_labels hkept n (by omega)
    obtain ⟨label, hlabel⟩ := hlabels n hn
    have hempty : ¬(label ≠ "" ∧ n ∈ p.emptyDimensions) :=
      fun ⟨hne, hmem⟩ => hkept ⟨n, hmem, label, hlabel, hne⟩
    refine ⟨_, ?_, hshows.fill (Symbol.roles_label hn)⟩
    rw [List.range_succ, List.foldlM_append, hrow]
    simp only [bind, Except.bind, List.foldlM_cons, List.foldlM_nil,
      labelCell_of_labelAt hplan hn hlabel, if_neg hempty, pure, Except.pure]

/-- Where one should be and is not, the record is discarded. -/
theorem discarded_of_discards (hdiscards : p.Discards store r) :
    (List.range s.dimensions).foldlM ((p.decoder store s).labelCell r)
      (.blank s.roles.length) = .error .discarded := by
  obtain ⟨dimension, hmem, label, hlabel, hne⟩ := hdiscards
  have hdim := emptyDimensions_lt hplan dimension hmem
  cases hfold : (List.range s.dimensions).foldlM ((p.decoder store s).labelCell r)
      (.blank s.roles.length) with
  | ok row =>
    -- the step for this dimension has been taken
    obtain ⟨before, after, hstep⟩ := foldlM_ok_step hfold dimension (List.mem_range.2 hdim)
    rw [labelCell_of_labelAt hplan hdim hlabel, if_pos ⟨hne, hmem⟩] at hstep
    cases hstep
  | error e =>
    obtain ⟨other, hother, before, hstep⟩ := foldlM_error_step hfold
    have hother := List.mem_range.1 hother
    obtain ⟨label', hlabel'⟩ := hlabels other hother
    rw [labelCell_of_labelAt hplan hother hlabel'] at hstep
    split at hstep
    · exact congrArg _ (Except.error.inj hstep).symm
    · cases hstep

omit hlabels

/-! ## Values -/

/-- A slot is shown in both of its columns, or it is ambiguous. -/
theorem slotCells_of_roles {slot : Slot} {number : Nat}
    (hcolumns : (Schema.ofSymbol s).valueColumns slot = some (number, number + 1))
    (hnumber : s.roles[number]? = some (.number slot))
    (hspecial : s.roles[number + 1]? = some (.special slot)) :
    (p.decoder store s).slotCells r row slot =
      if p.ambiguous store s r slot then .error (.failed (ambiguity s slot))
      else .ok ((row.fill number (p.isSelected number) (store.shown s r (.number slot))).fill
        (number + 1) (p.isSelected (number + 1)) (store.shown s r (.special slot))) := by
  have hname : ∀ {column : Nat} {role : ColumnRole}, s.roles[column]? = some role →
      (p.decoder store s).columnName column = .ok (s.column role).name := by
    intro column role hrole
    simp [Decoder.columnName, decoder, Symbol.columns_ofSymbol, hrole]
  have hselected : ∀ {column : Nat} {role : ColumnRole}, s.roles[column]? = some role →
      (p.decoder store s).isSelected column = .ok (p.isSelected column) := by
    intro column role hrole
    simp [Decoder.isSelected, selected_of_roles hplan hrole]
  have hschema : (p.decoder store s).schema = .ofSymbol s := rfl
  have hstore : (p.decoder store s).store = store := rfl
  unfold Decoder.slotCells ambiguous selects
  rw [Symbol.idxOf_roles hnumber, Symbol.idxOf_roles hspecial, hschema, hcolumns, hstore]
  simp only [hselected hnumber, hselected hspecial, hname hnumber, hname hspecial, bind, Except.bind,
    Store.shown]
  cases p.isSelected number <;> cases p.isSelected (number + 1) <;>
    cases SlotValue.decode store (r.values.get slot) <;> rfl

/-- The slots of a list are shown one after the other, up to the first that is ambiguous. -/
theorem shows_slots : ∀ (slots : List Slot) {n : Nat} {row : Row},
    (∀ i slot, slots[i]? = some slot →
      (Schema.ofSymbol s).valueColumns slot = some (n + 2 * i, n + 2 * i + 1) ∧
        s.roles[n + 2 * i]? = some (.number slot) ∧
        s.roles[n + 2 * i + 1]? = some (.special slot)) →
    p.Shows store s r n row →
    match slots.find? (p.ambiguous store s r) with
    | some slot => slots.foldlM ((p.decoder store s).slotCells r) row =
        .error (.failed (ambiguity s slot))
    | none => ∃ row', slots.foldlM ((p.decoder store s).slotCells r) row = .ok row' ∧
        p.Shows store s r (n + 2 * slots.length) row'
  | [], n, row, _, h => ⟨row, rfl, h⟩
  | slot :: rest, n, row, hroles, h => by
    obtain ⟨hcolumns, hnumber, hspecial⟩ := hroles 0 slot rfl
    have hstep : (p.decoder store s).slotCells r row slot = _ :=
      slotCells_of_roles hplan hcolumns hnumber hspecial
    rw [List.foldlM_cons, List.find?_cons]
    cases hambiguous : p.ambiguous store s r slot with
    | true => rw [hstep, hambiguous]; rfl
    | false =>
      have hrest := shows_slots rest (n := n + 2) (fun i slot hi => by
        have := hroles (i + 1) slot hi
        rwa [Nat.mul_succ, ← Nat.add_assoc, Nat.add_right_comm] at this)
        ((h.fill hnumber).fill hspecial)
      rw [hambiguous] at hstep
      simp only [hstep, bind, Except.bind, Bool.false_eq_true, if_false]
      rw [List.length_cons, Nat.mul_succ, Nat.add_comm (2 * rest.length), ← Nat.add_assoc]
      exact hrest

/-- A set has one column behind the dimensions. -/
theorem valueCells_of_set (hkind : s.kind = .set) :
    (p.decoder store s).valueCells r row =
      .ok (row.fill s.dimensions (p.isSelected s.dimensions) (store.shown s r .element)) := by
  have hrole := (Symbol.roles_element hkind).1
  have hdecoder : (p.decoder store s).symbol.kind = .set := hkind
  have hdimensions : (p.decoder store s).schema.dimensions = s.dimensions := rfl
  unfold Decoder.valueCells
  rw [hdecoder, hdimensions]
  simp only [Decoder.isSelected, selected_of_roles hplan hrole]
  cases p.isSelected s.dimensions <;> rfl

/-- A parameter has a slot, and behind it the comments if it has a text and no dimensions. -/
theorem valueCells_of_parameter (hkind : s.kind = .parameter) :
    (p.decoder store s).valueCells r row = ((p.decoder store s).slotCells r row .level).map fun row =>
      if s.domains = [] ∧ s.text ≠ "" then
        row.fill (s.dimensions + 2) (p.isSelected (s.dimensions + 2)) (store.shown s r .comments)
      else row := by
  have hdecoder : (p.decoder store s).symbol.kind = .parameter := hkind
  have hschema : (p.decoder store s).schema = .ofSymbol s := rfl
  unfold Decoder.valueCells
  rw [hdecoder, hschema]
  simp only [bind, Except.bind, Symbol.commentsColumn_of_parameter hkind]
  cases (p.decoder store s).slotCells r row .level with
  | error e => rfl
  | ok row =>
    by_cases hnote : s.domains = [] ∧ s.text ≠ ""
    · have hrole := (Symbol.roles_comments hkind hnote).1
      simp only [if_pos hnote, Decoder.isSelected, selected_of_roles hplan hrole]
      cases p.isSelected (s.dimensions + 2) <;> simp only [Except.map] <;> rfl
    · simp only [if_neg hnote, Except.map]
      rfl

/-- What is behind the dimensions is shown, up to the first slot that is ambiguous. -/
theorem shows_values (h : p.Shows store s r s.dimensions row) :
    match s.slots.find? (p.ambiguous store s r) with
    | some slot => (p.decoder store s).valueCells r row = .error (.failed (ambiguity s slot))
    | none => ∃ row', (p.decoder store s).valueCells r row = .ok row' ∧
        p.Shows store s r s.roles.length row' := by
  have hslots := shows_slots hplan s.slots (fun _ _ hi => Symbol.roles_slot hi) h
  cases hkind : s.kind with
  | set =>
    obtain ⟨hrole, hcount⟩ := Symbol.roles_element hkind
    have hnone : s.slots.find? (p.ambiguous store s r) = none := by simp [Symbol.slots, hkind]
    rw [hnone, hcount]
    exact ⟨_, valueCells_of_set hplan hkind, h.fill hrole⟩
  | parameter =>
    have hslotList : s.slots = [.level] := by simp [Symbol.slots, hkind]
    have hfold : [Slot.level].foldlM ((p.decoder store s).slotCells r) row =
        (p.decoder store s).slotCells r row .level := by simp
    rw [hslotList, hfold] at hslots
    rw [hslotList, valueCells_of_parameter hplan hkind]
    cases hfind : [Slot.level].find? (p.ambiguous store s r) with
    | some slot =>
      rw [hfind] at hslots
      simp only [hslots]
      rfl
    | none =>
      rw [hfind] at hslots
      obtain ⟨levels, hlevels, hshown⟩ := hslots
      rw [hlevels]
      refine ⟨_, rfl, ?_⟩
      by_cases hnote : s.domains = [] ∧ s.text ≠ ""
      · obtain ⟨hrole, hcount⟩ := Symbol.roles_comments hkind hnote
        simp only [hcount, if_pos hnote]
        exact hshown.fill hrole
      · have hcount : s.roles.length = s.dimensions + 2 := by
          simp [Symbol.roles, Symbol.valueRoles_of_parameter hkind, hnote]
        simp only [hcount, if_neg hnote]
        exact hshown
  | var | equation =>
    have hslotList : s.slots = Slot.all := by simp [Symbol.slots, hkind]
    have hcount : s.roles.length = s.dimensions + 2 * s.slots.length := by
      simp [Symbol.roles, Symbol.valueRoles, Symbol.slots, hkind, Slot.all]
    have hdecoder : (p.decoder store s).symbol.kind = s.kind := rfl
    unfold Decoder.valueCells
    rw [hdecoder, hkind, hcount, ← hslotList]
    exact hslots

end
end
end ScanPlan

/-! ## Records -/

namespace Decoder

section
variable {d : Decoder} {r : Record}

theorem discarded_decode (h : (d.decode r).1 = .error .discarded) :
    (d.decode r).2.discarded = d.discarded + 1 := by
  unfold decode at h ⊢
  split at h
  · rfl
  · rename_i hother _
    exact (hother (Except.error.inj h)).elim
  · exact absurd rfl (fault_of_valueCells h).ne_discarded

theorem discarded_decode_of_ne (h : (d.decode r).1 ≠ .error .discarded) :
    (d.decode r).2.discarded = d.discarded := by
  unfold decode at h ⊢
  split at h
  · exact absurd rfl h
  · rfl
  · rfl

end

/-- **What becomes of a record.** A plan for the table of its symbol has a decoder, and whatever has
been decoded before, a record with a label in every dimension is discarded and counted when a label
should be empty and is not. Otherwise the first slot with a special value of which only the number
column is selected makes it fail, and where there is none it gives a row as wide as the table, in which
every selected column shows what the record has to show there and every other column is absent. -/
theorem decode_of_labelled {store : Store} {plan : ScanPlan} {symbol : Symbol}
    (hsymbol : store.symbolInfo plan.symbol = .ok symbol) (hplan : plan.For (.ofSymbol symbol)) :
    plan.schema.columns = symbol.roles.map symbol.column ∧
    ∃ decoder, ofPlan store plan = .ok decoder ∧ ∀ (earlier : List Record) (r : Record),
      (∀ dimension < symbol.dimensions, ∃ label, store.labelAt r dimension = some label) →
      (plan.Discards store r →
        ((decoder.after earlier).decode r).1 = .error .discarded ∧
          ((decoder.after earlier).decode r).2.discarded = (decoder.after earlier).discarded + 1) ∧
      (¬plan.Discards store r →
        ((decoder.after earlier).decode r).2.discarded = (decoder.after earlier).discarded ∧
        match symbol.slots.find? (plan.ambiguous store symbol r) with
        | some slot =>
          ((decoder.after earlier).decode r).1 = .error (.failed (ScanPlan.ambiguity symbol slot))
        | none => ∃ row, ((decoder.after earlier).decode r).1 = .ok row ∧
          row.width = plan.schema.width ∧
          ∀ column role, symbol.roles[column]? = some role →
            row.get? column =
              if plan.isSelected column then store.shown symbol r role else none) := by
  have hschema := hplan.schema_eq.1
  have hd := ScanPlan.ofPlan_decoder hplan hsymbol
  have hwidth := symbol.width_ofSymbol
  refine ⟨by rw [hschema, Symbol.columns_ofSymbol], plan.decoder store symbol, hd,
    fun earlier r hlabels => ?_⟩
  have hdecode := decode_after earlier (agrees_ofPlan hd) r
  have hblank : (plan.decoder store symbol).schema.width = symbol.roles.length := hwidth
  have hdimensions : (plan.decoder store symbol).schema.dimensions = symbol.dimensions := rfl
  refine ⟨fun hdiscards => ?_, fun hkept => ?_⟩
  · have hrow : (plan.decoder store symbol).rowOf r = .error .discarded := by
      unfold rowOf
      rw [hblank, hdimensions, ScanPlan.discarded_of_discards hplan hlabels hdiscards]
    exact ⟨hdecode.trans hrow, discarded_decode (hdecode.trans hrow)⟩
  · obtain ⟨labelled, hfold, hshown⟩ :=
      ScanPlan.shows_labels hplan hlabels hkept symbol.dimensions (Nat.le_refl _)
    have hrow : (plan.decoder store symbol).rowOf r =
        (plan.decoder store symbol).valueCells r labelled := by
      unfold rowOf
      rw [hblank, hdimensions, hfold]
    have hvalues := ScanPlan.shows_values hplan hshown
    rw [← hrow, ← hdecode] at hvalues
    cases hfind : symbol.slots.find? (plan.ambiguous store symbol r) with
    | some slot =>
      rw [hfind] at hvalues
      exact ⟨discarded_decode_of_ne (by rw [hvalues]; nofun), hvalues⟩
    | none =>
      rw [hfind] at hvalues
      obtain ⟨row, hok, hshows⟩ := hvalues
      refine ⟨discarded_decode_of_ne (by rw [hok]; nofun), row, hok, ?_, fun column role hrole => ?_⟩
      · rw [hschema, hwidth, hshows.width]
      · have hlt := (List.getElem?_eq_some_iff.1 hrole).1
        simp [hshows.cells column role hrole, hlt]

/-- A shipment over two dimensions, in a store with the labels `a` and the empty one, in which an
infinite number is an acronym. -/
def shipment : Symbol := ⟨"x", .var, ["i", "j"], "", 3⟩

def shipmentStore : Store where
  locator := "sample"
  symbols := [shipment]
  label := fun key => if key = 1 then some "a" else if key = 2 then some "" else none
  elementText := fun _ => none
  acronymName := fun x => if x = .infinity then some "open" else none
  start := fun _ => .ok []

/-- The first dimension, the level without its special values, the marginal with them, and the special
values of the lower bound alone, where the second dimension is empty. -/
def shipmentPlan : ScanPlan where
  symbol := 0
  schema := .ofSymbol shipment
  selected := [true, false, true, false, true, true, false, true, false, false, false, false]
  filter := ["", ""]
  emptyDimensions := [1]
  filtered := true

/-- An acronym as the marginal, and a special value as the lower bound. -/
def shipmentValues : Slots :=
  { Slots.ofLevel .zero with marginal := .infinity, lower := SpecialValue.epsilon.stored }

/-- A record with a label in the second dimension, one with a special level, and one with values that
are shown as texts. -/
theorem decode_of_labelled_sample :
    shipmentStore.symbolInfo shipmentPlan.symbol = .ok shipment ∧
    shipmentPlan.For (.ofSymbol shipment) ∧
    ∃ decoder, ofPlan shipmentStore shipmentPlan = .ok decoder ∧
      (decoder.decode ⟨[1, 1], .ofLevel .zero⟩).1 = .error .discarded ∧
      ((decoder.after [⟨[1, 1], .ofLevel .zero⟩]).decode ⟨[1, 2], .ofLevel .infinity⟩).1 =
        .error (.failed (.ambiguousSpecialValue "Level" "Level (SV)")) ∧
      ∃ row, ((decoder.after [⟨[1, 1], .ofLevel .zero⟩]).decode ⟨[1, 2], shipmentValues⟩).1 =
          .ok row ∧
        row.get? 0 = some (.text "a") ∧ row.get? 2 = some (.number .zero) ∧ row.get? 4 = none ∧
        row.get? 5 = some (.text "open") ∧ row.get? 6 = none ∧ row.get? 7 = some (.text "Eps") := by
  have hplan : shipmentPlan.For (.ofSymbol shipment) :=
    @ScanPlan.For.columns _ _ 0 [0, 2, 4, 5, 7] [⟨1, ""⟩] rfl
  have hsymbol : shipmentStore.symbolInfo shipmentPlan.symbol = .ok shipment := rfl
  obtain ⟨-, decoder, hd, hdecode⟩ := decode_of_labelled hsymbol hplan
  have hlabels : ∀ {key label values}, shipmentStore.label key = some label →
      ∀ dimension < shipment.dimensions,
        ∃ label, shipmentStore.labelAt ⟨[1, key], values⟩ dimension = some label := by
    intro key label values hlabel dimension hlt
    match dimension, hlt with
    | 0, _ => exact ⟨"a", rfl⟩
    | 1, _ => exact ⟨label, hlabel⟩
  have hkept : ∀ values, ¬shipmentPlan.Discards shipmentStore ⟨[1, 2], values⟩ := by
    rintro values ⟨dimension, hmem, label, hlabel, hne⟩
    obtain rfl := List.mem_singleton.1 hmem
    exact hne (Option.some.inj hlabel).symm
  have hambiguous := (hdecode [⟨[1, 1], .ofLevel .zero⟩] ⟨[1, 2], .ofLevel .infinity⟩
    (hlabels rfl)).2 (hkept _)
  have hshown := (hdecode [⟨[1, 1], .ofLevel .zero⟩] ⟨[1, 2], shipmentValues⟩
    (hlabels rfl)).2 (hkept _)
  have hplain : shipment.slots.find? (shipmentPlan.ambiguous shipmentStore shipment
      ⟨[1, 2], shipmentValues⟩) = none := by
    decide +kernel
  rw [hplain] at hshown
  obtain ⟨-, row, hrow, -, hcells⟩ := hshown
  -- what the record has to show in each of the columns
  have hlabel : shipmentStore.shown shipment ⟨[1, 2], shipmentValues⟩ (.label 0) =
      some (.text "a") := by decide +kernel
  have hlevel : shipmentStore.shown shipment ⟨[1, 2], shipmentValues⟩ (.number .level) =
      some (.number .zero) := by decide +kernel
  have hacronym : shipmentStore.shown shipment ⟨[1, 2], shipmentValues⟩ (.special .marginal) =
      some (.text "open") := by decide +kernel
  have hnoNumber : shipmentStore.shown shipment ⟨[1, 2], shipmentValues⟩ (.number .marginal) =
      none := by decide +kernel
  have hspecial : shipmentStore.shown shipment ⟨[1, 2], shipmentValues⟩ (.special .lower) =
      some (.text "Eps") := by decide +kernel
  have hselected : ∀ column ∈ [0, 2, 4, 5, 7], shipmentPlan.isSelected column = true := by decide
  refine ⟨rfl, hplan, decoder, hd, ?_, hambiguous.2, row, hrow, ?_, ?_, ?_, ?_, ?_, ?_⟩
  · exact ((hdecode [] ⟨[1, 1], .ofLevel .zero⟩ (hlabels rfl)).1
      ⟨1, List.mem_singleton_self 1, "a", rfl, by decide⟩).1
  · rw [hcells 0 (.label 0) rfl, if_pos (hselected 0 (by decide)), hlabel]
  · rw [hcells 2 (.number .level) rfl, if_pos (hselected 2 (by decide)), hlevel]
  · rw [hcells 4 (.number .marginal) rfl, if_pos (hselected 4 (by decide)), hnoNumber]
  · rw [hcells 5 (.special .marginal) rfl, if_pos (hselected 5 (by decide)), hacronym]
  · have hleftOut : ¬shipmentPlan.isSelected 6 = true := by decide
    rw [hcells 6 (.number .lower) rfl, if_neg hleftOut]
  · rw [hcells 7 (.special .lower) rfl, if_pos (hselected 7 (by decide)), hspecial]

end Decoder
end SymbolTables
