import SymbolTables.Proofs.Except
import SymbolTables.Proofs.Scan.LabelCache
import SymbolTables.Proofs.Table.Layout
import SymbolTables.Scan.Decoder

/-!
# Decoding does not depend on the records before

A decoder carries a cache of labels from record to record. The cache only ever holds labels that the
store gives (`LabelCache.Agrees`), so the labels of a record are filled in as `labelCell` does it,
straight from the store (`labels_eq`), and what becomes of a record is `rowOf`, in which no cache
occurs (`decode_fst`).

`labelAt` is the label of a record in a dimension. A record that gives a row has a label in every
dimension, an empty one where the plan wants it empty (`labelAt_of_rowOf`); a record that is
discarded has a label there that is not empty (`labelAt_of_discarded`).
-/
namespace SymbolTables

/-- The label of a record in a dimension. -/
def Store.labelAt (s : Store) (r : Record) (dimension : Nat) : Option String :=
  r.keys[dimension]?.bind s.label

namespace Decoder

/-! ## Labels -/

/-- Fill in the label of one dimension, straight from the store. -/
def labelCell (d : Decoder) (r : Record) (row : Row) (dimension : Nat) : Except NoRow Row :=
  match r.keys[dimension]? with
  | none => .error (.failed (missingKeys d.store.locator d.symbol.name))
  | some key =>
    match d.store.label key with
    | none => .error (.failed (LabelCache.unknownKey d.store.locator dimension key))
    | some label =>
      if label ≠ "" ∧ dimension ∈ d.emptyDimensions then .error .discarded
      else match d.isSelected dimension with
        | .error e => .error e
        | .ok true => .ok (row.set dimension (.text label))
        | .ok false => .ok row

/-- Labels come out of a cache as they come out of the store. -/
theorem labels_eq (d : Decoder) (r : Record) (dimensions : List Nat) :
    ∀ {c : LabelCache} (row : Row), c.Agrees d.store →
      (d.labels r dimensions c row).1 = dimensions.foldlM (d.labelCell r) row ∧
        (d.labels r dimensions c row).2.Agrees d.store := by
  induction dimensions with
  | nil => intro c row hc; exact ⟨rfl, hc⟩
  | cons dimension rest ih =>
    intro c row hc
    rw [List.foldlM_cons]
    unfold labels labelCell
    cases r.keys[dimension]? with
    | none => exact ⟨rfl, hc⟩
    | some key =>
      obtain ⟨hr, ha⟩ := LabelCache.resolve_eq hc dimension key
      simp only
      generalize c.resolve d.store dimension key = a at hr ha ⊢
      obtain ⟨answer, c'⟩ := a
      simp only at hr ha
      subst hr
      cases d.store.label key with
      | none => exact ⟨rfl, ha⟩
      | some label =>
        simp only
        split
        · exact ⟨rfl, ha⟩
        · cases d.isSelected dimension with
          | error e => exact ⟨rfl, ha⟩
          | ok b => cases b <;> exact ih _ ha

theorem isSelected_error {d : Decoder} {column : Nat} {e : NoRow}
    (h : d.isSelected column = .error e) : e = .outsideLayout ∧ d.selected.length ≤ column := by
  unfold isSelected at h
  split at h
  · cases h
  · rename_i hnone
    cases h
    exact ⟨rfl, List.getElem?_eq_none_iff.1 hnone⟩

theorem isSelected_ok {d : Decoder} {column : Nat} {b : Bool} (h : d.isSelected column = .ok b) :
    d.selected[column]? = some b := by
  unfold isSelected at h
  split at h
  · rename_i hb
    cases h
    exact hb
  · cases h

theorem columnName_error {d : Decoder} {column : Nat} {e : NoRow}
    (h : d.columnName column = .error e) : e = .outsideLayout ∧ d.schema.width ≤ column := by
  unfold columnName at h
  split at h
  · cases h
  · rename_i hnone
    cases h
    exact ⟨rfl, List.getElem?_eq_none_iff.1 hnone⟩

theorem labelAt_of_labelCell {d : Decoder} {r : Record} {row row' : Row} {dimension : Nat}
    (h : d.labelCell r row dimension = .ok row') :
    ∃ label, d.store.labelAt r dimension = some label ∧
      (dimension ∈ d.emptyDimensions → label = "") := by
  unfold labelCell at h
  cases hk : r.keys[dimension]? with
  | none => rw [hk] at h; cases h
  | some key =>
    cases hl : d.store.label key with
    | none => simp only [hk, hl] at h; cases h
    | some label =>
      simp only [hk, hl] at h
      split at h
      · cases h
      · rename_i hn
        refine ⟨label, by simp only [Store.labelAt, hk, Option.bind_some, hl], fun he => ?_⟩
        exact Decidable.byContradiction fun hne => hn ⟨hne, he⟩

theorem labelAt_of_labelCell_discarded {d : Decoder} {r : Record} {row : Row} {dimension : Nat}
    (h : d.labelCell r row dimension = .error .discarded) :
    dimension ∈ d.emptyDimensions ∧
      ∃ label, d.store.labelAt r dimension = some label ∧ label ≠ "" := by
  unfold labelCell at h
  cases hk : r.keys[dimension]? with
  | none => rw [hk] at h; cases h
  | some key =>
    cases hl : d.store.label key with
    | none => simp only [hk, hl] at h; cases h
    | some label =>
      simp only [hk, hl] at h
      split at h
      · rename_i hn
        exact ⟨hn.2, label, by simp only [Store.labelAt, hk, Option.bind_some, hl], hn.1⟩
      · cases hs : d.isSelected dimension with
        | error e => rw [hs] at h; cases h; cases (isSelected_error hs).1
        | ok b => rw [hs] at h; cases b <;> cases h

/-! ## Faults -/

/-- A column that the records of the table's kind have a cell in is not there. -/
def Narrow (d : Decoder) : Prop :=
  d.selected.length < d.schema.layout.length ∨ d.schema.width < d.schema.layout.length

/-- Why a record gives no row although it is not discarded. -/
inductive Fault (d : Decoder) (r : Record) : NoRow → Prop
  /-- The record has no label in a dimension. -/
  | unlabelled {dimension : Nat} {f : Failure} (dimension_lt : dimension < d.schema.dimensions)
      (label : d.store.labelAt r dimension = none) (kind : f.kind = .storage) : Fault d r (.failed f)
  /-- A special value whose number column is selected and whose text column is not. -/
  | ambiguous {slot : Slot} {number text : Nat} {numberName textName : String}
      (columns : d.schema.valueColumns slot = some (number, text))
      (selected : d.selected[number]? = some true) (unselected : d.selected[text]? = some false)
      (special : (SlotValue.decode d.store (r.values.get slot)).isSpecial = true) :
      Fault d r (.failed (.ambiguousSpecialValue numberName textName))
  /-- The table is one of another kind. -/
  | mismatched {f : Failure} (kind : d.symbol.kind ≠ d.schema.kind) : Fault d r (.failed f)
  | narrow (narrow : d.Narrow) : Fault d r .outsideLayout

section
variable {d : Decoder} {r : Record} {row : Row} {e : NoRow}

theorem Fault.ne_discarded (h : d.Fault r e) : e ≠ .discarded := by
  cases h <;> nofun

theorem fault_of_isSelected {column : Nat} (hc : column < d.schema.layout.length)
    (h : d.isSelected column = .error e) : d.Fault r e := by
  obtain ⟨rfl, hle⟩ := isSelected_error h
  exact .narrow (.inl (Nat.lt_of_le_of_lt hle hc))

theorem fault_of_columnName {column : Nat} (hc : column < d.schema.layout.length)
    (h : d.columnName column = .error e) : d.Fault r e := by
  obtain ⟨rfl, hle⟩ := columnName_error h
  exact .narrow (.inr (Nat.lt_of_le_of_lt hle hc))

theorem fault_of_labelCell {dimension : Nat} (hdim : dimension < d.schema.dimensions)
    (h : d.labelCell r row dimension = .error e) : e = .discarded ∨ d.Fault r e := by
  unfold labelCell at h
  cases hk : r.keys[dimension]? with
  | none =>
    rw [hk] at h
    cases h
    exact .inr (.unlabelled hdim (by simp only [Store.labelAt, hk, Option.bind_none]) rfl)
  | some key =>
    cases hl : d.store.label key with
    | none =>
      simp only [hk, hl] at h
      cases h
      exact .inr (.unlabelled hdim (by simp only [Store.labelAt, hk, Option.bind_some, hl]) rfl)
    | some label =>
      simp only [hk, hl] at h
      split at h
      · cases h
        exact .inl rfl
      · cases hs : d.isSelected dimension with
        | error e' =>
          rw [hs] at h
          cases h
          have hc := Nat.lt_trans hdim (Schema.dimensions_lt_length d.schema)
          exact .inr (fault_of_isSelected hc hs)
        | ok b => rw [hs] at h; cases b <;> cases h

theorem fault_of_slotCells {slot : Slot}
    (hslot : d.schema.valueColumns slot = none → d.symbol.kind ≠ d.schema.kind)
    (h : d.slotCells r row slot = .error e) : d.Fault r e := by
  unfold slotCells at h
  split at h
  · rename_i hnone
    cases h
    exact .mismatched (hslot hnone)
  · rename_i number text hcolumns
    have hnumber := (Schema.Place.number hcolumns).lt
    have htext := (Schema.Place.special hcolumns).lt
    rcases bind_eq_error_iff.1 h with hn | ⟨numberSelected, hn, h⟩
    · exact fault_of_isSelected hnumber hn
    rcases bind_eq_error_iff.1 h with ht | ⟨textSelected, ht, h⟩
    · exact fault_of_isSelected htext ht
    split at h
    · cases h
    rename_i hsome
    dsimp only at h
    split at h
    · rename_i hspecial
      rcases bind_eq_error_iff.1 h with hname | ⟨numberName, -, h⟩
      · exact fault_of_columnName hnumber hname
      rcases bind_eq_error_iff.1 h with hname | ⟨textName, -, h⟩
      · exact fault_of_columnName htext hname
      cases h
      simp only [Bool.and_eq_true, Bool.not_eq_true'] at hspecial
      obtain ⟨hspecial, rfl⟩ := hspecial
      obtain rfl : numberSelected = true := by simpa using hsome
      exact .ambiguous hcolumns (isSelected_ok hn) (isSelected_ok ht) hspecial
    · split at h <;> cases h

theorem fault_of_valueCells (h : d.valueCells r row = .error e) : d.Fault r e := by
  unfold valueCells at h
  cases hkind : d.symbol.kind with
  | set =>
    simp only [hkind] at h
    rcases bind_eq_error_iff.1 h with hs | ⟨b, hs, h⟩
    · exact fault_of_isSelected d.schema.dimensions_lt_length hs
    · cases b <;> cases h
  | parameter =>
    simp only [hkind] at h
    rcases bind_eq_error_iff.1 h with hs | ⟨row', hs, h⟩
    · refine fault_of_slotCells (fun hnone heq => ?_) hs
      exact Schema.valueColumns_ne_none (by simp [← heq, hkind]) (fun _ => rfl) hnone
    split at h
    · cases h
    · rename_i column hcomments
      rcases bind_eq_error_iff.1 h with hc | ⟨b, hc, h⟩
      · exact fault_of_isSelected (Schema.Place.comments hcomments).lt hc
      · cases b <;> cases h
  | var | equation =>
    simp only [hkind] at h
    obtain ⟨slot, -, row', hs⟩ := foldlM_error_step h
    refine fault_of_slotCells (fun hnone heq => ?_) hs
    exact Schema.valueColumns_ne_none (by simp [← heq, hkind]) (by simp [← heq, hkind]) hnone

end

/-! ## Records -/

/-- What becomes of a record. -/
def rowOf (d : Decoder) (r : Record) : Except NoRow Row :=
  match (List.range d.schema.dimensions).foldlM (d.labelCell r) (.blank d.schema.width) with
  | .error e => .error e
  | .ok row => d.valueCells r row

/-- Decoding gives what becomes of the record, whatever has been decoded before. -/
theorem decode_fst {d : Decoder} (h : d.cache.Agrees d.store) (r : Record) :
    (d.decode r).1 = d.rowOf r := by
  unfold rowOf
  rw [← (labels_eq d r _ _ h).1]
  unfold decode
  split <;> rename_i hl <;> rw [hl]

theorem agrees_decode {d : Decoder} (h : d.cache.Agrees d.store) (r : Record) :
    (d.decode r).2.cache.Agrees (d.decode r).2.store := by
  have ha := (labels_eq d r (List.range d.schema.dimensions) (.blank d.schema.width) h).2
  unfold decode
  split <;> rename_i hl <;> rw [hl] at ha <;> exact ha

/-- Decoding changes the cache and the count of discarded records, and nothing that `rowOf` reads.
-/
theorem rowOf_decode (d : Decoder) (r : Record) : (d.decode r).2.rowOf = d.rowOf := by
  unfold decode; split <;> rfl

/-- A decoder for a plan reads the plan's store and fills in the plan's table, from a new cache. -/
theorem ofPlan_ok {store : Store} {plan : ScanPlan} {d : Decoder}
    (h : ofPlan store plan = .ok d) :
    d.store = store ∧ d.schema = plan.schema ∧ d.emptyDimensions = plan.emptyDimensions ∧
      d.cache = .ofDimensions d.symbol.dimensions := by
  unfold ofPlan at h
  cases hs : store.symbolInfo plan.symbol with
  | error f => rw [hs] at h; cases h
  | ok symbol =>
    rw [hs] at h
    simp only [bind, Except.bind] at h
    split at h
    · cases h
    · cases h; exact ⟨rfl, rfl, rfl, rfl⟩

/-- The symbol of a decoder is the one that its plan reads, and its kind is that of the table. -/
theorem symbol_ofPlan {store : Store} {plan : ScanPlan} {d : Decoder}
    (h : ofPlan store plan = .ok d) :
    store.symbolInfo plan.symbol = .ok d.symbol ∧ d.symbol.kind = d.schema.kind ∧
      d.selected = plan.selected := by
  unfold ofPlan at h
  obtain ⟨symbol, hs, h⟩ := bind_eq_ok_iff.1 h
  split at h
  · cases h
  · rename_i hmatch
    cases h
    exact ⟨hs, Decidable.byContradiction fun hne => hmatch (.inl hne), rfl⟩

theorem agrees_ofPlan {store : Store} {plan : ScanPlan} {d : Decoder}
    (h : ofPlan store plan = .ok d) : d.cache.Agrees d.store := by
  rw [(ofPlan_ok h).2.2.2]; exact LabelCache.agrees_ofDimensions _ _

/-- A record that gives a row has a label in every dimension, empty where it has to be. -/
theorem labelAt_of_rowOf {d : Decoder} {r : Record} {row : Row} (h : d.rowOf r = .ok row)
    {dimension : Nat} (hdim : dimension < d.schema.dimensions) :
    ∃ label, d.store.labelAt r dimension = some label ∧
      (dimension ∈ d.emptyDimensions → label = "") := by
  unfold rowOf at h
  split at h
  · cases h
  · rename_i hl
    obtain ⟨row₁, row₂, hc⟩ := foldlM_ok_step hl dimension (List.mem_range.2 hdim)
    exact labelAt_of_labelCell hc

/-- A record that gives no row is discarded, or there is a fault. -/
theorem fault_of_rowOf {d : Decoder} {r : Record} {e : NoRow} (h : d.rowOf r = .error e) :
    e = .discarded ∨ d.Fault r e := by
  unfold rowOf at h
  split at h
  · rename_i hl
    cases h
    obtain ⟨dimension, hdim, row, hc⟩ := foldlM_error_step hl
    exact fault_of_labelCell (List.mem_range.1 hdim) hc
  · exact .inr (fault_of_valueCells h)

/-- A record that is discarded has a label that should be empty and is not. -/
theorem labelAt_of_discarded {d : Decoder} {r : Record} (h : d.rowOf r = .error .discarded) :
    ∃ dimension ∈ d.emptyDimensions, ∃ label, d.store.labelAt r dimension = some label ∧
      label ≠ "" := by
  unfold rowOf at h
  split at h
  · rename_i hl
    simp only [Except.error.injEq] at h; subst h
    obtain ⟨dimension, -, row, hc⟩ := foldlM_error_step hl
    exact ⟨dimension, labelAt_of_labelCell_discarded hc⟩
  · exact absurd rfl (fault_of_valueCells h).ne_discarded

end Decoder
end SymbolTables
