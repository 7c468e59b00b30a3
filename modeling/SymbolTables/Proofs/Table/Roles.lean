import Mathlib.Data.List.Nodup
import SymbolTables.Proofs.Table.Columns

/-!
# What the columns of a symbol are for

`Symbol.roles` says of every column of a symbol's table what it is for, without any arithmetic on
column numbers.

* `columns_ofSymbol`: the table has a column for each of them, in this order.
* `nodup_roles`: no two columns are for the same.
* `roles_slot`: the columns that are looked up for a slot are those for its number and for its
  special values.
-/
namespace SymbolTables

/-- What a column is for. -/
inductive ColumnRole
  | label (dimension : Nat)
  /-- The text of a set element. -/
  | element
  /-- The plain number in a slot. -/
  | number (slot : Slot)
  /-- What a special value in a slot stands for. -/
  | special (slot : Slot)
  /-- The text of a scalar. -/
  | comments
deriving DecidableEq

namespace Symbol

/-- The slots that hold values of the symbol. -/
def slots (s : Symbol) : List Slot :=
  match s.kind with
  | .set => []
  | .parameter => [.level]
  | .var | .equation => Slot.all

/-- What the columns behind the dimensions are for. -/
def valueRoles (s : Symbol) : List ColumnRole :=
  (if s.kind = .set then [.element] else []) ++
    s.slots.flatMap (fun slot => [.number slot, .special slot]) ++
    if s.kind = .parameter ∧ s.domains = [] ∧ s.text ≠ "" then [.comments] else []

/-- What the columns of the symbol's table are for, in their order. -/
def roles (s : Symbol) : List ColumnRole :=
  (List.range s.dimensions).map .label ++ s.valueRoles

/-- The name of the number column of a slot. A parameter has one slot and calls it its value. -/
def slotTitle (s : Symbol) (slot : Slot) : String :=
  if s.kind = .parameter then "Value" else slot.name

/-- The column for a role. -/
def column (s : Symbol) : ColumnRole → Column
  | .label dimension => ⟨(columnNames s.domains)[dimension]?.getD wildcard, .text⟩
  | .element => ⟨"Text", .text⟩
  | .number slot => ⟨s.slotTitle slot, .number⟩
  | .special slot => ⟨s.slotTitle slot ++ " (SV)", .text⟩
  | .comments => ⟨"Comments", .text⟩

section
variable (s : Symbol)

theorem valueColumnsOf_eq : valueColumnsOf s = s.valueRoles.map s.column := by
  unfold valueColumnsOf valueRoles slots
  cases hkind : s.kind with
  | set => simp [column]
  | parameter =>
    by_cases hnote : s.domains = [] ∧ s.text ≠ "" <;>
      simp [hkind, hnote, column, slotTitle, valuePair]
  | var | equation => simp [hkind, column, slotTitle, valuePair, Slot.all]

/-- **The columns of a symbol's table** are one for each role, in this order. -/
theorem columns_ofSymbol : (Schema.ofSymbol s).columns = s.roles.map s.column := by
  have hlabels : (columnNames s.domains).map (⟨·, .text⟩) =
      ((List.range s.dimensions).map ColumnRole.label).map s.column := by
    rw [List.map_map]
    refine List.ext_getElem (by simp [length_columnNames, dimensions]) fun k hk _ => ?_
    have hk : k < (columnNames s.domains).length := by simpa using hk
    simp [column, hk]
  rw [roles, List.map_append, ← hlabels, ← valueColumnsOf_eq]
  rfl

theorem width_ofSymbol : (Schema.ofSymbol s).width = s.roles.length := by
  rw [Schema.width, columns_ofSymbol, List.length_map]

theorem label_notMem_valueRoles (dimension : Nat) : .label dimension ∉ s.valueRoles := by
  unfold valueRoles
  simp only [List.mem_append, List.mem_flatMap, not_or]
  refine ⟨⟨?_, ?_⟩, ?_⟩
  · split <;> simp
  · simp
  · split <;> simp

theorem nodup_roles : s.roles.Nodup := by
  have hlabels : ((List.range s.dimensions).map ColumnRole.label).Nodup :=
    List.nodup_range.map fun _ _ h => ColumnRole.label.inj h
  have hvalues : s.valueRoles.Nodup := by
    unfold valueRoles slots
    cases s.kind with
    | set => simp
    | parameter => by_cases hnote : s.domains = [] ∧ s.text ≠ "" <;> simp [hnote]
    | var | equation => simp [Slot.all]
  refine List.nodup_append.2 ⟨hlabels, hvalues, ?_⟩
  rintro _ hmem role hrole rfl
  obtain ⟨dimension, -, rfl⟩ := List.mem_map.1 hmem
  exact s.label_notMem_valueRoles dimension hrole

variable {s}

theorem roles_label {dimension : Nat} (h : dimension < s.dimensions) :
    s.roles[dimension]? = some (.label dimension) := by
  simp [roles, List.getElem?_append_left, h]

theorem roles_behind (column : Nat) :
    s.roles[s.dimensions + column]? = s.valueRoles[column]? := by
  simp [roles, List.getElem?_append_right]

/-- The columns that are looked up for a slot are those of the slot. -/
theorem roles_slot {i : Nat} {slot : Slot} (h : s.slots[i]? = some slot) :
    (Schema.ofSymbol s).valueColumns slot =
        some (s.dimensions + 2 * i, s.dimensions + 2 * i + 1) ∧
      s.roles[s.dimensions + 2 * i]? = some (.number slot) ∧
      s.roles[s.dimensions + 2 * i + 1]? = some (.special slot) := by
  rw [Nat.add_assoc, roles_behind, roles_behind]
  unfold slots at h
  unfold valueRoles slots Schema.valueColumns
  cases hkind : s.kind with
  | set =>
    rw [hkind] at h
    cases h
  | parameter =>
    rw [hkind] at h
    cases i with
    | zero =>
      cases h
      simp [Schema.ofSymbol, hkind]
    | succ i => cases h
  | var | equation =>
    rw [hkind] at h
    rcases i with _ | _ | _ | _ | _ | i
    all_goals cases h
    all_goals simp [Schema.ofSymbol, hkind, Slot.all, Slot.index]

/-- A set has one column behind the dimensions. -/
theorem roles_element (h : s.kind = .set) :
    s.roles[s.dimensions]? = some .element ∧ s.roles.length = s.dimensions + 1 := by
  have hvalues : s.valueRoles = [.element] := by simp [valueRoles, slots, h]
  have hplace := s.roles_behind 0
  rw [hvalues] at hplace
  exact ⟨hplace, by simp [roles, hvalues]⟩

theorem valueRoles_of_parameter (h : s.kind = .parameter) :
    s.valueRoles = [.number .level, .special .level] ++
      if s.domains = [] ∧ s.text ≠ "" then [.comments] else [] := by
  simp [valueRoles, slots, h]

/-- The text of a scalar has the last column. -/
theorem roles_comments (h : s.kind = .parameter) (hnote : s.domains = [] ∧ s.text ≠ "") :
    s.roles[s.dimensions + 2]? = some .comments ∧ s.roles.length = s.dimensions + 2 + 1 := by
  have hvalues : s.valueRoles = [.number .level, .special .level, .comments] := by
    rw [valueRoles_of_parameter h, if_pos hnote]
    rfl
  have hplace := s.roles_behind 2
  rw [hvalues] at hplace
  exact ⟨hplace, by simp [roles, hvalues]⟩

/-- The column that is looked up for the text of a scalar. -/
theorem commentsColumn_of_parameter (h : s.kind = .parameter) :
    (Schema.ofSymbol s).commentsColumn =
      if s.domains = [] ∧ s.text ≠ "" then some (s.dimensions + 2) else none := by
  have hwidth : (Schema.ofSymbol s).width = s.dimensions + s.valueRoles.length := by
    simp [width_ofSymbol, roles]
  have hkind : (Schema.ofSymbol s).kind = .parameter := h
  have hdimensions : (Schema.ofSymbol s).dimensions = s.dimensions := rfl
  unfold Schema.commentsColumn
  rw [hwidth, hkind, hdimensions, valueRoles_of_parameter h]
  split <;> simp

/-- A column is found by what it is for. -/
theorem idxOf_roles {column : Nat} {role : ColumnRole} (h : s.roles[column]? = some role) :
    s.roles.idxOf role = column := by
  obtain ⟨hlt, rfl⟩ := List.getElem?_eq_some_iff.1 h
  exact s.nodup_roles.idxOf_getElem column hlt

end
end Symbol
end SymbolTables
