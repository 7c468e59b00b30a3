import SymbolTables.Proofs.Table.Columns
import SymbolTables.Table.Row

/-!
# What stands in which column

`Schema.layout` lists, column by column, the types of the cells that a record of the table's kind is
shown with. It is read off the kind and the number of dimensions; the columns that the table itself
lists are another matter, and `Schema.Fits` says that they agree.

* `layout_of_place`, `place_of_layout`: the columns that are looked up are those of the layout.
* `fits_ofSymbol`: the table of a symbol fits.
-/
namespace SymbolTables

/-- The type of the columns that may hold the cell. -/
def Cell.type : Cell → ColumnType
  | .text _ => .text
  | .number _ => .number

namespace Schema

/-- The types behind the dimensions. A parameter has a third column where the table is wide enough.
-/
def valueLayout (s : Schema) : List ColumnType :=
  match s.kind with
  | .set => [.text]
  | .parameter => [.number, .text] ++ if s.dimensions + 2 < s.width then [.text] else []
  | .var | .equation => Slot.all.flatMap fun _ => [.number, .text]

/-- The types of the cells of a record, column by column. -/
def layout (s : Schema) : List ColumnType := List.replicate s.dimensions .text ++ s.valueLayout

/-- The columns of the table begin with the layout. -/
def Fits (s : Schema) : Prop := s.layout <+: s.columns.map (·.type)

section
variable {s : Schema}

theorem length_layout (s : Schema) : s.layout.length = s.dimensions + s.valueLayout.length := by
  simp [layout]

theorem layout_behind (s : Schema) (column : Nat) :
    s.layout[s.dimensions + column]? = s.valueLayout[column]? := by
  simp [layout, List.getElem?_append_right]

/-- Every kind has a column behind the dimensions. -/
theorem dimensions_lt_length (s : Schema) : s.dimensions < s.layout.length := by
  rw [length_layout]
  unfold valueLayout
  cases s.kind <;> simp [Slot.all]

/-- The table of a parameter has the columns of its level, that of a variable or an equation the
columns of every slot. -/
theorem valueColumns_ne_none {slot : Slot} (hkind : s.kind ≠ .set)
    (hslot : s.kind = .parameter → slot = .level) : s.valueColumns slot ≠ none := by
  unfold valueColumns
  cases hk : s.kind with
  | set => exact absurd hk hkind
  | parameter => simp [hslot hk]
  | var | equation => simp

/-- What a column of the layout is for. -/
inductive Place (s : Schema) : Nat → ColumnType → Prop
  | label {column : Nat} (h : column < s.dimensions) : Place s column .text
  | element (h : s.kind = .set) : Place s s.dimensions .text
  | number {slot : Slot} {column text : Nat} (h : s.valueColumns slot = some (column, text)) :
      Place s column .number
  | special {slot : Slot} {number column : Nat} (h : s.valueColumns slot = some (number, column)) :
      Place s column .text
  | comments {column : Nat} (h : s.commentsColumn = some column) : Place s column .text

theorem layout_of_place {column : Nat} {type : ColumnType} (h : s.Place column type) :
    s.layout[column]? = some type := by
  have pair : ∀ {slot : Slot} {number text : Nat}, s.valueColumns slot = some (number, text) →
      s.layout[number]? = some .number ∧ s.layout[text]? = some .text := by
    intro slot number text h
    unfold valueColumns at h
    cases hkind : s.kind with
    | set =>
      rw [hkind] at h
      cases h
    | parameter =>
      simp only [hkind, Option.ite_none_right_eq_some, Option.some.injEq, Prod.mk.injEq] at h
      obtain ⟨-, rfl, rfl⟩ := h
      have hfirst := s.layout_behind 0
      rw [Nat.add_zero] at hfirst
      rw [hfirst, layout_behind, valueLayout, hkind]
      exact ⟨rfl, rfl⟩
    | var | equation =>
      simp only [hkind, Option.some.injEq, Prod.mk.injEq] at h
      obtain ⟨rfl, rfl⟩ := h
      rw [Nat.add_assoc, layout_behind, layout_behind, valueLayout, hkind]
      cases slot <;> exact ⟨rfl, rfl⟩
  cases h with
  | label h => simp [layout, List.getElem?_append_left, h]
  | element h =>
    have hfirst := s.layout_behind 0
    rw [Nat.add_zero] at hfirst
    rw [hfirst, valueLayout, h]
    rfl
  | number h => exact (pair h).1
  | special h => exact (pair h).2
  | comments h =>
    unfold commentsColumn at h
    split at h
    · rename_i hwide
      cases h
      rw [layout_behind, valueLayout, hwide.1, if_pos hwide.2]
      rfl
    · cases h

/-- Every column of the layout is for something. -/
theorem place_of_layout {column : Nat} {type : ColumnType} (h : s.layout[column]? = some type) :
    s.Place column type := by
  by_cases hdim : column < s.dimensions
  · have hlabel := layout_of_place (.label hdim)
    obtain rfl := Option.some.inj (h.symm.trans hlabel)
    exact .label hdim
  obtain ⟨behind, rfl⟩ := Nat.exists_eq_add_of_le (Nat.le_of_not_lt hdim)
  rw [layout_behind, valueLayout] at h
  cases hkind : s.kind with
  | set =>
    rw [hkind] at h
    match behind, h with
    | 0, h => cases h; exact .element hkind
  | parameter =>
    have hpair : s.valueColumns .level = some (s.dimensions, s.dimensions + 1) := by
      simp [valueColumns, hkind]
    rw [hkind] at h
    by_cases hwide : s.dimensions + 2 < s.width
    · simp only [if_pos hwide] at h
      match behind, h with
      | 0, h => cases h; exact .number hpair
      | 1, h => cases h; exact .special hpair
      | 2, h => cases h; exact .comments (by simp [commentsColumn, hkind, hwide])
    · simp only [if_neg hwide] at h
      match behind, h with
      | 0, h => cases h; exact .number hpair
      | 1, h => cases h; exact .special hpair
  | var | equation =>
    have hpair : ∀ slot : Slot, s.valueColumns slot =
        some (s.dimensions + 2 * slot.index, s.dimensions + 2 * slot.index + 1) := by
      intro slot
      simp [valueColumns, hkind]
    rw [hkind] at h
    match behind, h with
    | 0, h => cases h; exact .number (hpair .level)
    | 1, h => cases h; exact .special (hpair .level)
    | 2, h => cases h; exact .number (hpair .marginal)
    | 3, h => cases h; exact .special (hpair .marginal)
    | 4, h => cases h; exact .number (hpair .lower)
    | 5, h => cases h; exact .special (hpair .lower)
    | 6, h => cases h; exact .number (hpair .upper)
    | 7, h => cases h; exact .special (hpair .upper)
    | 8, h => cases h; exact .number (hpair .scale)
    | 9, h => cases h; exact .special (hpair .scale)

theorem Place.lt {column : Nat} {type : ColumnType} (h : s.Place column type) :
    column < s.layout.length := (List.getElem?_eq_some_iff.1 (layout_of_place h)).1

/-- A table that fits is as wide as its layout. -/
theorem Fits.length_le (h : s.Fits) : s.layout.length ≤ s.width := by
  simpa [width] using List.IsPrefix.length_le h

/-- The cells of a record have the types of their columns in a table that fits. -/
theorem Fits.type_eq (h : s.Fits) {column : Nat} {type : ColumnType}
    (hc : s.layout[column]? = some type) : s.columns[column]?.map (·.type) = some type := by
  obtain ⟨rest, hrest⟩ := h
  have hlt : column < s.layout.length := (List.getElem?_eq_some_iff.1 hc).1
  rw [← List.getElem?_map, ← hrest, List.getElem?_append_left hlt]
  exact hc

/-- **The table of a symbol fits**: it has the columns of its layout and no others. -/
theorem layout_ofSymbol (symbol : Symbol) :
    (ofSymbol symbol).columns.map (·.type) = (ofSymbol symbol).layout := by
  have hwidth : (ofSymbol symbol).width = symbol.dimensions + (valueColumnsOf symbol).length := by
    simp [width, ofSymbol, length_columnNames, Symbol.dimensions]
  have hbehind : (valueColumnsOf symbol).map (·.type) = (ofSymbol symbol).valueLayout := by
    unfold valueColumnsOf at hwidth ⊢
    unfold valueLayout
    rw [hwidth]
    cases hkind : symbol.kind with
    | set => simp [ofSymbol, hkind]
    | parameter =>
      by_cases hnote : symbol.domains = [] ∧ symbol.text ≠ ""
      · simp [ofSymbol, hkind, hnote, valuePair]
      · simp [ofSymbol, hkind, hnote, valuePair]
    | var | equation => simp [ofSymbol, hkind, valuePair, Slot.all]
  rw [layout, ← hbehind]
  simp [ofSymbol, length_columnNames, Symbol.dimensions, Function.comp_def]

theorem fits_ofSymbol (symbol : Symbol) : (ofSymbol symbol).Fits :=
  ⟨[], by rw [List.append_nil, layout_ofSymbol]⟩

end
end Schema
end SymbolTables
