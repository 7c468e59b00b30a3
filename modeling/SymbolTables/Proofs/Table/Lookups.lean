import SymbolTables.Proofs.Table.Roles

/-!
# Columns that are looked up

The table of a symbol is laid out once. Where a column is needed later, its number is worked out
anew from the kind, the number of dimensions and the width. `Schema.Designates` says which column
these look-ups take for which role, and `Schema.LaidOut` that layout and look-ups agree.

* `designates_iff`: a column is looked up for a role exactly when the symbol has it for that role.
* `laidOut_ofSymbol`: what that means for each look-up, and that they share out all columns.
-/
namespace SymbolTables

/-- The column that is looked up for a role. The text of a set element stands right behind the
labels. -/
def Schema.Designates (t : Schema) : ColumnRole → Nat → Prop
  | .label dimension, column => t.isDimension column = true ∧ column = dimension
  | .element, column => t.kind = .set ∧ column = t.dimensions
  | .number slot, column => ∃ text, t.valueColumns slot = some (column, text)
  | .special slot, column => ∃ number, t.valueColumns slot = some (number, column)
  | .comments, column => t.commentsColumn = some column

namespace Symbol

variable {s : Symbol}

/-! ## Roles of a symbol -/

theorem mem_valueRoles {role : ColumnRole} : role ∈ s.valueRoles ↔
    (s.kind = .set ∧ role = .element) ∨
      (∃ slot ∈ s.slots, role = .number slot ∨ role = .special slot) ∨
      ((s.kind = .parameter ∧ s.domains = [] ∧ s.text ≠ "") ∧ role = .comments) := by
  unfold valueRoles
  simp only [List.mem_append, List.mem_flatMap, or_assoc]
  refine or_congr ?_ (or_congr ?_ ?_)
  · split <;> simp_all
  · simp
  · split <;> simp_all

theorem mem_roles_iff {role : ColumnRole} (hrole : ∀ dimension, role ≠ .label dimension) :
    role ∈ s.roles ↔ role ∈ s.valueRoles := by
  unfold roles
  rw [List.mem_append]
  refine or_iff_right fun h => ?_
  obtain ⟨dimension, -, rfl⟩ := List.mem_map.1 h
  exact hrole dimension rfl

/-- A look-up that finds the place of a role, or nothing where the role is not there, finds the one
column that is for it. -/
theorem found_iff {role : ColumnRole} {found : Option Nat} {column : Nat}
    (hsome : ∀ place, found = some place → s.roles[place]? = some role)
    (hnone : found = none → role ∉ s.roles) :
    found = some column ↔ s.roles[column]? = some role := by
  constructor
  · exact hsome column
  · intro hcolumn
    cases hfound : found with
    | none => exact absurd (List.mem_of_getElem? hcolumn) (hnone hfound)
    | some place => rw [← idxOf_roles (hsome place hfound), idxOf_roles hcolumn]

/-! ## The look-ups -/

/-- Exactly the slots of the kind have columns. -/
theorem valueColumns_eq_none_iff {slot : Slot} :
    (Schema.ofSymbol s).valueColumns slot = none ↔ slot ∉ s.slots := by
  have hkind : (Schema.ofSymbol s).kind = s.kind := rfl
  unfold Schema.valueColumns slots
  rw [hkind]
  cases s.kind with
  | set => simp
  | parameter => simp
  | var | equation => simp [Slot.mem_all]

/-- The columns of a slot stand side by side, the number first. -/
theorem roles_of_valueColumns {slot : Slot} {number text : Nat}
    (h : (Schema.ofSymbol s).valueColumns slot = some (number, text)) :
    text = number + 1 ∧ s.roles[number]? = some (.number slot) ∧
      s.roles[text]? = some (.special slot) := by
  have hmem : slot ∈ s.slots := by
    by_contra hout
    rw [valueColumns_eq_none_iff.2 hout] at h
    cases h
  obtain ⟨i, hi⟩ := List.mem_iff_getElem?.1 hmem
  obtain ⟨hpair, hnumber, hspecial⟩ := roles_slot hi
  rw [h] at hpair
  cases hpair
  exact ⟨rfl, hnumber, hspecial⟩

theorem slot_mem_of_roles {slot : Slot} {role : ColumnRole}
    (hrole : role = .number slot ∨ role = .special slot) (h : role ∈ s.roles) : slot ∈ s.slots := by
  have hvalue := (mem_roles_iff (by rintro dimension rfl; simp at hrole)).1 h
  rcases mem_valueRoles.1 hvalue with ⟨-, rfl⟩ | ⟨slot', hmem, h'⟩ | ⟨-, rfl⟩
  · simp at hrole
  · rcases hrole with rfl | rfl <;> rcases h' with h' | h' <;> cases h' <;> exact hmem
  · simp at hrole

/-- Either column of a slot is found where the symbol has it. -/
theorem part_found_iff {slot : Slot} {role : ColumnRole} {part : Nat × Nat → Nat} {column : Nat}
    (hrole : role = .number slot ∨ role = .special slot)
    (hpart : ∀ pair, (Schema.ofSymbol s).valueColumns slot = some pair →
      s.roles[part pair]? = some role) :
    ((Schema.ofSymbol s).valueColumns slot).map part = some column ↔
      s.roles[column]? = some role := by
  refine found_iff (fun place h => ?_) (fun h hmem => ?_)
  · obtain ⟨pair, hpair, rfl⟩ := Option.map_eq_some_iff.1 h
    exact hpart pair hpair
  · exact valueColumns_eq_none_iff.1 (Option.map_eq_none_iff.1 h) (slot_mem_of_roles hrole hmem)

/-- The comments column is there for scalar parameters with a text, and only for them. -/
theorem commentsColumn_ofSymbol : (Schema.ofSymbol s).commentsColumn =
    if s.kind = .parameter ∧ s.domains = [] ∧ s.text ≠ "" then some (s.dimensions + 2)
    else none := by
  by_cases hkind : s.kind = .parameter
  · rw [commentsColumn_of_parameter hkind]
    simp [hkind]
  · have hother : (Schema.ofSymbol s).kind ≠ .parameter := hkind
    simp [Schema.commentsColumn, hkind, hother]

/-- **Look-ups.** A column is looked up for a role exactly when it is the one that the symbol has
for that role. -/
theorem designates_iff {role : ColumnRole} {column : Nat} :
    (Schema.ofSymbol s).Designates role column ↔ s.roles[column]? = some role := by
  cases role with
  | label dimension =>
    have hdimension : (Schema.ofSymbol s).isDimension column = true ↔ column < s.dimensions :=
      decide_eq_true_iff
    simp only [Schema.Designates, hdimension]
    constructor
    · rintro ⟨hlt, rfl⟩
      exact roles_label hlt
    · intro h
      by_cases hlt : column < s.dimensions
      · rw [roles_label hlt] at h
        exact ⟨hlt, ColumnRole.label.inj (Option.some.inj h)⟩
      · obtain ⟨behind, rfl⟩ := Nat.exists_eq_add_of_le (Nat.le_of_not_lt hlt)
        rw [roles_behind] at h
        exact absurd (List.mem_of_getElem? h) (s.label_notMem_valueRoles dimension)
  | element =>
    have hfound : (Schema.ofSymbol s).Designates .element column ↔
        (if s.kind = .set then some s.dimensions else none) = some column := by
      simp [Schema.Designates, Schema.ofSymbol, eq_comm]
    rw [hfound]
    refine found_iff (fun place h => ?_) (fun h hmem => ?_)
    · obtain ⟨hkind, rfl⟩ : s.kind = .set ∧ s.dimensions = place := by simpa using h
      exact (roles_element hkind).1
    · have hkind : s.kind ≠ .set := by simpa using h
      have hvalue := mem_valueRoles.1 ((mem_roles_iff (by simp)).1 hmem)
      simp [hkind] at hvalue
  | number slot =>
    have hfound : (Schema.ofSymbol s).Designates (.number slot) column ↔
        ((Schema.ofSymbol s).valueColumns slot).map Prod.fst = some column := by
      simp [Schema.Designates]
    rw [hfound]
    exact part_found_iff (.inl rfl) fun pair h => (roles_of_valueColumns h).2.1
  | special slot =>
    have hfound : (Schema.ofSymbol s).Designates (.special slot) column ↔
        ((Schema.ofSymbol s).valueColumns slot).map Prod.snd = some column := by
      simp [Schema.Designates]
    rw [hfound]
    exact part_found_iff (.inr rfl) fun pair h => (roles_of_valueColumns h).2.2
  | comments =>
    refine found_iff (fun place h => ?_) (fun h hmem => ?_)
    · rw [commentsColumn_ofSymbol] at h
      obtain ⟨⟨hkind, hnote⟩, hplace⟩ := Option.ite_none_right_eq_some.1 h
      cases hplace
      exact (roles_comments hkind hnote).1
    · have hnone : ¬(s.kind = .parameter ∧ s.domains = [] ∧ s.text ≠ "") := by
        intro hnote
        rw [commentsColumn_ofSymbol, if_pos hnote] at h
        cases h
      have hvalue := mem_valueRoles.1 ((mem_roles_iff (by simp)).1 hmem)
      simp [hnone] at hvalue

theorem getElem?_columns (role : ColumnRole) {column : Nat}
    (h : (Schema.ofSymbol s).Designates role column) :
    (Schema.ofSymbol s).columns[column]? = some (s.column role) := by
  rw [columns_ofSymbol, List.getElem?_map, designates_iff.1 h]
  rfl

theorem length_labelColumns (s : Symbol) :
    ((columnNames s.domains).map fun name => Column.mk name .text).length = s.dimensions := by
  rw [List.length_map, length_columnNames, dimensions]

theorem length_valueRoles : s.valueRoles.length = match s.kind with
    | .set => 1
    | .parameter => if s.domains = [] ∧ s.text ≠ "" then 3 else 2
    | .var | .equation => 10 := by
  cases hkind : s.kind with
  | set => simp [valueRoles, slots, hkind]
  | parameter =>
    rw [valueRoles_of_parameter hkind]
    dsimp only
    split <;> rfl
  | var | equation => simp [valueRoles, slots, hkind, Slot.all]

end Symbol

/-! ## Layout and look-ups -/

/-- A table that is laid out for a symbol, with look-ups that say where everything is. -/
structure Schema.LaidOut (t : Schema) (s : Symbol) : Prop where
  labels : t.columns.take s.dimensions = (columnNames s.domains).map (⟨·, .text⟩)
  values : t.columns.drop s.dimensions = s.valueRoles.map s.column
  width : t.width = match s.kind with
    | .set => s.dimensions + 1
    | .parameter => if s.domains = [] ∧ s.text ≠ "" then 3 else s.dimensions + 2
    | .var | .equation => s.dimensions + 10
  isDimension : ∀ column, t.isDimension column = true ↔ column < s.dimensions
  valueColumns : ∀ slot, (t.valueColumns slot).isSome ↔ slot ∈ s.slots
  pair : ∀ slot number text, t.valueColumns slot = some (number, text) →
    text = number + 1 ∧ text < t.width ∧
      t.columns[number]? = some ⟨s.slotTitle slot, .number⟩ ∧
      t.columns[text]? = some ⟨s.slotTitle slot ++ " (SV)", .text⟩
  commentsColumn : t.commentsColumn.isSome ↔ s.kind = .parameter ∧ s.domains = [] ∧ s.text ≠ ""
  comments : ∀ column, t.commentsColumn = some column →
    t.columns[column]? = some ⟨"Comments", .text⟩
  element : s.kind = .set → t.columns[t.dimensions]? = some ⟨"Text", .text⟩
  /-- Every column is looked up for one thing, and no look-up leads outside. -/
  shared : ∀ column, (column < t.width → ∃! role, t.Designates role column) ∧
    ∀ role, t.Designates role column → column < t.width

/-- **Layout and look-ups agree.** In the table of a symbol every look-up finds the column that is
laid out for it, and together they find every column once. -/
theorem Schema.laidOut_ofSymbol (s : Symbol) : (ofSymbol s).LaidOut s where
  labels := List.take_left' s.length_labelColumns
  values := by
    rw [← Symbol.valueColumnsOf_eq]
    exact List.drop_left' s.length_labelColumns
  width := by
    have hroles : s.roles.length = s.dimensions + s.valueRoles.length := by simp [Symbol.roles]
    rw [Symbol.width_ofSymbol, hroles, Symbol.length_valueRoles]
    cases s.kind with
    | set | var | equation => rfl
    | parameter =>
      dsimp only
      split
      · rename_i hnote
        simp [Symbol.dimensions, hnote.1]
      · rfl
  isDimension := fun column => decide_eq_true_iff
  valueColumns := by
    intro slot
    rw [← not_iff_not, Option.not_isSome_iff_eq_none]
    exact Symbol.valueColumns_eq_none_iff
  pair := by
    intro slot number text h
    have hnumber := Symbol.getElem?_columns (.number slot) ⟨text, h⟩
    have htext := Symbol.getElem?_columns (.special slot) ⟨number, h⟩
    have hlt := (List.getElem?_eq_some_iff.1 htext).1
    exact ⟨(Symbol.roles_of_valueColumns h).1, hlt, hnumber, htext⟩
  commentsColumn := by
    rw [Symbol.commentsColumn_ofSymbol]
    simp
  comments := fun column h => Symbol.getElem?_columns .comments h
  element := fun h => Symbol.getElem?_columns .element ⟨h, rfl⟩
  shared := by
    intro column
    constructor
    · intro hlt
      rw [Symbol.width_ofSymbol] at hlt
      have hrole := List.getElem?_eq_getElem hlt
      refine ⟨s.roles[column], Symbol.designates_iff.2 hrole, fun role h => ?_⟩
      exact Option.some.inj ((Symbol.designates_iff.1 h).symm.trans hrole)
    · intro role h
      exact (List.getElem?_eq_some_iff.1 (Symbol.getElem?_columns role h)).1

end SymbolTables
