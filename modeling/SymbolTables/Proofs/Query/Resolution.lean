import SymbolTables.Proofs.Query.References

/-!
# What a query resolves to

Whether references resolve is said of the numbers and names in them (`Query.Sound`); what they
resolve to is said column by column (`Query.Resolution`), with the columns that they denote.

* `exists_resolve_iff`: the queries that resolve.
* `resolution_of_resolve`: what they resolve to.
* `resolve_exact`: both, and that there is one kind of failure.
-/
namespace SymbolTables

namespace Query

/-- Every position is one of a column, every name is the name of one, and no column is referenced by
its position together with its name. -/
structure Sound (s : Schema) (references : List FieldRef) : Prop where
  positions : ∀ p, .position p ∈ references → p < s.width
  names : ∀ name, .name name ∈ references → name ∈ s.names
  apart : ∀ p name, .position p ∈ references → s.names[p]? = some name → .name name ∉ references

/-- What a query is that the fields and conditions resolve to. -/
structure Resolution (s : Schema) (fields : List FieldRef) (conditions : List Condition)
    (q : ResolvedQuery) : Prop where
  /-- No column is denoted both by a position and by a name. -/
  apart : ∀ column p name, .position p ∈ references fields conditions →
    .name name ∈ references fields conditions →
    ¬((FieldRef.position p).Denotes s column ∧ (FieldRef.name name).Denotes s column)
  table : q.schema.table = s.table ∧ q.schema.kind = s.kind ∧ q.schema.dimensions = s.dimensions
  /-- A column that is referenced by its position has the token for it as its name, and nothing else
  has changed. -/
  columns : ∀ column, q.schema.columns[column]? = s.columns[column]?.map fun c =>
    if .position column ∈ references fields conditions then { c with name := "@" ++ toString column }
    else c
  /-- The columns that the fields denote, in the order of their first mention and without repeats. -/
  selected : ∃ columns, List.Forall₂ (fun r c => r.Denotes s c) fields columns ∧
    (∀ c, c ∈ q.selected ↔ c ∈ columns) ∧
    q.selected.Pairwise fun a b => columns.idxOf a < columns.idxOf b
  /-- The conditions in their order, each on the column that its field denotes. -/
  conditions : List.Forall₂ (fun c c' => c.field.Denotes s c'.column ∧ c'.value = c.value)
    conditions q.conditions

end Query

/-- Renaming touches nothing but the columns. -/
theorem Schema.table_renamed : ∀ (references : List FieldRef) (s : Schema),
    (references.foldl Resolve.renamePosition s).table = s.table ∧
      (references.foldl Resolve.renamePosition s).kind = s.kind ∧
      (references.foldl Resolve.renamePosition s).dimensions = s.dimensions
  | [], _ => ⟨rfl, rfl, rfl⟩
  | .name _ :: rest, s => table_renamed rest s
  | .position index :: rest, s => table_renamed rest (s.rename index (FieldRef.position index).token)

section
variable {s : Schema} {fields : List FieldRef} {conditions : List Condition}

/-- Sound references are those that are all valid. -/
theorem Query.sound_iff {references : List FieldRef} :
    Query.Sound s references ↔ ∀ r ∈ references, r.Valid s references := by
  constructor
  · intro h r hmem
    cases r with
    | position p =>
      refine ⟨⟨p, rfl, h.positions p hmem⟩, ?_⟩
      rintro ⟨index, text, heq, hname, hopposed⟩
      cases heq
      exact h.apart p text hmem hname hopposed
    | name text =>
      refine ⟨?_, by rintro ⟨_, _, heq, -⟩; cases heq⟩
      cases hfound : s.indexOf? text with
      | some column => exact ⟨column, Schema.indexOf?_eq_some_iff.1 hfound⟩
      | none =>
        obtain ⟨c, hc, rfl⟩ := List.mem_map.1 (h.names text hmem)
        exact absurd (List.findIdx?_eq_none_iff.1 hfound c hc) (by simp)
  · intro h
    refine ⟨fun p hmem => ?_, fun name hmem => ?_, fun p name hmem hname hopposed => ?_⟩
    · obtain ⟨column, rfl, hlt⟩ := (h _ hmem).denotes
      exact hlt
    · obtain ⟨column, hname, -⟩ := (h _ hmem).denotes
      exact List.mem_of_getElem? hname
    · exact (h _ hmem).unopposed ⟨p, name, rfl, hname, hopposed⟩

/-- The queries that resolve are those with sound references. -/
theorem exists_resolve_iff :
    (∃ q, resolve s fields conditions = .ok q) ↔
      Query.Sound s (Query.references fields conditions) := by
  rw [Query.sound_iff]
  constructor
  · rintro ⟨q, h⟩
    exact (resolve_spec h).1
  · intro hvalid
    cases h : resolve s fields conditions with
    | ok q => exact ⟨q, rfl⟩
    | error f =>
      obtain ⟨-, r, hmem, hinvalid⟩ := resolve_error h
      exact absurd (hvalid r hmem) hinvalid

theorem resolution_of_resolve {q : ResolvedQuery} (h : resolve s fields conditions = .ok q) :
    Query.Resolution s fields conditions q := by
  have hsound := exists_resolve_iff.1 ⟨q, h⟩
  have hconditions := (resolve_spec h).2.2
  obtain ⟨columns, hfields, h⟩ := bind_eq_ok_iff.1 h
  obtain ⟨filtered, -, h⟩ := bind_eq_ok_iff.1 h
  cases h
  obtain ⟨hmem, hordered⟩ := Resolve.firstMentions_spec columns
  exact {
    apart := by
      rintro column p name hposition hname ⟨⟨rfl, -⟩, hnamed, -⟩
      exact hsound.apart p name hposition hnamed hname
    table := Schema.table_renamed _ s
    columns := Schema.columns_renamed _ s
    selected := ⟨columns, (Resolve.columns_forall₂ hfields).imp fun r c hr =>
      (Resolve.column_eq_ok_iff.1 hr).1, hmem, hordered⟩
    conditions := hconditions }

/-- **What a query resolves to.** Fields and conditions resolve exactly when every position is one of
a column, every name is the name of one and no column is referenced by its position together with its
name; otherwise the failure is that a field has not been found. What they resolve to is the columns
they denote and a table in which the columns referenced by position have their tokens as names. -/
theorem resolve_exact (s : Schema) (fields : List FieldRef) (conditions : List Condition) :
    ((∃ q, resolve s fields conditions = .ok q) ↔
      Query.Sound s (Query.references fields conditions)) ∧
    (∀ f, resolve s fields conditions = .error f → f.kind = .fieldNotFound) ∧
    ∀ q, resolve s fields conditions = .ok q → Query.Resolution s fields conditions q :=
  ⟨exists_resolve_iff, fun _ h => (resolve_error h).1, fun _ h => resolution_of_resolve h⟩

end
end SymbolTables
