import Mathlib.Data.List.Forall2
import Mathlib.Data.List.Induction
import SymbolTables.Proofs.Except
import SymbolTables.Proofs.Table.Columns

/-!
# What references denote

A reference denotes the column at its position, or the first column of its name. A query resolves
exactly when each of its references denotes a column and none by position is opposed by one to the
name of that column (`FieldRef.Valid`).

* `column_eq_ok_iff`: what one reference resolves to.
* `firstMentions_spec`: columns in the order in which they are mentioned first.
* `resolve_error`, `resolve_spec`: what becomes of all of them.
-/
namespace SymbolTables

/-- Related lists have a partner for each of their members. -/
theorem exists_of_forall₂ {α β : Type} {R : α → β → Prop} {as : List α} {bs : List β}
    (h : List.Forall₂ R as bs) : (∀ a ∈ as, ∃ b ∈ bs, R a b) ∧ ∀ b ∈ bs, ∃ a ∈ as, R a b := by
  induction h with
  | nil => exact ⟨fun _ ha => (nomatch ha), fun _ hb => (nomatch hb)⟩
  | cons hr _ ih =>
    refine ⟨fun a ha => ?_, fun b hb => ?_⟩
    · rcases List.mem_cons.1 ha with rfl | ha
      · exact ⟨_, List.mem_cons_self, hr⟩
      · obtain ⟨b, hb, h⟩ := ih.1 a ha
        exact ⟨b, List.mem_cons_of_mem _ hb, h⟩
    · rcases List.mem_cons.1 hb with rfl | hb
      · exact ⟨_, List.mem_cons_self, hr⟩
      · obtain ⟨a, ha, h⟩ := ih.2 b hb
        exact ⟨a, List.mem_cons_of_mem _ ha, h⟩

namespace FieldRef

/-- The column that a reference denotes. -/
def Denotes (r : FieldRef) (s : Schema) (column : Nat) : Prop :=
  match r with
  | .name text => s.names[column]? = some text ∧ ∀ before < column, s.names[before]? ≠ some text
  | .position index => index = column ∧ column < s.width

/-- The column is referenced by position, and its name is referenced as well. -/
def Opposed (r : FieldRef) (s : Schema) (references : List FieldRef) : Prop :=
  ∃ index text, r = .position index ∧ s.names[index]? = some text ∧ .name text ∈ references

/-- A reference among those of a query that is neither invalid nor in conflict with another one. -/
structure Valid (r : FieldRef) (s : Schema) (references : List FieldRef) : Prop where
  denotes : ∃ column, r.Denotes s column
  unopposed : ¬r.Opposed s references

section
variable {r : FieldRef} {s : Schema} {column column' : Nat}

theorem Denotes.unique (h : r.Denotes s column) (h' : r.Denotes s column') : column = column' := by
  cases r with
  | name text =>
    rcases Nat.lt_trichotomy column column' with hlt | heq | hgt
    · exact absurd h.1 (h'.2 column hlt)
    · exact heq
    · exact absurd h'.1 (h.2 column' hgt)
  | position index => exact h.1.symm.trans h'.1

theorem Denotes.lt_width (h : r.Denotes s column) : column < s.width := by
  cases r with
  | name text => simpa [Schema.names, Schema.width] using (List.getElem?_eq_some_iff.1 h.1).1
  | position index => exact h.2

end
end FieldRef

/-! ## Resolving -/

namespace Resolve

section
variable {s : Schema} {references : List FieldRef} {r : FieldRef} {f : Failure}

theorem column_eq_ok_iff {c : Nat} :
    column s references r = .ok c ↔ r.Denotes s c ∧ ¬r.Opposed s references := by
  cases r with
  | name text =>
    have hopposed : ¬(FieldRef.name text).Opposed s references := by
      rintro ⟨index, text', h, -⟩
      cases h
    simp only [column, FieldRef.Denotes, hopposed, not_false_eq_true, and_true]
    rw [← Schema.indexOf?_eq_some_iff]
    cases s.indexOf? text <;> simp
  | position index =>
    simp only [column, FieldRef.Denotes]
    cases hc : s.columns[index]? with
    | none =>
      have hle : s.width ≤ index := List.getElem?_eq_none_iff.1 hc
      constructor
      · intro h
        cases h
      · rintro ⟨⟨rfl, hlt⟩, -⟩
        omega
    | some col =>
      have hlt : index < s.width := (List.getElem?_eq_some_iff.1 hc).1
      have hname : s.names[index]? = some col.name := by
        rw [Schema.names_getElem?, hc]
        rfl
      have hopposed : (FieldRef.position index).Opposed s references ↔
          .name col.name ∈ references := by
        constructor
        · rintro ⟨index', text, h, hname', hmem⟩
          cases h
          cases hname.symm.trans hname'
          exact hmem
        · exact fun hmem => ⟨index, col.name, rfl, hname, hmem⟩
      rw [hopposed]
      by_cases hmem : .name col.name ∈ references
      · simp [hmem]
      · simp only [hmem, if_false, Except.ok.injEq, not_false_eq_true, and_true]
        constructor
        · rintro rfl
          exact ⟨rfl, hlt⟩
        · exact fun h => h.1

theorem valid_iff : r.Valid s references ↔ ∃ c, column s references r = .ok c := by
  constructor
  · rintro ⟨⟨c, hc⟩, hopposed⟩
    exact ⟨c, column_eq_ok_iff.2 ⟨hc, hopposed⟩⟩
  · rintro ⟨c, hc⟩
    obtain ⟨hdenotes, hopposed⟩ := column_eq_ok_iff.1 hc
    exact ⟨⟨c, hdenotes⟩, hopposed⟩

theorem column_error (h : column s references r = .error f) :
    f.kind = .fieldNotFound ∧ ¬r.Valid s references := by
  constructor
  · unfold column at h
    repeat' split at h
    all_goals cases h
    all_goals rfl
  · intro hvalid
    obtain ⟨c, hc⟩ := valid_iff.1 hvalid
    rw [hc] at h
    cases h

theorem columns_error :
    ∀ {rs : List FieldRef}, columns s references rs = .error f →
      ∃ r ∈ rs, column s references r = .error f
  | [], h => nomatch h
  | first :: rest, h => by
    rcases bind_eq_error_iff.1 h with hfirst | ⟨c, -, h⟩
    · exact ⟨first, List.mem_cons_self, hfirst⟩
    rcases bind_eq_error_iff.1 h with hrest | ⟨cs, -, h⟩
    · obtain ⟨r, hmem, hr⟩ := columns_error hrest
      exact ⟨r, List.mem_cons_of_mem _ hmem, hr⟩
    · cases h

theorem columns_forall₂ :
    ∀ {rs : List FieldRef} {cs : List Nat}, columns s references rs = .ok cs →
      List.Forall₂ (fun r c => column s references r = .ok c) rs cs
  | [], _, h => by
    cases h
    exact .nil
  | first :: rest, _, h => by
    obtain ⟨c, hfirst, h⟩ := bind_eq_ok_iff.1 h
    obtain ⟨cs, hrest, h⟩ := bind_eq_ok_iff.1 h
    cases h
    exact .cons hfirst (columns_forall₂ hrest)

theorem zipWith_forall₂ {conditions : List Condition} {cs : List Nat}
    (h : List.Forall₂ (fun c column' => column s references c.field = .ok column') conditions cs) :
    List.Forall₂ (fun c c' => c.field.Denotes s c'.column ∧ c'.value = c.value) conditions
      (cs.zipWith (fun column c => ColumnCondition.mk column c.value) conditions) := by
  induction h with
  | nil => exact .nil
  | cons hc _ ih => exact .cons ⟨(column_eq_ok_iff.1 hc).1, rfl⟩ ih

/-- The first mentions are all the columns that are mentioned, in the order in which they come
first. -/
theorem firstMentions_spec (columns : List Nat) :
    (∀ c, c ∈ firstMentions columns ↔ c ∈ columns) ∧
      (firstMentions columns).Pairwise fun a b => columns.idxOf a < columns.idxOf b := by
  induction columns using List.reverseRecOn with
  | nil => exact ⟨fun c => Iff.rfl, .nil⟩
  | append_singleton columns last ih =>
    obtain ⟨hmem, hordered⟩ := ih
    have hstep : firstMentions (columns ++ [last]) =
        if last ∈ firstMentions columns then firstMentions columns
        else firstMentions columns ++ [last] := by
      rw [firstMentions, List.foldl_append]
      rfl
    have hidx : ∀ c ∈ firstMentions columns, (columns ++ [last]).idxOf c = columns.idxOf c :=
      fun c hc => List.idxOf_append_of_mem ((hmem c).1 hc)
    have hkept : (firstMentions columns).Pairwise
        fun a b => (columns ++ [last]).idxOf a < (columns ++ [last]).idxOf b :=
      hordered.imp_of_mem fun ha hb hlt => by rwa [hidx _ ha, hidx _ hb]
    rw [hstep]
    split
    · rename_i hlast
      refine ⟨fun c => ?_, hkept⟩
      rw [hmem, List.mem_append, List.mem_singleton]
      constructor
      · exact .inl
      · rintro (hc | rfl)
        · exact hc
        · exact (hmem c).1 hlast
    · rename_i hlast
      refine ⟨fun c => by simp [hmem], List.pairwise_append.2 ⟨hkept, List.pairwise_singleton .., ?_⟩⟩
      intro a ha b hb
      obtain rfl := List.mem_singleton.1 hb
      have hnew : b ∉ columns := fun hb => hlast ((hmem b).2 hb)
      rw [hidx a ha, List.idxOf_append_of_notMem hnew]
      have := List.idxOf_lt_length_of_mem ((hmem a).1 ha)
      omega

end

end Resolve

section
variable {s : Schema} {fields : List FieldRef} {conditions : List Condition}

/-- A query does not resolve because of one of its references. -/
theorem resolve_error {f : Failure} (h : resolve s fields conditions = .error f) :
    f.kind = .fieldNotFound ∧ ∃ r ∈ Query.references fields conditions,
      ¬r.Valid s (Query.references fields conditions) := by
  have invalid : ∀ rs, rs ⊆ Query.references fields conditions →
      Resolve.columns s (Query.references fields conditions) rs = .error f →
        f.kind = .fieldNotFound ∧ ∃ r ∈ Query.references fields conditions,
          ¬r.Valid s (Query.references fields conditions) := by
    intro rs hsub hrs
    obtain ⟨r, hmem, hr⟩ := Resolve.columns_error hrs
    obtain ⟨hkind, hinvalid⟩ := Resolve.column_error hr
    exact ⟨hkind, r, hsub hmem, hinvalid⟩
  rcases bind_eq_error_iff.1 h with hfields | ⟨selected, -, h⟩
  · exact invalid fields (List.subset_append_left _ _) hfields
  rcases bind_eq_error_iff.1 h with hconds | ⟨filtered, -, h⟩
  · exact invalid _ (List.subset_append_right _ _) hconds
  · cases h

/-- In a query that resolves every reference is valid, the selected columns are columns of the table,
and every condition is on the column that its field denotes. -/
theorem resolve_spec {q : ResolvedQuery} (h : resolve s fields conditions = .ok q) :
    (∀ r ∈ Query.references fields conditions, r.Valid s (Query.references fields conditions)) ∧
      (∀ c ∈ q.selected, c < s.width) ∧
      List.Forall₂ (fun c c' => c.field.Denotes s c'.column ∧ c'.value = c.value) conditions
        q.conditions := by
  obtain ⟨selected, hfields, h⟩ := bind_eq_ok_iff.1 h
  obtain ⟨filtered, hconds, h⟩ := bind_eq_ok_iff.1 h
  cases h
  refine ⟨fun r hmem => ?_, fun c hc => ?_, ?_⟩
  · rcases List.mem_append.1 hmem with hmem | hmem
    · exact Resolve.valid_iff.2 (Resolve.columns_ok hfields r hmem)
    · exact Resolve.valid_iff.2 (Resolve.columns_ok hconds r hmem)
  · have hmem := ((Resolve.firstMentions_spec selected).1 c).1 hc
    obtain ⟨r, -, hr⟩ := (exists_of_forall₂ (Resolve.columns_forall₂ hfields)).2 c hmem
    exact (Resolve.column_eq_ok_iff.1 hr).1.lt_width
  · exact Resolve.zipWith_forall₂ (List.forall₂_map_left_iff.1 (Resolve.columns_forall₂ hconds))

end
end SymbolTables
