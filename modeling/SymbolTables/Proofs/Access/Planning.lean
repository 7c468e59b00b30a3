import SymbolTables.Proofs.Access.Prepared
import SymbolTables.Proofs.Query.Resolution

/-!
# Two ways to a plan

A plan is made from a set of column names, or from the references of a query that have been resolved
first (`ScanPlan.ofReferences`). The first way looks every reference up on its own, in whatever order
the set lists its names; the second way keeps the columns in the order of their first mention, and
refuses a column that is referenced by position and by name.

* `select_eq`, `select_congr`: which columns a plan selects depends on which are asked for, not on
  their order.
* `ofNames_cases`: what becomes of names and conditions that are looked up one by one.
* `plan_of_names_iff`: both ways give the same plan, or the same kind of failure, exactly if no
  column is referenced by position and by name, or there is a reference that denotes no column.
-/
namespace SymbolTables

namespace ScanPlan

/-- A plan from the references of a query, as a prepared query has it. -/
def ofReferences (nr : Nat) (schema : Schema) (fields : List FieldRef)
    (conditions : List Condition) : Except Failure ScanPlan := do
  let q ← resolve schema fields conditions
  ofColumns nr schema q.selected q.conditions

end ScanPlan

/-- The plan of a prepared query is made from its references. -/
theorem PreparedQuery.plan_ofReferences {store : Store} {query : Query} {p : PreparedQuery}
    (h : ofQuery store query = .ok p) : ∃ nr symbol, store.Finds query.table nr symbol ∧
      ScanPlan.ofReferences nr (.ofSymbol symbol) query.fields query.conditions = .ok p.plan := by
  unfold ofQuery at h
  cases hfind : store.findSymbol query.table with
  | none =>
    rw [hfind] at h
    cases h
  | some nr =>
    simp only [hfind] at h
    obtain ⟨symbol, hsymbol, h⟩ := bind_eq_ok_iff.1 h
    obtain ⟨q, hresolve, h⟩ := bind_eq_ok_iff.1 h
    obtain ⟨plan, hplan, h⟩ := bind_eq_ok_iff.1 h
    cases h
    refine ⟨nr, symbol, ⟨hfind, hsymbol⟩, ?_⟩
    exact bind_eq_ok_iff.2 ⟨q, hresolve, hplan⟩

namespace ScanPlan

/-! ## Selected columns -/

/-- A column is selected if it was or if it is among those that are asked for. -/
theorem select_eq :
    ∀ {columns : List Nat} {selected : List Bool}, (∀ c ∈ columns, c < selected.length) →
      select selected columns =
        .ok (selected.mapIdx fun column marked => marked || decide (column ∈ columns))
  | [], selected, _ => by
    rw [select]
    congr 1
    apply List.ext_getElem?
    intro n
    simp
  | column :: rest, selected, h => by
    have hlt := h column List.mem_cons_self
    have hrest : ∀ c ∈ rest, c < (selected.set column true).length := by
      intro c hc
      rw [List.length_set]
      exact h c (List.mem_cons_of_mem _ hc)
    rw [select, if_pos hlt, select_eq hrest]
    congr 1
    apply List.ext_getElem?
    intro n
    simp only [List.getElem?_mapIdx, List.getElem?_set]
    by_cases heq : column = n
    · subst heq
      simp [hlt]
    · simp [heq, Ne.symm heq]

/-- The order of the columns does not matter, nor how often one is asked for. -/
theorem select_congr {columns columns' : List Nat} {selected : List Bool}
    (hmem : ∀ c, c ∈ columns ↔ c ∈ columns') (h : ∀ c ∈ columns, c < selected.length) :
    select selected columns = select selected columns' := by
  have h' : ∀ c ∈ columns', c < selected.length := fun c hc => h c ((hmem c).2 hc)
  rw [select_eq h, select_eq h']
  simp only [hmem]

theorem ofColumns_congr {nr : Nat} {schema : Schema} {columns columns' : List Nat}
    (hmem : ∀ c, c ∈ columns ↔ c ∈ columns') (h : ∀ c ∈ columns, c < schema.width)
    (conditions : List ColumnCondition) :
    ofColumns nr schema columns conditions = ofColumns nr schema columns' conditions := by
  have hlt : ∀ c ∈ columns, c < (List.replicate schema.width false).length := by
    intro c hc
    rw [List.length_replicate]
    exact h c hc
  unfold ofColumns
  rw [select_congr hmem hlt]

/-! ## References on their own -/

section
variable {schema : Schema} {r : FieldRef}

theorem fieldColumn_eq_ok_iff {c : Nat} : fieldColumn schema r = .ok c ↔ r.Denotes schema c := by
  cases r with
  | name text =>
    simp only [fieldColumn, FieldRef.Denotes]
    rw [← Schema.indexOf?_eq_some_iff]
    cases schema.indexOf? text <;> simp
  | position index =>
    simp only [fieldColumn, FieldRef.Denotes]
    split
    · rename_i hlt
      constructor
      · intro h
        cases h
        exact ⟨rfl, hlt⟩
      · rintro ⟨rfl, -⟩
        rfl
    · rename_i hle
      constructor
      · intro h
        cases h
      · rintro ⟨rfl, hlt⟩
        exact absurd hlt hle

theorem fieldColumn_error {f : Failure} (h : fieldColumn schema r = .error f) :
    f.kind = .fieldNotFound ∧ ¬∃ c, r.Denotes schema c := by
  constructor
  · unfold fieldColumn at h
    repeat' split at h
    all_goals cases h
    all_goals rfl
  · rintro ⟨c, hc⟩
    rw [fieldColumn_eq_ok_iff.2 hc] at h
    cases h

end

/-- What becomes of names and conditions that are looked up one by one. -/
inductive Lookup (nr : Nat) (schema : Schema) (names : List String) (conditions : List Condition) :
    Except Failure ScanPlan → Prop
  | unknown {r : FieldRef} {f : Failure} (mem : r ∈ Query.references (names.map .name) conditions)
      (unknown : ¬∃ c, r.Denotes schema c) (kind : f.kind = .fieldNotFound) :
      Lookup nr schema names conditions (.error f)
  | found {columns : List Nat} {resolved : List ColumnCondition}
      (denote : List.Forall₂ (fun name c => (FieldRef.name name).Denotes schema c) names columns)
      (resolve : List.Forall₂ (fun c c' => c.field.Denotes schema c'.column ∧ c'.value = c.value)
        conditions resolved) :
      Lookup nr schema names conditions (ofColumns nr schema columns resolved)

theorem lookup_ofNames (nr : Nat) (schema : Schema) (names : List String)
    (conditions : List Condition) :
    Lookup nr schema names conditions (ofNames nr schema names conditions) := by
  unfold ofNames
  cases hnames : names.mapM fun name => fieldColumn schema (.name name) with
  | error f =>
    obtain ⟨name, hmem, hname⟩ := mapM_error_step hnames
    obtain ⟨hkind, hunknown⟩ := fieldColumn_error hname
    exact .unknown (List.mem_append_left _ (List.mem_map_of_mem hmem)) hunknown hkind
  | ok columns =>
    have hcolumns := (mapM_ok_forall₂ hnames).imp fun name c h => fieldColumn_eq_ok_iff.1 h
    show Lookup nr schema names conditions (List.mapM _ conditions >>= ofColumns nr schema columns)
    generalize hconds : List.mapM (m := Except Failure) _ conditions = found
    cases found with
    | error f =>
      obtain ⟨c, hmem, hc⟩ := mapM_error_step hconds
      rcases bind_eq_error_iff.1 hc with hc | ⟨_, -, hc⟩
      · obtain ⟨hkind, hunknown⟩ := fieldColumn_error hc
        exact .unknown (List.mem_append_right _ (List.mem_map_of_mem hmem)) hunknown hkind
      · cases hc
    | ok resolved =>
      refine .found hcolumns ((mapM_ok_forall₂ hconds).imp fun c c' h => ?_)
      obtain ⟨column, hcolumn, h⟩ := bind_eq_ok_iff.1 h
      cases h
      exact ⟨fieldColumn_eq_ok_iff.1 hcolumn, rfl⟩

/-! ## Both ways -/

/-- The same plan, or failures of the same kind. -/
inductive SameOutcome : Except Failure ScanPlan → Except Failure ScanPlan → Prop
  | planned (plan : ScanPlan) : SameOutcome (.ok plan) (.ok plan)
  | refused {f g : Failure} (kind : f.kind = g.kind) : SameOutcome (.error f) (.error g)

theorem SameOutcome.refl (outcome : Except Failure ScanPlan) : SameOutcome outcome outcome := by
  cases outcome with
  | ok plan => exact .planned plan
  | error f => exact .refused rfl

/-- Conditions on the columns that their fields denote are determined by the fields. -/
theorem eq_of_denotes {schema : Schema} {conditions : List Condition}
    {resolved resolved' : List ColumnCondition}
    (h : List.Forall₂ (fun c c' => c.field.Denotes schema c'.column ∧ c'.value = c.value)
      conditions resolved)
    (h' : List.Forall₂ (fun c c' => c.field.Denotes schema c'.column ∧ c'.value = c.value)
      conditions resolved') : resolved = resolved' := by
  induction h generalizing resolved' with
  | nil =>
    cases h'
    rfl
  | @cons c d _ _ hc _ ih =>
    cases h' with
    | @cons _ d' _ _ hc' hrest =>
      obtain ⟨column, value⟩ := d
      obtain ⟨column', value'⟩ := d'
      obtain ⟨hcolumn, hvalue⟩ := hc
      obtain ⟨hcolumn', hvalue'⟩ := hc'
      obtain rfl : column = column' := hcolumn.unique hcolumn'
      obtain rfl : value = value' := hvalue.trans hvalue'.symm
      rw [ih hrest]

section
variable {nr : Nat} {schema : Schema} {names enumeration : List String}
  {conditions : List Condition}

/-- A reference that denotes no column is refused as not found both ways, and so is, on the way over
a query, one that is opposed. -/
theorem ofReferences_error (nr : Nat) {r : FieldRef}
    (hmem : r ∈ Query.references (names.map .name) conditions)
    (hinvalid : ¬r.Valid schema (Query.references (names.map .name) conditions)) :
    ∃ f, ofReferences nr schema (names.map .name) conditions = .error f ∧
      f.kind = .fieldNotFound := by
  cases hresolve : resolve schema (names.map .name) conditions with
  | error f =>
    refine ⟨f, ?_, (resolve_error hresolve).1⟩
    exact bind_eq_error_iff.2 (.inl hresolve)
  | ok q => exact absurd ((resolve_spec hresolve).1 r hmem) hinvalid

/-- Names and conditions that are all found are references that all denote a column. -/
theorem denotes_of_found (henum : ∀ name, name ∈ enumeration ↔ name ∈ names) {columns : List Nat}
    {resolved : List ColumnCondition}
    (hcolumns : List.Forall₂ (fun name c => (FieldRef.name name).Denotes schema c) enumeration
      columns)
    (hresolved : List.Forall₂ (fun c c' => c.field.Denotes schema c'.column ∧ c'.value = c.value)
      conditions resolved) :
    ∀ r ∈ Query.references (names.map .name) conditions, ∃ c, r.Denotes schema c := by
  intro r hmem
  rcases List.mem_append.1 hmem with hmem | hmem
  · obtain ⟨name, hin, rfl⟩ := List.mem_map.1 hmem
    obtain ⟨c, -, hc⟩ := (exists_of_forall₂ hcolumns).1 name ((henum name).2 hin)
    exact ⟨c, hc⟩
  · obtain ⟨c, hin, rfl⟩ := List.mem_map.1 hmem
    obtain ⟨c', -, hc', -⟩ := (exists_of_forall₂ hresolved).1 c hin
    exact ⟨c'.column, hc'⟩

/-- Where all references are valid, both ways come to the same plan or the same failure. -/
theorem ofReferences_eq (henum : ∀ name, name ∈ enumeration ↔ name ∈ names) {columns : List Nat}
    {resolved : List ColumnCondition}
    (hcolumns : List.Forall₂ (fun name c => (FieldRef.name name).Denotes schema c) enumeration
      columns)
    (hresolved : List.Forall₂ (fun c c' => c.field.Denotes schema c'.column ∧ c'.value = c.value)
      conditions resolved)
    (hapart : ∀ r ∈ Query.references (names.map .name) conditions,
      ¬r.Opposed schema (Query.references (names.map .name) conditions)) :
    ofReferences nr schema (names.map .name) conditions = ofColumns nr schema columns resolved := by
  obtain ⟨hname, hcolumn⟩ := exists_of_forall₂ hcolumns
  obtain ⟨q, hresolve⟩ := exists_resolve_iff.2 (Query.sound_iff.2 fun r hmem =>
    ⟨denotes_of_found henum hcolumns hresolved r hmem, hapart r hmem⟩)
  obtain ⟨-, hwidth, hconditions⟩ := resolve_spec hresolve
  obtain ⟨mentioned, hmentioned, hselected, -⟩ := (resolution_of_resolve hresolve).selected
  obtain ⟨hfield, hmention⟩ := exists_of_forall₂ (List.forall₂_map_left_iff.1 hmentioned)
  have hsame : ∀ c, c ∈ q.selected ↔ c ∈ columns := by
    intro c
    rw [hselected]
    constructor
    · intro hc
      obtain ⟨name, hin, hc'⟩ := hmention c hc
      obtain ⟨c'', hin', hc''⟩ := hname name ((henum name).2 hin)
      rwa [hc'.unique hc'']
    · intro hc
      obtain ⟨name, hin, hc'⟩ := hcolumn c hc
      obtain ⟨c'', hin', hc''⟩ := hfield name ((henum name).1 hin)
      rwa [hc'.unique hc'']
  rw [ofReferences, hresolve, ← eq_of_denotes hconditions hresolved]
  exact ofColumns_congr hsame hwidth q.conditions

/-- **Two ways to a plan.** Whatever order a set of names is listed in, and whatever else is wrong
with names and conditions at once: a plan from the names and one from a query that references them
come out as the same plan, or as failures of the same kind, exactly if no column is referenced by
position and by name, or some reference denotes no column at all. A reference that denotes no column
is refused before a condition on a column that is no dimension. -/
theorem plan_of_names_iff (nr : Nat) (schema : Schema) (conditions : List Condition)
    (henum : ∀ name, name ∈ enumeration ↔ name ∈ names) :
    (SameOutcome (ofNames nr schema enumeration conditions)
        (ofReferences nr schema (names.map .name) conditions) ↔
      (∀ r ∈ Query.references (names.map .name) conditions,
        ¬r.Opposed schema (Query.references (names.map .name) conditions)) ∨
      ∃ r ∈ Query.references (names.map .name) conditions, ¬∃ c, r.Denotes schema c) ∧
    ∀ f, ofNames nr schema enumeration conditions = .error f →
      f.kind = .fieldNotFound ∧
          (∃ r ∈ Query.references (names.map .name) conditions, ¬∃ c, r.Denotes schema c) ∨
        f.kind = .unsupportedFilter ∧
          (∀ r ∈ Query.references (names.map .name) conditions, ∃ c, r.Denotes schema c) ∧
          ∃ c ∈ conditions, ∃ column, c.field.Denotes schema column ∧ schema.dimensions ≤ column := by
  have hreferences : ∀ r, r ∈ Query.references (enumeration.map .name) conditions ↔
      r ∈ Query.references (names.map .name) conditions := by
    intro r
    simp only [Query.references, List.mem_append, List.mem_map, henum]
  have hlookup := lookup_ofNames nr schema enumeration conditions
  generalize ofNames nr schema enumeration conditions = outcome at hlookup ⊢
  cases hlookup with
  | @unknown r f hmem hunknown hkind =>
    have hmem' := (hreferences r).1 hmem
    refine ⟨⟨fun _ => .inr ⟨r, hmem', hunknown⟩, fun _ => ?_⟩, fun g hg => ?_⟩
    · obtain ⟨g, hrefused, hkind'⟩ := ofReferences_error nr hmem'
        fun hvalid => hunknown hvalid.denotes
      rw [hrefused]
      exact .refused (hkind.trans hkind'.symm)
    · cases hg
      exact .inl ⟨hkind, r, hmem', hunknown⟩
  | @found columns resolved hcolumns hresolved =>
    have hknown := denotes_of_found henum hcolumns hresolved
    have hwidth : ∀ c ∈ columns, c < schema.width := by
      intro c hc
      obtain ⟨name, -, hdenotes⟩ := (exists_of_forall₂ hcolumns).2 c hc
      exact hdenotes.lt_width
    refine ⟨⟨fun hsame => .inl fun r hmem hopposed => ?_, fun hapart => ?_⟩, fun f hf => ?_⟩
    · -- a query with an opposed reference is refused for it, and here nothing is not found
      obtain ⟨g, hrefused, hkind⟩ := ofReferences_error nr hmem
        fun hvalid => hvalid.unopposed hopposed
      rw [hrefused] at hsame
      cases hplan : ofColumns nr schema columns resolved with
      | ok plan =>
        rw [hplan] at hsame
        cases hsame
      | error f =>
        rw [hplan] at hsame
        cases hsame with
        | refused hkind' =>
          have hfilter := (ofColumns_error hwidth hplan).1
          rw [hkind', hkind] at hfilter
          cases hfilter
    · rcases hapart with hapart | ⟨r, hmem, hunknown⟩
      · rw [ofReferences_eq henum hcolumns hresolved hapart]
        exact .refl _
      · exact absurd (hknown r hmem) hunknown
    · obtain ⟨hkind, c', hmem, hdim⟩ := ofColumns_error hwidth hf
      obtain ⟨c, hin, hc, -⟩ := (exists_of_forall₂ hresolved).2 c' hmem
      exact .inr ⟨hkind, hknown, c, hin, c'.column, hc, hdim⟩

end

/-- A column that is asked for by name and filtered by position: the query is refused. -/
example : (ofNames 0 (.ofSymbol ⟨"p", .parameter, ["i"], "", 0⟩) ["i"] [⟨.position 0, "a"⟩]).isOk ∧
    ¬(ofReferences 0 (.ofSymbol ⟨"p", .parameter, ["i"], "", 0⟩) [.name "i"]
      [⟨.position 0, "a"⟩]).isOk := by
  decide

/-- `WHERE @1 = "a" AND i = ""`. -/
def sampleWhere : List Condition := [⟨.position 1, "a"⟩, ⟨.name "i", ""⟩]

/-- The second dimension of the flow, which has the name of the first one, is `i0`. -/
theorem plan_of_names_iff_sample :
    (∀ name, name ∈ ["Level", "i"] ↔ name ∈ ["i", "Level", "i"]) ∧
    ∃ plan, ofNames 0 (.ofSymbol Schema.sampleSymbol) ["Level", "i"] sampleWhere = .ok plan ∧
      ofReferences 0 (.ofSymbol Schema.sampleSymbol) (["i", "Level", "i"].map .name) sampleWhere =
        .ok plan := by
  have henum : ∀ name, name ∈ ["Level", "i"] ↔ name ∈ ["i", "Level", "i"] := by
    intro name
    simp only [List.mem_cons, List.not_mem_nil, or_false]
    tauto
  obtain ⟨hsame, -⟩ := plan_of_names_iff 0 (.ofSymbol Schema.sampleSymbol) sampleWhere henum
  have houtcome := hsame.2 (.inl fun r hmem hopposed => by
    obtain ⟨index, text, rfl, hname, hin⟩ := hopposed
    -- the only position is 1
    obtain rfl : index = 1 := by simpa [Query.references, sampleWhere] using hmem
    obtain rfl : "i0" = text := Option.some.inj ((show _ = some "i0" by decide).symm.trans hname)
    exact absurd hin (by decide))
  obtain ⟨plan, hplan⟩ : ∃ plan,
      ofNames 0 (.ofSymbol Schema.sampleSymbol) ["Level", "i"] sampleWhere = .ok plan := ⟨_, rfl⟩
  rw [hplan] at houtcome
  refine ⟨henum, plan, hplan, ?_⟩
  generalize ofReferences 0 _ _ sampleWhere = outcome at houtcome ⊢
  cases houtcome
  rfl

end ScanPlan
end SymbolTables
