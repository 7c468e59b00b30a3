import Mathlib.Data.List.Nodup
import SymbolTables.Query.Resolve

/-!
# Columns by name

Column names come from three places: domain names, which `columnNames` makes different from one
another, the fixed names of a kind, and the tokens `@N` of a query. Only the first are compared with
one another, so a name can still come up twice.

* `nodup_columnNames`, `mem_columnNames`: the names of the dimensions are different, and each is the
  name of a domain or ends in a digit.
* `Schema.names_nodup_iff`: the names of a symbol's table are different when no domain has the name
  of a fixed column, and only then.
* `Schema.columns_renamed`, `Schema.names_renamed`: what a query does to the columns and their names.
* `Schema.names_renamed_nodup_iff`: after a query they are different when the tokens it gives are free
  and the names it keeps are different, and only then.
* `Schema.columns_distinct`: all together, for the table of a symbol and the one of a query.
-/
namespace SymbolTables

/-! ## Numbered names -/

/-- The last character is a digit. -/
def EndsInDigit (name : String) : Prop := name.toList.getLast?.any Char.isDigit = true

instance (name : String) : Decidable (EndsInDigit name) := inferInstanceAs (Decidable (_ = true))

theorem endsInDigit_numbered (domain : String) (n : Nat) : EndsInDigit (domain ++ toString n) := by
  have hne : Nat.toDigits 10 n ≠ [] := Nat.toDigits_ne_nil
  have hlast : (domain ++ n.repr).toList.getLast? = some ((Nat.toDigits 10 n).getLast hne) := by
    rw [String.toList_append, Nat.toList_repr, List.getLast?_append,
      List.getLast?_eq_some_getLast hne]
    rfl
  change (domain ++ n.repr).toList.getLast?.any Char.isDigit = true
  rw [hlast]
  exact Nat.isDigit_of_mem_toDigits (by decide) (by decide) (List.getLast_mem hne)

theorem numbered_injective (domain : String) :
    Function.Injective fun n : Nat => domain ++ toString n := by
  intro a b h
  have hdigits : Nat.toDigits 10 a = Nat.toDigits 10 b := by
    simpa using congrArg String.toList ((String.append_right_inj domain).1 h)
  simpa using congrArg (Nat.ofDigitChars 10 · 0) hdigits

theorem EndsInDigit.ne_wildcard {name : String} (h : EndsInDigit name) : name ≠ wildcard := by
  rintro rfl
  exact absurd h (by decide)

/-- The name that is found is the first one that is free. -/
theorem firstFree?_some {taken : List String} {domain name : String} :
    ∀ {tries counter : Nat}, firstFree? taken domain counter tries = some name →
      ∃ n, name = domain ++ toString (counter + n) ∧ name ∉ taken ∧
        ∀ m < n, domain ++ toString (counter + m) ∈ taken
  | 0, _, h => nomatch h
  | tries + 1, counter, h => by
    unfold firstFree? at h
    split at h
    · rename_i htaken
      obtain ⟨n, hname, hfree, hleast⟩ := firstFree?_some h
      refine ⟨n + 1, by rw [hname, Nat.add_right_comm, Nat.add_assoc], hfree, fun m hm => ?_⟩
      cases m with
      | zero => exact htaken
      | succ m =>
        have := hleast m (Nat.lt_of_succ_lt_succ hm)
        rwa [Nat.add_right_comm] at this
    · rename_i hfree
      cases h
      exact ⟨0, rfl, hfree, fun m hm => absurd hm (Nat.not_lt_zero m)⟩

theorem firstFree?_none {taken : List String} {domain : String} :
    ∀ {tries counter : Nat}, firstFree? taken domain counter tries = none →
      ∀ n < tries, domain ++ toString (counter + n) ∈ taken
  | 0, _, _, n, hn => absurd hn (Nat.not_lt_zero n)
  | tries + 1, counter, h, n, hn => by
    unfold firstFree? at h
    split at h
    · rename_i htaken
      cases n with
      | zero => exact htaken
      | succ n =>
        have := firstFree?_none h n (by omega)
        rwa [Nat.add_right_comm] at this
    · cases h

/-- No more numbered names in a row are taken than there are names. -/
theorem tries_le {taken : List String} {domain : String} {counter n : Nat}
    (h : ∀ m < n, domain ++ toString (counter + m) ∈ taken) : n ≤ taken.length := by
  let tried := (List.range n).map fun m => domain ++ toString (counter + m)
  have hnodup : tried.Nodup :=
    List.nodup_range.map fun _ _ h => Nat.add_left_cancel (numbered_injective domain h)
  have hsub : tried ⊆ taken := by
    intro name hname
    obtain ⟨m, hm, rfl⟩ := List.mem_map.1 hname
    exact h m (List.mem_range.1 hm)
  have hle := hnodup.length_le_of_subset hsub
  simpa only [tried, List.length_map, List.length_range] using hle

/-- One name more than are taken cannot all be taken. -/
theorem firstFree?_ne_none (taken : List String) (domain : String) (counter : Nat) :
    firstFree? taken domain counter (taken.length + 1) ≠ none := by
  intro h
  exact absurd (tries_le (firstFree?_none h)) (Nat.not_succ_le_self _)

/-! ## Names for the dimensions -/

theorem freeName_cases (taken : List String) (domain : String) :
    freeName taken domain ∉ taken ∧
      (freeName taken domain = domain ∧ domain ≠ wildcard ∨ EndsInDigit (freeName taken domain)) := by
  unfold freeName
  split
  · obtain ⟨name, hname⟩ :=
      Option.ne_none_iff_exists'.1 (firstFree?_ne_none taken domain 0)
    obtain ⟨n, rfl, hfree, -⟩ := firstFree?_some hname
    rw [hname]
    exact ⟨hfree, .inr (endsInDigit_numbered domain _)⟩
  · rename_i h
    exact ⟨fun hmem => h (.inr hmem), .inl ⟨rfl, fun hw => h (.inl hw)⟩⟩

theorem length_columnNamesFrom :
    ∀ (taken domains : List String), (columnNamesFrom taken domains).length = domains.length
  | _, [] => rfl
  | taken, domain :: rest => by simp [columnNamesFrom, length_columnNamesFrom _ rest]

theorem mem_columnNamesFrom {name : String} :
    ∀ {taken domains : List String}, name ∈ columnNamesFrom taken domains →
      name ∉ taken ∧ (name ∈ domains ∧ name ≠ wildcard ∨ EndsInDigit name)
  | _, [], h => nomatch h
  | taken, domain :: rest, h => by
    obtain ⟨hfree, hcases⟩ := freeName_cases taken domain
    rcases List.mem_cons.1 h with rfl | h
    · refine ⟨hfree, hcases.imp_left fun ⟨heq, hw⟩ => ?_⟩
      rw [heq]
      exact ⟨List.mem_cons_self, hw⟩
    · obtain ⟨htaken, hname⟩ := mem_columnNamesFrom h
      exact ⟨fun hmem => htaken (List.mem_append_left _ hmem),
        hname.imp_left fun ⟨hmem, hw⟩ => ⟨List.mem_cons_of_mem _ hmem, hw⟩⟩

theorem nodup_columnNamesFrom :
    ∀ taken domains : List String, (columnNamesFrom taken domains).Nodup
  | _, [] => List.nodup_nil
  | taken, domain :: rest => by
    refine List.nodup_cons.2 ⟨fun hmem => ?_, nodup_columnNamesFrom _ rest⟩
    exact (mem_columnNamesFrom hmem).1 (List.mem_append_right _ (List.mem_singleton_self _))

/-- A domain name that is not taken becomes the name of a column. -/
theorem mem_columnNamesFrom_of_domain {domain : String} (hw : domain ≠ wildcard) :
    ∀ {taken domains : List String}, domain ∈ domains → domain ∉ taken →
      domain ∈ columnNamesFrom taken domains
  | _, [], hmem, _ => nomatch hmem
  | taken, first :: rest, hmem, htaken => by
    unfold columnNamesFrom
    by_cases hname : domain = freeName taken first
    · exact hname ▸ List.mem_cons_self
    · refine List.mem_cons_of_mem _ (mem_columnNamesFrom_of_domain hw ?_ ?_)
      · rcases List.mem_cons.1 hmem with rfl | hrest
        · exact absurd (if_neg fun h => h.elim hw htaken).symm hname
        · exact hrest
      · simp [htaken, hname]

theorem length_columnNames (domains : List String) :
    (columnNames domains).length = domains.length := length_columnNamesFrom [] domains

/-- The names of the dimensions are different. -/
theorem nodup_columnNames (domains : List String) : (columnNames domains).Nodup :=
  nodup_columnNamesFrom [] domains

theorem mem_columnNames {domains : List String} {name : String} (h : name ∈ columnNames domains) :
    name ∈ domains ∧ name ≠ wildcard ∨ EndsInDigit name := (mem_columnNamesFrom h).2

theorem ne_wildcard_of_mem_columnNames {domains : List String} {name : String}
    (h : name ∈ columnNames domains) : name ≠ wildcard :=
  (mem_columnNames h).elim And.right EndsInDigit.ne_wildcard

theorem mem_columnNames_of_domain {domains : List String} {domain : String}
    (hw : domain ≠ wildcard) (h : domain ∈ domains) : domain ∈ columnNames domains :=
  mem_columnNamesFrom_of_domain hw h List.not_mem_nil

/-- The names of the columns behind the dimensions. -/
def Symbol.fixedNames (s : Symbol) : List String := (valueColumnsOf s).map (·.name)

theorem Symbol.fixedNames_facts (s : Symbol) :
    s.fixedNames.Nodup ∧ wildcard ∉ s.fixedNames ∧ ∀ name ∈ s.fixedNames, ¬EndsInDigit name := by
  unfold Symbol.fixedNames valueColumnsOf
  cases s.kind with
  | parameter => dsimp only; split <;> decide
  | set | var | equation => dsimp only; decide

/-- Names are different when none stands in two places. -/
theorem nodup_iff_of_getElem? {names : List String} :
    names.Nodup ↔ ∀ (a b : Nat) name, names[a]? = some name → names[b]? = some name → a = b := by
  rw [List.nodup_iff_getElem?_ne_getElem?]
  constructor
  · intro hne a b name ha hb
    have hlt := (List.getElem?_eq_some_iff.1 ha).1
    have hlt' := (List.getElem?_eq_some_iff.1 hb).1
    rcases Nat.lt_trichotomy a b with h | h | h
    · exact absurd (ha.trans hb.symm) (hne a b h hlt')
    · exact h
    · exact absurd (hb.trans ha.symm) (hne b a h hlt)
  · intro hinj a b hab hb heq
    have hname := List.getElem?_eq_getElem hb
    exact Nat.ne_of_lt hab (hinj a b _ (heq.trans hname) hname)

namespace Schema

/-! ## Columns found by their names -/

theorem names_getElem? (s : Schema) (column : Nat) :
    s.names[column]? = s.columns[column]?.map (·.name) := List.getElem?_map

/-- The column of a name is the first one that has it. -/
theorem indexOf?_eq_some_iff {s : Schema} {name : String} {column : Nat} :
    s.indexOf? name = some column ↔
      s.names[column]? = some name ∧ ∀ before < column, s.names[before]? ≠ some name := by
  unfold indexOf?
  rw [List.findIdx?_eq_some_iff_getElem]
  constructor
  · rintro ⟨hlt, hname, hbefore⟩
    refine ⟨by simpa [names_getElem?, hlt] using hname, fun before hlt' heq => ?_⟩
    have hb : before < s.columns.length := by omega
    exact hbefore before hlt' (by simpa [names_getElem?, hb] using heq)
  · rintro ⟨hname, hbefore⟩
    obtain ⟨c, hc, rfl⟩ := by simpa [names_getElem?] using hname
    obtain ⟨hlt, hc⟩ := List.getElem?_eq_some_iff.1 hc
    refine ⟨hlt, by simp [hc], fun before hlt' heq => hbefore before hlt' ?_⟩
    have hb : before < s.columns.length := by omega
    simpa [names_getElem?, hb] using heq

/-- Every column is the one that its name finds. -/
def FoundByName (s : Schema) : Prop :=
  ∀ column name, s.names[column]? = some name → s.indexOf? name = some column

theorem foundByName_iff {s : Schema} : s.FoundByName ↔ s.names.Nodup := by
  rw [nodup_iff_of_getElem?]
  constructor
  · intro hfound a b name ha hb
    exact Option.some.inj ((hfound a name ha).symm.trans (hfound b name hb))
  · intro hinj column name hname
    exact indexOf?_eq_some_iff.2
      ⟨hname, fun before hb heq => Nat.ne_of_lt hb (hinj before column name heq hname)⟩

/-! ## The table of a symbol -/

theorem names_ofSymbol (s : Symbol) :
    (ofSymbol s).names = columnNames s.domains ++ s.fixedNames := by
  simp [names, ofSymbol, Symbol.fixedNames, Function.comp_def]

/-- **The names of a symbol's columns** are different exactly when no domain has the name of a
column behind the dimensions. -/
theorem names_nodup_iff (s : Symbol) :
    (ofSymbol s).names.Nodup ↔ ∀ domain ∈ s.domains, domain ∉ s.fixedNames := by
  obtain ⟨hfixed, hwild, hdigit⟩ := s.fixedNames_facts
  rw [names_ofSymbol, List.nodup_append]
  constructor
  · intro ⟨_, _, hne⟩ domain hmem hclash
    have hw : domain ≠ wildcard := fun h => hwild (h ▸ hclash)
    exact hne domain (mem_columnNames_of_domain hw hmem) domain hclash rfl
  · intro h
    refine ⟨nodup_columnNames _, hfixed, ?_⟩
    rintro name hname _ hclash rfl
    rcases mem_columnNames hname with ⟨hmem, -⟩ | hends
    · exact h name hmem hclash
    · exact hdigit name hclash hends

/-- Dimensions come first and have different names, so a dimension is always found by its name. -/
theorem indexOf?_dimension {s : Symbol} {column : Nat} {name : String} (h : column < s.dimensions)
    (hname : (ofSymbol s).names[column]? = some name) :
    (ofSymbol s).indexOf? name = some column ∧ name ≠ wildcard := by
  have hlen : column < (columnNames s.domains).length := by rwa [length_columnNames]
  rw [names_ofSymbol, List.getElem?_append_left hlen] at hname
  constructor
  · rw [indexOf?_eq_some_iff, names_ofSymbol, List.getElem?_append_left hlen]
    refine ⟨hname, fun before hb heq => ?_⟩
    rw [List.getElem?_append_left (by omega)] at heq
    exact List.nodup_iff_getElem?_ne_getElem?.1 (nodup_columnNames s.domains) before column hb hlen
      (heq.trans hname.symm)
  · exact ne_wildcard_of_mem_columnNames (List.mem_of_getElem? hname)

/-! ## The table of a query -/

theorem columns_rename (s : Schema) (column : Nat) (name : String) (other : Nat) :
    (s.rename column name).columns[other]? =
      s.columns[other]?.map fun c => if column = other then { c with name } else c := by
  simp only [rename, List.getElem?_modify]
  cases s.columns[other]? with
  | none => rfl
  | some c => by_cases h : column = other <;> simp [h]

/-- Renaming gives every column that is referenced by position its token, whatever the order, and
changes nothing else. -/
theorem columns_renamed :
    ∀ (references : List FieldRef) (s : Schema) (column : Nat),
      (references.foldl Resolve.renamePosition s).columns[column]? =
        s.columns[column]?.map fun c =>
          if .position column ∈ references then { c with name := (FieldRef.position column).token }
          else c
  | [], s, column => by simp
  | .name _ :: rest, s, column => by
    rw [List.foldl_cons, columns_renamed rest]
    simp [Resolve.renamePosition]
  | .position index :: rest, s, column => by
    rw [List.foldl_cons, columns_renamed rest, Resolve.renamePosition, columns_rename, Option.map_map]
    congr 1
    funext c
    by_cases h : index = column <;> by_cases hr : FieldRef.position column ∈ rest <;>
      simp [h, hr, eq_comm]

theorem names_renamed (references : List FieldRef) (s : Schema) (column : Nat) :
    (references.foldl Resolve.renamePosition s).names[column]? =
      s.names[column]?.map fun name =>
        if .position column ∈ references then (FieldRef.position column).token else name := by
  rw [names_getElem?, columns_renamed, names_getElem?, Option.map_map, Option.map_map]
  congr 1
  funext c
  simp only [Function.comp_apply]
  split <;> rfl

end Schema

/-- A token says which position it is for. -/
theorem FieldRef.token_position_inj {a b : Nat} :
    (FieldRef.position a).token = (FieldRef.position b).token ↔ a = b :=
  (numbered_injective "@").eq_iff

namespace Resolve

theorem columns_ok {schema : Schema} {references : List FieldRef} :
    ∀ {rs : List FieldRef} {cs : List Nat}, columns schema references rs = .ok cs →
      ∀ r ∈ rs, ∃ c, column schema references r = .ok c
  | [], _, _, r, hr => nomatch hr
  | first :: rest, cs, h, r, hr => by
    unfold columns at h
    cases hfirst : column schema references first with
    | error e => rw [hfirst] at h; cases h
    | ok c =>
      rw [hfirst] at h
      cases hrest : columns schema references rest with
      | error e => rw [hrest] at h; cases h
      | ok cs' =>
        rcases List.mem_cons.1 hr with rfl | hr
        · exact ⟨c, hfirst⟩
        · exact columns_ok hrest r hr

theorem column_position_ok {schema : Schema} {references : List FieldRef} {index c : Nat}
    (h : column schema references (.position index) = .ok c) : index < schema.columns.length := by
  unfold column at h
  cases hcol : schema.columns[index]? with
  | none => simp [hcol] at h
  | some _ => exact (List.getElem?_eq_some_iff.1 hcol).1

end Resolve

/-- What a query that resolves says: its table is the given one with names by position, and every
position is one of a column. -/
theorem resolve_ok {schema : Schema} {fields : List FieldRef} {conditions : List Condition}
    {q : ResolvedQuery} (h : resolve schema fields conditions = .ok q) :
    q.schema = (Query.references fields conditions).foldl Resolve.renamePosition schema ∧
      ∀ index, .position index ∈ Query.references fields conditions →
        index < schema.columns.length := by
  unfold resolve at h
  cases hfields : Resolve.columns schema (Query.references fields conditions) fields with
  | error e => simp [hfields, bind, Except.bind] at h
  | ok selected =>
    cases hconds : Resolve.columns schema (Query.references fields conditions)
        (conditions.map (·.field)) with
    | error e => simp [hfields, hconds, bind, Except.bind] at h
    | ok filtered =>
      simp only [hfields, hconds, bind, Except.bind, pure, Except.pure, Except.ok.injEq] at h
      refine ⟨h ▸ rfl, fun index hmem => ?_⟩
      obtain ⟨c, hc⟩ : ∃ c, Resolve.column schema (Query.references fields conditions)
          (.position index) = .ok c := by
        rcases List.mem_append.1 hmem with hmem | hmem
        · exact Resolve.columns_ok hfields _ hmem
        · exact Resolve.columns_ok hconds _ hmem
      exact Resolve.column_position_ok hc

namespace Schema

/-- Whether no column keeps a name that the query gives to another one: a column named like the token
of a position the query references is referenced by position itself. -/
def TokensFree (s : Schema) (references : List FieldRef) : Prop :=
  ∀ index column, .position index ∈ references →
    s.names[column]? = some (FieldRef.position index).token → .position column ∈ references

/-- Whether no two columns that keep their names have the same one. -/
def KeptApart (s : Schema) (references : List FieldRef) : Prop :=
  ∀ a b name, s.names[a]? = some name → s.names[b]? = some name →
    .position a ∉ references → .position b ∉ references → a = b

/-- Different names are kept apart, whichever of them are kept. -/
theorem keptApart_of_nodup {s : Schema} (hs : s.names.Nodup) (references : List FieldRef) :
    s.KeptApart references :=
  fun a b name ha hb _ _ => nodup_iff_of_getElem?.1 hs a b name ha hb

/-- The names are different after a query exactly when the tokens it gives are free and the names that
it keeps are different. -/
theorem names_renamed_nodup_iff {s : Schema} {references : List FieldRef}
    (hrange : ∀ index, .position index ∈ references → index < s.columns.length) :
    (references.foldl Resolve.renamePosition s).names.Nodup ↔
      s.TokensFree references ∧ s.KeptApart references := by
  have hout := fun column => names_renamed references s column
  rw [nodup_iff_of_getElem?]
  constructor
  · intro hinj
    refine ⟨fun index column hindex hname => ?_, fun a b name ha hb hakept hbkept => ?_⟩
    · by_contra hcolumn
      have hlt : index < s.names.length := by simpa [names] using hrange index hindex
      have htoken := hout index
      rw [List.getElem?_eq_getElem hlt, Option.map_some, if_pos hindex] at htoken
      have hkept := hout column
      rw [hname, Option.map_some, if_neg hcolumn] at hkept
      exact hcolumn (hinj index column _ htoken hkept ▸ hindex)
    · have hkept : ∀ {column}, s.names[column]? = some name → .position column ∉ references →
          (references.foldl Resolve.renamePosition s).names[column]? = some name := by
        intro column hname hcolumn
        rw [hout, hname, Option.map_some, if_neg hcolumn]
      exact hinj a b name (hkept ha hakept) (hkept hb hbkept)
  · intro ⟨hfree, hkept⟩ a b name ha hb
    rw [hout] at ha hb
    obtain ⟨aName, ha', ha⟩ := Option.map_eq_some_iff.1 ha
    obtain ⟨bName, hb', hb⟩ := Option.map_eq_some_iff.1 hb
    split at ha <;> split at hb
    · exact FieldRef.token_position_inj.1 (ha.trans hb.symm)
    · rename_i haref hbref
      exact absurd (hfree a b haref (by rw [hb', hb, ha])) hbref
    · rename_i haref hbref
      exact absurd (hfree b a hbref (by rw [ha', ha, hb])) haref
    · rename_i haref hbref
      exact hkept a b name (ha ▸ ha') (hb ▸ hb') haref hbref

/-- **Columns by name.** In the table of a symbol every dimension is found by its name, which is not
`*`. All names are different, and every column is found by its name, exactly when no domain has the name
of a column behind the dimensions. The same holds of the table of a query exactly when the query gives
no column a token that another column has for a name, and no two columns that it leaves their names have
the same one; which they never have when no domain has the name of a column behind the dimensions. -/
theorem columns_distinct (s : Symbol) :
    (∀ column < s.dimensions, ∀ name, (ofSymbol s).names[column]? = some name →
      (ofSymbol s).indexOf? name = some column ∧ name ≠ wildcard) ∧
    ((ofSymbol s).names.Nodup ↔ ∀ domain ∈ s.domains, domain ∉ s.fixedNames) ∧
    ((ofSymbol s).FoundByName ↔ ∀ domain ∈ s.domains, domain ∉ s.fixedNames) ∧
    (∀ fields conditions q, resolve (ofSymbol s) fields conditions = .ok q →
      (q.schema.names.Nodup ↔ (ofSymbol s).TokensFree (Query.references fields conditions) ∧
        (ofSymbol s).KeptApart (Query.references fields conditions)) ∧
      (q.schema.FoundByName ↔ (ofSymbol s).TokensFree (Query.references fields conditions) ∧
        (ofSymbol s).KeptApart (Query.references fields conditions))) ∧
    ((∀ domain ∈ s.domains, domain ∉ s.fixedNames) →
      ∀ references, (ofSymbol s).KeptApart references) := by
  refine ⟨fun column hlt name hname => indexOf?_dimension hlt hname, names_nodup_iff s,
    foundByName_iff.trans (names_nodup_iff s), fun fields conditions q hq => ?_, fun hfixed => ?_⟩
  · obtain ⟨hschema, hrange⟩ := resolve_ok hq
    have hquery := names_renamed_nodup_iff hrange
    rw [← hschema] at hquery
    exact ⟨hquery, foundByName_iff.trans hquery⟩
  · exact keptApart_of_nodup ((names_nodup_iff s).2 hfixed)

/-- A flow from `i` to `i`, shown with its level and its second dimension. -/
def sampleSymbol : Symbol := ⟨"flow", .var, ["i", "i"], "", 0⟩

def sampleFields : List FieldRef := [.position 1, .name "Level"]

/-- A parameter whose dimension has the name of its values. -/
def hiddenSymbol : Symbol := ⟨"p", .parameter, ["Value"], "", 0⟩

/-- The flow, and the parameter when its dimension is asked for by position. -/
theorem columns_distinct_sample :
    (ofSymbol sampleSymbol).indexOf? "i0" = some 1 ∧
    ((resolve (ofSymbol sampleSymbol) sampleFields []).map (·.schema.names.take 3)) =
      .ok ["i", "@1", "Level"] ∧
    (∃ q, resolve (ofSymbol sampleSymbol) sampleFields [] = .ok q ∧ q.schema.FoundByName) ∧
    ¬(ofSymbol hiddenSymbol).FoundByName ∧
    ∃ q, resolve (ofSymbol hiddenSymbol) [.position 0] [] = .ok q ∧ q.schema.FoundByName := by
  obtain ⟨hdims, -, -, hquery, hapart⟩ := columns_distinct sampleSymbol
  obtain ⟨-, -, hfound, hhidden, -⟩ := columns_distinct hiddenSymbol
  refine ⟨(hdims 1 (by decide) "i0" (by decide)).1, by rfl, ⟨_, rfl, ?_⟩, ?_, _, rfl, ?_⟩
  · refine (hquery sampleFields [] _ rfl).2.2 ⟨fun index column hindex hname => ?_, ?_⟩
    · -- the only position is 1, and no column has its token for a name
      obtain rfl : index = 1 := by simpa [sampleFields, Query.references] using hindex
      exact absurd (List.mem_of_getElem? hname) (by decide)
    · exact hapart (by decide) _
  · rw [hfound]
    decide
  · refine (hhidden [.position 0] [] _ rfl).2.2 ⟨fun index column hindex hname => ?_, ?_⟩
    · obtain rfl : index = 0 := by simpa [Query.references] using hindex
      exact absurd (List.mem_of_getElem? hname) (by decide)
    · -- the two columns that keep their names have different ones
      have hplace : ∀ column name, (ofSymbol hiddenSymbol).names[column]? = some name →
          .position column ∉ Query.references [.position 0] [] →
            column = if name = "Value" then 1 else 2 := by
        intro column name hname hkept
        match column, hname with
        | 0, _ => exact absurd (List.mem_singleton_self _) hkept
        | 1, hname | 2, hname =>
          cases hname
          decide
      exact fun a b name ha hb hakept hbkept =>
        (hplace a name ha hakept).trans (hplace b name hb hbkept).symm

/-- Domain names are compared with one another only, and a token replaces a name unseen: a domain
named `Value` hides the values of a parameter, and a domain named `@1` is not told apart from a
column that is asked for by position. -/
theorem columns_clash :
    ¬(ofSymbol ⟨"p", .parameter, ["Value"], "", 0⟩).names.Nodup ∧
    (ofSymbol ⟨"p", .parameter, ["Value"], "", 0⟩).names[1]? = some "Value" ∧
    (ofSymbol ⟨"p", .parameter, ["Value"], "", 0⟩).indexOf? "Value" = some 0 ∧
    (resolve (ofSymbol ⟨"p", .parameter, ["Value"], "", 0⟩) [.name "Value"] []).isOk ∧
    (ofSymbol ⟨"r", .parameter, ["@1", "j"], "", 0⟩).names.Nodup ∧
    (resolve (ofSymbol ⟨"r", .parameter, ["@1", "j"], "", 0⟩) [.position 1] []).map
      (fun q => (q.schema.names, q.schema.indexOf? "@1")) =
        .ok (["@1", "@1", "Value", "Value (SV)"], some 0) := by
  decide

end Schema
end SymbolTables
