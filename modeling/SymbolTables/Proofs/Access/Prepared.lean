import SymbolTables.Access.Prepared
import SymbolTables.Proofs.Query.References
import SymbolTables.Proofs.Scan.Cells

/-!
# What is wrong with a query shows before its scan

Preparing a query finds everything that can be wrong with the query itself (`Verdict`): that its
table does not exist, that a reference is invalid or in conflict with another one, or that a
condition is on a column that is no dimension. What is left for the scan is the store: where its
readers fail with storage failures only, so does the scan, but for special values that are ambiguous.

* `verdict_ofQuery`: what becomes of a query, and why.
* `scans_of_prepared`: what a prepared query may report.
* `errors_of_query`: both together.
-/
namespace SymbolTables

/-! ## Tables by name -/

namespace Store
variable {store : Store} {name : String} {nr nr' : Nat} {symbol symbol' : Symbol}

/-- The symbol that a name finds, with its number. -/
def Finds (store : Store) (name : String) (nr : Nat) (symbol : Symbol) : Prop :=
  store.findSymbol name = some nr ∧ store.symbolInfo nr = .ok symbol

theorem Finds.unique (h : store.Finds name nr symbol) (h' : store.Finds name nr' symbol') :
    nr = nr' ∧ symbol = symbol' := by
  obtain rfl := Option.some.inj (h.1.symm.trans h'.1)
  exact ⟨rfl, Except.ok.inj (h.2.symm.trans h'.2)⟩

/-- A name finds nothing if no symbol has it, in whatever letter case. -/
theorem findSymbol_eq_none_iff :
    store.findSymbol name = none ↔ ∀ symbol ∈ store.symbols, Text.sameName symbol.name name = false := by
  unfold findSymbol
  split
  · rename_i nr hexact
    constructor
    · intro h
      cases h
    · intro h
      obtain ⟨hlt, hname, -⟩ := List.findIdx?_eq_some_iff_getElem.1 hexact
      have hsame := h _ (List.getElem_mem hlt)
      rw [eq_of_beq hname, Text.sameName_refl] at hsame
      cases hsame
  · rw [List.findIdx?_eq_none_iff]

theorem exists_finds (h : store.findSymbol name = some nr) : ∃ symbol, store.Finds name nr symbol := by
  have hlt : nr < store.symbols.length := by
    unfold findSymbol at h
    split at h
    · rename_i nr' hexact
      cases h
      exact (List.findIdx?_eq_some_iff_getElem.1 hexact).1
    · exact (List.findIdx?_eq_some_iff_getElem.1 h).1
  refine ⟨store.symbols[nr], h, ?_⟩
  simp only [symbolInfo, List.getElem?_eq_getElem hlt]

end Store

/-! ## Plans -/

namespace ScanPlan

theorem exists_select :
    ∀ {columns : List Nat} {selected : List Bool}, (∀ c ∈ columns, c < selected.length) →
      ∃ marks, select selected columns = .ok marks
  | [], selected, _ => ⟨selected, rfl⟩
  | column :: rest, selected, h => by
    have hcolumn := h column List.mem_cons_self
    rw [select, if_pos hcolumn]
    refine exists_select fun c hc => ?_
    rw [List.length_set]
    exact h c (List.mem_cons_of_mem _ hc)

/-- Only a condition on a column that is no dimension is refused. -/
theorem restrict_error {schema : Schema} {filter : List String × List Nat} {c : ColumnCondition}
    {f : Failure} (h : restrict schema filter c = .error f) :
    f.kind = .unsupportedFilter ∧ schema.dimensions ≤ c.column := by
  unfold restrict at h
  split at h
  · rename_i hdim
    cases h
    exact ⟨rfl, by simpa [Schema.isDimension] using hdim⟩
  · split at h <;> cases h

theorem ofColumns_error {nr : Nat} {schema : Schema} {selected : List Nat}
    {conditions : List ColumnCondition} (hselected : ∀ c ∈ selected, c < schema.width) {f : Failure}
    (h : ofColumns nr schema selected conditions = .error f) :
    f.kind = .unsupportedFilter ∧ ∃ c ∈ conditions, schema.dimensions ≤ c.column := by
  obtain ⟨marks, hmarks⟩ := @exists_select selected (List.replicate schema.width false) (by simpa)
  rcases bind_eq_error_iff.1 h with hselect | ⟨_, -, h⟩
  · cases hmarks.symm.trans hselect
  rcases bind_eq_error_iff.1 h with hrestrict | ⟨_, -, h⟩
  · obtain ⟨c, hmem, _, hc⟩ := foldlM_error_step hrestrict
    obtain ⟨hkind, hdim⟩ := restrict_error hc
    exact ⟨hkind, c, hmem, hdim⟩
  · cases h

end ScanPlan

/-! ## Preparing -/

/-- Every reference of a query is valid in the table. -/
def Query.ValidIn (query : Query) (schema : Schema) : Prop :=
  ∀ r ∈ Query.references query.fields query.conditions,
    r.Valid schema (Query.references query.fields query.conditions)

/-- Every condition of a query is on a dimension. -/
def Query.FiltersDimensions (query : Query) (schema : Schema) : Prop :=
  ∀ c ∈ query.conditions, ∀ column, c.field.Denotes schema column → column < schema.dimensions

namespace PreparedQuery

/-- What becomes of a query, and why. -/
inductive Verdict (store : Store) (query : Query) : Except Failure PreparedQuery → Prop
  | noTable {f : Failure}
      (absent : ∀ symbol ∈ store.symbols, Text.sameName symbol.name query.table = false)
      (kind : f.kind = .tableNotFound) : Verdict store query (.error f)
  | badReference {nr : Nat} {symbol : Symbol} {f : Failure}
      (found : store.Finds query.table nr symbol) (invalid : ¬query.ValidIn (.ofSymbol symbol))
      (kind : f.kind = .fieldNotFound) : Verdict store query (.error f)
  | badFilter {nr : Nat} {symbol : Symbol} {f : Failure}
      (found : store.Finds query.table nr symbol) (valid : query.ValidIn (.ofSymbol symbol))
      (filter : ¬query.FiltersDimensions (.ofSymbol symbol)) (kind : f.kind = .unsupportedFilter) :
      Verdict store query (.error f)
  | prepared {nr : Nat} {symbol : Symbol} {p : PreparedQuery}
      (found : store.Finds query.table nr symbol) (valid : query.ValidIn (.ofSymbol symbol))
      (filter : query.FiltersDimensions (.ofSymbol symbol))
      (plan : ∃ selected conditions,
        ScanPlan.ofColumns nr (.ofSymbol symbol) selected conditions = .ok p.plan) :
      Verdict store query (.ok p)

theorem verdict_ofQuery (store : Store) (query : Query) : Verdict store query (ofQuery store query) := by
  unfold ofQuery
  cases hfind : store.findSymbol query.table with
  | none => exact .noTable (Store.findSymbol_eq_none_iff.1 hfind) rfl
  | some nr =>
    obtain ⟨symbol, hfound⟩ := Store.exists_finds hfind
    simp only [hfound.2, bind, Except.bind, pure, Except.pure]
    cases hresolve : resolve (.ofSymbol symbol) query.fields query.conditions with
    | error f =>
      obtain ⟨hkind, r, hmem, hinvalid⟩ := resolve_error hresolve
      exact .badReference hfound (fun hvalid => hinvalid (hvalid r hmem)) hkind
    | ok q =>
      obtain ⟨hvalid, hselected, hconditions⟩ := resolve_spec hresolve
      obtain ⟨hleft, hright⟩ := exists_of_forall₂ hconditions
      cases hplan : ScanPlan.ofColumns nr (.ofSymbol symbol) q.selected q.conditions with
      | error f =>
        simp only [hplan]
        obtain ⟨hkind, c', hmem', hdim⟩ := ScanPlan.ofColumns_error hselected hplan
        obtain ⟨c, hmem, hdenotes, -⟩ := hright c' hmem'
        refine .badFilter hfound hvalid (fun hfilter => ?_) hkind
        exact absurd (hfilter c hmem _ hdenotes) (Nat.not_lt.2 hdim)
      | ok plan =>
        simp only [hplan]
        obtain ⟨-, -, -, hdim, -⟩ := ScanPlan.ofColumns_ok hplan
        refine .prepared hfound hvalid (fun c hmem column hdenotes => ?_) ⟨_, _, hplan⟩
        obtain ⟨c', hmem', hdenotes', -⟩ := hleft c hmem
        rw [hdenotes.unique hdenotes']
        exact hdim c' hmem'

/-- The causes exclude one another, so that each of them has its kind of failure to itself. -/
theorem Verdict.kind_iff {store : Store} {query : Query} {answer : Except Failure PreparedQuery}
    (h : Verdict store query answer) :
    ((∃ f, answer = .error f ∧ f.kind = .tableNotFound) ↔
      ∀ symbol ∈ store.symbols, Text.sameName symbol.name query.table = false) ∧
    ((∃ f, answer = .error f ∧ f.kind = .fieldNotFound) ↔
      ∃ nr symbol, store.Finds query.table nr symbol ∧ ¬query.ValidIn (.ofSymbol symbol)) ∧
    ((∃ f, answer = .error f ∧ f.kind = .unsupportedFilter) ↔
      ∃ nr symbol, store.Finds query.table nr symbol ∧ query.ValidIn (.ofSymbol symbol) ∧
        ¬query.FiltersDimensions (.ofSymbol symbol)) := by
  have present : ∀ {nr symbol}, store.Finds query.table nr symbol →
      ¬∀ symbol ∈ store.symbols, Text.sameName symbol.name query.table = false := by
    intro nr symbol hfound habsent
    rw [← Store.findSymbol_eq_none_iff, hfound.1] at habsent
    cases habsent
  cases h with
  | noTable habsent hkind =>
    have notFound : ∀ nr symbol, ¬store.Finds query.table nr symbol :=
      fun nr symbol hfound => present hfound habsent
    simp only [Except.error.injEq, exists_eq_left', hkind, notFound, false_and, exists_false,
      reduceCtorEq, true_iff, and_true]
    exact habsent
  | badReference hfound hinvalid hkind =>
    have all : ∀ nr symbol, store.Finds query.table nr symbol → ¬query.ValidIn (.ofSymbol symbol) := by
      intro nr symbol hfound'
      rw [← (hfound.unique hfound').2]
      exact hinvalid
    simp only [Except.error.injEq, exists_eq_left', hkind, reduceCtorEq, false_iff, true_iff]
    refine ⟨present hfound, ⟨_, _, hfound, hinvalid⟩, ?_⟩
    rintro ⟨nr, symbol, hfound', hvalid, -⟩
    exact all nr symbol hfound' hvalid
  | badFilter hfound hvalid hfilter hkind =>
    simp only [Except.error.injEq, exists_eq_left', hkind, reduceCtorEq, false_iff, true_iff]
    refine ⟨present hfound, ?_, ⟨_, _, hfound, hvalid, hfilter⟩⟩
    rintro ⟨nr, symbol, hfound', hinvalid⟩
    rw [← (hfound.unique hfound').2] at hinvalid
    exact hinvalid hvalid
  | prepared hfound hvalid hfilter hplan =>
    simp only [reduceCtorEq, false_and, exists_false, false_iff]
    refine ⟨present hfound, ?_, ?_⟩
    · rintro ⟨nr, symbol, hfound', hinvalid⟩
      rw [← (hfound.unique hfound').2] at hinvalid
      exact hinvalid hvalid
    · rintro ⟨nr, symbol, hfound', -, hinvalid⟩
      rw [← (hfound.unique hfound').2] at hinvalid
      exact hinvalid hfilter

end PreparedQuery

/-! ## Scanning -/

/-- Reading from a store does not break down, and fails with storage failures only. -/
structure Store.Reliable (store : Store) : Prop where
  start : ∀ {nr f}, store.start nr = .error f → f.kind = .storage
  crashed : ∀ {nr reader}, store.start nr = .ok reader → .crashed ∉ reader
  failed : ∀ {nr reader}, store.start nr = .ok reader → ∀ {f}, .failed f ∈ reader → f.kind = .storage

theorem Store.Reliable.readRaw {store : Store} (h : store.Reliable) {slot : ReaderSlot} {nr : Nat}
    {f : Failure} (hf : store.readRaw slot nr = .error f) : f.kind = .storage := by
  rcases bind_eq_error_iff.1 hf with hsymbol | ⟨_, -, hf⟩
  · unfold Store.symbolInfo at hsymbol
    split at hsymbol <;> cases hsymbol
    rfl
  rcases bind_eq_error_iff.1 hf with hslot | ⟨_, -, hf⟩
  · unfold ReaderSlot.acquire at hslot
    split at hslot <;> cases hslot
    rfl
  rcases bind_eq_error_iff.1 hf with hstart | ⟨_, -, hf⟩
  · exact h.start hstart
  · cases hf

/-- A failure that a scan may report: of the store, or of a special value that is ambiguous. -/
def Failure.OfScan (f : Failure) : Prop := f.kind = .storage ∨ f.kind = .ambiguousSpecialValue

/-- An item that a scan may report. -/
def Item.Orderly : Item → Prop
  | .row _ => True
  | .failed f => f.OfScan
  | .crashed => False

section
variable {store : Store} {nr : Nat} {symbol : Symbol} {selected : List Nat}
  {conditions : List ColumnCondition} {plan : ScanPlan}

/-- The decoder of a plan for the table of its symbol. -/
theorem exists_decoder_ofSymbol (hsymbol : store.symbolInfo nr = .ok symbol)
    (hplan : ScanPlan.ofColumns nr (.ofSymbol symbol) selected conditions = .ok plan) :
    ∃ decoder, Decoder.ofPlan store plan = .ok decoder := by
  obtain ⟨rfl, hschema, -⟩ := ScanPlan.ofColumns_ok hplan
  unfold Decoder.ofPlan
  simp [hsymbol, hschema, Schema.ofSymbol, bind, Except.bind, pure, Except.pure]

/-- It fails for what it reads only. -/
theorem ofScan_of_rowOf (hplan : ScanPlan.ofColumns nr (.ofSymbol symbol) selected conditions = .ok plan)
    {decoder : Decoder} (hd : Decoder.ofPlan store plan = .ok decoder) {r : Record} {e : NoRow}
    (h : decoder.rowOf r = .error e) : e = .discarded ∨ ∃ f, e = .failed f ∧ f.OfScan := by
  have hplan := ScanPlan.For.columns hplan
  rcases Decoder.fault_of_rowOf h with rfl | hfault
  · exact .inl rfl
  cases hfault with
  | unlabelled _ _ hkind => exact .inr ⟨_, rfl, .inl hkind⟩
  | ambiguous => exact .inr ⟨_, rfl, .inr rfl⟩
  | mismatched hne => exact absurd (hplan.decoder_eq hd).2.2 hne
  | narrow =>
    have hwide := (Schema.fits_ofSymbol symbol).length_le
    exact absurd h (rowOf_ne_outsideLayout hplan hd hwide r)

/-- All that comes of a plan for the table of a symbol is orderly, at every pull and on every
schedule. -/
theorem orderly_of_delivered (hstore : store.Reliable)
    (hplan : ScanPlan.ofColumns nr (.ofSymbol symbol) selected conditions = .ok plan)
    {decoder : Decoder} (hd : Decoder.ofPlan store plan = .ok decoder) {slot : ReaderSlot}
    {item : Item} (h : Delivered store slot plan item) : item.Orderly := by
  have orderly : ∀ {reader : Reader} {pull : Pull} {item : Item},
      store.start plan.symbol = .ok reader → pull ∈ reader →
        pull.item? decoder.rowOf = some item → item.Orderly := by
    intro reader pull item hstart hmem hitem
    cases pull with
    | failed f =>
      cases hitem
      exact .inl (hstore.failed hstart hmem)
    | crashed => exact absurd hmem (hstore.crashed hstart)
    | record r =>
      simp only [Pull.item?] at hitem
      cases hr : decoder.rowOf r with
      | ok row =>
        rw [hr] at hitem
        cases hitem
        trivial
      | error e =>
        rw [hr] at hitem
        rcases ofScan_of_rowOf hplan hd hr with rfl | ⟨f, rfl, hf⟩
        · cases hitem
        · cases hitem
          exact hf
  cases origin_of_delivered hd h with
  | pull hstart hmem hitem => exact orderly hstart hmem hitem
  | unread hread => exact .inl (hstore.readRaw hread)
  | crash hstart hmem hitem => exact (orderly hstart hmem hitem).elim

end

namespace RowStream

/-- Pulls do not look at how the columns are reported. -/
theorem pulls_withSchema (schema : Schema) (slots : List ReaderSlot) :
    ∀ s : RowStream, (s.withSchema schema).pulls slots = s.pulls slots := by
  induction slots with
  | nil => exact fun _ => rfl
  | cons slot slots ih =>
    intro s
    have hnext : ((s.withSchema schema).next slot).1 = (s.next slot).1 ∧
        ((s.withSchema schema).next slot).2.2 = (s.next slot).2.2.withSchema schema := by
      obtain ⟨_, scan⟩ := s
      cases scan <;> exact ⟨rfl, rfl⟩
    rw [pulls, pulls, hnext.1, hnext.2, ih]

end RowStream

namespace PreparedQuery

/-- What may come of a prepared query on a store, whatever the slot and the length of the queue. -/
structure ScansOrderly (p : PreparedQuery) (store : Store) : Prop where
  /-- The table and the symbol match, and no record leads outside of the table, or fails but for what
  it reads. -/
  decodes : ∃ decoder, Decoder.ofPlan store p.plan = .ok decoder ∧
    ∀ earlier r e, ((decoder.after earlier).decode r).1 = .error e →
      e = .discarded ∨ ∃ f, e = .failed f ∧ f.OfScan
  /-- A stream that does not start fails for the store. -/
  starts : ∀ slot capacity f, p.start store slot capacity = .error f → f.kind = .storage
  /-- All answers of a stream, to any number of pulls, each with the slot as it finds it. -/
  pulls : ∀ slot capacity stream slot', p.start store slot capacity = .ok (stream, slot') →
    ∀ slots item, some item ∈ stream.pulls slots → item.Orderly
  /-- All answers of a filtered scan, on every schedule of its two parties. -/
  schedules : p.plan.filtered = true → ∀ slot capacity decoder turns e,
    Decoder.ofPlan store p.plan = .ok decoder →
      (Exchange.start store slot p.plan decoder capacity).run turns = some e →
        ∀ item, some item ∈ e.answers → item.Orderly

theorem scans_of_prepared {store : Store} (hstore : store.Reliable) {query : Query}
    {p : PreparedQuery} (h : ofQuery store query = .ok p) : p.ScansOrderly store := by
  have hverdict := verdict_ofQuery store query
  rw [h] at hverdict
  obtain ⟨nr, symbol, selected, conditions, hsymbol, hplan⟩ : ∃ nr symbol selected conditions,
      store.symbolInfo nr = .ok symbol ∧
        ScanPlan.ofColumns nr (.ofSymbol symbol) selected conditions = .ok p.plan := by
    cases hverdict with
    | prepared hfound _ _ hplan =>
      obtain ⟨selected, conditions, hplan⟩ := hplan
      exact ⟨_, _, selected, conditions, hfound.2, hplan⟩
  obtain ⟨decoder, hd⟩ := exists_decoder_ofSymbol hsymbol hplan
  refine ⟨⟨decoder, hd, fun earlier r e he => ?_⟩, fun slot capacity f hf => ?_,
    fun slot capacity stream slot' hs slots item hi => ?_,
    fun hfiltered slot capacity decoder' turns e hd' hrun item hi => ?_⟩
  · rw [Decoder.decode_after earlier (Decoder.agrees_ofPlan hd)] at he
    exact ofScan_of_rowOf hplan hd he
  · rcases bind_eq_error_iff.1 hf with hf | ⟨_, -, hf⟩
    · rcases bind_eq_error_iff.1 hf with hf | ⟨_, -, hf⟩
      · cases hd.symm.trans hf
      split at hf
      · cases hf
      rcases bind_eq_error_iff.1 hf with hread | ⟨_, -, hf⟩
      · exact hstore.readRaw hread
      · cases hf
    · cases hf
  · obtain ⟨pair, hstart, hs⟩ := bind_eq_ok_iff.1 hs
    cases hs
    rw [RowStream.pulls_withSchema] at hi
    exact orderly_of_delivered hstore hplan hd (.pulled hstart hi)
  · exact orderly_of_delivered hstore hplan hd (.answered hd' hfiltered hrun hi)

/-- **What is wrong with a query shows before its scan.** A query whose table no symbol has, in
whatever letter case, is refused for its table, and no other; one whose table is found for a
reference exactly if one of its references is invalid or in conflict; and for a condition exactly if
all references are valid and some condition is on a column that is no dimension. Nothing else refuses
a query. And one that is prepared reports nothing but what its store and its special values are to
blame for. -/
theorem errors_of_query (store : Store) (query : Query) :
    ((∃ f, ofQuery store query = .error f ∧ f.kind = .tableNotFound) ↔
      ∀ symbol ∈ store.symbols, Text.sameName symbol.name query.table = false) ∧
    ((∃ f, ofQuery store query = .error f ∧ f.kind = .fieldNotFound) ↔
      ∃ nr symbol, store.Finds query.table nr symbol ∧
        ∃ r ∈ Query.references query.fields query.conditions,
          ¬r.Valid (.ofSymbol symbol) (Query.references query.fields query.conditions)) ∧
    ((∃ f, ofQuery store query = .error f ∧ f.kind = .unsupportedFilter) ↔
      ∃ nr symbol, store.Finds query.table nr symbol ∧ query.ValidIn (.ofSymbol symbol) ∧
        ∃ c ∈ query.conditions, ∃ column, c.field.Denotes (.ofSymbol symbol) column ∧
          symbol.dimensions ≤ column) ∧
    (∀ f, ofQuery store query = .error f →
      f.kind = .tableNotFound ∨ f.kind = .fieldNotFound ∨ f.kind = .unsupportedFilter) ∧
    (store.Reliable → ∀ p, ofQuery store query = .ok p → p.ScansOrderly store) := by
  have hverdict := verdict_ofQuery store query
  obtain ⟨htable, hreference, hfilter⟩ := hverdict.kind_iff
  refine ⟨htable, ?_, ?_, fun f hf => ?_, fun hstore p hp => scans_of_prepared hstore hp⟩
  · rw [hreference]
    simp only [Query.ValidIn, not_forall, exists_prop]
  · rw [hfilter]
    simp only [Query.FiltersDimensions, not_forall, exists_prop, Nat.not_lt]
    rfl
  · rw [hf] at hverdict
    cases hverdict with
    | noTable _ hkind => exact .inl hkind
    | badReference _ _ hkind => exact .inr (.inl hkind)
    | badFilter _ _ _ hkind => exact .inr (.inr hkind)

/-- `SELECT i, "Value" FROM "P" WHERE j = 'b'`. -/
def sampleQuery : Query :=
  ⟨[.name "i", .name "Value"], "P", "sample.sym", [⟨.name "j", "b"⟩]⟩

theorem reliable_sampleStore : Exchange.sampleStore.Reliable := by
  constructor
  · intro nr f h
    cases h
  · intro nr reader h hmem
    cases h
    simp [Exchange.sampleReader] at hmem
  · intro nr reader h f hmem
    cases h
    simp only [Exchange.sampleReader, List.mem_cons, reduceCtorEq, Pull.failed.injEq, false_or,
      List.not_mem_nil, or_false] at hmem
    subst hmem
    rfl

/-- On a store whose reader fails after three records. -/
theorem errors_of_query_sample : ∃ p, ofQuery Exchange.sampleStore sampleQuery = .ok p ∧
    p.ScansOrderly Exchange.sampleStore := by
  obtain ⟨-, -, -, -, hscans⟩ := errors_of_query Exchange.sampleStore sampleQuery
  exact ⟨_, rfl, hscans reliable_sampleStore _ rfl⟩

end PreparedQuery
end SymbolTables
