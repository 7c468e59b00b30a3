import SymbolTables.Proofs.Scan.Conditions

/-!
# The two kinds of scan agree

A scan with conditions passes over records that do not have the labels its plan looks for, and
discards records that have a label where there should be none. A scan without conditions shows every
record. Where the second comes to its end, the first shows the same rows less those of the records
that do not satisfy the conditions.

* `ofColumns_of_nil`, `ofPlan_of_nil`: conditions on dimensions change nothing of a plan and its
  decoder but what is looked for and what is discarded.
* `rowOf_withEmpty`: a record that gives a row gives the same row, or is discarded.
* `rows_of_rows`: the rows of a reader, from those without conditions.
* `rows_of_unfiltered`: the same for streams, on every schedule and with every length of the queue.
-/
namespace SymbolTables

/-! ## Decoders -/

namespace Decoder

/-- The decoder that discards the records with a label in one of the dimensions. -/
def withEmpty (d : Decoder) (dimensions : List Nat) : Decoder :=
  { d with emptyDimensions := dimensions }

section
variable {d : Decoder} {r : Record} (empties : List Nat)

theorem labelCell_withEmpty {row row' : Row} {dimension : Nat}
    (h : d.labelCell r row dimension = .ok row') :
    (d.withEmpty empties).labelCell r row dimension = .ok row' ∨
      (d.withEmpty empties).labelCell r row dimension = .error .discarded := by
  unfold labelCell at h ⊢
  cases hk : r.keys[dimension]? with
  | none =>
    rw [hk] at h
    cases h
  | some key =>
    cases hl : d.store.label key with
    | none =>
      simp only [hk, hl] at h
      cases h
    | some label =>
      have hl' : (d.withEmpty empties).store.label key = some label := hl
      simp only [hk, hl, hl'] at h ⊢
      by_cases hd : label ≠ "" ∧ dimension ∈ (d.withEmpty empties).emptyDimensions
      · rw [if_pos hd]
        exact .inr rfl
      · rw [if_neg hd]
        split at h
        · cases h
        · exact .inl h

theorem foldlM_labelCell_withEmpty {row' : Row} :
    ∀ (dimensions : List Nat) {row : Row}, dimensions.foldlM (d.labelCell r) row = .ok row' →
      dimensions.foldlM ((d.withEmpty empties).labelCell r) row = .ok row' ∨
        dimensions.foldlM ((d.withEmpty empties).labelCell r) row = .error .discarded
  | [], _, h => .inl h
  | dimension :: dimensions, row, h => by
    rw [List.foldlM_cons] at h
    cases hc : d.labelCell r row dimension with
    | error e =>
      rw [hc] at h
      cases h
    | ok row₁ =>
      rw [hc] at h
      rw [List.foldlM_cons]
      rcases labelCell_withEmpty empties hc with hc | hc
      · rw [hc]
        exact foldlM_labelCell_withEmpty dimensions h
      · rw [hc]
        exact .inr rfl

/-- What is to be empty decides whether a record gives its row, not which row it is. -/
theorem rowOf_withEmpty {row : Row} (h : d.rowOf r = .ok row) :
    (d.withEmpty empties).rowOf r = .ok row ∨
      (d.withEmpty empties).rowOf r = .error .discarded := by
  unfold rowOf at h ⊢
  cases hl : (List.range d.schema.dimensions).foldlM (d.labelCell r) (.blank d.schema.width) with
  | error e =>
    rw [hl] at h
    cases h
  | ok row₁ =>
    rw [hl] at h
    rcases foldlM_labelCell_withEmpty empties _ hl with hl' | hl'
    · left
      rw [show (d.withEmpty empties).schema = d.schema from rfl, hl']
      exact h
    · right
      rw [show (d.withEmpty empties).schema = d.schema from rfl, hl']

end
end Decoder

/-! ## Plans -/

namespace ScanPlan

/-- A condition on a dimension can be put on top of any others. -/
theorem restrict_ne_error {schema : Schema} {c : ColumnCondition}
    (h : c.column < schema.dimensions) (filter : List String × List Nat) (f : Failure) :
    restrict schema filter c ≠ .error f := by
  have hc : schema.isDimension c.column = true := by
    simpa [Schema.isDimension] using h
  unfold restrict
  rw [hc]
  by_cases hv : c.value = "" <;> simp [hv]

theorem exists_foldlM_restrict {schema : Schema} {conditions : List ColumnCondition}
    (filter : List String × List Nat) (h : ∀ c ∈ conditions, c.column < schema.dimensions) :
    ∃ filter', conditions.foldlM (restrict schema) filter = .ok filter' := by
  cases hf : conditions.foldlM (restrict schema) filter with
  | ok filter' => exact ⟨filter', rfl⟩
  | error f =>
    obtain ⟨c, hc, filter₁, hstep⟩ := foldlM_error_step hf
    exact absurd hstep (restrict_ne_error (h c hc) filter₁ f)

section
variable {nr : Nat} {schema : Schema} {selected : List Nat} {plan : ScanPlan}

/-- Conditions on dimensions change what is looked for and what has to be empty. -/
theorem ofColumns_of_nil (h : ofColumns nr schema selected [] = .ok plan)
    {conditions : List ColumnCondition} (hdim : ∀ c ∈ conditions, c.column < schema.dimensions) :
    ∃ filter empties, ofColumns nr schema selected conditions =
      .ok { plan with filter, emptyDimensions := empties, filtered := !conditions.isEmpty } := by
  unfold ofColumns at h ⊢
  cases hs : select (List.replicate schema.width false) selected with
  | error f =>
    rw [hs] at h
    cases h
  | ok marks =>
    rw [hs] at h
    cases h
    obtain ⟨⟨filter, empties⟩, hf⟩ :=
      exists_foldlM_restrict (List.replicate schema.dimensions "", []) hdim
    refine ⟨filter, empties, ?_⟩
    simp only [hf, bind, Except.bind, pure, Except.pure]

/-- A decoder takes over from the conditions what has to be empty. -/
theorem ofPlan_of_nil {store : Store} {decoder : Decoder}
    (h : Decoder.ofPlan store plan = .ok decoder) (filter : List String) (empties : List Nat)
    (filtered : Bool) :
    Decoder.ofPlan store { plan with filter, emptyDimensions := empties, filtered } =
      .ok (decoder.withEmpty empties) := by
  unfold Decoder.ofPlan at h ⊢
  cases hs : store.symbolInfo plan.symbol with
  | error f =>
    rw [hs] at h
    cases h
  | ok symbol =>
    simp only [hs, bind, Except.bind, pure, Except.pure] at h ⊢
    split at h
    · cases h
    · rename_i hschema
      rw [if_neg hschema]
      cases h
      rfl

end
end ScanPlan

/-! ## Readers -/

/-- Of the rows of some records, one each, those whose record passes a test. -/
def rowsWhere (test : Record → Bool) (records : List Record) (rows : List Row) : List Row :=
  ((records.zip rows).filter fun p => test p.1).map Prod.snd

theorem rowsWhere_cons {test : Record → Bool} {r : Record} {records : List Record} {row : Row}
    {rows : List Row} :
    rowsWhere test (r :: records) (row :: rows) =
      if test r then row :: rowsWhere test records rows else rowsWhere test records rows := by
  unfold rowsWhere
  rw [List.zip_cons_cons, List.filter_cons]
  split <;> rfl

theorem rowsWhere_sublist {test : Record → Bool} {records : List Record} {rows : List Row}
    (h : rows.length ≤ records.length) : (rowsWhere test records rows).Sublist rows := by
  have hsub : (rowsWhere test records rows).Sublist ((records.zip rows).map Prod.snd) :=
    List.filter_sublist.map Prod.snd
  rwa [List.map_snd_zip h] at hsub

/-- Let every record give a row, and let those that pass a test be wanted and give the same row, and
the others not be wanted or be discarded. Then the rows are those of the records that pass it. -/
theorem Reader.rows_of_rows {wanted test : Record → Bool} {rowOf rowOf' : Record → Except NoRow Row}
    (hin : ∀ r row, rowOf r = .ok row → test r = true → wanted r = true ∧ rowOf' r = .ok row)
    (hout : ∀ r row, rowOf r = .ok row → test r = false → wanted r = true →
      rowOf' r = .error .discarded) :
    ∀ {records : List Record} {rows : List Row}, records.map rowOf = rows.map .ok →
      Reader.rows wanted rowOf' (records.map .record) = (rowsWhere test records rows, .completed)
  | [], [], _ => rfl
  | [], _ :: _, h => by cases h
  | _ :: _, [], h => by cases h
  | r :: records, row :: rows, h => by
    simp only [List.map_cons, List.cons.injEq] at h
    obtain ⟨hrow, hrest⟩ := h
    have ih := rows_of_rows hin hout hrest
    rw [List.map_cons, Reader.rows, ih, rowsWhere_cons]
    cases ht : test r with
    | true =>
      obtain ⟨hw, hrow'⟩ := hin r row hrow ht
      rw [if_pos hw, hrow']
      rfl
    | false =>
      by_cases hw : wanted r = true
      · rw [if_pos hw, hout r row hrow ht hw]
        rfl
      · rw [if_neg hw]
        rfl

/-! ## Streams -/

/-- A plan brings exactly these rows and then its end, however long its queue is. -/
structure BringsExactly (store : Store) (plan : ScanPlan) (rows : List Row) : Prop where
  /-- A stream of the plan starts while the slot is free, and any number of pulls brings the first of
  the rows, and behind the last of them the end. -/
  pulls : ∀ capacity, ∃ stream slot, RowStream.start store .free plan capacity = .ok (stream, slot) ∧
    ∀ n slot, (stream.take n slot).1 = rows.take n ∧
      (stream.take n slot).2.1 = if rows.length < n then .finished else .unfinished
  /-- On every schedule of the two parties the answers so far are the first of the rows, and nothing
  for ever behind them; and a consumer that is free gets what comes next. -/
  schedules : ∃ decoder, Decoder.ofPlan store plan = .ok decoder ∧
    ∀ capacity, 1 ≤ capacity → ∀ turns e,
      (Exchange.start store .free plan decoder capacity).run turns = some e →
      e.answers = (List.range e.answers.length).map (fun i => (rows.map Item.row)[i]?) ∧
        (e.scan.consumer = .idle →
          (e.scan.next e.slot).1 = (rows.map Item.row)[e.answers.length]?)

open ColumnCondition

section
variable {store : Store} {nr : Nat} {symbol : Symbol} {selected : List Nat} {plan : ScanPlan}
  {reader : Reader}

/-- A filtered plan brings the rows of its reader, if these come to an end. -/
theorem bringsExactly_of_rows {decoder : Decoder} (hd : Decoder.ofPlan store plan = .ok decoder)
    (hf : plan.filtered = true) (hsymbol : store.symbolInfo plan.symbol = .ok symbol)
    (hreader : store.start plan.symbol = .ok reader) {rows : List Row}
    (hrows : reader.rows (store.recordMatches plan.filter) decoder.rowOf = (rows, .completed)) :
    BringsExactly store plan rows := by
  have hread : store.readRaw .free plan.symbol = .ok (reader, ⟨true⟩) := by
    simp only [Store.readRaw, hsymbol, hreader, ReaderSlot.acquire, ReaderSlot.free]
    rfl
  have hsend : ∀ capacity, (FilteredScan.start store plan decoder capacity).toSend .free =
      (rows, .completed) := by
    intro capacity
    simp only [FilteredScan.toSend, FilteredScan.start, hread, FilteredScan.rest, hrows]
  constructor
  · intro capacity
    obtain ⟨stream, slot, hstart, hbrings⟩ :=
      RowStream.brings_start_filtered hd hf .free capacity
    rw [hsend] at hbrings
    exact ⟨stream, slot, hstart, fun n slot => RowStream.take_of_brings n hbrings slot⟩
  · refine ⟨decoder, hd, fun capacity hcapacity turns e hrun => ?_⟩
    have hitems : FilteredScan.items rows .completed = rows.map Item.row := List.append_nil _
    have I₀ : Exchange.Inv _ _ (Exchange.start store .free plan decoder capacity) :=
      Exchange.inv_start (Decoder.agrees_ofPlan hd) capacity
    have I := Exchange.inv_run turns I₀ hrun
    rw [hsend] at I
    rw [← hitems]
    refine ⟨I.answers, fun hidle => (Exchange.next_answer I hidle ?_).1⟩
    rw [Exchange.capacity_run turns hrun]
    exact hcapacity

/-- A stream without conditions that comes to its end has shown every record of its symbol. -/
theorem rows_of_finished (hplan : ScanPlan.ofColumns nr (.ofSymbol symbol) selected [] = .ok plan)
    {stream : RowStream} {slot slot₁ : ReaderSlot} {capacity n : Nat}
    (hstart : RowStream.start store .free plan capacity = .ok (stream, slot))
    (hend : (stream.take n slot₁).2.1 = .finished) :
    ∃ decoder, Decoder.ofPlan store plan = .ok decoder ∧
      (store.records nr).map decoder.rowOf = (stream.take n slot₁).1.map .ok ∧
      store.start nr = .ok ((store.records nr).map .record) := by
  obtain ⟨decoder, rows, last, hd, hbrings, hrows⟩ := RowStream.brings_start hstart
  obtain ⟨hlast, htake⟩ := RowStream.all_of_finished hbrings hend
  obtain rfl : plan.symbol = nr := (ScanPlan.ofColumns_ok hplan).1
  rcases hrows with ⟨-, hne⟩ | ⟨reader, hreader, hrows, hcompleted⟩
  · exact absurd hlast hne
  · have hsat := fun r => satisfies_of_plan hplan hd r
    obtain ⟨taken, -, hmap, hall⟩ := Reader.rows_records (fun r row => (hsat r).1 row)
      (fun r => (hsat r).2.1) (fun r _ => (hsat r).2.2) reader
    obtain ⟨htaken, hrecords⟩ := hall (hcompleted hlast)
    have heq : store.records plan.symbol = reader.records := by
      simp only [Store.records, hreader]
    have hfilter : reader.records.filter
        (fun r => satisfies (store.labelAt r) (inForce [])) = reader.records :=
      List.filter_eq_self.2 fun _ _ => rfl
    refine ⟨decoder, hd, ?_, ?_⟩
    · rw [htake, hrows, heq, ← hmap, htaken, hfilter]
    · rw [heq, ← hrecords, hreader]

end

/-- **The two kinds of scan agree.** Let a stream of a selection without conditions, on a store whose
slot is free, come to its end without a failure. Then it has shown every record of its symbol, one
row each and in store order. And for any conditions on dimensions, at least one and no two different
labels in one dimension, the plan of the same selection brings exactly those of its rows, cell for
cell and in the same order, whose record satisfies all the conditions, and then ends: however long
its queue is and however its two parties take their turns. -/
theorem rows_of_unfiltered {store : Store} {nr : Nat} {symbol : Symbol}
    (hsymbol : store.symbolInfo nr = .ok symbol) {selected : List Nat} {plan : ScanPlan}
    (hplan : ScanPlan.ofColumns nr (.ofSymbol symbol) selected [] = .ok plan)
    {stream : RowStream} {slot slot₁ : ReaderSlot} {capacity n : Nat}
    (hstart : RowStream.start store .free plan capacity = .ok (stream, slot))
    (hend : (stream.take n slot₁).2.1 = .finished)
    {conditions : List ColumnCondition} (hne : conditions ≠ [])
    (hdim : ∀ c ∈ conditions, c.column < symbol.dimensions)
    (hone : ∀ c ∈ conditions, ∀ d ∈ conditions, c.column = d.column → c.value ≠ "" →
      d.value ≠ "" → c.value = d.value) :
    (∃ decoder, Decoder.ofPlan store plan = .ok decoder ∧
      (store.records nr).map (fun r => (decoder.decode r).1) =
        (stream.take n slot₁).1.map .ok) ∧
    ∃ plan' rows, ScanPlan.ofColumns nr (.ofSymbol symbol) selected conditions = .ok plan' ∧
      rows = rowsWhere (fun r => satisfies (store.labelAt r) conditions) (store.records nr)
        (stream.take n slot₁).1 ∧
      rows.Sublist (stream.take n slot₁).1 ∧ BringsExactly store plan' rows := by
  obtain ⟨decoder, hd, hrows, hreader⟩ := rows_of_finished hplan hstart hend
  have hdecode : (fun r => (decoder.decode r).1) = decoder.rowOf :=
    funext fun r => Decoder.decode_fst (Decoder.agrees_ofPlan hd) r
  refine ⟨⟨decoder, hd, by rw [hdecode]; exact hrows⟩, ?_⟩
  obtain ⟨filter, empties, hplan'⟩ := ScanPlan.ofColumns_of_nil hplan hdim
  have hd' := ScanPlan.ofPlan_of_nil hd filter empties (!conditions.isEmpty)
  have hlength : (stream.take n slot₁).1.length ≤ (store.records nr).length := by
    have := congrArg List.length hrows
    simp only [List.length_map] at this
    omega
  refine ⟨_, _, hplan', rfl, rowsWhere_sublist hlength, ?_⟩
  obtain rfl : plan.symbol = nr := (ScanPlan.ofColumns_ok hplan).1
  have hfiltered : (!conditions.isEmpty) = true := by
    simpa using hne
  refine bringsExactly_of_rows hd' hfiltered hsymbol hreader ?_
  -- what is in force says the same as all the conditions
  have hforce := fun r => satisfies_inForce_iff.2 (.inl hone) (store.labelAt r)
  have hsat := fun r => satisfies_of_plan hplan' hd' r
  simp only [hforce, ScanPlan.wants, hfiltered, Bool.not_true, Bool.false_or] at hsat
  refine Reader.rows_of_rows (fun r row hrow htest => ?_) (fun r row hrow htest hw => ?_) hrows
  · obtain ⟨-, hskip, hdiscard⟩ := hsat r
    constructor
    · refine (Bool.eq_false_or_eq_true _).resolve_right fun hw => ?_
      rw [hskip hw] at htest
      cases htest
    · refine (Decoder.rowOf_withEmpty empties hrow).resolve_right fun hdiscarded => ?_
      rw [hdiscard hdiscarded] at htest
      cases htest
  · refine (Decoder.rowOf_withEmpty empties hrow).resolve_left fun hrow' => ?_
    rw [(hsat r).1 row hw hrow'] at htest
    cases htest

/-- The sample store with a reader that does not fail. -/
def completeStore : Store :=
  { Exchange.sampleStore with start := fun _ => .ok (Exchange.sampleReader.records.map .record) }

/-- `j = ''` and `i = 'a'`, each of them twice. -/
def repeatedConditions : List ColumnCondition := [⟨1, ""⟩, ⟨0, "a"⟩, ⟨1, ""⟩, ⟨0, "a"⟩]

/-- Of three records the last is labelled `a` and the empty text. -/
theorem rows_of_unfiltered_sample : ∃ symbol plan stream slot plan',
    completeStore.symbolInfo 0 = .ok symbol ∧
      ScanPlan.ofColumns 0 (.ofSymbol symbol) [0, 1] [] = .ok plan ∧
      RowStream.start completeStore .free plan 1 = .ok (stream, slot) ∧
      (stream.take 4 slot).2.1 = .finished ∧ (stream.take 4 slot).1.length = 3 ∧
      ScanPlan.ofColumns 0 (.ofSymbol symbol) [0, 1] repeatedConditions = .ok plan' ∧
      BringsExactly completeStore plan'
        [⟨[some (.text "a"), some (.text ""), none, none]⟩] := by
  obtain ⟨-, plan', rows, hplan', hrows, -, hbrings⟩ :=
    @rows_of_unfiltered completeStore 0 _ rfl [0, 1] _ rfl _ _ ⟨true⟩ 1 4 rfl rfl repeatedConditions
      (by decide) (by decide) (by decide)
  refine ⟨_, _, _, _, plan', rfl, rfl, rfl, rfl, rfl, hplan', ?_⟩
  have hone : rows = [⟨[some (.text "a"), some (.text ""), none, none]⟩] := by
    rw [hrows]
    decide
  rw [← hone]
  exact hbrings

end SymbolTables
