import SymbolTables.Proofs.Scan.Stream

/-!
# Where an item comes from

Whatever a stream reports, at any pull and on any schedule, goes back to a single pull at the reader
of its symbol: a row or a failure of a record that was decoded, or a failure or a crash of the
reader itself (`Pull.item?`). Only a filtered scan adds something of its own, the failure of a
producer that got no reader, and the failure that stands for a crash.

* `RowStream.Only`: all that is still to come satisfies a predicate; a pull keeps it (`only_next`).
* `origin_of_delivered`: the origin of an item, for all pulls and all schedules.
-/
namespace SymbolTables

/-- What is reported of a record. -/
def itemOfRecord : Except NoRow Row → Option Item
  | .ok row => some (.row row)
  | .error .discarded => none
  | .error (.failed f) => some (.failed f)
  | .error .outsideLayout => some .crashed

/-- What is reported of a pull at a reader. -/
def Pull.item? (rowOf : Record → Except NoRow Row) : Pull → Option Item
  | .record r => itemOfRecord (rowOf r)
  | .failed f => some (.failed f)
  | .crashed => some .crashed

/-! ## Readers -/

namespace Reader

/-- All that a walk over a reader reports: its rows and what ends it. -/
def items (walk : List Row × Outcome) : List Item :=
  walk.1.map .row ++ (SequentialScan.lastItem walk.2).toList

theorem item_of_mem_items {wanted : Record → Bool} {rowOf : Record → Except NoRow Row} {item : Item}
    (reader : Reader) (h : item ∈ items (reader.rows wanted rowOf)) :
    ∃ pull ∈ reader, pull.item? rowOf = some item := by
  induction reader with
  | nil => cases h
  | cons first rest ih =>
    have here : first.item? rowOf = some item →
        ∃ pull ∈ first :: rest, pull.item? rowOf = some item :=
      fun hitem => ⟨first, List.mem_cons_self, hitem⟩
    have later : item ∈ items (rows wanted rowOf rest) →
        ∃ pull ∈ first :: rest, pull.item? rowOf = some item := by
      intro hrest
      obtain ⟨pull, hmem, hitem⟩ := ih hrest
      exact ⟨pull, List.mem_cons_of_mem _ hmem, hitem⟩
    cases first with
    | failed f => exact here (congrArg some (List.mem_singleton.1 h).symm)
    | crashed => exact here (congrArg some (List.mem_singleton.1 h).symm)
    | record r =>
      unfold rows at h
      split at h
      · change itemOfRecord (rowOf r) = some item → _ at here
        generalize rowOf r = result at h here
        cases result with
        | ok row =>
          rcases List.mem_cons.1 h with rfl | hrest
          · exact here rfl
          · exact later hrest
        | error e =>
          cases e with
          | discarded => exact later h
          | failed f => exact here (congrArg some (List.mem_singleton.1 h).symm)
          | outsideLayout => exact here (congrArg some (List.mem_singleton.1 h).symm)
      · exact later h

end Reader

/-! ## Pulls -/

/-- A sequential scan reports what a pull at its reader gives, and goes on with the rest of it. -/
theorem SequentialScan.item_of_advance :
    ∀ {reader : Reader} {d : Decoder}, d.cache.Agrees d.store →
      (∀ item, (advance d reader).1 = some item → ∃ pull ∈ reader, pull.item? d.rowOf = some item) ∧
        ∀ reader', (advance d reader).2.1 = some reader' → reader' ⊆ reader ∧
          (advance d reader).2.2.cache.Agrees (advance d reader).2.2.store ∧
          (advance d reader).2.2.rowOf = d.rowOf
  | [], d, _ => ⟨fun _ h => (by cases h), fun _ h => (by cases h)⟩
  | .failed f :: rest, d, _ => ⟨fun _ h => ⟨_, List.mem_cons_self, h⟩, fun _ h => (by cases h)⟩
  | .crashed :: rest, d, ha => by
    refine ⟨fun _ h => ⟨_, List.mem_cons_self, h⟩, fun reader' h => ?_⟩
    cases h
    exact ⟨List.subset_cons_self _ _, ha, rfl⟩
  | .record r :: rest, d, ha => by
    have hd := Decoder.decode_fst ha r
    have ha' := Decoder.agrees_decode ha r
    have hr := Decoder.rowOf_decode d r
    have here : ∀ item, itemOfRecord (d.rowOf r) = some item →
        ∃ pull ∈ Pull.record r :: rest, pull.item? d.rowOf = some item :=
      fun item hitem => ⟨_, List.mem_cons_self, hitem⟩
    unfold advance
    generalize d.decode r = a at hd ha' hr ⊢
    obtain ⟨result, d'⟩ := a
    simp only at hd ha' hr
    rw [← hd] at here
    cases result with
    | ok row =>
      refine ⟨here, fun reader' h => ?_⟩
      cases h
      exact ⟨List.subset_cons_self _ _, ha', hr⟩
    | error e =>
      cases e with
      | discarded =>
        obtain ⟨hitem, hrest⟩ := @item_of_advance rest _ ha'
        rw [hr] at hitem hrest
        refine ⟨fun item h => ?_, fun reader' h => ?_⟩
        · obtain ⟨pull, hmem, hpull⟩ := hitem item h
          exact ⟨pull, List.mem_cons_of_mem _ hmem, hpull⟩
        · obtain ⟨hsub, hagrees, hrow⟩ := hrest reader' h
          exact ⟨List.Subset.trans hsub (List.subset_cons_self _ _), hagrees, hrow⟩
      | failed f => exact ⟨here, fun _ h => (by cases h)⟩
      | outsideLayout =>
        refine ⟨here, fun reader' h => ?_⟩
        cases h
        exact ⟨List.subset_cons_self _ _, ha', hr⟩

namespace RowStream

/-- The answers to pulls, for each of them the slot as it finds it. -/
def pulls : List ReaderSlot → RowStream → List (Option Item)
  | [], _ => []
  | slot :: slots, s => (s.next slot).1 :: pulls slots (s.next slot).2.2

/-- All items that are still to come satisfy a predicate. -/
def Only (P : Item → Prop) (s : RowStream) : Prop :=
  match s.scan with
  | .sequential scan => ∀ reader, scan.reader = some reader →
      scan.decoder.cache.Agrees scan.decoder.store ∧
        ∀ pull ∈ reader, ∀ item, pull.item? scan.decoder.rowOf = some item → P item
  | .filtered scan => ∃ rows o slot answers, Exchange.Ready rows o ⟨slot, scan, answers⟩ ∧
      ∀ item ∈ FilteredScan.items rows o, P item

section
variable {P : Item → Prop} {s : RowStream}

theorem only_next (h : s.Only P) (slot : ReaderSlot) :
    (∀ item, (s.next slot).1 = some item → P item) ∧ (s.next slot).2.2.Only P := by
  obtain ⟨schema, scan⟩ := s
  cases scan with
  | sequential scan =>
    cases hr : scan.reader with
    | none =>
      simp only [next, SequentialScan.next, hr]
      exact ⟨fun _ he => (by cases he), h⟩
    | some reader =>
      obtain ⟨ha, hp⟩ := h reader hr
      obtain ⟨hitem, hrest⟩ := @SequentialScan.item_of_advance reader _ ha
      simp only [next, SequentialScan.next, hr]
      refine ⟨fun item he => ?_, fun reader' he => ?_⟩
      · obtain ⟨pull, hmem, hpull⟩ := hitem item he
        exact hp pull hmem item hpull
      · obtain ⟨hsub, hagrees, hrow⟩ := hrest reader' he
        refine ⟨hagrees, fun pull hmem item hpull => hp pull (hsub hmem) item ?_⟩
        rw [← hrow]
        exact hpull
  | filtered scan =>
    obtain ⟨rows, o, slot₀, answers, R, hp⟩ := h
    have R' := R.of_slot slot
    obtain ⟨hitem, R₁⟩ := Exchange.next_answer R'.toInv R'.idle R'.capacity
    refine ⟨fun item he => ?_, rows, o, _, _, R₁, hp⟩
    exact hp item (List.mem_of_getElem? (hitem.symm.trans he))

theorem only_pulls (slots : List ReaderSlot) (h : s.Only P) :
    ∀ item, some item ∈ s.pulls slots → P item := by
  induction slots generalizing s with
  | nil => exact fun _ hi => nomatch hi
  | cons slot slots ih =>
    intro item hi
    obtain ⟨hitem, hnext⟩ := only_next h slot
    rcases List.mem_cons.1 hi with he | hi
    · exact hitem item he.symm
    · exact ih hnext item hi

end
end RowStream

/-! ## Plans -/

/-- An item that is reported somewhere: at one of the pulls at a stream of the plan, or to the
consumer of a filtered scan of the plan on one of the schedules. -/
inductive Delivered (store : Store) (slot : ReaderSlot) (plan : ScanPlan) (item : Item) : Prop
  | pulled {capacity : Nat} {stream : RowStream} {slot' : ReaderSlot} {slots : List ReaderSlot}
      (start : RowStream.start store slot plan capacity = .ok (stream, slot'))
      (answer : some item ∈ stream.pulls slots)
  | answered {decoder : Decoder} {capacity : Nat} {turns : List Turn} {e : Exchange}
      (decodes : Decoder.ofPlan store plan = .ok decoder) (filtered : plan.filtered = true)
      (run : (Exchange.start store slot plan decoder capacity).run turns = some e)
      (answer : some item ∈ e.answers)

/-- Where an item comes from. -/
inductive Origin (store : Store) (slot : ReaderSlot) (plan : ScanPlan) (decoder : Decoder) :
    Item → Prop
  /-- From a pull at the reader of the symbol. -/
  | pull {reader : Reader} {pull : Pull} {item : Item}
      (start : store.start plan.symbol = .ok reader) (mem : pull ∈ reader)
      (item_eq : pull.item? decoder.rowOf = some item) : Origin store slot plan decoder item
  /-- The producer of a filtered scan got no reader. -/
  | unread {f : Failure} (read : store.readRaw slot plan.symbol = .error f) :
      Origin store slot plan decoder (.failed f)
  /-- The producer of a filtered scan broke down at a pull. -/
  | crash {reader : Reader} {pull : Pull} (start : store.start plan.symbol = .ok reader)
      (mem : pull ∈ reader) (item_eq : pull.item? decoder.rowOf = some .crashed) :
      Origin store slot plan decoder (.failed Outcome.crashFailure)

section
variable {store : Store} {slot : ReaderSlot} {plan : ScanPlan} {decoder : Decoder} {item : Item}

/-- What a filtered scan has to say when it starts. -/
theorem origin_of_items {capacity : Nat}
    (h : item ∈ FilteredScan.items
      ((FilteredScan.start store plan decoder capacity).toSend slot).1
      ((FilteredScan.start store plan decoder capacity).toSend slot).2) :
    Origin store slot plan decoder item := by
  simp only [FilteredScan.toSend, FilteredScan.start, FilteredScan.rest] at h
  cases hread : store.readRaw slot plan.symbol with
  | error f =>
    simp only [hread, FilteredScan.items, Outcome.item, List.map_nil, List.nil_append,
      Option.toList_some, List.mem_singleton] at h
    subst h
    exact .unread hread
  | ok p =>
    have hstart := Store.start_of_readRaw hread
    simp only [hread] at h
    have hreader : ∀ item, item ∈ Reader.items
        (p.1.rows (store.recordMatches plan.filter) decoder.rowOf) →
          ∃ pull ∈ p.1, pull.item? decoder.rowOf = some item :=
      fun _ hmem => Reader.item_of_mem_items p.1 hmem
    rcases List.mem_append.1 h with h | h
    · obtain ⟨pull, hmem, hitem⟩ := hreader item (List.mem_append_left _ h)
      exact .pull hstart hmem hitem
    · have hlast : ∀ last, SequentialScan.lastItem
          (p.1.rows (store.recordMatches plan.filter) decoder.rowOf).2 = some last →
            ∃ pull ∈ p.1, pull.item? decoder.rowOf = some last := fun last heq =>
        hreader last (List.mem_append_right _ (by rw [heq]; exact List.mem_singleton_self _))
      generalize (p.1.rows (store.recordMatches plan.filter) decoder.rowOf).2 = o at h hlast
      cases o with
      | completed => cases h
      | failed f =>
        obtain ⟨pull, hmem, hitem⟩ := hlast _ rfl
        obtain rfl := List.mem_singleton.1 h
        exact .pull hstart hmem hitem
      | crashed =>
        obtain ⟨pull, hmem, hitem⟩ := hlast _ rfl
        obtain rfl := List.mem_singleton.1 h
        exact .crash hstart hmem hitem

/-- All that a stream reports that has just been started goes back to its store. -/
theorem only_of_start (hd : Decoder.ofPlan store plan = .ok decoder) {capacity : Nat}
    {stream : RowStream} {slot' : ReaderSlot}
    (h : RowStream.start store slot plan capacity = .ok (stream, slot')) :
    stream.Only (Origin store slot plan decoder) := by
  by_cases hf : plan.filtered = true
  · simp only [RowStream.start, hd, hf, bind, Except.bind, pure, Except.pure, if_true,
      Except.ok.injEq, Prod.mk.injEq] at h
    obtain ⟨rfl, -⟩ := h
    have I : Exchange.Inv _ _ (Exchange.start store slot plan decoder (max capacity 1)) :=
      Exchange.inv_start (Decoder.agrees_ofPlan hd) _
    exact ⟨_, _, _, _, Exchange.ready_settle I rfl (Nat.le_max_right _ _),
      fun item hi => origin_of_items hi⟩
  · simp only [RowStream.start, hd, bind, Except.bind, pure, Except.pure, if_neg hf] at h
    cases hread : store.readRaw slot plan.symbol with
    | error f =>
      rw [hread] at h
      cases h
    | ok p =>
      simp only [hread, Except.ok.injEq, Prod.mk.injEq] at h
      obtain ⟨rfl, -⟩ := h
      intro reader hreader
      cases hreader
      refine ⟨Decoder.agrees_ofPlan hd, fun pull hmem item hitem => ?_⟩
      exact .pull (Store.start_of_readRaw hread) hmem hitem

/-- **The origin of an item.** Whatever is reported of a plan, at whichever pull and on whichever
schedule, comes from one pull at the reader of its symbol; a filtered scan also reports that it got
no reader, and reports a crash as a failure. -/
theorem origin_of_delivered (hd : Decoder.ofPlan store plan = .ok decoder)
    (h : Delivered store slot plan item) : Origin store slot plan decoder item := by
  cases h with
  | pulled hstart hitem => exact RowStream.only_pulls _ (only_of_start hd hstart) item hitem
  | answered hd' hf hrun hitem =>
    obtain rfl := Except.ok.inj (hd'.symm.trans hd)
    have I := Exchange.inv_run _ (Exchange.inv_start (Decoder.agrees_ofPlan hd) _) hrun
    rw [I.answers] at hitem
    obtain ⟨i, -, hi⟩ := List.mem_map.1 hitem
    exact origin_of_items (List.mem_of_getElem? hi)

/-- A row that goes back to the store is the row of a record. -/
theorem rowOf_of_origin {row : Row} (h : Origin store slot plan decoder (.row row)) :
    ∃ r, decoder.rowOf r = .ok row := by
  cases h with
  | @pull _ pull _ _ _ hitem =>
    cases pull with
    | failed f => cases hitem
    | crashed => cases hitem
    | record r =>
      simp only [Pull.item?] at hitem
      cases hr : decoder.rowOf r with
      | ok row' =>
        rw [hr] at hitem
        cases hitem
        exact ⟨r, hr⟩
      | error e => rw [hr] at hitem; cases e <;> cases hitem

/-- A row that is delivered is the row of a record. -/
theorem rowOf_of_delivered (hd : Decoder.ofPlan store plan = .ok decoder) {row : Row}
    (h : Delivered store slot plan (.row row)) : ∃ r, decoder.rowOf r = .ok row :=
  rowOf_of_origin (origin_of_delivered hd h)

end
end SymbolTables
