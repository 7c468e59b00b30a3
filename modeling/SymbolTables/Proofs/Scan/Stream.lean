import SymbolTables.Proofs.Scan.Exchange

/-!
# What a stream brings

`RowStream.Brings s rows last` says that pulling `s` brings `rows` and then the answer `last`, with
whatever the slot is at each pull: for a sequential scan by the rest of its reader, for a filtered
scan by the invariant of its schedules.

* `next_of_brings_cons`, `next_of_brings_nil`: one pull.
* `take_of_brings`: any number of pulls.
* `brings_start`: what a stream that has just been started brings.
-/
namespace SymbolTables

namespace Exchange

theorem producerStep_eq_none_of_slot {slot : ReaderSlot} (slot' : ReaderSlot) {s : FilteredScan}
    (h : FilteredScan.producerStep slot s = none) : FilteredScan.producerStep slot' s = none := by
  unfold FilteredScan.producerStep at h ⊢
  repeat' split at h
  all_goals cases h
  · rename_i hp hl hq
    simp only [hl, hq, Bool.false_eq_true, if_false]
  · rfl

/-- A producer that has gone as far as it can has nothing more to do with the slot. -/
theorem Ready.of_slot {rows : List Row} {o : Outcome} {slot : ReaderSlot} (slot' : ReaderSlot)
    {s : FilteredScan} {answers : List (Option Item)} (R : Ready rows o ⟨slot, s, answers⟩) :
    Ready rows o ⟨slot', s, answers⟩ := by
  obtain ⟨⟨ha, hst⟩, hi, hc, hs⟩ := R
  have ht : s.toSend slot' = s.toSend slot := by
    rcases FilteredScan.producerStep_eq_none hs with ⟨o', hp⟩ | ⟨row, reader, d, hp, -⟩
    · simp only at hp
      simp only [FilteredScan.toSend, hp]
    · simp only at hp
      simp only [FilteredScan.toSend, hp]
  refine ⟨⟨ha, ?_⟩, hi, hc, producerStep_eq_none_of_slot slot' hs⟩
  cases hst with
  | streaming hl hn hj hw hsnd hr hlen ho =>
    exact .streaming hl hn hj hw hsnd (by simp only [ht]; exact hr) hlen
      (by simp only [ht]; exact ho)
  | closed hl hn hj hw hp hlen => exact .closed hl hn hj hw hp hlen
  | ended hl hn hj hw hp hlen => exact .ended hl hn hj hw hp hlen
  | dropping hn hw => exact .dropping hn hw

end Exchange

theorem Outcome.completed_of_item {o : Outcome} (h : o.item = none) : o = .completed := by
  cases o <;> first | rfl | cases h

theorem SequentialScan.completed_of_lastItem {o : Outcome} (h : lastItem o = none) :
    o = .completed := by
  cases o <;> first | rfl | cases h

/-- Whether a scan of the plan looks closer at a record. -/
def ScanPlan.wants (p : ScanPlan) (store : Store) (r : Record) : Bool :=
  !p.filtered || store.recordMatches p.filter r

theorem Store.start_of_readRaw {store : Store} {slot : ReaderSlot} {nr : Nat}
    {p : Reader × ReaderSlot} (h : store.readRaw slot nr = .ok p) : store.start nr = .ok p.1 := by
  unfold readRaw at h
  cases hs : store.symbolInfo nr with
  | error f => rw [hs] at h; cases h
  | ok symbol =>
    cases ha : slot.acquire store.locator with
    | error f => rw [hs, ha] at h; cases h
    | ok slot' =>
      cases hr : store.start nr with
      | error f => rw [hs, ha, hr] at h; cases h
      | ok reader => rw [hs, ha, hr] at h; cases h; rfl

/-- How a stream has ended whose last answer this is. -/
def Ending.ofLast : Option Item → Ending
  | some (.failed f) => .failed f
  | some .crashed => .crashed
  | _ => .finished

namespace RowStream

/-- Pulling the stream brings the rows and then the answer `last`. -/
def Brings (s : RowStream) (rows : List Row) (last : Option Item) : Prop :=
  match s.scan with
  | .sequential scan => ∃ reader o, scan.reader = some reader ∧
      scan.decoder.cache.Agrees scan.decoder.store ∧
      SequentialScan.rest scan.decoder reader = (rows, o) ∧ last = SequentialScan.lastItem o
  | .filtered scan => ∃ all o slot answers, Exchange.Ready all o ⟨slot, scan, answers⟩ ∧
      answers.length ≤ all.length ∧ rows = all.drop answers.length ∧ last = o.item

/-- A pull brings the first of the rows. -/
theorem next_of_brings_cons {s : RowStream} {row : Row} {rows : List Row} {last : Option Item}
    (h : s.Brings (row :: rows) last) (slot : ReaderSlot) :
    ∃ slot' s', s.next slot = (some (.row row), slot', s') ∧ s'.Brings rows last ∧
      s'.schema = s.schema := by
  obtain ⟨schema, scan⟩ := s
  cases scan with
  | sequential scan =>
    obtain ⟨reader, o, hr, ha, hrest, hlast⟩ := h
    obtain ⟨reader', d', hadv, ha', hrest'⟩ := SequentialScan.advance_row ha hrest
    refine ⟨slot, ⟨schema, .sequential ⟨some reader', d'⟩⟩, ?_, ?_, rfl⟩
    · simp only [next, SequentialScan.next, hr, hadv, Option.isSome_some, if_true]
    · exact ⟨reader', o, rfl, ha', hrest', hlast⟩
  | filtered scan =>
    obtain ⟨all, o, slot₀, answers, R, hlen, hrows, hlast⟩ := h
    have R' := R.of_slot slot
    obtain ⟨hitem, R₁⟩ := Exchange.next_answer R'.toInv R'.idle R'.capacity
    rw [FilteredScan.items_row hrows.symm] at hitem
    have hlt : answers.length < all.length := by
      have := congrArg List.length hrows
      simp only [List.length_cons, List.length_drop] at this; omega
    refine ⟨(scan.next slot).2.1, ⟨schema, .filtered (scan.next slot).2.2⟩, ?_, ?_, rfl⟩
    · rw [← hitem]; rfl
    · refine ⟨all, o, _, _, R₁, ?_, ?_, hlast⟩
      · simp only [List.length_append, List.length_singleton]; omega
      · simp only [List.length_append, List.length_singleton]
        rw [← List.drop_drop, ← hrows]; rfl

/-- A pull behind the rows brings the last answer. -/
theorem next_of_brings_nil {s : RowStream} {last : Option Item} (h : s.Brings [] last)
    (slot : ReaderSlot) : (s.next slot).1 = last := by
  obtain ⟨schema, scan⟩ := s
  cases scan with
  | sequential scan =>
    obtain ⟨reader, o, hr, ha, hrest, hlast⟩ := h
    simp only [next, SequentialScan.next, hr]
    rw [hlast]; exact SequentialScan.advance_end ha hrest
  | filtered scan =>
    obtain ⟨all, o, slot₀, answers, R, hlen, hrows, hlast⟩ := h
    have R' := R.of_slot slot
    have hitem := (Exchange.next_answer R'.toInv R'.idle R'.capacity).1
    have hge : all.length ≤ answers.length := List.drop_eq_nil_iff.1 hrows.symm
    rw [Nat.le_antisymm hlen hge, FilteredScan.items_last] at hitem
    rw [hlast]; exact hitem

theorem last_of_brings {s : RowStream} {rows : List Row} {last : Option Item}
    (h : s.Brings rows last) : ∀ row, last ≠ some (.row row) := by
  intro row he
  obtain ⟨schema, scan⟩ := s
  cases scan with
  | sequential scan =>
    obtain ⟨_, o, _, _, _, hlast⟩ := h
    rw [hlast] at he; cases o <;> cases he
  | filtered scan =>
    obtain ⟨_, o, _, _, _, _, _, hlast⟩ := h
    rw [hlast] at he; cases o <;> cases he

theorem eq_none_of_finished {last : Option Item} (h : ∀ row, last ≠ some (.row row))
    (he : Ending.ofLast last = .finished) : last = none := by
  cases last with
  | none => rfl
  | some item =>
    cases item with
    | row row => exact absurd rfl (h row)
    | failed f => cases he
    | crashed => cases he

/-- Any number of pulls brings the first of the rows, and all of them and the end if there are
enough pulls. -/
theorem take_of_brings {last : Option Item} :
    ∀ (n : Nat) {s : RowStream} {rows : List Row}, s.Brings rows last → ∀ slot : ReaderSlot,
      (s.take n slot).1 = rows.take n ∧
        (s.take n slot).2.1 = if rows.length < n then Ending.ofLast last else .unfinished
  | 0, s, rows, _, slot => by simp [take]
  | n + 1, s, [], h, slot => by
    have hn := next_of_brings_nil h slot
    have hrow := last_of_brings h
    unfold take
    generalize s.next slot = p at hn ⊢
    obtain ⟨item, slot', s'⟩ := p
    simp only at hn
    subst hn
    cases item with
    | none => simp [Ending.ofLast]
    | some item =>
      cases item with
      | row row => exact absurd rfl (hrow row)
      | failed f => simp [Ending.ofLast]
      | crashed => simp [Ending.ofLast]
  | n + 1, s, row :: rows, h, slot => by
    obtain ⟨slot', s', hn, h', -⟩ := next_of_brings_cons h slot
    obtain ⟨h₁, h₂⟩ := take_of_brings n h' slot'
    unfold take
    rw [hn]
    refine ⟨?_, ?_⟩
    · simp only [List.take_succ_cons, ← h₁]
    · simp only [List.length_cons, Nat.add_lt_add_iff_right]
      exact h₂

/-- The end of a stream that has come to it, and all its rows. -/
theorem all_of_finished {s : RowStream} {rows : List Row} {last : Option Item}
    (h : s.Brings rows last) {n : Nat} {slot : ReaderSlot}
    (he : (s.take n slot).2.1 = .finished) : last = none ∧ (s.take n slot).1 = rows := by
  obtain ⟨htake, hend⟩ := take_of_brings n h slot
  rw [hend] at he
  split at he
  · rename_i hlt
    refine ⟨eq_none_of_finished (last_of_brings h) he, ?_⟩
    rw [htake, List.take_of_length_le (Nat.le_of_lt hlt)]
  · cases he

/-! ## Streams that have just been started -/

/-- A filtered scan starts whether it gets a reader or not, and brings what its producer has to send.
-/
theorem brings_start_filtered {store : Store} {plan : ScanPlan} {decoder : Decoder}
    (hd : Decoder.ofPlan store plan = .ok decoder) (hf : plan.filtered = true) (slot : ReaderSlot)
    (capacity : Nat) :
    ∃ stream slot', start store slot plan capacity = .ok (stream, slot') ∧
      stream.Brings ((FilteredScan.start store plan decoder (max capacity 1)).toSend slot).1
        ((FilteredScan.start store plan decoder (max capacity 1)).toSend slot).2.item := by
  have I : Exchange.Inv _ _ (Exchange.start store slot plan decoder (max capacity 1)) :=
    Exchange.inv_start (Decoder.agrees_ofPlan hd) _
  have R := Exchange.ready_settle I rfl (Nat.le_max_right _ _)
  have hstart : start store slot plan capacity =
      .ok (⟨plan.schema, .filtered
          ((FilteredScan.start store plan decoder (max capacity 1)).settle slot).2⟩,
        ((FilteredScan.start store plan decoder (max capacity 1)).settle slot).1) := by
    simp only [start, hd, hf, bind, Except.bind, pure, Except.pure, if_true]
  exact ⟨_, _, hstart, _, _, _, _, R, Nat.zero_le _, rfl, rfl⟩

/-- What a stream has to say that has just been started: the rows of the reader of its symbol, and
that they are over only if the reader has been walked through. A filtered scan that does not get a
reader starts all the same, and fails at the first pull. -/
theorem brings_start {store : Store} {slot slot' : ReaderSlot} {plan : ScanPlan} {capacity : Nat}
    {stream : RowStream} (h : start store slot plan capacity = .ok (stream, slot')) :
    ∃ decoder rows last, Decoder.ofPlan store plan = .ok decoder ∧ stream.Brings rows last ∧
      (rows = [] ∧ last ≠ none ∨ ∃ reader, store.start plan.symbol = .ok reader ∧
        rows = (reader.rows (plan.wants store) decoder.rowOf).1 ∧
        (last = none → (reader.rows (plan.wants store) decoder.rowOf).2 = .completed)) := by
  cases hd : Decoder.ofPlan store plan with
  | error f => simp only [start, hd, bind, Except.bind] at h; cases h
  | ok decoder =>
    by_cases hf : plan.filtered = true
    · obtain ⟨stream', slot₁, hs, hb⟩ := brings_start_filtered hd hf slot capacity
      rw [h] at hs
      cases hs
      refine ⟨decoder, _, _, rfl, hb, ?_⟩
      have hw : plan.wants store = store.recordMatches plan.filter := by
        funext r; simp only [ScanPlan.wants, hf, Bool.not_true, Bool.false_or]
      simp only [FilteredScan.toSend, FilteredScan.start, hw]
      cases hr : store.readRaw slot plan.symbol with
      | error f => exact .inl ⟨rfl, by simp [Outcome.item]⟩
      | ok p =>
        refine .inr ⟨p.1, Store.start_of_readRaw hr, rfl, fun hl => ?_⟩
        simp only at hl
        exact Outcome.completed_of_item hl
    · have hw : plan.wants store = fun _ => true := by
        funext r; simp only [ScanPlan.wants, hf, Bool.not_false, Bool.true_or]
      simp only [start, hd, bind, Except.bind, pure, Except.pure, if_neg hf] at h
      cases hr : store.readRaw slot plan.symbol with
      | error f => simp only [hr] at h; cases h
      | ok p =>
        simp only [hr, Except.ok.injEq, Prod.mk.injEq] at h
        obtain ⟨rfl, -⟩ := h
        refine ⟨decoder, _, _, rfl, ⟨p.1, _, rfl, Decoder.agrees_ofPlan hd, rfl, rfl⟩,
          .inr ⟨p.1, Store.start_of_readRaw hr, ?_⟩⟩
        rw [hw]
        exact ⟨rfl, SequentialScan.completed_of_lastItem⟩

end RowStream
end SymbolTables
