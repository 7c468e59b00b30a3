import SymbolTables.Proofs.Scan.Exchange

/-!
# The producer is a filtered read

`Store.readFiltered` pulls a reader to its end and hands the records that match to a receiver. The
producer of a filtered scan is such a read: its receiver decodes a record and sends the row
(`FilteredScan.receive`), and its single steps are those of `producerStep`.

* `settle_matched`, `settle_reading`: a producer that is left alone, with room for its rows in the
  queue, does what the read does, whatever the flags are.
* `toSend_start`: what a scan has to send when it starts is what the read hands over.
* `answers_of_read`: on every schedule the consumer is answered with what the read hands over.
-/
namespace SymbolTables

/-- How a producer ends whose read ends so. -/
def WalkEnd.outcome : WalkEnd → Outcome
  | .completed => .completed
  | .failed f => .failed f
  | .crashed => .crashed

theorem Store.release_of_readRaw {store : Store} {slot : ReaderSlot} {nr : Nat}
    {p : Reader × ReaderSlot} (h : store.readRaw slot nr = .ok p) : p.2.release = slot := by
  unfold readRaw at h
  cases hs : store.symbolInfo nr with
  | error f => rw [hs] at h; cases h
  | ok symbol =>
    cases ha : slot.acquire store.locator with
    | error f => rw [hs, ha] at h; cases h
    | ok slot' =>
      obtain ⟨active⟩ := slot
      obtain rfl : active = false := (ReaderSlot.active_of_acquire ha).1
      rfl

namespace FilteredScan

/-- What the producer does with a record that matches, for the queue and the decoder: it decodes it,
and sends the row as long as the consumer listens. -/
def receive (listening : Bool) (state : List Row × Decoder) (r : Record) :
    Verdict (List Row × Decoder) :=
  match state.2.decode r with
  | (.ok row, decoder) =>
    if listening then .proceed (state.1 ++ [row], decoder) false else .stop (state.1, decoder)
  | (.error .discarded, decoder) => .proceed (state.1, decoder) false
  | (.error (.failed f), decoder) => .fail (state.1, decoder) f
  | (.error .outsideLayout, decoder) => .crash (state.1, decoder)

/-- A receiver that goes on leaves the flag down, and has sent one row at most. -/
theorem receive_proceed {listening cancelled : Bool} {queue : List Row} {decoder : Decoder}
    {r : Record} {state : List Row × Decoder}
    (h : receive listening (queue, decoder) r = .proceed state cancelled) :
    cancelled = false ∧ state.1.length ≤ queue.length + 1 := by
  unfold receive at h
  split at h
  · split at h
    · cases h
      exact ⟨rfl, by simp⟩
    · cases h
  · cases h
    exact ⟨rfl, Nat.le_succ _⟩
  · cases h
  · cases h

/-- The scan with another queue and another place of its producer. -/
def place (s : FilteredScan) (queue : List Row) (producer : Producer) : FilteredScan :=
  { s with queue, producer }

/-- The scan when its producer has gone, the read having ended like this. -/
def ended (s : FilteredScan) (read : (List Row × Decoder) × WalkEnd) : FilteredScan :=
  s.place read.1.1 (.gone read.2.outcome)

/-! ## Single steps -/

section
variable {slot slot' : ReaderSlot} {s s' : FilteredScan} {queue : List Row} {decoder : Decoder}
  {rest : Reader}

theorem step_starting :
    producerStep slot (s.place queue (.starting decoder)) =
      match s.store.readRaw slot s.symbol with
      | .error f => some (slot, s.place queue (.leaving (.failed f)))
      | .ok (reader, slot) => some (slot, s.place queue (.reading reader decoder)) := rfl

theorem step_pulled (pull : Pull) :
    producerStep slot (s.place queue (.pulled pull rest decoder)) =
      if s.cancelled then some (slot.release, s.place queue (.leaving .completed))
      else match pull with
        | .failed f => some (slot.release, s.place queue (.leaving (.failed f)))
        | .crashed => some (slot.release, s.place queue (.leaving .crashed))
        | .record r =>
          if s.store.recordMatches s.filter r then
            some (slot, s.place queue (.matched r rest decoder))
          else some (slot, s.place queue (.reading rest decoder)) := rfl

theorem step_matched (r : Record) :
    producerStep slot (s.place queue (.matched r rest decoder)) =
      if s.cancelled then some (slot.release, s.place queue (.leaving .completed))
      else match decoder.decode r with
        | (.ok row, decoder) => some (slot, s.place queue (.sending row rest decoder))
        | (.error .discarded, decoder) => some (slot, s.place queue (.reading rest decoder))
        | (.error (.failed f), _) => some (slot.release, s.place queue (.leaving (.failed f)))
        | (.error .outsideLayout, _) => some (slot.release, s.place queue (.leaving .crashed)) := rfl

theorem step_sending (row : Row) :
    producerStep slot (s.place queue (.sending row rest decoder)) =
      if !s.listening then some (slot.release, s.place queue (.leaving .completed))
      else if queue.length < s.capacity then
        some (slot, s.place (queue ++ [row]) (.reading rest decoder))
      else none := rfl

/-! ## A producer that is left alone -/

theorem settle_step (h : producerStep slot s = some (slot', s')) :
    s.settle slot = s'.settle slot' := by
  rw [settle]
  split
  · rename_i hnone
    rw [h] at hnone
    cases hnone
  · rename_i hsome
    rw [h] at hsome
    cases hsome
    rfl

/-- A producer that leaves is gone with its next step. -/
theorem settle_leave {outcome : Outcome}
    (h : producerStep slot s = some (slot', s'.place queue (.leaving outcome))) :
    s.settle slot = (slot', s'.place queue (.gone outcome)) := by
  have hgo : producerStep slot' (s'.place queue (.leaving outcome)) =
      some (slot', s'.place queue (.gone outcome)) := rfl
  rw [settle_step h, settle_step hgo, settle]
  split
  · rfl
  · rename_i hsome
    cases hsome

/-- With room in the queue, a record that matches is treated as the receiver says: either the producer
goes on with the rest of its reader, or it leaves. -/
theorem settle_matched (r : Record) (hc : s.cancelled = false)
    (hroom : queue.length < s.capacity) :
    (s.place queue (.matched r rest decoder)).settle slot =
      match receive s.listening (queue, decoder) r with
      | .proceed state _ => (s.place state.1 (.reading rest state.2)).settle slot
      | .stop state => (slot.release, s.ended (state, .completed))
      | .fail state f => (slot.release, s.ended (state, .failed f))
      | .crash state => (slot.release, s.ended (state, .crashed)) := by
  have hstep := @step_matched slot s queue decoder rest r
  rw [hc, if_neg Bool.false_ne_true] at hstep
  unfold receive
  cases hd : decoder.decode r with
  | mk result decoder' =>
    rw [hd] at hstep
    cases result with
    | ok row =>
      rw [settle_step hstep]
      have hsend := @step_sending slot s queue decoder' rest row
      cases hl : s.listening with
      | true =>
        rw [hl, if_neg (by decide), if_pos hroom] at hsend
        exact settle_step hsend
      | false =>
        rw [hl, if_pos (by decide)] at hsend
        exact settle_leave hsend
    | error e =>
      cases e with
      | discarded => exact settle_step hstep
      | failed f => exact settle_leave hstep
      | outsideLayout => exact settle_leave hstep

/-- A pull that does not break down is taken with a step of its own. -/
theorem settle_pull {pull : Pull} (h : pull ≠ .crashed) :
    (s.place queue (.reading (pull :: rest) decoder)).settle slot =
      (s.place queue (.pulled pull rest decoder)).settle slot := by
  apply settle_step
  cases pull with
  | record r => rfl
  | failed f => rfl
  | crashed => exact absurd rfl h

/-- With the flag up it is the last one, whatever it has brought. -/
theorem settle_cancelled (pull : Pull) (hc : s.cancelled = true) :
    (s.place queue (.pulled pull rest decoder)).settle slot =
      (slot.release, s.place queue (.gone .completed)) := by
  apply settle_leave
  rw [step_pulled, hc, if_pos rfl]

/-- The producer walks its reader, each record that matches going to its receiver. -/
theorem settle_reading : ∀ (reader : Reader) {slot : ReaderSlot} {s : FilteredScan}
    {queue : List Row} {decoder : Decoder}, queue.length + reader.length ≤ s.capacity →
    (s.place queue (.reading reader decoder)).settle slot =
      (slot.release, s.ended (reader.walk (s.store.recordMatches s.filter) (receive s.listening)
        s.cancelled (queue, decoder)))
  | [], _, _, _, _, _ => settle_leave rfl
  | .crashed :: _, _, _, _, _, _ => settle_leave rfl
  | .failed f :: rest, slot, s, queue, decoder, _ => by
    rw [@settle_pull _ _ _ _ _ (.failed f) nofun, Reader.walk]
    cases hc : s.cancelled with
    | true => exact settle_cancelled _ hc
    | false =>
      apply settle_leave
      rw [step_pulled, hc]
      rfl
  | .record r :: rest, slot, s, queue, decoder, hroom => by
    rw [List.length_cons] at hroom
    rw [@settle_pull _ _ _ _ _ (.record r) nofun, Reader.walk]
    cases hc : s.cancelled with
    | true => exact settle_cancelled _ hc
    | false =>
      have hpull := @step_pulled slot s queue decoder rest (.record r)
      rw [hc, if_neg Bool.false_ne_true] at hpull
      rw [if_neg Bool.false_ne_true]
      cases hw : s.store.recordMatches s.filter r with
      | false =>
        simp only [hw, Bool.false_eq_true, if_false] at hpull ⊢
        rw [settle_step hpull, settle_reading rest (by omega), hc]
      | true =>
        simp only [hw, if_true] at hpull ⊢
        rw [settle_step hpull, settle_matched r hc (by omega)]
        cases hv : receive s.listening (queue, decoder) r with
        | proceed state cancelled =>
          obtain ⟨rfl, hlen⟩ := receive_proceed hv
          exact (settle_reading rest (by omega)).trans (by rw [hc])
        | stop state => rfl
        | fail state f => rfl
        | crash state => rfl

/-- From its start on the producer does the read, if the queue has room for what it may send. -/
theorem settle_starting
    (hroom : ∀ p, s.store.readRaw slot s.symbol = .ok p →
      queue.length + p.1.length ≤ s.capacity) :
    (s.place queue (.starting decoder)).settle slot =
      (slot, s.ended (s.store.readFiltered slot s.symbol s.filter s.cancelled
        (receive s.listening) (queue, decoder))) := by
  unfold Store.readFiltered
  cases hr : s.store.readRaw slot s.symbol with
  | error f =>
    apply settle_leave
    rw [step_starting, hr]
    rfl
  | ok p =>
    obtain ⟨reader, slot'⟩ := p
    have hstart : producerStep slot (s.place queue (.starting decoder)) =
        some (slot', s.place queue (.reading reader decoder)) := by
      rw [step_starting, hr]
    rw [settle_step hstart, settle_reading reader (hroom _ hr), Store.release_of_readRaw hr]

end

/-! ## What the consumer is answered -/

/-- The read of a scan whose consumer listens to the end. -/
def read (store : Store) (slot : ReaderSlot) (plan : ScanPlan) (decoder : Decoder) :
    (List Row × Decoder) × WalkEnd :=
  store.readFiltered slot plan.symbol plan.filter false (receive true) ([], decoder)

/-- What a scan has to send when it starts is what the read hands over. -/
theorem toSend_start {store : Store} {plan : ScanPlan} {decoder : Decoder}
    (hd : decoder.cache.Agrees decoder.store) (slot : ReaderSlot) (capacity : Nat) :
    (start store plan decoder capacity).toSend slot =
      ((read store slot plan decoder).1.1, (read store slot plan decoder).2.outcome) := by
  -- No length of the queue occurs in `toSend`, so it may be taken as long as the reader.
  obtain ⟨room, hroom⟩ : ∃ room, ∀ p, store.readRaw slot plan.symbol = .ok p →
      p.1.length ≤ room := by
    cases store.readRaw slot plan.symbol with
    | error f => exact ⟨0, fun _ h => by cases h⟩
    | ok p => exact ⟨p.1.length, fun _ h => by cases h; exact Nat.le_refl _⟩
  have hsettle : (start store plan decoder room).settle slot =
      (slot, (start store plan decoder room).ended (read store slot plan decoder)) := by
    refine @settle_starting slot (start store plan decoder room) [] decoder fun p hp => ?_
    rw [List.length_nil, Nat.zero_add]
    exact hroom p hp
  have I := Exchange.inv_settle _ _ (@Exchange.inv_start store slot plan decoder hd room)
  rw [hsettle] at I
  cases I.stage with
  | streaming _ _ _ _ _ hrest _ ho =>
    have hrows := hrest.trans (List.append_nil _)
    exact Prod.ext hrows ho.symm
  | closed hl => cases hl
  | ended hl => cases hl
  | dropping hc => cases hc

end FilteredScan

namespace Exchange

/-- On every schedule the consumer is answered with the rows that the read hands over, then with its
failure if it ends with one. -/
theorem answers_of_read {store : Store} {plan : ScanPlan} {decoder : Decoder}
    (hd : decoder.cache.Agrees decoder.store) (slot : ReaderSlot) (capacity : Nat)
    (turns : List Turn) {e : Exchange}
    (h : (start store slot plan decoder capacity).run turns = some e) :
    e.answers = (List.range e.answers.length).map fun i =>
      (FilteredScan.items (FilteredScan.read store slot plan decoder).1.1
        (FilteredScan.read store slot plan decoder).2.outcome)[i]? := by
  have I := inv_run turns (inv_start hd capacity) h
  rw [FilteredScan.toSend_start hd slot capacity] at I
  exact I.answers

end Exchange
end SymbolTables
