import SymbolTables.Proofs.Scan.Rows

/-!
# Filtered scans answer alike on every schedule

An `Exchange` is a filtered scan with the reader slot and the answers its consumer has got so far. A
schedule is a list of turns: the producer or the consumer takes its next step, the consumer is asked
for a row, or it is asked to drop the scan. `run` follows a schedule, if each turn can be taken.

`expected` is what the answers are measured against: the rows of the reader (`Reader.rows`), then
the failure if there is one. No schedule, and no length of the queue, occurs in it.

* `Exchange.inv_step`: the rows that are not answered yet are those in the queue and those the
  producer has still to send, in this order.
* `answers_of_run`: on every schedule the answers are the first of `expected`, and nothing for ever
  behind them; and a pull in the midst of any schedule brings the answer that comes next.
-/
namespace SymbolTables

namespace FilteredScan

/-- The rows that are left to a decoder and a reader. -/
def rest (s : FilteredScan) (d : Decoder) (reader : Reader) : List Row × Outcome :=
  reader.rows (s.store.recordMatches s.filter) d.rowOf

/-- The rows that the producer has still to send, and how it ends after them. -/
def toSend (s : FilteredScan) (slot : ReaderSlot) : List Row × Outcome :=
  match s.producer with
  | .starting d =>
    match s.store.readRaw slot s.symbol with
    | .error f => ([], .failed f)
    | .ok (reader, _) => s.rest d reader
  | .reading reader d => s.rest d reader
  | .pulled pull reader d => s.rest d (pull :: reader)
  | .matched r reader d => Reader.prepend (d.rowOf r) (s.rest d reader)
  | .sending row reader d => (row :: (s.rest d reader).1, (s.rest d reader).2)
  | .leaving o => ([], o)
  | .gone o => ([], o)

end FilteredScan

/-- The decoder that a producer holds has a cache that agrees with its store. -/
def Producer.Sound : Producer → Prop
  | .starting d | .reading _ d | .pulled _ _ d | .matched _ _ d | .sending _ _ d =>
    d.cache.Agrees d.store
  | .leaving _ | .gone _ => True

namespace FilteredScan

/-! ## The producer -/

/-- A step of the producer changes nothing but the queue and the producer. -/
theorem producerStep_frame {slot slot' : ReaderSlot} {s s' : FilteredScan}
    (h : producerStep slot s = some (slot', s')) :
    s' = { s with queue := s'.queue, producer := s'.producer } := by
  unfold producerStep at h
  repeat' split at h
  all_goals cases h
  all_goals rfl

/-- A step of the producer sends the next row or gets nearer to it: queue and rows to send stay the
same together, and so does the end. -/
theorem producerStep_rows {slot slot' : ReaderSlot} {s s' : FilteredScan}
    (hl : s.listening = true) (hc : s.cancelled = false) (hs : s.producer.Sound)
    (h : producerStep slot s = some (slot', s')) :
    s'.producer.Sound ∧ s'.queue ++ (s'.toSend slot').1 = s.queue ++ (s.toSend slot).1 ∧
      (s'.toSend slot').2 = (s.toSend slot).2 := by
  unfold producerStep at h
  cases hp : s.producer with
  | starting d =>
    rw [hp] at hs
    simp only [hp] at h
    split at h
    · rename_i f hr
      cases h
      simp [toSend, leave, Producer.Sound, hp, hr]
    · rename_i reader slot₁ hr
      cases h
      exact ⟨hs, by simp [toSend, hp, hr, rest], by simp [toSend, hp, hr, rest]⟩
  | reading reader d =>
    rw [hp] at hs
    cases reader with
    | nil =>
      simp only [hp] at h; cases h; simp [toSend, leave, Producer.Sound, hp, rest, Reader.rows]
    | cons pull reader =>
      cases pull with
      | crashed =>
        simp only [hp] at h; cases h; simp [toSend, leave, Producer.Sound, hp, rest, Reader.rows]
      | failed f =>
        simp only [hp] at h; cases h
        exact ⟨hs, by simp [toSend, hp, rest], by simp [toSend, hp, rest]⟩
      | record r =>
        simp only [hp] at h; cases h
        exact ⟨hs, by simp [toSend, hp, rest], by simp [toSend, hp, rest]⟩
  | pulled pull reader d =>
    rw [hp] at hs
    simp only [hp, hc, Bool.false_eq_true, if_false] at h
    cases pull with
    | failed f => cases h; simp [toSend, leave, Producer.Sound, hp, rest, Reader.rows]
    | crashed => cases h; simp [toSend, leave, Producer.Sound, hp, rest, Reader.rows]
    | record r =>
      simp only at h
      split at h
      · rename_i hm
        cases h
        exact ⟨hs, by simp [toSend, hp, rest, Reader.rows, hm],
          by simp [toSend, hp, rest, Reader.rows, hm]⟩
      · rename_i hm
        cases h
        exact ⟨hs, by simp [toSend, hp, rest, Reader.rows, hm],
          by simp [toSend, hp, rest, Reader.rows, hm]⟩
  | matched r reader d =>
    rw [hp] at hs
    simp only [hp, hc, Bool.false_eq_true, if_false] at h
    have hd := Decoder.decode_fst hs r
    have ha := Decoder.agrees_decode hs r
    have hr := Decoder.rowOf_decode d r
    generalize d.decode r = a at hd ha hr h
    obtain ⟨result, d'⟩ := a
    simp only at hd ha hr
    cases result with
    | ok row =>
      cases h
      exact ⟨ha, by simp [toSend, hp, ← hd, Reader.prepend, rest, hr],
        by simp [toSend, hp, ← hd, Reader.prepend, rest, hr]⟩
    | error e =>
      cases e with
      | discarded =>
        cases h
        exact ⟨ha, by simp [toSend, hp, ← hd, Reader.prepend, rest, hr],
          by simp [toSend, hp, ← hd, Reader.prepend, rest, hr]⟩
      | failed f => cases h; simp [toSend, leave, Producer.Sound, hp, ← hd, Reader.prepend]
      | outsideLayout => cases h; simp [toSend, leave, Producer.Sound, hp, ← hd, Reader.prepend]
  | sending row reader d =>
    rw [hp] at hs
    simp only [hp, hl, Bool.not_true, Bool.false_eq_true, if_false] at h
    split at h
    · cases h
      exact ⟨hs, by simp [toSend, hp, rest], by simp [toSend, hp, rest]⟩
    · cases h
  | leaving o => simp only [hp] at h; cases h; simp [toSend, Producer.Sound, hp]
  | gone o => simp only [hp] at h; cases h

/-- A producer that cannot go on has gone, or waits at a full queue. -/
theorem producerStep_eq_none {slot : ReaderSlot} {s : FilteredScan}
    (h : producerStep slot s = none) :
    (∃ o, s.producer = .gone o) ∨
      ∃ row reader d, s.producer = .sending row reader d ∧ s.capacity ≤ s.queue.length := by
  unfold producerStep at h
  repeat' split at h
  all_goals try cases h
  · rename_i row reader d hp _ hq
    exact .inr ⟨row, reader, d, hp, Nat.le_of_not_lt hq⟩
  · rename_i o hp
    exact .inl ⟨o, hp⟩

/-! ## The consumer -/

theorem consumerStep_row {s : FilteredScan} {row : Row} {queue : List Row}
    (hw : s.consumer = .receiving) (hl : s.listening = true) (hq : s.queue = row :: queue) :
    s.consumerStep = some (some (some (.row row)), { s with queue, consumer := .idle }) := by
  simp [consumerStep, hw, hl, hq]

theorem consumerStep_dry {s : FilteredScan} {o : Outcome} (hw : s.consumer = .receiving)
    (hl : s.listening = true) (hq : s.queue = []) (hp : s.producer = .gone o) :
    s.consumerStep = some (none, { s with listening := false, consumer := .joining }) := by
  simp [consumerStep, hw, hl, hq, hp]

theorem consumerStep_join {s : FilteredScan} {o : Outcome} (hw : s.consumer = .joining)
    (hp : s.producer = .gone o) :
    s.consumerStep = some (some o.item, { s with joined := true, consumer := .idle }) := by
  simp [consumerStep, hw, hp]

theorem consumerStep_over {s : FilteredScan} (hw : s.consumer = .receiving)
    (hl : s.listening = false) (hj : s.joined = true) :
    s.consumerStep = some (some none, { s with consumer := .idle }) := by
  simp [consumerStep, hw, hl, hj]

/-- What the consumer is to be told: the rows, then the failure if there is one. -/
def items (rows : List Row) (o : Outcome) : List Item := rows.map .row ++ o.item.toList

theorem items_row {rows rest : List Row} {row : Row} {o : Outcome} {n : Nat}
    (h : rows.drop n = row :: rest) : (items rows o)[n]? = some (.row row) := by
  have hr : rows[n]? = some row := by rw [← List.head?_drop, h]; rfl
  have hn : n < rows.length := (List.getElem?_eq_some_iff.1 hr).1
  rw [items, List.getElem?_append_left (by simpa using hn), List.getElem?_map, hr]; rfl

theorem items_last (rows : List Row) (o : Outcome) : (items rows o)[rows.length]? = o.item := by
  rw [items, List.getElem?_append_right (by simp)]
  cases o <;> simp [Outcome.item]

theorem items_behind {rows : List Row} {n : Nat} (o : Outcome) (h : rows.length < n) :
    (items rows o)[n]? = none := by
  rw [List.getElem?_eq_none_iff, items, List.length_append, List.length_map]
  cases o <;> simp [Outcome.item] <;> omega

end FilteredScan

/-! ## Schedules -/

/-- A filtered scan among others at its store, and what its consumer has been answered. -/
structure Exchange where
  slot : ReaderSlot
  scan : FilteredScan
  /-- The answers to the pulls so far, the first one first; `none` says that there is no more. -/
  answers : List (Option Item)

/-- Who goes next. -/
inductive Turn
  | producer
  | consumer
  /-- The consumer is asked for a row. -/
  | pull
  /-- The consumer is asked to drop the scan. -/
  | drop

namespace Exchange

def start (store : Store) (slot : ReaderSlot) (plan : ScanPlan) (decoder : Decoder)
    (capacity : Nat) : Exchange :=
  ⟨slot, .start store plan decoder capacity, []⟩

/-- One turn; none if it cannot be taken. Dropping the scan answers no pull. -/
def step (e : Exchange) : Turn → Option Exchange
  | .producer => (e.scan.producerStep e.slot).map fun p => { e with slot := p.1, scan := p.2 }
  | .consumer => e.scan.consumerStep.map fun p =>
    { e with scan := p.2, answers := e.answers ++ if e.scan.cancelled then [] else p.1.toList }
  | .pull => if e.scan.consumer = .idle then some { e with scan := e.scan.ask } else none
  | .drop => if e.scan.consumer = .idle then some { e with scan := e.scan.cancel } else none

/-- Follow a schedule. -/
def run (e : Exchange) : List Turn → Option Exchange
  | [] => some e
  | turn :: turns => (e.step turn).bind fun e => e.run turns

/-- How far an exchange has come with the rows `rows` and the end `o`. -/
inductive Stage (rows : List Row) (o : Outcome) (e : Exchange) : Prop
  /-- Rows that are not answered yet are in the queue or still to be sent. -/
  | streaming (listening : e.scan.listening = true) (cancelled : e.scan.cancelled = false)
      (joined : e.scan.joined = false)
      (consumer : e.scan.consumer = .idle ∨ e.scan.consumer = .receiving)
      (sound : e.scan.producer.Sound)
      (rest : rows.drop e.answers.length = e.scan.queue ++ (e.scan.toSend e.slot).1)
      (length : e.answers.length ≤ rows.length)
      (outcome : (e.scan.toSend e.slot).2 = o)
  /-- All rows are answered, and the producer is to be joined. -/
  | closed (listening : e.scan.listening = false) (cancelled : e.scan.cancelled = false)
      (joined : e.scan.joined = false) (consumer : e.scan.consumer = .joining)
      (producer : e.scan.producer = .gone o) (length : e.answers.length = rows.length)
  /-- The end has been reported. -/
  | ended (listening : e.scan.listening = false) (cancelled : e.scan.cancelled = false)
      (joined : e.scan.joined = true)
      (consumer : e.scan.consumer = .idle ∨ e.scan.consumer = .receiving)
      (producer : e.scan.producer = .gone o) (length : rows.length < e.answers.length)
  /-- The scan is dropped, or will be. -/
  | dropping (cancelled : e.scan.cancelled = true)
      (consumer : e.scan.consumer = .cancelling ∨ e.scan.consumer = .closing ∨
        e.scan.consumer = .dropped)

/-- The answers are the first of `rows` and `o`, and the rest is on its way. -/
structure Inv (rows : List Row) (o : Outcome) (e : Exchange) : Prop where
  answers : e.answers =
    (List.range e.answers.length).map fun i => (FilteredScan.items rows o)[i]?
  stage : Stage rows o e

theorem answers_append {rows : List Row} {o : Outcome} {answers : List (Option Item)}
    (h : answers = (List.range answers.length).map fun i => (FilteredScan.items rows o)[i]?)
    {a : Option Item} (ha : a = (FilteredScan.items rows o)[answers.length]?) :
    answers ++ [a] = (List.range (answers ++ [a]).length).map fun i =>
      (FilteredScan.items rows o)[i]? := by
  rw [List.length_append, List.length_singleton, List.range_succ, List.map_append, ← h, ha]; rfl

/-! ## One turn -/

theorem inv_producer {rows : List Row} {o : Outcome} {e e' : Exchange} (I : Inv rows o e)
    (h : e.step .producer = some e') : Inv rows o e' := by
  simp only [step, Option.map_eq_some_iff] at h
  obtain ⟨⟨slot, scan⟩, hs, rfl⟩ := h
  have hf := FilteredScan.producerStep_frame hs
  refine ⟨I.answers, ?_⟩
  cases I.stage with
  | streaming hl hc hj hw hsnd hr hlen ho =>
    obtain ⟨h₁, h₂, h₃⟩ := FilteredScan.producerStep_rows hl hc hsnd hs
    rw [hf] at h₁ h₂ h₃ ⊢
    exact .streaming hl hc hj hw h₁ (hr.trans h₂.symm) hlen (h₃.trans ho)
  | closed _ _ _ _ hp _ =>
    simp only [FilteredScan.producerStep, hp] at hs; cases hs
  | ended _ _ _ _ hp _ =>
    simp only [FilteredScan.producerStep, hp] at hs; cases hs
  | dropping hc hw =>
    rw [hf]; exact .dropping hc hw

theorem inv_consumer {rows : List Row} {o : Outcome} {e e' : Exchange} (I : Inv rows o e)
    (h : e.step .consumer = some e') : Inv rows o e' := by
  obtain ⟨ha, hst⟩ := I
  simp only [step, Option.map_eq_some_iff] at h
  obtain ⟨⟨answer, scan⟩, hs, rfl⟩ := h
  unfold FilteredScan.consumerStep at hs
  cases hst with
  | streaming hl hc hj hw hsnd hr hlen ho =>
    rcases hw with hw | hw
    · rw [hw] at hs; cases hs
    simp only [hw, hl, Bool.not_true, Bool.false_eq_true, if_false] at hs
    simp only [hc, Bool.false_eq_true, if_false]
    split at hs
    · rename_i row queue hq
      cases hs
      rw [hq] at hr
      have hi := FilteredScan.items_row (o := o) hr
      have hn : e.answers.length < rows.length := by
        have := congrArg List.length hr
        simp only [List.length_drop, List.cons_append, List.length_cons] at this; omega
      refine ⟨answers_append ha hi.symm, .streaming rfl hc hj (.inl rfl) hsnd ?_ ?_ ho⟩
      · simp only [Option.toList_some, List.length_append, List.length_singleton]
        rw [← List.drop_drop, hr]; rfl
      · simp only [Option.toList_some, List.length_append, List.length_singleton]; omega
    · rename_i o' hq hp
      cases hs
      have ht : e.scan.toSend e.slot = ([], o') := by simp only [FilteredScan.toSend, hp]
      rw [hq, ht, List.append_nil, List.drop_eq_nil_iff] at hr
      rw [ht] at ho
      obtain rfl : o' = o := ho
      simp only [Option.toList_none, List.append_nil]
      exact ⟨ha, .closed rfl hc hj rfl hp (Nat.le_antisymm hlen hr)⟩
    · cases hs
  | closed hl hc hj hw hp hlen =>
    simp only [hw, hp] at hs
    cases hs
    simp only [hc, Bool.false_eq_true, if_false, Option.toList_some]
    refine ⟨answers_append ha ?_, .ended hl rfl rfl (.inl rfl) rfl ?_⟩
    · rw [hlen]; exact (FilteredScan.items_last rows o).symm
    · simp only [List.length_append, List.length_singleton]; omega
  | ended hl hc hj hw hp hlen =>
    rcases hw with hw | hw
    · rw [hw] at hs; cases hs
    simp only [hw, hl, hj, Bool.not_false, if_true] at hs
    cases hs
    simp only [hc, Bool.false_eq_true, if_false, Option.toList_some]
    refine ⟨answers_append ha (FilteredScan.items_behind o hlen).symm,
      .ended rfl rfl rfl (.inl rfl) hp ?_⟩
    simp only [List.length_append, List.length_singleton]; omega
  | dropping hc hw =>
    simp only [hc, if_true, List.append_nil]
    refine ⟨ha, ?_⟩
    rcases hw with hw | hw | hw
    · rw [hw] at hs; cases hs
      exact .dropping hc (.inr (.inl rfl))
    · simp only [hw] at hs
      repeat' split at hs
      all_goals cases hs
      all_goals exact .dropping hc (.inr (.inr rfl))
    · rw [hw] at hs; cases hs

theorem inv_step {rows : List Row} {o : Outcome} {e e' : Exchange} (turn : Turn)
    (I : Inv rows o e) (h : e.step turn = some e') : Inv rows o e' := by
  cases turn with
  | producer => exact inv_producer I h
  | consumer => exact inv_consumer I h
  | pull =>
    simp only [step] at h
    split at h
    · rename_i hi
      cases h
      refine ⟨I.answers, ?_⟩
      cases I.stage with
      | streaming hl hc hj hw hsnd hr hlen ho =>
        exact .streaming hl hc hj (.inr rfl) hsnd hr hlen ho
      | closed _ _ _ hw _ _ => rw [hi] at hw; cases hw
      | ended hl hc hj hw hp hlen => exact .ended hl hc hj (.inr rfl) hp hlen
      | dropping _ hw => rw [hi] at hw; rcases hw with hw | hw | hw <;> cases hw
    · cases h
  | drop =>
    simp only [step] at h
    split at h
    · cases h
      exact ⟨I.answers, .dropping rfl (.inl rfl)⟩
    · cases h

theorem inv_run {rows : List Row} {o : Outcome} :
    ∀ (turns : List Turn) {e e' : Exchange}, Inv rows o e → e.run turns = some e' → Inv rows o e'
  | [], e, e', I, h => by cases h; exact I
  | turn :: turns, e, e', I, h => by
    simp only [run, Option.bind_eq_some_iff] at h
    obtain ⟨e₁, h₁, h₂⟩ := h
    exact inv_run turns (inv_step turn I h₁) h₂

theorem inv_start {store : Store} {slot : ReaderSlot} {plan : ScanPlan} {decoder : Decoder}
    (hd : decoder.cache.Agrees decoder.store) (capacity : Nat) :
    Inv ((FilteredScan.start store plan decoder capacity).toSend slot).1
      ((FilteredScan.start store plan decoder capacity).toSend slot).2
      (start store slot plan decoder capacity) :=
  ⟨rfl, .streaming rfl rfl rfl (.inl rfl) hd rfl (Nat.zero_le _) rfl⟩

/-! ## The eager schedule -/

/-- Letting the producer go as far as it can is a schedule like any other. -/
theorem inv_settle {rows : List Row} {o : Outcome} {answers : List (Option Item)}
    (s : FilteredScan) (slot : ReaderSlot) (I : Inv rows o ⟨slot, s, answers⟩) :
    Inv rows o ⟨(s.settle slot).1, (s.settle slot).2, answers⟩ := by
  induction s, slot using FilteredScan.settle.induct with
  | case1 s slot h =>
    rw [FilteredScan.settle]; split
    · exact I
    · rename_i h'; rw [h] at h'; cases h'
  | case2 s slot slot₁ s₁ h ih =>
    rw [FilteredScan.settle]; split
    · rename_i h'; rw [h] at h'; cases h'
    · rename_i h'
      rw [h] at h'; cases h'
      exact ih (inv_producer I (by simp only [step, h, Option.map_some]))

/-- After it the producer cannot go on, and nothing but the queue and the producer has changed. -/
theorem settle_settled (s : FilteredScan) (slot : ReaderSlot) :
    FilteredScan.producerStep (s.settle slot).1 (s.settle slot).2 = none ∧
      (s.settle slot).2 =
        { s with queue := (s.settle slot).2.queue, producer := (s.settle slot).2.producer } := by
  induction s, slot using FilteredScan.settle.induct with
  | case1 s slot h =>
    rw [FilteredScan.settle]; split
    · exact ⟨h, rfl⟩
    · rename_i h'; rw [h] at h'; cases h'
  | case2 s slot slot₁ s₁ h ih =>
    rw [FilteredScan.settle]; split
    · rename_i h'; rw [h] at h'; cases h'
    · rename_i h'
      rw [h] at h'; cases h'
      refine ⟨ih.1, ih.2.trans ?_⟩
      rw [FilteredScan.producerStep_frame h]

/-- Between two pulls of the eager schedule: nothing is asked, and the producer has gone as far as
it can, so it has claimed the slot long ago. -/
structure Ready (rows : List Row) (o : Outcome) (e : Exchange) : Prop extends Inv rows o e where
  idle : e.scan.consumer = .idle
  capacity : 1 ≤ e.scan.capacity
  settled : FilteredScan.producerStep e.slot e.scan = none

theorem ready_settle {rows : List Row} {o : Outcome} {e : Exchange} (I : Inv rows o e)
    (hi : e.scan.consumer = .idle) (hc : 1 ≤ e.scan.capacity) :
    Ready rows o ⟨(e.scan.settle e.slot).1, (e.scan.settle e.slot).2, e.answers⟩ := by
  obtain ⟨hs, hf⟩ := settle_settled e.scan e.slot
  refine ⟨inv_settle _ _ I, ?_, ?_, hs⟩
  · rw [hf]; exact hi
  · rw [hf]; exact hc

/-- The last of the answers is the one that comes at its place. -/
theorem answer_eq {rows : List Row} {o : Outcome} {slot : ReaderSlot} {scan : FilteredScan}
    {answers : List (Option Item)} {a : Option Item} (I : Inv rows o ⟨slot, scan, answers ++ [a]⟩) :
    a = (FilteredScan.items rows o)[answers.length]? := by
  have h := congrArg (·[answers.length]?) I.answers
  simpa using h

section
variable {rows : List Row} {o : Outcome} {slot : ReaderSlot} {s scan : FilteredScan}
  {answers : List (Option Item)}

/-- A step of the consumer that answers, after the producer has gone as far as it can. -/
theorem serve_answer (I : Inv rows o ⟨slot, s, answers⟩) (hc : 1 ≤ s.capacity)
    (hn : s.cancelled = false) (steps : Nat) {a : Option Item}
    (h : (s.settle slot).2.consumerStep = some (some a, scan)) (hi : scan.consumer = .idle)
    (hk : scan.capacity = s.capacity) :
    ∃ slot' scan', FilteredScan.serve (steps + 1) slot s = (a, slot', scan') ∧
      Ready rows o ⟨slot', scan', answers ++ [a]⟩ := by
  obtain ⟨-, hf⟩ := settle_settled s slot
  have hn' : (s.settle slot).2.cancelled = false := by rw [hf]; exact hn
  have I' : Inv rows o ⟨(s.settle slot).1, scan, answers ++ [a]⟩ :=
    inv_consumer (inv_settle _ _ I) (by
      simp only [step, h, hn', Option.map_some, Bool.false_eq_true, if_false, Option.toList_some])
  refine ⟨_, _, ?_, ready_settle I' hi (by rw [hk]; exact hc)⟩
  simp only [FilteredScan.serve, h]

/-- A consumer that has found the queue closed learns the end. -/
theorem serve_joining (I : Inv rows o ⟨slot, s, answers⟩) (hw : s.consumer = .joining)
    (hc : 1 ≤ s.capacity) :
    ∃ a slot' scan', FilteredScan.serve 1 slot s = (a, slot', scan') ∧
      Ready rows o ⟨slot', scan', answers ++ [a]⟩ := by
  obtain ⟨-, hf⟩ := settle_settled s slot
  have hw' : (s.settle slot).2.consumer = .joining := by rw [hf]; exact hw
  have hk : (s.settle slot).2.capacity = s.capacity := by rw [hf]
  cases (inv_settle _ _ I).stage with
  | streaming _ _ _ h _ _ _ _ => rcases h with h | h <;> cases hw'.symm.trans h
  | closed _ hn _ _ hp _ =>
    have hn' : s.cancelled = false := by rw [hf] at hn; exact hn
    exact ⟨_, serve_answer I hc hn' 0 (FilteredScan.consumerStep_join hw' hp) rfl hk⟩
  | ended _ _ _ h _ _ => rcases h with h | h <;> cases hw'.symm.trans h
  | dropping _ h => rcases h with h | h | h <;> cases hw'.symm.trans h

/-- A consumer that has been asked for a row gets it, or learns the end. -/
theorem serve_receiving (I : Inv rows o ⟨slot, s, answers⟩) (hw : s.consumer = .receiving)
    (hc : 1 ≤ s.capacity) :
    ∃ a slot' scan', FilteredScan.serve 2 slot s = (a, slot', scan') ∧
      Ready rows o ⟨slot', scan', answers ++ [a]⟩ := by
  obtain ⟨hs, hf⟩ := settle_settled s slot
  have I' := inv_settle _ _ I
  have hw' : (s.settle slot).2.consumer = .receiving := by rw [hf]; exact hw
  have hk : (s.settle slot).2.capacity = s.capacity := by rw [hf]
  cases I'.stage with
  | streaming hl hn _ _ _ _ _ _ =>
    have hn' : s.cancelled = false := by rw [hf] at hn; exact hn
    cases hq : (s.settle slot).2.queue with
    | cons row queue =>
      exact ⟨_, serve_answer I hc hn' 1 (FilteredScan.consumerStep_row hw' hl hq) rfl hk⟩
    | nil =>
      -- with an empty queue, only a producer that has gone cannot go on
      rcases FilteredScan.producerStep_eq_none hs with ⟨o', hp⟩ | ⟨row, reader, d, -, hfull⟩
      · have hdry := FilteredScan.consumerStep_dry hw' hl hq hp
        have I₁ : Inv rows o ⟨(s.settle slot).1,
            { (s.settle slot).2 with listening := false, consumer := .joining }, answers⟩ :=
          inv_consumer I' (by
            simp only [step, hdry, Option.map_some, Option.toList_none, ite_self, List.append_nil])
        obtain ⟨a, slot', scan', he, R⟩ := serve_joining I₁ rfl (by rw [hk]; exact hc)
        refine ⟨a, slot', scan', ?_, R⟩
        rw [← he, FilteredScan.serve]
        simp only [hdry]
      · rw [hk, hq] at hfull
        exact absurd (Nat.le_trans hc hfull) (by simp)
  | closed _ _ _ h _ _ => cases hw'.symm.trans h
  | ended hl hn hj _ _ _ =>
    have hn' : s.cancelled = false := by rw [hf] at hn; exact hn
    exact ⟨_, serve_answer I hc hn' 1 (FilteredScan.consumerStep_over hw' hl hj) rfl hk⟩
  | dropping _ h => rcases h with h | h | h <;> cases hw'.symm.trans h

/-- In the eager schedule a pull is answered by what comes next, and leaves the exchange ready for
another one. -/
theorem next_answer (I : Inv rows o ⟨slot, s, answers⟩) (hi : s.consumer = .idle)
    (hc : 1 ≤ s.capacity) :
    (s.next slot).1 = (FilteredScan.items rows o)[answers.length]? ∧
      Ready rows o ⟨(s.next slot).2.1, (s.next slot).2.2, answers ++ [(s.next slot).1]⟩ := by
  have I' : Inv rows o ⟨slot, s.ask, answers⟩ := inv_step .pull I (by simp only [step, hi, if_true])
  obtain ⟨a, slot', scan', hs, R⟩ := serve_receiving I' rfl hc
  rw [FilteredScan.next, hs]
  exact ⟨answer_eq R.toInv, R⟩

end
/-! ## All schedules -/

theorem capacity_step {e e' : Exchange} {turn : Turn} (h : e.step turn = some e') :
    e'.scan.capacity = e.scan.capacity := by
  cases turn with
  | producer =>
    simp only [step, Option.map_eq_some_iff] at h
    obtain ⟨⟨slot, scan⟩, hs, rfl⟩ := h
    rw [FilteredScan.producerStep_frame hs]
  | consumer =>
    simp only [step, Option.map_eq_some_iff] at h
    obtain ⟨⟨answer, scan⟩, hs, rfl⟩ := h
    unfold FilteredScan.consumerStep at hs
    repeat' split at hs
    all_goals cases hs
    all_goals rfl
  | pull => simp only [step] at h; split at h <;> cases h; rfl
  | drop => simp only [step] at h; split at h <;> cases h; rfl

theorem capacity_run : ∀ (turns : List Turn) {e e' : Exchange}, e.run turns = some e' →
    e'.scan.capacity = e.scan.capacity
  | [], e, e', h => by cases h; rfl
  | turn :: turns, e, e', h => by
    simp only [run, Option.bind_eq_some_iff] at h
    obtain ⟨e₁, h₁, h₂⟩ := h
    exact (capacity_run turns h₂).trans (capacity_step h₁)

/-- What a filtered scan has to say, as a walk over its reader alone gives it: the rows of the
records that match and are not discarded, in store order, up to the first failure of the reader or
the decoder; then that failure, if there was one. -/
def expected (store : Store) (slot : ReaderSlot) (plan : ScanPlan) (decoder : Decoder) :
    List Item :=
  match store.readRaw slot plan.symbol with
  | .error f => [.failed f]
  | .ok (reader, _) =>
    FilteredScan.items
      (reader.rows (store.recordMatches plan.filter) fun r => (decoder.decode r).1).1
      (reader.rows (store.recordMatches plan.filter) fun r => (decoder.decode r).1).2

theorem items_toSend_start {store : Store} {plan : ScanPlan} {decoder : Decoder}
    (hd : decoder.cache.Agrees decoder.store) (slot : ReaderSlot) (capacity : Nat) :
    FilteredScan.items ((FilteredScan.start store plan decoder capacity).toSend slot).1
        ((FilteredScan.start store plan decoder capacity).toSend slot).2 =
      expected store slot plan decoder := by
  have hrow : (fun r => (decoder.decode r).1) = decoder.rowOf :=
    funext fun r => Decoder.decode_fst hd r
  simp only [FilteredScan.toSend, FilteredScan.start, expected, hrow]
  cases store.readRaw slot plan.symbol with
  | error f => rfl
  | ok p => rfl

/-- **Every schedule.** Whatever the order in which producer and consumer take their steps and the
consumer is asked for rows, also when the scan is dropped in the end, and however long the queue is:
the answers so far are those that `expected` gives, one after the other, and `none` for ever behind
them. Whenever the consumer is free, a pull brings the answer that comes next. -/
theorem answers_of_run {store : Store} {plan : ScanPlan} {decoder : Decoder}
    (hd : Decoder.ofPlan store plan = .ok decoder) (slot : ReaderSlot) {capacity : Nat}
    (hc : 1 ≤ capacity) (turns : List Turn) {e : Exchange}
    (h : (start store slot plan decoder capacity).run turns = some e) :
    e.answers =
        (List.range e.answers.length).map (fun i => (expected store slot plan decoder)[i]?) ∧
      (e.scan.consumer = .idle →
        (e.scan.next e.slot).1 = (expected store slot plan decoder)[e.answers.length]?) := by
  have ha := Decoder.agrees_ofPlan hd
  have I := inv_run turns (inv_start ha capacity) h
  have hk : e.scan.capacity = capacity := capacity_run turns h
  rw [← items_toSend_start ha slot capacity]
  refine ⟨I.answers, fun hi => ?_⟩
  exact (next_answer I hi (hk ▸ hc)).1

/-! A store with one parameter, whose reader fails after three records. -/

def sampleLabel (key : Int32) : Option String :=
  if key = 1 then some "a" else if key = 2 then some "b" else if key = 3 then some "" else none

def sampleReader : Reader :=
  [.record ⟨[1, 2], .ofLevel .zero⟩, .record ⟨[2, 3], .ofLevel .zero⟩,
   .record ⟨[1, 3], .ofLevel .zero⟩, .failed (.storageAt "sample" "injected failure")]

def sampleStore : Store where
  locator := "sample"
  symbols := [⟨"p", .parameter, ["i", "j"], "", 4⟩]
  label := sampleLabel
  elementText := fun _ => none
  acronymName := fun _ => none
  start := fun _ => .ok sampleReader

/-- The records with `i = 'a'` and `j = ''`. -/
def samplePlan : ScanPlan where
  symbol := 0
  schema :=
    ⟨"p", .parameter, 2,
      [⟨"i", .text⟩, ⟨"j", .text⟩, ⟨"Value", .number⟩, ⟨"Value (SV)", .text⟩]⟩
  selected := [true, true, false, false]
  filter := ["a", ""]
  emptyDimensions := [1]
  filtered := true

/-- A pull before the producer has started, a row, the failure, and nothing behind it. -/
def sampleTurns : List Turn :=
  [.pull, .producer, .producer, .producer, .producer, .producer, .producer, .producer, .producer,
   .producer, .producer, .producer, .consumer, .pull, .producer, .producer, .consumer, .consumer,
   .pull, .consumer]

theorem answers_of_run_sample : ∃ decoder e,
    Decoder.ofPlan sampleStore samplePlan = .ok decoder ∧
      (start sampleStore .free samplePlan decoder 1).run sampleTurns = some e ∧
      e.answers.length = 3 ∧
      e.answers = (List.range e.answers.length).map
        (fun i => (expected sampleStore .free samplePlan decoder)[i]?) ∧
      (e.scan.consumer = .idle →
        (e.scan.next e.slot).1 =
          (expected sampleStore .free samplePlan decoder)[e.answers.length]?) :=
  ⟨_, _, rfl, rfl, rfl, answers_of_run rfl .free (Nat.le_refl 1) sampleTurns rfl⟩

end Exchange
end SymbolTables
