import SymbolTables.Scan.Sequential

/-!
# Filtered scans

A scan with conditions has two parties. The producer reads the records, passes over those that do
not match, decodes the others and sends the rows into a queue of bounded length; it waits while the
queue is full. The consumer takes rows out of the queue. When the queue is empty and the producer
has gone, the consumer joins it and learns how it ended: that is reported once, after all rows.
Dropping the scan sets a flag that the producer looks at after every pull and again before it
decodes, closes the queue, and joins.

`producerStep` and `consumerStep` are the single steps of the two parties; either party may go
first. `FilteredScan.next` and `FilteredScan.drop` follow the schedule in which the producer always
goes as far as it can.
-/
namespace SymbolTables

/-- How the producer ended. -/
inductive Outcome
  | completed
  | failed (f : Failure)
  | crashed

/-- What a scan reports of a producer that broke down. -/
def Outcome.crashFailure : Failure := .internal "filtered scan producer panicked" none

/-- What the consumer reports when it has joined the producer. -/
def Outcome.item : Outcome → Option Item
  | .completed => none
  | .failed f => some (.failed f)
  | .crashed => some (.failed crashFailure)

/-- Where the producer is. The reader is held in the states that have a rest of it. -/
inductive Producer
  /-- About to claim the slot and start reading. -/
  | starting (decoder : Decoder)
  /-- About to pull the reader. -/
  | reading (rest : Reader) (decoder : Decoder)
  /-- Has pulled a record or a failure; about to look at the flag. -/
  | pulled (pull : Pull) (rest : Reader) (decoder : Decoder)
  /-- Has a matching record; about to look at the flag again and decode. -/
  | matched (record : Record) (rest : Reader) (decoder : Decoder)
  /-- Has a row; about to send it, or waiting for room in the queue. -/
  | sending (row : Row) (rest : Reader) (decoder : Decoder)
  /-- Has dropped the reader; the queue is still open on its side. -/
  | leaving (outcome : Outcome)
  /-- Gone; the queue is closed on its side. -/
  | gone (outcome : Outcome)

/-- Decreases with every step of the producer: whether it has started, the records left, and the
distance to the next pull. -/
def Producer.rank : Producer → Nat × Nat × Nat
  | .starting _ => (1, 0, 0)
  | .reading rest _ => (0, rest.length + 1, 0)
  | .pulled _ rest _ => (0, rest.length + 1, 3)
  | .matched _ rest _ => (0, rest.length + 1, 2)
  | .sending _ rest _ => (0, rest.length + 1, 1)
  | .leaving _ => (0, 0, 1)
  | .gone _ => (0, 0, 0)

/-- Where the consumer is. -/
inductive Consumer
  /-- Nothing is asked of it. -/
  | idle
  /-- Asked for a row, waiting at the queue. -/
  | receiving
  /-- Asked for a row and waiting for the producer, whose queue has run dry. -/
  | joining
  /-- Dropping the scan: the flag is set. -/
  | cancelling
  /-- Dropping the scan: the queue is closed, waiting for the producer. -/
  | closing
  /-- The scan is dropped. -/
  | dropped
deriving DecidableEq

structure FilteredScan where
  store : Store
  symbol : Nat
  filter : List String
  /-- Rows that the queue holds at most. -/
  capacity : Nat
  queue : List Row
  /-- Whether the consumer still listens at the queue. -/
  listening : Bool
  cancelled : Bool
  producer : Producer
  consumer : Consumer
  /-- Whether the producer has been joined. -/
  joined : Bool

namespace FilteredScan

/-- A scan that is about to start. -/
def start (store : Store) (plan : ScanPlan) (decoder : Decoder) (capacity : Nat) : FilteredScan where
  store := store
  symbol := plan.symbol
  filter := plan.filter
  capacity := capacity
  queue := []
  listening := true
  cancelled := false
  producer := .starting decoder
  consumer := .idle
  joined := false

/-- The producer drops its reader and leaves. -/
def leave (s : FilteredScan) (outcome : Outcome) : FilteredScan :=
  { s with producer := .leaving outcome }

/-- One step of the producer; none while it waits at a full queue and after it has gone. -/
def producerStep (slot : ReaderSlot) (s : FilteredScan) : Option (ReaderSlot × FilteredScan) :=
  match s.producer with
  | .starting decoder =>
    match s.store.readRaw slot s.symbol with
    | .error f => some (slot, s.leave (.failed f))
    | .ok (reader, slot) => some (slot, { s with producer := .reading reader decoder })
  | .reading [] _ => some (slot.release, s.leave .completed)
  | .reading (.crashed :: _) _ => some (slot.release, s.leave .crashed)
  | .reading (pull :: rest) decoder =>
    some (slot, { s with producer := .pulled pull rest decoder })
  | .pulled pull rest decoder =>
    if s.cancelled then some (slot.release, s.leave .completed)
    else match pull with
      | .failed f => some (slot.release, s.leave (.failed f))
      | .crashed => some (slot.release, s.leave .crashed)
      | .record r =>
        if s.store.recordMatches s.filter r then
          some (slot, { s with producer := .matched r rest decoder })
        else some (slot, { s with producer := .reading rest decoder })
  | .matched r rest decoder =>
    if s.cancelled then some (slot.release, s.leave .completed)
    else match decoder.decode r with
      | (.ok row, decoder) => some (slot, { s with producer := .sending row rest decoder })
      | (.error .discarded, decoder) => some (slot, { s with producer := .reading rest decoder })
      | (.error (.failed f), _) => some (slot.release, s.leave (.failed f))
      | (.error .outsideLayout, _) => some (slot.release, s.leave .crashed)
  | .sending row rest decoder =>
    if !s.listening then some (slot.release, s.leave .completed)
    else if s.queue.length < s.capacity then
      some (slot, { s with queue := s.queue ++ [row], producer := .reading rest decoder })
    else none
  | .leaving outcome => some (slot, { s with producer := .gone outcome })
  | .gone _ => none

/-- One step of the consumer with what it reports, if the step ends what was asked of it; none while
it waits and while nothing is asked. -/
def consumerStep (s : FilteredScan) : Option (Option (Option Item) × FilteredScan) :=
  match s.consumer with
  | .idle => none
  | .receiving =>
    if !s.listening then
      if s.joined then some (some none, { s with consumer := .idle })
      else some (none, { s with consumer := .joining })
    else match s.queue, s.producer with
      | row :: queue, _ => some (some (some (.row row)), { s with queue, consumer := .idle })
      | [], .gone _ => some (none, { s with listening := false, consumer := .joining })
      | [], _ => none
  | .joining =>
    match s.producer with
    | .gone outcome => some (some outcome.item, { s with joined := true, consumer := .idle })
    | _ => none
  | .cancelling => some (none, { s with listening := false, queue := [], consumer := .closing })
  | .closing =>
    if s.joined then some (some none, { s with consumer := .dropped })
    else match s.producer with
      | .gone _ => some (some none, { s with joined := true, consumer := .dropped })
      | _ => none
  | .dropped => none

/-- Ask for a row. -/
def ask (s : FilteredScan) : FilteredScan := { s with consumer := .receiving }

/-- Ask for the scan to be dropped. -/
def cancel (s : FilteredScan) : FilteredScan := { s with cancelled := true, consumer := .cancelling }

/-! ## The eager schedule -/

theorem rank_producerStep {slot slot' : ReaderSlot} {s s' : FilteredScan}
    (h : producerStep slot s = some (slot', s')) :
    Prod.Lex (· < ·) (Prod.Lex (· < ·) (· < ·)) s'.producer.rank s.producer.rank := by
  unfold producerStep at h
  repeat' split at h
  all_goals cases h
  all_goals simp [leave, Producer.rank, Prod.lex_def, *]

/-- Let the producer go as far as it can. -/
def settle (s : FilteredScan) (slot : ReaderSlot) : ReaderSlot × FilteredScan :=
  match _ : producerStep slot s with
  | none => (slot, s)
  | some (slot, s) => settle s slot
termination_by s.producer.rank
decreasing_by exact rank_producerStep ‹_›

/-- Let the consumer take up to `steps` steps, the producer going as far as it can before and
after each. -/
def serve : Nat → ReaderSlot → FilteredScan → Option Item × ReaderSlot × FilteredScan
  | 0, slot, s => (none, slot, s)
  | steps + 1, slot, s =>
    let (slot, s) := settle s slot
    match consumerStep s with
    | none => (none, slot, s)
    | some (none, s) => serve steps slot s
    | some (some item, s) => (item, settle s slot)

/-- One pull: the consumer receives, or finds the queue closed and joins. -/
def next (slot : ReaderSlot) (s : FilteredScan) : Option Item × ReaderSlot × FilteredScan :=
  serve 2 slot s.ask

/-- Drop the scan: the consumer closes the queue and joins. -/
def drop (slot : ReaderSlot) (s : FilteredScan) : ReaderSlot := (serve 2 slot s.cancel).2.1

end FilteredScan
end SymbolTables
