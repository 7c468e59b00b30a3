import SymbolTables.Scan.Batch

/-!
# Reading streams to their end

The rows of a stream as a list, with how it ended. A stream gives at most as many rows as its reader
has records left and its queue holds rows, which bounds the number of pulls.
-/
namespace SymbolTables

/-- How a stream ended. -/
inductive Ending
  /-- It has not: all rows asked for are there. -/
  | unfinished
  | finished
  | failed (f : Failure)
  | crashed

/-- Records that the producer may still send as rows. -/
def FilteredScan.recordsLeft (s : FilteredScan) : Nat :=
  match s.producer with
  | .starting _ =>
    match s.store.start s.symbol with
    | .ok reader => reader.length
    | .error _ => 0
  | .reading rest _ => rest.length
  | .pulled _ rest _ | .matched _ rest _ | .sending _ rest _ => rest.length + 1
  | .leaving _ | .gone _ => 0

namespace RowStream

/-- No more rows than this come out of a stream. -/
def bound (s : RowStream) : Nat :=
  match s.scan with
  | .sequential scan => (scan.reader.map List.length).getD 0
  | .filtered scan => scan.queue.length + scan.recordsLeft

/-- Up to `count` rows. -/
def take : Nat → ReaderSlot → RowStream → List Row × Ending × ReaderSlot × RowStream
  | 0, slot, s => ([], .unfinished, slot, s)
  | count + 1, slot, s =>
    match s.next slot with
    | (none, slot, s) => ([], .finished, slot, s)
    | (some (.failed f), slot, s) => ([], .failed f, slot, s)
    | (some .crashed, slot, s) => ([], .crashed, slot, s)
    | (some (.row row), slot, s) =>
      let (rows, ending) := take count slot s
      (row :: rows, ending)

/-- All rows. -/
def drain (slot : ReaderSlot) (s : RowStream) : List Row × Ending :=
  let (rows, ending, _) := s.take (s.bound + 1) slot
  (rows, ending)

end RowStream

namespace Batches

/-- No more items than this come out of a stream's batches. -/
def bound (b : Batches) : Nat := (b.stream.map RowStream.bound).getD 0 + 2

/-- Up to `count` batches, and the failure that ends them. -/
def take : Nat → ReaderSlot → Batches → List BatchItem
  | 0, _, _ => []
  | count + 1, slot, b =>
    match b.next slot with
    | (none, _, _) => []
    | (some .crashed, _, _) => [.crashed]
    | (some item, slot, b) => item :: take count slot b

/-- All batches. -/
def drain (slot : ReaderSlot) (b : Batches) : List BatchItem := take (b.bound + 1) slot b

end Batches
end SymbolTables
