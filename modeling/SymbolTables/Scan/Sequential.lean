import SymbolTables.Scan.Decoder

/-!
# Sequential scans

A scan without conditions reads on demand: each pull takes records until one gives a row. It holds
the reader slot from its start until it reports its end or a failure, or is dropped.
-/
namespace SymbolTables

/-- What one pull at a scan brings; no item is its end. -/
inductive Item
  | row (r : Row)
  | failed (f : Failure)
  /-- The scan breaks down. -/
  | crashed

structure SequentialScan where
  /-- The reader, while the scan is not over. -/
  reader : Option Reader
  decoder : Decoder

namespace SequentialScan

/-- Pull a reader until a record gives a row or the scan is over. The rest of the reader is there as
long as the scan goes on. -/
def advance (d : Decoder) : Reader → Option Item × Option Reader × Decoder
  | [] => (none, none, d)
  | .failed f :: _ => (some (.failed f), none, d)
  | .crashed :: rest => (some .crashed, some rest, d)
  | .record r :: rest =>
    match d.decode r with
    | (.ok row, d) => (some (.row row), some rest, d)
    | (.error .discarded, d) => advance d rest
    | (.error (.failed f), d) => (some (.failed f), none, d)
    | (.error .outsideLayout, d) => (some .crashed, some rest, d)

/-- One pull. The slot is released when the scan is over. -/
def next (slot : ReaderSlot) (s : SequentialScan) : Option Item × ReaderSlot × SequentialScan :=
  match s.reader with
  | none => (none, slot, s)
  | some reader =>
    let (item, rest, decoder) := advance s.decoder reader
    (item, if rest.isSome then slot else slot.release, ⟨rest, decoder⟩)

/-- Drop the scan; a reader that it still holds is dropped with it. -/
def drop (slot : ReaderSlot) (s : SequentialScan) : ReaderSlot :=
  if s.reader.isSome then slot.release else slot

end SequentialScan
end SymbolTables
