import SymbolTables.Access.Prepared
import SymbolTables.Query.Reader
import SymbolTables.Scan.Batch

/-!
# Sessions

One opened store used by several parties at once. Each party has a name, under which it may keep a
prepared query, a stream of rows, a stream of batches and a reader; of each kind the last one made.
What is replaced is dropped after its successor has been made. All streams and readers of a session
share one reader slot.
-/
namespace SymbolTables

/-- What parties keep, by their names. -/
abbrev Kept (α : Type) := List (String × α)

namespace Kept

def erase {α : Type} (party : String) (kept : Kept α) : Kept α := kept.filter (·.1 != party)

def put {α : Type} (party : String) (a : α) (kept : Kept α) : Kept α :=
  (party, a) :: erase party kept

end Kept

/-- A reader that a party keeps. -/
structure OpenReader where
  symbol : Nat
  /-- What it still has to hand over. -/
  rest : Reader
  /-- How often it has been pulled since it has nothing left. -/
  past : Nat

/-- One pull. A reader that has crashed stays as it is. -/
def OpenReader.pull (store : Store) (reader : OpenReader) : Option Pull × OpenReader :=
  match reader.rest with
  | [] => (store.pastEnd reader.symbol reader.past, { reader with past := reader.past + 1 })
  | .crashed :: _ => (some .crashed, reader)
  | pull :: rest => (some pull, { reader with rest })

structure Session where
  store : Store
  /-- The length of the queue of a filtered scan. -/
  capacity : Nat
  slot : ReaderSlot
  prepared : Kept PreparedQuery
  streams : Kept RowStream
  batches : Kept Batches
  readers : Kept OpenReader

namespace Session

def ofStore (store : Store) (capacity : Nat) : Session := ⟨store, capacity, .free, [], [], [], []⟩

/-! ## Keeping and dropping -/

def dropStream (s : Session) (party : String) : Session :=
  match s.streams.lookup party with
  | some stream =>
    { s with slot := stream.drop s.slot, streams := Kept.erase party s.streams }
  | none => s

def dropBatches (s : Session) (party : String) : Session :=
  match s.batches.lookup party with
  | some batches =>
    { s with slot := batches.drop s.slot, batches := Kept.erase party s.batches }
  | none => s

/-- A reader holds the slot until it is dropped, also after its end. -/
def dropReader (s : Session) (party : String) : Session :=
  match s.readers.lookup party with
  | some _ => { s with slot := s.slot.release, readers := Kept.erase party s.readers }
  | none => s

/-- Drop whatever a party keeps. -/
def drop (s : Session) (party : String) : Session :=
  (({ s with prepared := Kept.erase party s.prepared }.dropStream party).dropBatches party).dropReader
    party

def keepStream (s : Session) (party : String) (stream : RowStream) : Session :=
  let s := s.dropStream party
  { s with streams := Kept.put party stream s.streams }

/-- Keep a stream that has just been started. -/
def keepStarted (s : Session) (party : String) (started : Except Failure (RowStream × ReaderSlot)) :
    Except Failure RowStream × Session :=
  match started with
  | .error f => (.error f, s)
  | .ok (stream, slot) => (.ok stream, { s with slot }.keepStream party stream)

/-! ## Queries -/

/-- Prepare a query; the slot is not needed for it. -/
def prepare (s : Session) (party text : String) : Except Failure PreparedQuery × Session :=
  match Query.parse text with
  | .error fault => (.error fault.toFailure, s)
  | .ok query =>
    match PreparedQuery.ofQuery s.store query with
    | .error f => (.error f, s)
    | .ok p => (.ok p, { s with prepared := Kept.put party p s.prepared })

/-- Start the prepared query of a party, if it has one. The query is used up, whether or not it
starts. -/
def start (s : Session) (party : String) : Option (Except Failure RowStream) × Session :=
  match s.prepared.lookup party with
  | none => (none, s)
  | some p =>
    let s := { s with prepared := Kept.erase party s.prepared }
    let (result, s) := s.keepStarted party (p.start s.store s.slot s.capacity)
    (some result, s)

/-- Scan the symbol that a table names. -/
def scan (s : Session) (party : String) (schema : Schema) (names : List String)
    (conditions : List Condition) : Except Failure RowStream × Session :=
  s.keepStarted party (RowStream.ofSchema s.store s.slot schema names conditions)

/-- Start a plan, with a queue of its own length. -/
def startPlan (s : Session) (party : String) (plan : ScanPlan) (capacity : Nat) :
    Except Failure RowStream × Session :=
  s.keepStarted party (RowStream.start s.store s.slot plan capacity)

/-- One pull at the stream of a party, if it has one. -/
def nextRow (s : Session) (party : String) : Option (Option Item × Session) :=
  (s.streams.lookup party).map fun stream =>
    let (item, slot, stream) := stream.next s.slot
    (item, { s with slot, streams := Kept.put party stream s.streams })

/-! ## Batches -/

/-- Turn the stream of a party into batches. -/
def cutIntoBatches (s : Session) (party : String) (size : Nat) : Option Session :=
  (s.streams.lookup party).map fun stream =>
    let s := { s with streams := Kept.erase party s.streams }.dropBatches party
    { s with batches := Kept.put party (Batches.ofStream stream size) s.batches }

/-- One pull at the batches of a party, if it has any. -/
def nextBatch (s : Session) (party : String) : Option (Option BatchItem × Session) :=
  (s.batches.lookup party).map fun batches =>
    let (item, slot, batches) := batches.next s.slot
    (item, { s with slot, batches := Kept.put party batches s.batches })

/-! ## Readers -/

/-- Start a reader over the records of a symbol. -/
def read (s : Session) (party : String) (nr : Nat) : Except Failure Unit × Session :=
  match s.store.readRaw s.slot nr with
  | .error f => (.error f, s)
  | .ok (reader, slot) =>
    let s := { s with slot }.dropReader party
    (.ok (), { s with readers := Kept.put party ⟨nr, reader, 0⟩ s.readers })

/-- One pull at the reader of a party, if it has one. -/
def nextRecord (s : Session) (party : String) : Option (Option Pull × Session) :=
  (s.readers.lookup party).map fun reader =>
    let (pull, reader) := reader.pull s.store
    (pull, { s with readers := Kept.put party reader s.readers })

end Session
end SymbolTables
