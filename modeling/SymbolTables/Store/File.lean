import SymbolTables.Files.Fault
import SymbolTables.Store.Basic
import SymbolTables.Store.Header
import SymbolTables.Store.RecordBlock

/-!
# Store files

A store file is the magic `SYMS`, the version, the length of the header, the header, and the records
behind it. Opening reads the header; a reader takes the records of one symbol one after the other,
from where the header says they start, as many as it says or as the file holds.
-/
namespace SymbolTables

def storeMagic : Bytes := [0x53, 0x59, 0x4D, 0x53]

def storeVersion : Nat := 1

/-- Magic, version and header length. -/
def preambleLength : Nat := 16

/-- An opened file: the header has been read, the records have not. -/
structure StoreFile where
  locator : String
  content : Bytes
  header : Header
  /-- Where the header ends. -/
  dataStart : Nat

namespace StoreFile

inductive Fault
  /-- The file cannot be read, or ends inside the preamble. -/
  | unreadable (cause : FileFault)
  | badMagic
  | unsupportedVersion (version : Nat)
  | headerTooLong (headerLength fileLength : Nat)
  | badHeader (fault : Header.Fault)
  /-- The records would start beyond the range of 64-bit positions. -/
  | offsetOutOfRange (symbol : String) (offset : Nat)
deriving DecidableEq

def Fault.message : Fault → String
  | .unreadable cause => s!"failed to open store: {cause.message}"
  | .badMagic => "invalid store magic"
  | .unsupportedVersion version => s!"unsupported store version {version}"
  | .headerTooLong headerLength fileLength =>
    s!"store header length {headerLength} exceeds file size {fileLength}"
  | .badHeader fault => s!"failed to open store: {fault.message}"
  | .offsetOutOfRange symbol offset => s!"symbol {symbol}: data offset {offset} out of range"

def Fault.toFailure (locator : String) (f : Fault) : Failure := .storageAt locator f.message

/-- Read the preamble and the header of a file. -/
def openBytes (locator : String) (content : Bytes) : Except Fault StoreFile :=
  match Bytes.cut? preambleLength content with
  | none => .error (.unreadable .endOfFile)
  | some (preamble, rest) =>
    let version := Bytes.toNat ((preamble.drop 4).take 4)
    let headerLength := Bytes.toNat (preamble.drop 8)
    if preamble.take 4 ≠ storeMagic then .error .badMagic
    else if version ≠ storeVersion then .error (.unsupportedVersion version)
    else match Bytes.cut? headerLength rest with
      | none => .error (.headerTooLong headerLength content.length)
      | some (headerBytes, _) =>
        match Header.decode headerBytes with
        | .error fault => .error (.badHeader fault)
        | .ok header =>
          let dataStart := preambleLength + headerLength
          match header.entries.find? fun e => UInt64.size ≤ dataStart + e.offset with
          | some e => .error (.offsetOutOfRange e.symbol.name e.offset)
          | none => .ok { locator, content, header, dataStart }

/-- The record that was to be read next cannot be read. -/
def readFailure (locator : String) : Failure :=
  .storageAt locator s!"failed to read record: {FileFault.endOfFile.message}"

/-- The position where the records of a symbol start cannot be sought. -/
def seekFailure (locator symbol : String) : Failure :=
  (Failure.storageAt locator s!"failed to start read: {FileFault.invalidArgument.message}").inContext
    s!"symbol {symbol}"

/-- A reader at work: the bytes in front of it, how many records are still to come, and whether it has
failed. -/
structure RecordReader where
  locator : String
  dimensions : Nat
  bytes : Bytes
  remaining : Nat
  failed : Bool

/-- The next record. There is none behind a failure or when all have been read. -/
def RecordReader.next (r : RecordReader) : Option Pull × RecordReader :=
  if r.failed ∨ r.remaining = 0 then (none, r)
  else match Bytes.cut? (recordLength r.dimensions) r.bytes with
    | none => (some (.failed (readFailure r.locator)), { r with failed := true })
    | some (block, rest) =>
      (some (.record (Record.decode r.dimensions block)),
        { r with bytes := rest, remaining := r.remaining - 1 })

/-- A reader over the records of an entry that has read nothing yet. -/
def recordReader (f : StoreFile) (e : HeaderEntry) : RecordReader where
  locator := f.locator
  dimensions := e.symbol.dimensions
  bytes := f.content.drop (f.dataStart + e.offset)
  remaining := e.symbol.recordCount
  failed := false

/-- All that a reader brings: `remaining` records of `dimensions` keys from the front of the bytes; a
cut record ends the reading. -/
def readRecords (locator : String) (dimensions : Nat) : Nat → Bytes → Reader
  | 0, _ => []
  | remaining + 1, bytes =>
    match Bytes.cut? (recordLength dimensions) bytes with
    | none => [.failed (readFailure locator)]
    | some (block, rest) =>
      .record (Record.decode dimensions block) :: readRecords locator dimensions remaining rest

/-- What a reader of an entry brings. Where the records start may lie behind the end of the file, but
not beyond what can be sought: that is for the system to say, which gives the `limit`. -/
def readEntry (f : StoreFile) (e : HeaderEntry) (limit : Nat) : Except Failure Reader :=
  let start := f.dataStart + e.offset
  if limit < start then .error (seekFailure f.locator e.symbol.name)
  else .ok (readRecords f.locator e.symbol.dimensions e.symbol.recordCount (f.content.drop start))

/-- The item behind a number counted from 1. -/
def numbered (items : List String) (number : Int32) : Option String :=
  if number < 1 then none else items[number.toInt.toNat - 1]?

/-- The name of an acronym; of several with one number the last counts. -/
def acronymName (f : StoreFile) (x : Binary64) : Option String :=
  (Acronym.index? x).bind fun k => f.header.acronyms.reverse.lookup k

def start (f : StoreFile) (nr limit : Nat) : Except Failure Reader :=
  match f.header.entries[nr]? with
  | some e => f.readEntry e limit
  | none => .ok []

/-- The store of a file, under a system that lets seek up to a limit. -/
def storeUnder (f : StoreFile) (limit : Nat) : Store where
  locator := f.locator
  symbols := f.header.entries.map (·.symbol)
  label := numbered f.header.labels
  elementText := numbered f.header.texts
  acronymName := f.acronymName
  mapValue := SpecialValue.classify
  start := fun nr => f.start nr limit

/-- The last position that can be sought where a file has at most `2^32 - 1` blocks of 4096 bytes. -/
def seekLimit : Nat := 4096 * (UInt32.size - 1)

/-- The store of a file on a file system with blocks of 4096 bytes. -/
def toStore (f : StoreFile) : Store := f.storeUnder seekLimit

end StoreFile
end SymbolTables
