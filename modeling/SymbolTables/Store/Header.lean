import SymbolTables.Store.Symbol
import SymbolTables.Text.Utf8

/-!
# The header of a store file

Five counted tables, little-endian, texts as UTF-8 behind their length:

```text
labels    count u32, text …                 the k-th label has key k
texts     count u32, text …                 the i-th text has number i
acronyms  count u32, (number u32, text) …
symbols   count u32, entry …
entry     name text, kind u8, domains (count u32, text …), text, record count u64, offset u64
```

`encode` writes a header, `decode` reads one off the front of a byte string. A count is refused at
once when so many items cannot fit into what is left.
-/
namespace SymbolTables

/-- A symbol and where its records start, counted from the end of the header. -/
structure HeaderEntry where
  symbol : Symbol
  offset : Nat
deriving DecidableEq

structure Header where
  labels : List String
  texts : List String
  acronyms : List (Nat × String)
  entries : List HeaderEntry
deriving DecidableEq

namespace Header

def encodeText (s : String) : Bytes :=
  Bytes.ofNat 4 (Text.Utf8.encode s).length ++ Text.Utf8.encode s

/-- A count and the items behind it. -/
def encodeTable {α : Type} (item : α → Bytes) (items : List α) : Bytes :=
  Bytes.ofNat 4 items.length ++ items.flatMap item

def encodeAcronym (a : Nat × String) : Bytes := Bytes.ofNat 4 a.1 ++ encodeText a.2

def encodeEntry (e : HeaderEntry) : Bytes :=
  encodeText e.symbol.name ++ Bytes.ofNat 1 e.symbol.kind.code
    ++ encodeTable encodeText e.symbol.domains ++ encodeText e.symbol.text
    ++ Bytes.ofNat 8 e.symbol.recordCount ++ Bytes.ofNat 8 e.offset

def encode (h : Header) : Bytes :=
  encodeTable encodeText h.labels ++ encodeTable encodeText h.texts
    ++ encodeTable encodeAcronym h.acronyms ++ encodeTable encodeEntry h.entries

/-- The pieces a header is read in. -/
inductive Piece
  | labelCount
  | label
  | textCount
  | elementText
  | acronymCount
  | acronymNumber
  | acronymName
  | symbolCount
  | symbolName
  | symbolKind
  | dimensions
  | domainName
  | symbolText
  | recordCount
  | dataOffset
deriving DecidableEq

def Piece.name : Piece → String
  | .labelCount => "uel count"
  | .label => "uel"
  | .textCount => "text count"
  | .elementText => "element text"
  | .acronymCount => "acronym count"
  | .acronymNumber => "acronym index"
  | .acronymName => "acronym name"
  | .symbolCount => "symbol count"
  | .symbolName => "symbol name"
  | .symbolKind => "symbol kind"
  | .dimensions => "dimension"
  | .domainName => "domain name"
  | .symbolText => "symbol text"
  | .recordCount => "record count"
  | .dataOffset => "data offset"

inductive Fault
  /-- The header ends inside this piece, or holds too few bytes for a count. -/
  | truncated (piece : Piece)
  | invalidText (piece : Piece) (fault : Text.Utf8.Fault)
  | unknownKind (symbol : String) (code : Nat)
deriving DecidableEq

def Fault.message : Fault → String
  | .truncated piece => s!"store header truncated reading {piece.name}"
  | .invalidText piece fault => s!"store header: invalid UTF-8 in {piece.name}: {fault.message}"
  | .unknownKind symbol code => s!"symbol {symbol}: unknown kind code {code}"

/-- Reads a value off the front of the bytes that are left. -/
abbrev Decode := StateT Bytes (Except Fault)

def decodeBytes (piece : Piece) (n : Nat) : Decode Bytes := fun bytes =>
  match Bytes.cut? n bytes with
  | some p => .ok p
  | none => .error (.truncated piece)

def decodeNat (piece : Piece) (width : Nat) : Decode Nat :=
  return Bytes.toNat (← decodeBytes piece width)

/-- A count of items that take at least `least` bytes each. -/
def decodeCount (piece : Piece) (least : Nat) : Decode Nat := do
  let n ← decodeNat piece 4
  if (← get).length < n * least then throw (.truncated piece)
  return n

def decodeText (piece : Piece) : Decode String := do
  let n ← decodeNat piece 4
  let bytes ← decodeBytes piece n
  match Text.Utf8.decode bytes with
  | .ok s => return s
  | .error fault => throw (.invalidText piece fault)

/-- The same item `n` times. -/
def decodeItems {α : Type} (item : Decode α) : Nat → Decode (List α)
  | 0 => return []
  | n + 1 => do
    let first ← item
    return first :: (← decodeItems item n)

def decodeTable {α : Type} (count : Piece) (least : Nat) (item : Decode α) : Decode (List α) := do
  decodeItems item (← decodeCount count least)

def decodeAcronym : Decode (Nat × String) := do
  let number ← decodeNat .acronymNumber 4
  return (number, ← decodeText .acronymName)

def decodeKind (symbol : String) : Decode Kind := do
  let code ← decodeNat .symbolKind 1
  match Kind.ofCode? code with
  | some kind => return kind
  | none => throw (.unknownKind symbol code)

def decodeEntry : Decode HeaderEntry := do
  let name ← decodeText .symbolName
  let kind ← decodeKind name
  let domains ← decodeTable .dimensions 4 (decodeText .domainName)
  let text ← decodeText .symbolText
  let recordCount ← decodeNat .recordCount 8
  let offset ← decodeNat .dataOffset 8
  return { symbol := { name, kind, domains, text, recordCount }, offset }

def decodeHeader : Decode Header := do
  let labels ← decodeTable .labelCount 4 (decodeText .label)
  let texts ← decodeTable .textCount 4 (decodeText .elementText)
  let acronyms ← decodeTable .acronymCount 8 decodeAcronym
  let entries ← decodeTable .symbolCount 29 decodeEntry
  return { labels, texts, acronyms, entries }

/-- The header at the front of a byte string; what follows it does not matter. -/
def decode (bytes : Bytes) : Except Fault Header :=
  match decodeHeader bytes with
  | .ok (header, _) => .ok header
  | .error fault => .error fault

end Header
end SymbolTables
