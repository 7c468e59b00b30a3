import SymbolTables.Store.File

/-!
# Writing stores

A store is put together in memory by operations that may fail, and then written as one byte string.
Labels are numbered from 1 in the order of their first use. A number is normalised when it is added,
so a written store holds no NaN and no infinity.
-/
namespace SymbolTables

/-- A symbol that is being filled. -/
structure PendingSymbol where
  name : String
  kind : Kind
  domains : List String
  text : String
  records : List Record
deriving DecidableEq

structure StoreWriter where
  labels : List String
  texts : List String
  acronyms : List String
  symbols : List PendingSymbol
deriving DecidableEq

namespace StoreWriter

inductive Fault
  | duplicateSymbol (name : String)
  | numberOutOfRange (nr : Nat)
  | wrongKind (symbol : String) (kind expected : Kind)
  | singleValued (symbol : String) (kind : Kind)
  | wrongLabelCount (symbol : String) (dimensions given : Nat)
deriving DecidableEq

def Fault.message : Fault → String
  | .duplicateSymbol name => s!"duplicate symbol {name}"
  | .numberOutOfRange nr => s!"symbol number {nr} out of range"
  | .wrongKind symbol kind expected => s!"symbol {symbol} is a {kind.name}, not a {expected.name}"
  | .singleValued symbol kind => s!"symbol {symbol} is a {kind.name}, not a variable or equation"
  | .wrongLabelCount symbol dimensions given =>
    s!"symbol {symbol} has {dimensions} dimensions, got {given} labels"

def Fault.toFailure (f : Fault) : Failure := .internal f.message none

def empty : StoreWriter := ⟨[], [], [], []⟩

/-- The key of a label that has one. -/
def keyOf? (w : StoreWriter) (label : String) : Option Int32 :=
  (w.labels.idxOf? label).map fun i => Int32.ofNat (i + 1)

/-- The key of a label, which is numbered now if it has no key yet. -/
def addLabel (w : StoreWriter) (label : String) : Int32 × StoreWriter :=
  match w.keyOf? label with
  | some key => (key, w)
  | none => (Int32.ofNat (w.labels.length + 1), { w with labels := w.labels ++ [label] })

def addLabels (w : StoreWriter) : List String → List Int32 × StoreWriter
  | [] => ([], w)
  | label :: rest =>
    let (key, w) := w.addLabel label
    let (keys, w) := w.addLabels rest
    (key :: keys, w)

/-- A new acronym; gives the number that stands for it. -/
def addAcronym (w : StoreWriter) (name : String) : Binary64 × StoreWriter :=
  (Acronym.value (w.acronyms.length + 1), { w with acronyms := w.acronyms ++ [name] })

/-- A new symbol; names may not differ in letter case alone. -/
def addSymbol (w : StoreWriter) (name : String) (kind : Kind) (domains : List String)
    (text : String) : Except Fault Nat × StoreWriter :=
  if w.symbols.any fun s => Text.sameName s.name name then (.error (.duplicateSymbol name), w)
  else
    (.ok w.symbols.length,
      { w with symbols := w.symbols ++ [{ name, kind, domains, text, records := [] }] })

/-- Append a record to a symbol. -/
def appendRecord (w : StoreWriter) (nr : Nat) (r : Record) : StoreWriter :=
  { w with symbols := w.symbols.modify nr fun s => { s with records := s.records ++ [r] } }

/-- Add a record to a symbol of the expected kind. -/
def addRecord (w : StoreWriter) (nr : Nat) (expected : Kind) (labels : List String)
    (values : Slots) : Except Fault Unit × StoreWriter :=
  match w.symbols[nr]? with
  | none => (.error (.numberOutOfRange nr), w)
  | some s =>
    if s.kind ≠ expected then (.error (.wrongKind s.name s.kind expected), w)
    else if s.domains.length ≠ labels.length then
      (.error (.wrongLabelCount s.name s.domains.length labels.length), w)
    else
      let (keys, w) := w.addLabels labels
      (.ok (), w.appendRecord nr ⟨keys, values.map SpecialValue.normalize⟩)

/-- Add an element to a set. Its text, if any, is numbered first, and keeps its number even when the
element is refused. -/
def addElement (w : StoreWriter) (nr : Nat) (labels : List String) (text : Option String) :
    Except Fault Unit × StoreWriter :=
  match text with
  | none => w.addRecord nr .set labels (.ofLevel .zero)
  | some text =>
    let w := { w with texts := w.texts ++ [text] }
    w.addRecord nr .set labels (.ofLevel (.ofNat w.texts.length))

def addValue (w : StoreWriter) (nr : Nat) (labels : List String) (value : Binary64) :
    Except Fault Unit × StoreWriter :=
  w.addRecord nr .parameter labels (.ofLevel value)

/-- Add a record to a variable or an equation. -/
def addValues (w : StoreWriter) (nr : Nat) (labels : List String) (values : Slots) :
    Except Fault Unit × StoreWriter :=
  match w.symbols[nr]? with
  | none => (.error (.numberOutOfRange nr), w)
  | some s =>
    match s.kind with
    | .var | .equation => w.addRecord nr s.kind labels values
    | .set | .parameter => (.error (.singleValued s.name s.kind), w)

/-- The operations, as data. -/
inductive Operation
  | label (label : String)
  | acronym (name : String)
  | symbol (name : String) (kind : Kind) (domains : List String) (text : String)
  | element (nr : Nat) (labels : List String) (text : Option String)
  | value (nr : Nat) (labels : List String) (value : Binary64)
  | values (nr : Nat) (labels : List String) (values : Slots)

/-- What an operation gives back when it succeeds. -/
inductive Answer
  | key (key : Int32)
  | number (x : Binary64)
  | symbol (nr : Nat)
  | done
deriving DecidableEq

def apply (w : StoreWriter) : Operation → Except Fault Answer × StoreWriter
  | .label label => ((.ok (.key (w.addLabel label).1)), (w.addLabel label).2)
  | .acronym name => ((.ok (.number (w.addAcronym name).1)), (w.addAcronym name).2)
  | .symbol name kind domains text =>
    let (result, w) := w.addSymbol name kind domains text
    (result.map .symbol, w)
  | .element nr labels text =>
    let (result, w) := w.addElement nr labels text
    (result.map fun _ => .done, w)
  | .value nr labels value =>
    let (result, w) := w.addValue nr labels value
    (result.map fun _ => .done, w)
  | .values nr labels values =>
    let (result, w) := w.addValues nr labels values
    (result.map fun _ => .done, w)

/-- The writer after some operations; those that fail are passed over. -/
def run (w : StoreWriter) (operations : List Operation) : StoreWriter :=
  operations.foldl (fun w operation => (w.apply operation).2) w

def PendingSymbol.entry (s : PendingSymbol) (offset : Nat) : HeaderEntry :=
  ⟨⟨s.name, s.kind, s.domains, s.text, s.records.length⟩, offset⟩

/-- Bytes that the records of a symbol take. -/
def PendingSymbol.dataLength (s : PendingSymbol) : Nat :=
  s.records.length * recordLength s.domains.length

/-- The entries of symbols whose records follow one another from an offset on. -/
def entriesFrom (offset : Nat) : List PendingSymbol → List HeaderEntry
  | [] => []
  | s :: rest => PendingSymbol.entry s offset :: entriesFrom (offset + PendingSymbol.dataLength s) rest

/-- The names numbered from 1. -/
def numberedFrom (first : Nat) : List String → List (Nat × String)
  | [] => []
  | name :: rest => (first, name) :: numberedFrom (first + 1) rest

def header (w : StoreWriter) : Header where
  labels := w.labels
  texts := w.texts
  acronyms := numberedFrom 1 w.acronyms
  entries := entriesFrom 0 w.symbols

/-- The records of all symbols, one symbol after the other. -/
def data (w : StoreWriter) : Bytes :=
  w.symbols.flatMap fun s => s.records.flatMap Record.encode

/-- The whole store file. -/
def toBytes (w : StoreWriter) : Bytes :=
  let header := w.header.encode
  storeMagic ++ Bytes.ofNat 4 storeVersion ++ Bytes.ofNat 8 header.length ++ header ++ w.data

end StoreWriter
end SymbolTables
