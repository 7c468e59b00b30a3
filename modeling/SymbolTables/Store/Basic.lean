import SymbolTables.Store.ReaderSlot
import SymbolTables.Store.Special
import SymbolTables.Store.Symbol
import SymbolTables.Text.AsciiCase

/-!
# Stores

A store as its users see it: symbols, labels by key, element texts, acronym names and special values,
and for each symbol a reader. A reader is the list of what it hands over when it is pulled again and
again: the records, then perhaps a failure or a crash; after that it has ended. Scans stop there; what
a reader brings to those who do not is a matter of the store.
-/
namespace SymbolTables

/-- What one pull at a reader brings. -/
inductive Pull
  | record (r : Record)
  | failed (f : Failure)
  /-- The reader breaks down: nothing comes back, not even a failure. -/
  | crashed

abbrev Reader := List Pull

structure Store where
  locator : String
  symbols : List Symbol
  /-- The label of a key. -/
  label : Int32 → Option String
  /-- The text of a set element, by the number in its level slot. -/
  elementText : Int32 → Option String
  /-- The name of the acronym that a number stands for. -/
  acronymName : Binary64 → Option String
  /-- The special value that a number stands for; `none` if it stands for itself. -/
  mapValue : Binary64 → Option SpecialValue := SpecialValue.classify
  /-- Start reading the records of a symbol. -/
  start : Nat → Except Failure Reader
  /-- What a reader of a symbol brings that has ended and is pulled on all the same, by the number of
  pulls since; a reader that stays at its end brings nothing. -/
  pastEnd : Nat → Nat → Option Pull := fun _ _ => none

namespace Store

/-- The first symbol of this name, or else the first whose name differs only in letter case. -/
def findSymbol (s : Store) (name : String) : Option Nat :=
  match s.symbols.findIdx? fun symbol => symbol.name == name with
  | some nr => some nr
  | none => s.symbols.findIdx? fun symbol => Text.sameName symbol.name name

def symbolInfo (s : Store) (nr : Nat) : Except Failure Symbol :=
  match s.symbols[nr]? with
  | some symbol => .ok symbol
  | none => .error (.storageAt s.locator s!"symbol number {nr} out of range")

/-- Claim the slot and start a reader. A failure leaves the slot as it was. -/
def readRaw (s : Store) (slot : ReaderSlot) (nr : Nat) : Except Failure (Reader × ReaderSlot) := do
  let _ ← s.symbolInfo nr
  let slot ← slot.acquire s.locator
  let reader ← s.start nr
  return (reader, slot)

/-- Whether a key has the wanted label; the empty label is wanted by nobody. -/
def keyMatches (s : Store) (key : Option Int32) (wanted : String) : Bool :=
  wanted == "" || key.bind s.label == some wanted

/-- Whether a record has the wanted label in every dimension of the filter. -/
def keysMatch (s : Store) : List String → List Int32 → Bool
  | [], _ => true
  | wanted :: filter, keys => s.keyMatches keys.head? wanted && s.keysMatch filter keys.tail

def recordMatches (s : Store) (filter : List String) (r : Record) : Bool :=
  s.keysMatch filter r.keys

end Store

/-- What to do after a record has been handed to its receiver. -/
inductive Verdict (σ : Type)
  | proceed (state : σ) (cancelled : Bool)
  | stop (state : σ)
  | fail (state : σ) (f : Failure)
  /-- The receiver breaks down. -/
  | crash (state : σ)

/-- How a walk over the records ended. -/
inductive WalkEnd
  | completed
  | failed (f : Failure)
  | crashed

/-- Pull a reader to its end and hand the matching records to a receiver. Cancellation is looked at
after each pull, whether its record matches or not. -/
def Reader.walk {σ : Type} (wanted : Record → Bool) (receive : σ → Record → Verdict σ) :
    Reader → Bool → σ → σ × WalkEnd
  | [], _, state => (state, .completed)
  | .crashed :: _, _, state => (state, .crashed)
  | .failed f :: _, cancelled, state => (state, if cancelled then .completed else .failed f)
  | .record r :: rest, cancelled, state =>
    if cancelled then (state, .completed)
    else if wanted r then
      match receive state r with
      | .proceed state cancelled => walk wanted receive rest cancelled state
      | .stop state => (state, .completed)
      | .fail state f => (state, .failed f)
      | .crash state => (state, .crashed)
    else walk wanted receive rest cancelled state

/-- A filtered read: walk over the records that pass the filter, with the slot held meanwhile. -/
def Store.readFiltered {σ : Type} (s : Store) (slot : ReaderSlot) (nr : Nat) (filter : List String)
    (cancelled : Bool) (receive : σ → Record → Verdict σ) (state : σ) : σ × WalkEnd :=
  match s.readRaw slot nr with
  | .error f => (state, .failed f)
  | .ok (reader, _) => reader.walk (s.recordMatches filter) receive cancelled state

end SymbolTables
