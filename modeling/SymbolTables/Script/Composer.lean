import SymbolTables.Script.Request
import SymbolTables.Text.Blank

/-!
# Scripts of several tables

A composer makes one text out of the scripts of several requests. It keeps the scripts of the last
call and takes from them what a new call asks for again, each at most once. A call with the tables
of the last one, sorted by key, and with its flag leaves everything as it is.
-/
namespace SymbolTables.Script

/-- A request and its script. -/
structure Entry where
  request : Request
  script : String
deriving DecidableEq

/-- The tables and the flag of a call. -/
structure Call where
  tables : List Request
  precedingLoad : Bool
deriving DecidableEq

structure Composer where
  /-- The last call, its tables sorted. -/
  last : Option Call
  entries : List Entry
  /-- Scripts made so far. -/
  generated : Nat
deriving DecidableEq

namespace Composer

def empty : Composer := ⟨none, [], 0⟩

/-- Between two scripts: a blank line. -/
def scriptSeparator : String := lineEnd ++ lineEnd

/-- Scripts one after the other. -/
def joinScripts (scripts : List String) : String :=
  Text.strip (scriptSeparator.intercalate scripts)

/-- The text of the last call. -/
def current (c : Composer) : String := joinScripts (c.entries.map (·.script))

/-- A request as a call understands it: a `LOAD` precedes where the call says so or a field needs it
for another name. -/
def effective (precedingLoad : Bool) (r : Request) : Request :=
  { r with precedingLoad := precedingLoad || r.anyAlias }

/-- What stays when an entry is taken out: the last one comes into its place. -/
def without (entries : List Entry) (index : Nat) : List Entry :=
  match entries.getLast? with
  | none => []
  | some last => (entries.set index last).dropLast

/-- Take the first entry of a request out of a list. -/
def take? (r : Request) (entries : List Entry) : Option (Entry × List Entry) := do
  let index ← entries.findIdx? fun e => e.request = r
  return (← entries[index]?, without entries index)

/-- Entries for requests, taken from old ones where they are there, and the number of those that
had to be made. -/
def compose (old : List Entry) : List Request → List Entry × Nat
  | [] => ([], 0)
  | r :: rest =>
    match take? r old with
    | some (e, old) =>
      let (entries, made) := compose old rest
      (e :: entries, made)
    | none =>
      let (entries, made) := compose old rest
      (⟨r, r.script⟩ :: entries, made + 1)

/-- Tables by their keys; those of one key keep their order. -/
def sortByKey (tables : List Request) : List Request :=
  tables.mergeSort fun a b => a.key ≤ b.key

/-- The text for some tables and the composer afterwards. -/
def generate (c : Composer) (tables : List Request) (precedingLoad : Bool) : String × Composer :=
  let call : Call := ⟨sortByKey tables, precedingLoad⟩
  if c.last = some call then (c.current, c)
  else
    let (entries, made) := compose c.entries (tables.map (effective precedingLoad))
    let c : Composer := ⟨some call, entries, c.generated + made⟩
    (c.current, c)

end Composer
end SymbolTables.Script
