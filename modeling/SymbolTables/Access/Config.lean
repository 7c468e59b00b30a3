import SymbolTables.Files.Disk
import SymbolTables.Json.Reader
import SymbolTables.Scan.Stream

/-!
# Configuration

Where stores are looked for and how long the queue of a filtered scan is. A configuration is read
from a JSON file; what the file does not say keeps its default, and so does everything when there is
no file.
-/
namespace SymbolTables

structure Config where
  /-- Locators are resolved below this directory; without it they are paths. -/
  sourceDirectory : Option String
  queueCapacity : Nat
  /-- Which events are logged. -/
  logFilter : String
deriving DecidableEq

namespace Config

inductive Fault
  | unreadable (path : String) (cause : FileFault)
  | malformed (path : String)
deriving DecidableEq

def Fault.message : Fault → String
  | .unreadable path _ => s!"Failed to read configuration from {path}"
  | .malformed path => s!"Failed to parse configuration from {path}"

def default : Config := ⟨none, defaultCapacity, "info"⟩

def keys : List String := ["source_dir", "queue_capacity", "log_filter"]

/-- A text or `null`. -/
def directory? : Json → Option (Option String)
  | .null => some none
  | json => json.text?.map some

def ofJson? (json : Json) : Option Config := do
  match ← json.fields? keys with
  | [sourceDirectory, queueCapacity, logFilter] =>
    return {
      sourceDirectory := ← Json.field? directory? default.sourceDirectory sourceDirectory
      queueCapacity := ← Json.field? Json.natural? default.queueCapacity queueCapacity
      logFilter := ← Json.field? Json.text? default.logFilter logFilter }
  | _ => none

def read? (text : String) : Option Config := do ofJson? (← Json.parse? text)

def load {m : Type → Type} [Monad m] (disk : Disk m) (path : String) : m (Except Fault Config) := do
  if ← disk.leads path then
    match ← disk.readText path with
    | .error cause => return .error (.unreadable path cause)
    | .ok text =>
      match read? text with
      | some config => return .ok config
      | none => return .error (.malformed path)
  else return .ok default

/-- The length of the queue: at least one row. -/
def effectiveCapacity (c : Config) : Nat := max c.queueCapacity 1

end Config
end SymbolTables
