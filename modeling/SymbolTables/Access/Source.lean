import SymbolTables.Access.Config
import SymbolTables.Access.Prepared
import SymbolTables.Files.Locator
import SymbolTables.Query.Reader
import SymbolTables.Store.Writer

/-!
# Queries against store files

From a query text, or the locator of a store, to the opened store. Each query opens its store anew,
so its reader slot is free.
-/
namespace SymbolTables

/-- Read and open the store file at a path. -/
def StoreFile.load {m : Type → Type} [Monad m] (disk : Disk m) (path : String) :
    m (Except Failure StoreFile) := do
  match ← disk.read path with
  | .error cause => return .error ((Fault.unreadable cause).toFailure path)
  | .ok content => return (openBytes path content).mapError (Fault.toFailure path)

/-- Write a store to a file. -/
def StoreWriter.save {m : Type → Type} [Monad m] (disk : Disk m) (w : StoreWriter) (path : String) :
    m (Except Failure Unit) := do
  match ← disk.write path w.toBytes with
  | .error cause =>
    return .error (.storageAt path s!"failed to write store: {cause.message}")
  | .ok () => return .ok ()

namespace Source

variable {m : Type → Type} [Monad m]

/-- Open the store that a locator names. -/
def openStore (disk : Disk m) (config : Config) (file : String) : m (Except Failure Store) := do
  match ← Locator.resolve disk config.sourceDirectory file with
  | .error f => return .error f
  | .ok path => return (← StoreFile.load disk path).map StoreFile.toStore

/-- Read a query, open its store and prepare it. -/
def prepare (disk : Disk m) (config : Config) (text : String) :
    m (Except Failure (Store × PreparedQuery)) := do
  match Query.parse text with
  | .error fault => return .error fault.toFailure
  | .ok query =>
    match ← openStore disk config query.file with
    | .error f => return .error f
    | .ok store => return (PreparedQuery.ofQuery store query).map (store, ·)

/-- The tables of all symbols of a store, in their order. -/
def tables (disk : Disk m) (config : Config) (file : String) : m (Except Failure (List Schema)) := do
  return (← openStore disk config file).map fun store => store.symbols.map Schema.ofSymbol

end Source
end SymbolTables
