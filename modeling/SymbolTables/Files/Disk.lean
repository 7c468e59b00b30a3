import SymbolTables.Files.Fault
import SymbolTables.Text.Utf8

/-!
# Access to files

What the program asks of a file system, in whatever monad that answers: the system itself, or a file
tree held as a value.
-/
namespace SymbolTables

/-- An absolute place with every link resolved, as the names from the root to it. -/
structure Place where
  names : List String
deriving DecidableEq

def Place.path (p : Place) : String := "/" ++ "/".intercalate p.names

/-- Whether a place is another place or lies below it. -/
def Place.isWithin (p root : Place) : Bool := root.names.isPrefixOf p.names

structure Disk (m : Type → Type) where
  /-- The place a path leads to, links followed. -/
  resolve : String → m (Except FileFault Place)
  /-- Whether a path leads to a regular file. -/
  isFile : String → m Bool
  /-- Whether a path leads anywhere. -/
  leads : String → m Bool
  read : String → m (Except FileFault Bytes)
  /-- Create a file or replace its content. -/
  write : String → Bytes → m (Except FileFault Unit)

/-- The content of a text file. -/
def Disk.readText {m : Type → Type} [Monad m] (disk : Disk m) (path : String) :
    m (Except FileFault String) := do
  match ← disk.read path with
  | .error fault => return .error fault
  | .ok bytes =>
    match Text.Utf8.decode bytes with
    | .ok text => return .ok text
    | .error _ => return .error .notText

end SymbolTables
