import SymbolTables.Failure
import SymbolTables.Files.Disk
import SymbolTables.Text.Blank
import SymbolTables.Text.Split

/-!
# Store locators

A locator names a store file below a source directory; its names are separated by `/` or `\`. The
file has to exist and to lie inside the directory when all links are resolved. Without a source
directory a locator is a path.
-/
namespace SymbolTables.Locator

def inaccessible (path : String) : Failure := .connect "The file cannot be accessed" path

def separates (c : Char) : Bool := c == '/' || c == '\\'

/-- The names in a locator that lead anywhere. -/
def names (file : String) : List String :=
  (Text.split separates file).filter fun name => name != "" && name != "."

/-- The names of a locator as a path. -/
def relativePath (file : String) : String := "/".intercalate (names file)

/-- The path of the store file that a locator stands for. -/
def resolve {m : Type → Type} [Monad m] (disk : Disk m) (source : Option String) (file : String) :
    m (Except Failure String) := do
  let file := Text.strip file
  if file = "" then return .error (inaccessible file)
  match source with
  | none =>
    if ← disk.isFile file then return .ok file
    if ← disk.isFile (relativePath file) then return .ok (relativePath file)
    return .error (inaccessible file)
  | some directory =>
    match ← disk.resolve directory with
    | .error _ => return .error (inaccessible directory)
    | .ok root =>
      match ← disk.resolve (root.path ++ "/" ++ relativePath file) with
      | .error _ => return .error (inaccessible file)
      | .ok place =>
        if place.isWithin root && (← disk.isFile place.path) then return .ok place.path
        return .error (inaccessible file)

end SymbolTables.Locator
