import SymbolTables.Command.Arguments
import SymbolTables.Command.Run

/-!
# The command line

Runs one command on the files of the system.
-/
namespace SymbolTables.Command

def ofSystem (e : IO.Error) : FileFault :=
  match e with
  | .noFileOrDirectory .. => .notFound
  | e => .other (toString e)

/-- The result of a system call. -/
def attempt {α : Type} (call : IO α) : IO (Except FileFault α) :=
  return (← call.toBaseIO).mapError ofSystem

def realPath (path : String) : IO (Except FileFault Place) := do
  if path = "" then return .error .notFound
  return (← attempt (IO.FS.realPath path)).map fun p => ⟨p.components.filter (· != "")⟩

/-- The kind of file that a path leads to. -/
def fileType? (path : String) : IO (Option IO.FS.FileType) := do
  match ← attempt (do (← IO.FS.realPath path).metadata) with
  | .ok found => return some found.type
  | .error _ => return none

/-- The files of the system. -/
def systemDisk : Disk IO where
  resolve := realPath
  isFile path := return (← fileType? path) matches some .file
  leads path := return (← fileType? path).isSome
  read path := attempt do return (← IO.FS.readBinFile path).data.toList
  write path content := attempt (IO.FS.writeBinFile path content.toByteArray)

end SymbolTables.Command

open SymbolTables.Command in
def main (args : List String) : IO UInt32 := do
  match SymbolTables.Invocation.ofArguments args with
  | .error .help =>
    IO.println help
    return 0
  | .error .misuse =>
    IO.eprintln help
    return 2
  | .ok invocation =>
    let report ← run systemDisk invocation
    IO.print report.output
    if let some complaint := report.complaint then IO.eprintln complaint.text
    return report.status.toUInt32
