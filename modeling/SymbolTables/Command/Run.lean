import SymbolTables.Access.Source
import SymbolTables.Command.Basic
import SymbolTables.Scan.Drain
import SymbolTables.Script.Composer
import SymbolTables.Script.Json
import SymbolTables.Store.Transport

/-!
# Running commands

What a command prints and why it fails. The configuration is read before anything else. A query that
fails while it is read still prints the rows before the failure.
-/
namespace SymbolTables.Command

variable {m : Type → Type} [Monad m]

def Report.ofFailure (f : Failure) : Report := .refused f.message none

/-- Rows and how the reading of them ended. -/
def showRows (format : Format) (schema : Schema) (rows : List Row) (ending : Ending) : Report where
  output := format.render schema rows ++ if format = .json then "\n" else ""
  complaint :=
    let complain (f : Failure) := Complaint.mk s!"query failed after {rows.length} rows" f.message
    match ending with
    | .failed f => some (complain f)
    | .crashed => some (complain Outcome.crashFailure)
    | .unfinished | .finished => none

def runQuery (disk : Disk m) (config : Config) (text : String) (format : Format)
    (limit : Option Nat) : m Report := do
  match ← Source.prepare disk config text with
  | .error f => return .ofFailure f
  | .ok (store, prepared) =>
    match prepared.start store .free config.effectiveCapacity with
    | .error f => return .ofFailure f
    | .ok (stream, slot) =>
      let (rows, ending, _) := stream.take (limit.getD (stream.bound + 1)) slot
      return showRows format prepared.schema rows ending

/-- The name of a table, its kind, the number of its dimensions and its columns. -/
def tableLine (s : Schema) : String :=
  s!"{s.table} ({s.kind.name}, {s.dimensions} dims): " ++ ", ".intercalate s.names ++ "\n"

def runTables (disk : Disk m) (config : Config) (file : String) : m Report := do
  match ← Source.tables disk config file with
  | .error f => return .ofFailure f
  | .ok schemas => return .printed (String.join (schemas.map tableLine))

/-- The requests in a text: an array of them, or one. -/
def readRequests (text : String) : Except Report (List Script.Request) :=
  if (text.toList.dropWhile Text.isWhiteSpace).head? = some '[' then
    match Script.Request.readList? text with
    | some requests => .ok requests
    | none => .error (.refused "Failed to parse script requests" none)
  else
    match Script.Request.read? text with
    | some request => .ok [request]
    | none => .error (.refused "Failed to parse script request" none)

def showScript (precedingLoad : Bool) (text : String) : Report :=
  match readRequests text with
  | .error report => report
  | .ok requests => .printed ((Script.Composer.empty.generate requests precedingLoad).1 ++ "\n")

/-- Show the script of requests; `@path` stands for the content of a file. -/
def runScript (disk : Disk m) (request : String) (precedingLoad : Bool) : m Report := do
  match request.toList with
  | '@' :: path =>
    let path := String.ofList path
    match ← disk.readText path with
    | .error cause =>
      return .refused s!"Failed to read script request from {path}" (some cause.message)
    | .ok text => return showScript precedingLoad text
  | _ => return showScript precedingLoad request

def runDemo (disk : Disk m) (path : String) : m Report := do
  match ← Transport.store.save disk path with
  | .error f => return .ofFailure f
  | .ok () => return .printed (path ++ "\n")

def run (disk : Disk m) (i : Invocation) : m Report := do
  let config ← match i.configPath with
    | none => pure (.ok Config.default)
    | some path => Config.load disk path
  match config with
  | .error fault => return .refused fault.message none
  | .ok config =>
    let config := { config with sourceDirectory := i.source <|> config.sourceDirectory }
    match i.command with
    | .query text format limit => runQuery disk config text format limit
    | .tables file => runTables disk config file
    | .script request precedingLoad => runScript disk request precedingLoad
    | .demo path => runDemo disk path

end SymbolTables.Command
