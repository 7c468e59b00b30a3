import SymbolTables.Render.Basic

/-!
# Commands

What the command line asks for, and what comes of it.
-/
namespace SymbolTables

inductive Command
  /-- Print the rows of a query, at most `limit` of them. -/
  | query (text : String) (format : Format) (limit : Option Nat)
  /-- List the tables of a store. -/
  | tables (file : String)
  /-- Print the scripts of one request or of an array of them, given as JSON or as `@path`. -/
  | script (request : String) (precedingLoad : Bool)
  /-- Write the transport store. -/
  | demo (path : String)
deriving DecidableEq

structure Invocation where
  configPath : Option String
  /-- Takes the place of the configured source directory. -/
  source : Option String
  command : Command
deriving DecidableEq

namespace Command

/-- Why a command fails: what is reported, and what lies behind it. -/
structure Complaint where
  message : String
  cause : Option String
deriving DecidableEq

/-- What a command prints, and its complaint if it fails. -/
structure Report where
  output : String
  complaint : Option Complaint
deriving DecidableEq

def Report.printed (output : String) : Report := ⟨output, none⟩

def Report.refused (message : String) (cause : Option String) : Report :=
  ⟨"", some ⟨message, cause⟩⟩

/-- The exit status: 1 for a command that fails. -/
def Report.status (r : Report) : Nat := if r.complaint.isSome then 1 else 0

/-- The text of a complaint, without the line end behind it. -/
def Complaint.text (c : Complaint) : String :=
  "Error: " ++ c.message ++
    match c.cause with
    | some cause => "\n\nCaused by:\n    " ++ cause
    | none => ""

end Command
end SymbolTables
