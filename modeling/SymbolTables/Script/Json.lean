import SymbolTables.Json.Reader
import SymbolTables.Script.Request

/-!
# Requests as JSON

A request is an object; the table, its fields and the display name of each field have to be there,
all else may be missing.
-/
namespace SymbolTables.Script

/-- A text that may be missing. -/
def optionalText (value : Option Json) : Option String := Json.field? Json.text? "" value

def Field.keys : List String := ["displayName", "identifierName", "aliasName"]

def Field.ofJson? (json : Json) : Option Field := do
  match ← json.fields? Field.keys with
  | [displayName, identifierName, aliasName] =>
    return {
      displayName := ← (← displayName).text?
      identifierName := ← optionalText identifierName
      aliasName := ← optionalText aliasName }
  | _ => none

def Request.keys : List String :=
  ["key", "databaseName", "ownerName", "tableName", "includePrecedingLoad", "fields"]

def Request.ofJson? (json : Json) : Option Request := do
  match ← json.fields? Request.keys with
  | [key, database, owner, table, precedingLoad, fields] =>
    return {
      key := ← optionalText key
      database := ← optionalText database
      owner := ← optionalText owner
      table := ← (← table).text?
      precedingLoad := ← Json.field? Json.bool? false precedingLoad
      fields := ← (← fields).list? Field.ofJson? }
  | _ => none

def Request.read? (text : String) : Option Request := do Request.ofJson? (← Json.parse? text)

/-- An array of requests. -/
def Request.readList? (text : String) : Option (List Request) := do
  (← Json.parse? text).list? Request.ofJson?

end SymbolTables.Script
