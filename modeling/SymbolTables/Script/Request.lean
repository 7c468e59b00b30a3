/-!
# Select scripts

A request names a table and the fields to take from it. Its script is a `SELECT` statement over the
table, behind a `LOAD` statement when the request asks for one: only there can a field get another
name.

```text
LOAD "a" AS "x",
    "b";
SQL SELECT "a",
    "b"
FROM "table <database/owner>";
```
-/
namespace SymbolTables.Script

structure Field where
  displayName : String
  identifierName : String
  /-- Empty when the field keeps its name. -/
  aliasName : String
deriving DecidableEq

namespace Field

def ofName (name : String) : Field := ⟨name, name, ""⟩

def hasAlias (f : Field) : Bool := f.aliasName != ""

end Field

structure Request where
  key : String
  /-- The folder of the store file. -/
  database : String
  /-- The store file. -/
  owner : String
  table : String
  /-- Whether a `LOAD` statement precedes. -/
  precedingLoad : Bool
  fields : List Field
deriving DecidableEq

/-- The end of a line. -/
def lineEnd : String := "\r\n"

/-- Between two fields: each stands on a line of its own. -/
def fieldSeparator : String := "," ++ lineEnd ++ "    "

def quote (s : String) : String := "\"" ++ s ++ "\""

/-- A field in a `LOAD` statement. -/
def Field.loadItem (f : Field) : String :=
  if f.hasAlias then quote f.displayName ++ " AS " ++ quote f.aliasName else quote f.displayName

/-- A field in a `SELECT` statement. -/
def Field.selectItem (f : Field) : String := quote f.displayName

namespace Request

/-- A request without a `LOAD` statement, under the names that are not empty. -/
def ofNames (database owner table : String) (fields : List Field) : Request where
  key := ".".intercalate ([database, owner, table].filter (· != ""))
  database := database
  owner := owner
  table := table
  precedingLoad := false
  fields := fields

def anyAlias (r : Request) : Bool := r.fields.any Field.hasAlias

def loadStatement (r : Request) : String :=
  "LOAD " ++ fieldSeparator.intercalate (r.fields.map Field.loadItem) ++ ";"

def selectStatement (r : Request) : String :=
  "SELECT " ++ fieldSeparator.intercalate (r.fields.map Field.selectItem) ++ lineEnd
    ++ "FROM " ++ quote (r.table ++ " <" ++ r.database ++ "/" ++ r.owner ++ ">") ++ ";"

def script (r : Request) : String :=
  (if r.precedingLoad then r.loadStatement ++ lineEnd else "") ++ "SQL " ++ r.selectStatement

end Request
end SymbolTables.Script
