import SymbolTables.Failure

/-!
# What is wrong with a query text

The causes for which a text is no query, each with the part of the query it was found in.
-/
namespace SymbolTables.Query

inductive Cause
  /-- A keyword or mark that has to stand here does not. -/
  | textNotFound (text : String)
  /-- The line or the text ends before one of the characters. -/
  | characterNotFound (stops : List Char)
  | missingFieldName
  | fieldExpected
  | unquotedValue
  | textAfterFile (rest : List Char)
  | missingTable
  | missingFile
  | textAfterQuery (rest : List Char)
deriving DecidableEq

structure Fault where
  clause : Clause
  cause : Cause
deriving DecidableEq

/-- A character as it is shown in a message. -/
def showCharacter (c : Char) : String :=
  if c = ' ' then "<space>"
  else if c = '\t' then "<tab>"
  else if c = '\r' then "<cr>"
  else if c = '\n' then "<lf>"
  else String.singleton c

def Cause.message : Cause → String
  | .textNotFound text => s!"Expected text not found: {text}"
  | .characterNotFound stops =>
    "Expected character not found: " ++ ",".intercalate (stops.map showCharacter)
  | .missingFieldName => "Missing field name"
  | .fieldExpected => "Unexpected end of query, expected a field"
  | .unquotedValue => "The value of a condition should be enclosed between quotes"
  | .textAfterFile rest => "Unexpected text after the file name: " ++ String.ofList rest
  | .missingTable => "Missing table name"
  | .missingFile => "Missing file name"
  | .textAfterQuery rest => "Unexpected text at the end of the query: " ++ String.ofList rest

def Fault.toFailure (f : Fault) : Failure := .malformedQuery f.clause.name f.cause.message

theorem Fault.kind_toFailure (f : Fault) : f.toFailure.kind = .malformedQuery := rfl

end SymbolTables.Query
