import SymbolTables.Render.Aligned

/-!
# Comma-separated records

The header and every row as one record. A field with a comma, a quote or a line break stands between
quotes, where a quote is written twice. A record of no characters is written as a pair of quotes, so
that its line is not empty.
-/
namespace SymbolTables.Render

def needsQuotes (c : Char) : Bool := c == ',' || c == '"' || c == '\r' || c == '\n'

/-- A quote is written twice. -/
def doubleQuote (c : Char) : List Char := if c = '"' then ['"', '"'] else [c]

def csvField (s : String) : String :=
  if s.toList.any needsQuotes then
    String.ofList ('"' :: s.toList.flatMap doubleQuote ++ ['"'])
  else s

def csvRecord (fields : List String) : String :=
  let record := ",".intercalate (fields.map csvField)
  (if record = "" then "\"\"" else record) ++ "\n"

def csv (schema : Schema) (rows : List Row) : String :=
  String.join ((schema.names :: texts schema rows).map csvRecord)

end SymbolTables.Render
