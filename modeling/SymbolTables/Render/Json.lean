import SymbolTables.Json.Writer
import SymbolTables.Table.Schema

/-!
# Rows as a JSON object

An object with the names of the columns, the rows and their number, spread over lines.
-/
namespace SymbolTables.Render

def json (schema : Schema) (rows : List Row) : String :=
  let columns := Json.indented 1 (schema.names.map Json.quote)
  let rowTexts := Json.indented 1 (rows.map fun row => Json.indented 2 (row.cells.map Json.ofCell))
  "\x7b\n"
    ++ Json.indent 1 ++ "\"columns\": " ++ columns ++ ",\n"
    ++ Json.indent 1 ++ "\"rows\": " ++ rowTexts ++ ",\n"
    ++ Json.indent 1 ++ "\"row_count\": " ++ toString rows.length ++ "\n\x7d"

end SymbolTables.Render
