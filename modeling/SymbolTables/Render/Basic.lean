import SymbolTables.Render.Csv
import SymbolTables.Render.Json

/-!
# Showing rows

The formats in which the rows of a table can be shown.
-/
namespace SymbolTables

inductive Format
  | table
  | csv
  | json
deriving DecidableEq

namespace Format

def name : Format → String
  | .table => "table"
  | .csv => "csv"
  | .json => "json"

def ofName? : String → Option Format
  | "table" => some .table
  | "csv" => some .csv
  | "json" => some .json
  | _ => none

def render : Format → Schema → List Row → String
  | .table => Render.aligned
  | .csv => Render.csv
  | .json => Render.json

end Format
end SymbolTables
