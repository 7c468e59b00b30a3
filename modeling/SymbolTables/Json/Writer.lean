import SymbolTables.Table.Row

/-!
# Writing JSON

Rows as JSON arrays: texts quoted, numbers with the fewest digits, absent cells and numbers that are
not finite as `null`.
-/
namespace SymbolTables.Json

/-- The escapes that have a letter. -/
def shortEscape? (c : Char) : Option Char :=
  match c with
  | '"' => some '"'
  | '\\' => some '\\'
  | '\x08' => some 'b'
  | '\x0c' => some 'f'
  | '\n' => some 'n'
  | '\r' => some 'r'
  | '\t' => some 't'
  | _ => none

/-- A character inside quotes; control characters are escaped. -/
def quoteChar (c : Char) : List Char :=
  match shortEscape? c with
  | some e => ['\\', e]
  | none =>
    if c.toNat < 0x20 then
      ['\\', 'u', '0', '0', Nat.digitChar (c.toNat / 16), Nat.digitChar (c.toNat % 16)]
    else [c]

def quote (s : String) : String := String.ofList ('"' :: s.toList.flatMap quoteChar ++ ['"'])

def ofNumber (x : Binary64) : String := if x.isFinite then Decimal.json.render x else "null"

def ofCell : Option Cell → String
  | none => "null"
  | some (.text s) => quote s
  | some (.number x) => ofNumber x

/-- Everything on one line, without blanks. -/
def ofRow (r : Row) : String := "[" ++ ",".intercalate (r.cells.map ofCell) ++ "]"

/-- Spaces in front of a line. -/
def indent (depth : Nat) : String := String.ofList (List.replicate (2 * depth) ' ')

/-- An array whose items stand on lines of their own, one level deeper. -/
def indented (depth : Nat) (items : List String) : String :=
  if items.isEmpty then "[]"
  else
    "[\n" ++ ",\n".intercalate (items.map (indent (depth + 1) ++ ·)) ++ "\n" ++ indent depth ++ "]"

end SymbolTables.Json
