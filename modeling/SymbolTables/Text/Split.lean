/-!
# Splitting text

The pieces of a text between separators, empty ones included.
-/
namespace SymbolTables.Text

/-- The pieces between the characters that satisfy `separates`; always at least one. -/
def splitWhere (separates : Char → Bool) : List Char → List (List Char)
  | [] => [[]]
  | c :: rest =>
    if separates c then [] :: splitWhere separates rest
    else match splitWhere separates rest with
      | [] => [[c]]
      | first :: others => (c :: first) :: others

/-- `splitWhere` on strings. -/
def split (separates : Char → Bool) (s : String) : List String :=
  (splitWhere separates s.toList).map String.ofList

end SymbolTables.Text
