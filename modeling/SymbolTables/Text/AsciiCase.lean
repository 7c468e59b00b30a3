/-!
# Letter case of ASCII

Comparison that ignores the case of the 26 ASCII letters and of no others: `é` and `É` differ.
-/
namespace SymbolTables.Text

/-- Equal up to the case of ASCII letters. -/
def sameLetters (s t : List Char) : Bool := s.map Char.toLower == t.map Char.toLower

/-- `sameLetters` on strings. -/
def sameName (s t : String) : Bool := sameLetters s.toList t.toList

theorem sameLetters_refl (s : List Char) : sameLetters s s = true := by simp [sameLetters]

theorem sameName_refl (s : String) : sameName s s = true := sameLetters_refl s.toList

end SymbolTables.Text
