import Mathlib.Data.List.DropRight
import SymbolTables.Text.Blank

/-!
# Cutting off white space

What `trim` leaves of a text that is put together: `trim_append` and `trim_eq_self` where the text
ends in something else than white space, `trim_dropWhile_concat` where there is white space behind.
-/
namespace SymbolTables.Text

theorem trim_eq (s : List Char) :
    trim s = (s.dropWhile isWhiteSpace).rdropWhile isWhiteSpace := rfl

/-- The first character is no white space. -/
def BeginsVisibly (s : List Char) : Prop := ∃ c rest, s = c :: rest ∧ isWhiteSpace c = false

theorem BeginsVisibly.append {s : List Char} (h : BeginsVisibly s) (t : List Char) :
    BeginsVisibly (s ++ t) := by
  obtain ⟨c, rest, rfl, hc⟩ := h
  exact ⟨c, rest ++ t, rfl, hc⟩

theorem BeginsVisibly.dropWhile {s : List Char} (h : BeginsVisibly s) :
    s.dropWhile isWhiteSpace = s := by
  obtain ⟨c, rest, rfl, hc⟩ := h
  exact List.dropWhile_cons_of_neg (by simp [hc])

/-- The last character is no white space. -/
def EndsVisibly (s : List Char) : Prop := ∃ front c, s = front ++ [c] ∧ isWhiteSpace c = false

theorem EndsVisibly.append {t : List Char} (h : EndsVisibly t) (s : List Char) :
    EndsVisibly (s ++ t) := by
  obtain ⟨front, c, rfl, hc⟩ := h
  exact ⟨s ++ front, c, by rw [List.append_assoc], hc⟩

theorem EndsVisibly.rdropWhile {s : List Char} (h : EndsVisibly s) :
    s.rdropWhile isWhiteSpace = s := by
  obtain ⟨front, c, rfl, hc⟩ := h
  exact List.rdropWhile_concat_neg _ _ _ (by simp [hc])

/-- White space is cut off the front; the end stays. -/
theorem trim_append {s t : List Char} (hs : s.dropWhile isWhiteSpace ≠ []) (ht : EndsVisibly t) :
    trim (s ++ t) = s.dropWhile isWhiteSpace ++ t := by
  rw [trim_eq, List.dropWhile_append, if_neg (by simpa using hs), (ht.append _).rdropWhile]

/-- A text that neither begins nor ends with white space is left as it is. -/
theorem trim_eq_self {s : List Char} (hbegin : BeginsVisibly s) (hend : EndsVisibly s) :
    trim s = s := by
  rw [trim_eq, hbegin.dropWhile, hend.rdropWhile]

/-- Cutting off the front twice, and white space behind the text, make no difference. -/
theorem trim_dropWhile_concat {s : List Char} {c : Char} (hc : isWhiteSpace c = true) :
    trim (s.dropWhile isWhiteSpace ++ [c]) = trim s := by
  rw [trim_eq, trim_eq, List.dropWhile_append, List.dropWhile_idempotent]
  split
  · rename_i hnil
    rw [List.isEmpty_iff.1 hnil, List.dropWhile_cons_of_pos hc]
    rfl
  · exact List.rdropWhile_concat_pos _ _ _ hc

/-- A text with something else than white space in it does not vanish. -/
theorem dropWhile_ne_nil {s : List Char} (h : ∃ c ∈ s, isWhiteSpace c = false) :
    s.dropWhile isWhiteSpace ≠ [] := by
  obtain ⟨c, hmem, hc⟩ := h
  intro hnil
  have := List.dropWhile_eq_nil_iff.1 hnil c hmem
  rw [hc] at this
  cases this

theorem trim_ne_nil {s : List Char} (h : ∃ c ∈ s, isWhiteSpace c = false) : trim s ≠ [] := by
  rw [trim_eq]
  intro hnil
  have hall := List.rdropWhile_eq_nil_iff.1 hnil
  cases hs : s.dropWhile isWhiteSpace with
  | nil => exact dropWhile_ne_nil h hs
  | cons first rest =>
    have hfirst := List.head?_dropWhile_not isWhiteSpace s
    rw [hs] at hfirst hall
    have hwhite := hall first List.mem_cons_self
    rw [show isWhiteSpace first = false from hfirst] at hwhite
    cases hwhite

end SymbolTables.Text
