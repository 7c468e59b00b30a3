import SymbolTables.Text.Split

/-!
# Pieces of a text

The pieces between separators are those of `List.splitOnP`, so what is known of them holds here: a
piece holds no separator (`notMem_of_mem_split`), the pieces of two texts with a separator between
them are those of both (`split_append`), and texts that are joined by a separator come apart again
(`split_intercalate`).
-/
namespace SymbolTables.Text

variable {separates : Char → Bool} {separator : Char}

theorem splitWhere_eq (separates : Char → Bool) :
    ∀ s : List Char, splitWhere separates s = s.splitOnP separates
  | [] => List.splitOnP_nil.symm
  | c :: rest => by
    rw [splitWhere, splitWhere_eq separates rest, List.splitOnP_cons_eq_if_modifyHead]
    obtain ⟨first, others, hrest⟩ :=
      List.exists_cons_of_ne_nil (List.splitOnP_ne_nil separates rest)
    rw [hrest]
    rfl

theorem splitWhere_ne_nil (separates : Char → Bool) (s : List Char) :
    splitWhere separates s ≠ [] := by
  rw [splitWhere_eq]
  exact List.splitOnP_ne_nil separates s

theorem eq_false_of_mem_splitWhere :
    ∀ {s piece : List Char}, piece ∈ splitWhere separates s → ∀ c ∈ piece, separates c = false
  | [], piece, h, c, hc => by
    rw [List.mem_singleton.1 h] at hc
    exact absurd hc List.not_mem_nil
  | d :: rest, piece, h, c, hc => by
    unfold splitWhere at h
    split at h
    · rcases List.mem_cons.1 h with rfl | h
      · exact absurd hc List.not_mem_nil
      · exact eq_false_of_mem_splitWhere h c hc
    · rename_i hd
      obtain ⟨first, others, hrest⟩ := List.exists_cons_of_ne_nil (splitWhere_ne_nil separates rest)
      rw [hrest] at h
      rcases List.mem_cons.1 h with rfl | h
      · rcases List.mem_cons.1 hc with rfl | hc
        · exact eq_false_of_ne_true hd
        · exact eq_false_of_mem_splitWhere (hrest ▸ List.mem_cons_self) c hc
      · exact eq_false_of_mem_splitWhere (hrest ▸ List.mem_cons_of_mem _ h) c hc

theorem split_ne_nil (s : String) : split separates s ≠ [] := by
  intro h
  exact splitWhere_ne_nil separates s.toList (List.map_eq_nil_iff.1 h)

/-- A piece holds no separator. -/
theorem notMem_of_mem_split (hc : separates separator = true) {s piece : String}
    (h : piece ∈ split separates s) : separator ∉ piece.toList := by
  obtain ⟨chars, hchars, rfl⟩ := List.mem_map.1 h
  rw [String.toList_ofList]
  intro hmem
  rw [eq_false_of_mem_splitWhere hchars separator hmem] at hc
  cases hc

/-- A text without separators is one piece. -/
theorem split_of_forall {s : String} (h : ∀ c ∈ s.toList, separates c = false) :
    split separates s = [s] := by
  rw [split, splitWhere_eq, List.splitOnP_eq_singleton h, List.map_singleton, String.ofList_toList]

/-- The pieces of two texts with a separator between them. -/
theorem split_append (hc : separates separator = true) (s t : String) :
    split separates (s ++ String.singleton separator ++ t) =
      split separates s ++ split separates t := by
  have hchars : (s ++ String.singleton separator ++ t).toList =
      s.toList ++ separator :: t.toList := by simp
  simp only [split, hchars, splitWhere_eq, List.splitOnP_append_cons _ _ hc, List.map_append]

/-- Texts that are joined by a separator come apart again. -/
theorem split_intercalate (hc : separates separator = true) : ∀ {pieces : List String},
    pieces ≠ [] → (∀ piece ∈ pieces, ∀ c ∈ piece.toList, separates c = false) →
    split separates ((String.singleton separator).intercalate pieces) = pieces
  | [], hne, _ => absurd rfl hne
  | [piece], _, h => by
    rw [String.intercalate_singleton]
    exact split_of_forall (h piece List.mem_cons_self)
  | piece :: next :: pieces, _, h => by
    obtain ⟨hpiece, hrest⟩ := List.forall_mem_cons.1 h
    rw [String.intercalate_cons_cons, split_append hc, split_of_forall hpiece,
      split_intercalate hc (List.cons_ne_nil next pieces) hrest]
    rfl

end SymbolTables.Text
