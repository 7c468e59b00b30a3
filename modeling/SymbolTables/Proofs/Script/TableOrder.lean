import Mathlib.Data.String.Basic
import SymbolTables.Proofs.Script.History

/-!
# The same tables in another order

A composer compares the tables of two calls sorted by their keys, and sorting leaves tables of one key
in the order they have. A call with the tables of the last one in another order is therefore the same
call when, key by key, the tables come in the same order (`sortByKey_eq_iff`), as they do when no two
different tables have one key (`filter_eq_of_perm`). Otherwise the scripts are put together in the new
order; none is made for it in either case (`answer_of_permuted`).
-/
namespace SymbolTables.Script.Composer

/-! ## Sorting by key -/

section
variable {tables tables' : List Request}

theorem pairwise_sortByKey (tables : List Request) :
    (sortByKey tables).Pairwise fun a b => a.key ≤ b.key := by
  have h : (sortByKey tables).Pairwise fun a b => decide (a.key ≤ b.key) = true :=
    List.pairwise_mergeSort (fun a b c => by simpa using le_trans)
      (fun a b => by simpa using le_total a.key b.key) tables
  exact h.imp of_decide_eq_true

/-- Sorting leaves the tables of one key in their order. -/
theorem filter_sortByKey (tables : List Request) (key : String) :
    (sortByKey tables).filter (·.key = key) = tables.filter (·.key = key) := by
  have hkeys : (tables.filter (·.key = key)).Pairwise fun a b => decide (a.key ≤ b.key) = true := by
    refine List.pairwise_of_forall_mem_list fun a ha b hb => ?_
    have ha : a.key = key := by simpa using (List.mem_filter.1 ha).2
    have hb : b.key = key := by simpa using (List.mem_filter.1 hb).2
    simp [ha, hb]
  have hsublist : (tables.filter (·.key = key)).Sublist (sortByKey tables) :=
    List.sublist_mergeSort (fun a b c => by simpa using le_trans)
      (fun a b => by simpa using le_total a.key b.key) hkeys List.filter_sublist
  have hfiltered := hsublist.filter (·.key = key)
  rw [List.filter_filter] at hfiltered
  simp only [Bool.and_self] at hfiltered
  have hlength := ((Call.sortByKey_perm tables).filter (·.key = key)).length_eq
  exact (hfiltered.eq_of_length hlength.symm).symm

/-- Tables sorted by their keys are equal when they are key by key. -/
theorem eq_of_filter_eq : ∀ {tables tables' : List Request},
    (tables.Pairwise fun a b => a.key ≤ b.key) → (tables'.Pairwise fun a b => a.key ≤ b.key) →
    (∀ key, tables.filter (·.key = key) = tables'.filter (·.key = key)) → tables = tables'
  | [], [], _, _, _ => rfl
  | [], b :: rest, _, _, h => by simpa using h b.key
  | a :: rest, [], _, _, h => by simpa using h a.key
  | a :: rest, b :: rest', ha, hb, h => by
    obtain ⟨hafter, hrest⟩ := List.pairwise_cons.1 ha
    obtain ⟨hafter', hrest'⟩ := List.pairwise_cons.1 hb
    -- each of the two first tables has a table of its key in the other list
    have hle : b.key ≤ a.key := by
      have hmem : a ∈ (b :: rest').filter (·.key = a.key) := h a.key ▸ by simp
      rcases List.mem_cons.1 (List.mem_filter.1 hmem).1 with rfl | hmem
      · exact le_refl _
      · exact hafter' a hmem
    have hle' : a.key ≤ b.key := by
      have hmem : b ∈ (a :: rest).filter (·.key = b.key) := h b.key ▸ by simp
      rcases List.mem_cons.1 (List.mem_filter.1 hmem).1 with rfl | hmem
      · exact le_refl _
      · exact hafter b hmem
    have hkey : a.key = b.key := le_antisymm hle' hle
    have hfirst := h a.key
    simp only [List.filter_cons, hkey, decide_true, if_true, List.cons.injEq] at hfirst
    obtain ⟨rfl, -⟩ := hfirst
    have htails : ∀ key, rest.filter (·.key = key) = rest'.filter (·.key = key) := by
      intro key
      have := h key
      simp only [List.filter_cons] at this
      split at this
      · exact (List.cons.inj this).2
      · exact this
    rw [eq_of_filter_eq hrest hrest' htails]

/-- Two lists of tables are sorted to the same list when, key by key, they have the same tables in the
same order. -/
theorem sortByKey_eq_iff : sortByKey tables = sortByKey tables' ↔
    ∀ key, tables.filter (·.key = key) = tables'.filter (·.key = key) := by
  constructor
  · intro h key
    rw [← filter_sortByKey tables, h, filter_sortByKey]
  · intro h
    refine eq_of_filter_eq (pairwise_sortByKey tables) (pairwise_sortByKey tables') fun key => ?_
    rw [filter_sortByKey, filter_sortByKey, h]

/-- Where no two different tables have one key, their order does not matter. -/
theorem filter_eq_of_perm (h : tables.Perm tables')
    (hkeys : ∀ a ∈ tables, ∀ b ∈ tables, a.key = b.key → a = b) (key : String) :
    tables.filter (·.key = key) = tables'.filter (·.key = key) := by
  have hall (tables : List Request) : tables.Pairwise fun _ _ => True :=
    List.pairwise_of_forall fun _ _ => trivial
  refine List.Perm.eq_of_pairwise (fun a b ha hb _ _ => ?_) (hall _) (hall _) (h.filter _)
  obtain ⟨ha, hkey⟩ := List.mem_filter.1 ha
  obtain ⟨hb, hkey'⟩ := List.mem_filter.1 hb
  have hkey : a.key = key := of_decide_eq_true hkey
  have hkey' : b.key = key := of_decide_eq_true hkey'
  exact hkeys a ha b (h.mem_iff.2 hb) (hkey.trans hkey'.symm)

end

/-! ## A call with the tables of the last one -/

section
variable {composer : Composer} {earlier : List Call} {c : Call} {tables : List Request}

/-- A call that repeats the last one finds the text there. -/
theorem Keeps.generate_of_repeats (h : composer.Keeps (c :: earlier))
    (hsame : sortByKey tables = sortByKey c.tables) :
    composer.generate tables c.precedingLoad = (composer.current, composer) :=
  generate_of_last (h.last.trans (by simp [hsame]))

/-- Whatever the order of the tables, every script is there already. -/
theorem Keeps.generated_of_perm (h : composer.Keeps (c :: earlier)) (hperm : tables.Perm c.tables) :
    (composer.generate tables c.precedingLoad).2.generated = composer.generated := by
  obtain ⟨-, hmade, -⟩ := h.generate ⟨tables, c.precedingLoad⟩
  have hheld : (held (c :: earlier)).Perm (Call.requests ⟨tables, c.precedingLoad⟩) :=
    (c.composed_requests_perm earlier).trans (hperm.symm.map _)
  rw [hmade, unmatched_perm (.refl _) hheld, unmatched_self, Nat.add_zero]

/-- A call that differs from the last one puts its own tables together. -/
theorem Keeps.text_of_differing (h : composer.Keeps (c :: earlier))
    (hother : sortByKey tables ≠ sortByKey c.tables) :
    (composer.generate tables c.precedingLoad).1 =
      scriptSeparator.intercalate
        (tables.map fun table => (effective c.precedingLoad table).script) := by
  obtain ⟨hkeeps, -, htext⟩ := h.generate ⟨tables, c.precedingLoad⟩
  have hcomposed : Call.composed ⟨tables, c.precedingLoad⟩ (c :: earlier) =
      ⟨tables, c.precedingLoad⟩ := if_neg fun hrepeats => hother hrepeats.2
  rw [htext, hkeeps.current, held, hcomposed, Call.requests, List.map_map]
  rfl

end

/-- **The order of the tables.** After a call, a call with its flag and its tables in any order makes
no script. It has the text of the first call and leaves the composer as it is when, for every key,
the tables of that key come in the same order in both calls, which is always so where no two
different tables have one key; with any other order its text is that of its own tables in that
order. -/
theorem answer_of_permuted (earlier : List Call) (c : Call) {tables : List Request}
    (hperm : tables.Perm c.tables) :
    ((after (c :: earlier)).generate tables c.precedingLoad).2.generated =
        (after (c :: earlier)).generated ∧
      ((∀ key, tables.filter (·.key = key) = c.tables.filter (·.key = key)) →
        (after (c :: earlier)).generate tables c.precedingLoad =
          (after earlier).generate c.tables c.precedingLoad) ∧
      ((∃ key, tables.filter (·.key = key) ≠ c.tables.filter (·.key = key)) →
        ((after (c :: earlier)).generate tables c.precedingLoad).1 =
          scriptSeparator.intercalate
            (tables.map fun table => (effective c.precedingLoad table).script)) ∧
      ((∀ a ∈ c.tables, ∀ b ∈ c.tables, a.key = b.key → a = b) →
        (after (c :: earlier)).generate tables c.precedingLoad =
          (after earlier).generate c.tables c.precedingLoad) := by
  have hkeeps := keeps_after (c :: earlier)
  have hagain (h : ∀ key, tables.filter (·.key = key) = c.tables.filter (·.key = key)) :
      (after (c :: earlier)).generate tables c.precedingLoad =
        (after earlier).generate c.tables c.precedingLoad := by
    obtain ⟨-, -, htext⟩ := (keeps_after earlier).generate c
    rw [hkeeps.generate_of_repeats (sortByKey_eq_iff.2 h)]
    exact Prod.ext htext.symm rfl
  refine ⟨hkeeps.generated_of_perm hperm, hagain, fun ⟨key, hkey⟩ => ?_, fun hkeys => hagain ?_⟩
  · exact hkeeps.text_of_differing fun hsame => hkey (sortByKey_eq_iff.1 hsame key)
  · exact fun key => (filter_eq_of_perm hperm.symm hkeys key).symm

/-- Two tables without a key. -/
def sampleTables : List Request :=
  [⟨"", "", "", "a", false, [⟨"i", "", ""⟩]⟩, ⟨"", "", "", "b", false, [⟨"i", "", ""⟩]⟩]

theorem answer_of_permuted_sample : sampleTables.reverse.Perm sampleTables ∧
    ((after [⟨sampleTables, false⟩]).generate sampleTables.reverse false).1 =
      "SQL SELECT \"i\"\r\nFROM \"b </>\";\r\n\r\nSQL SELECT \"i\"\r\nFROM \"a </>\";" ∧
    ((after []).generate sampleTables false).1 =
      "SQL SELECT \"i\"\r\nFROM \"a </>\";\r\n\r\nSQL SELECT \"i\"\r\nFROM \"b </>\";" ∧
    ((after [⟨sampleTables, false⟩]).generate sampleTables.reverse false).2.generated = 2 := by
  have hperm := List.reverse_perm sampleTables
  obtain ⟨hmade, -, htext, -⟩ := answer_of_permuted [] ⟨sampleTables, false⟩ hperm
  have hfirst := (keeps_after []).generate ⟨sampleTables, false⟩
  refine ⟨hperm, (htext ⟨"", by decide⟩).trans (by decide +kernel), ?_, hmade.trans ?_⟩
  · rw [hfirst.2.2, hfirst.1.current]
    decide +kernel
  · exact hfirst.2.1.trans (by decide)

end SymbolTables.Script.Composer
