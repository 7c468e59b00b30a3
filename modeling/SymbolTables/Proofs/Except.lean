import Mathlib.Data.List.Forall2

/-!
# Steps that may fail

* `bind_eq_ok_iff`, `bind_eq_error_iff`: two steps one after the other.
* `foldlM_ok_step`, `foldlM_error_step`: a step for every item of a list.
* `exists_mapM_ok`, `mapM_ok_forall₂`, `mapM_error_step`: an answer for every item of a list.
-/
namespace SymbolTables

section
variable {α β ε : Type}

/-- Steps that succeed one after the other. -/
theorem bind_eq_ok_iff {x : Except ε α} {f : α → Except ε β} {b : β} :
    (x >>= f) = .ok b ↔ ∃ a, x = .ok a ∧ f a = .ok b := by
  cases x with
  | error e =>
    constructor
    · intro h
      cases h
    · rintro ⟨a, ha, -⟩
      cases ha
  | ok a =>
    constructor
    · intro h
      exact ⟨a, rfl, h⟩
    · rintro ⟨a', ha, hf⟩
      cases ha
      exact hf

/-- Steps the first or the second of which fails. -/
theorem bind_eq_error_iff {x : Except ε α} {f : α → Except ε β} {e : ε} :
    (x >>= f) = .error e ↔ x = .error e ∨ ∃ a, x = .ok a ∧ f a = .error e := by
  cases x with
  | error e' =>
    constructor
    · intro h
      cases h
      exact .inl rfl
    · rintro (h | ⟨a, ha, -⟩)
      · cases h
        rfl
      · cases ha
  | ok a =>
    constructor
    · intro h
      exact .inr ⟨a, rfl, h⟩
    · rintro (h | ⟨a', ha, hf⟩)
      · cases h
      · cases ha
        exact hf

/-- A fold that succeeds has taken a step for every item. -/
theorem foldlM_ok_step {f : β → α → Except ε β} :
    ∀ {items : List α} {b b' : β}, items.foldlM f b = .ok b' →
      ∀ a ∈ items, ∃ c c', f c a = .ok c'
  | first :: rest, b, b', h, a, ha => by
    rw [List.foldlM_cons] at h
    obtain ⟨c, hs, h⟩ := bind_eq_ok_iff.1 h
    rcases List.mem_cons.1 ha with rfl | ha
    · exact ⟨b, c, hs⟩
    · exact foldlM_ok_step h a ha

/-- A fold that fails has failed at one of its items. -/
theorem foldlM_error_step {f : β → α → Except ε β} {e : ε} :
    ∀ {items : List α} {b : β}, items.foldlM f b = .error e → ∃ a ∈ items, ∃ c, f c a = .error e
  | [], b, h => by cases h
  | first :: rest, b, h => by
    rw [List.foldlM_cons] at h
    rcases bind_eq_error_iff.1 h with hs | ⟨c, hs, h⟩
    · exact ⟨first, List.mem_cons_self, b, hs⟩
    · obtain ⟨a, ha, hc⟩ := foldlM_error_step h
      exact ⟨a, List.mem_cons_of_mem _ ha, hc⟩

/-- If there is an answer for every item, there are answers for all. -/
theorem exists_mapM_ok {f : α → Except ε β} :
    ∀ {items : List α}, (∀ a ∈ items, ∃ b, f a = .ok b) → ∃ answers, items.mapM f = .ok answers
  | [], _ => ⟨[], rfl⟩
  | first :: rest, h => by
    obtain ⟨b, hfirst⟩ := h first List.mem_cons_self
    obtain ⟨bs, hrest⟩ := exists_mapM_ok fun a ha => h a (List.mem_cons_of_mem _ ha)
    refine ⟨b :: bs, ?_⟩
    rw [List.mapM_cons, hfirst, hrest]
    rfl

/-- Answers for all items, each with its own. -/
theorem mapM_ok_forall₂ {f : α → Except ε β} :
    ∀ {items : List α} {answers : List β}, items.mapM f = .ok answers →
      List.Forall₂ (fun a b => f a = .ok b) items answers
  | [], answers, h => by
    cases h
    exact .nil
  | first :: rest, answers, h => by
    rw [List.mapM_cons] at h
    obtain ⟨b, hfirst, h⟩ := bind_eq_ok_iff.1 h
    obtain ⟨bs, hrest, h⟩ := bind_eq_ok_iff.1 h
    cases h
    exact .cons hfirst (mapM_ok_forall₂ hrest)

/-- If there are not answers for all items, there is none for one of them. -/
theorem mapM_error_step {f : α → Except ε β} {e : ε} :
    ∀ {items : List α}, items.mapM f = .error e → ∃ a ∈ items, f a = .error e
  | [], h => by cases h
  | first :: rest, h => by
    rw [List.mapM_cons] at h
    rcases bind_eq_error_iff.1 h with hfirst | ⟨b, -, h⟩
    · exact ⟨first, List.mem_cons_self, hfirst⟩
    rcases bind_eq_error_iff.1 h with hrest | ⟨bs, -, h⟩
    · obtain ⟨a, ha, hf⟩ := mapM_error_step hrest
      exact ⟨a, List.mem_cons_of_mem _ ha, hf⟩
    · cases h

end
end SymbolTables
