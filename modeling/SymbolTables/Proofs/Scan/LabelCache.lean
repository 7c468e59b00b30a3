import Mathlib.Algebra.BigOperators.Group.List.Basic
import Mathlib.Data.Finset.Card
import Mathlib.Data.Finset.Dedup
import SymbolTables.Scan.LabelCache

/-!
# A cache that does not show

What a cache answers is what its store gives, whatever it has been asked before and for however
many dimensions it was made. Its counters can be read off the calls: a pair of dimension and key
that has a label misses once, and every other call for it hits; a call for a key without a label
counts for nothing.

* `resolve_cases`: what one call can do.
* `resolve_eq`: a cache that agrees with the store answers as the store does, and goes on to agree.
* `recalls_resolve`, `recalls_run`: what a cache holds and has counted, after one call and after
  any.
* `answers_of_calls`: the answers to any calls, the counters, and a call that fails among them.
-/
namespace SymbolTables.LabelCache

/-! ## Tables -/

section
variable {c : LabelCache} {dimension : Nat} {key : Int32}

theorem find?_ofDimensions (count : Nat) : (ofDimensions count).find? dimension key = none := by
  unfold find? ofDimensions
  rw [List.getElem?_replicate]
  split <;> rfl

theorem size_ofDimensions (count : Nat) : (ofDimensions count).size = 0 := by
  simp [size, ofDimensions]

theorem lt_reaching (c : LabelCache) (dimension : Nat) :
    dimension < (c.reaching dimension).tables.length := by
  simp only [reaching, List.length_append, List.length_replicate]
  omega

/-- A table that is new holds nothing, as one that is not there. -/
theorem find?_reaching (c : LabelCache) (further : Nat) :
    (c.reaching further).find? dimension key = c.find? dimension key := by
  unfold find? reaching
  by_cases hlt : dimension < c.tables.length
  · rw [List.getElem?_append_left hlt]
  · have hout : c.tables[dimension]? = none := List.getElem?_eq_none_iff.2 (Nat.le_of_not_lt hlt)
    rw [List.getElem?_append_right (Nat.le_of_not_lt hlt), List.getElem?_replicate, hout]
    split <;> rfl

theorem size_reaching (c : LabelCache) (dimension : Nat) :
    (c.reaching dimension).size = c.size := by
  simp [size, reaching]

theorem find?_remember (hlt : dimension < c.tables.length) (label : String) (dimension' : Nat)
    (key' : Int32) : (c.remember dimension key label).find? dimension' key' =
      if (dimension', key') = (dimension, key) then some label else c.find? dimension' key' := by
  unfold find? remember
  rw [List.getElem?_modify]
  by_cases hdimension : dimension = dimension'
  · subst hdimension
    by_cases hkey : key' = key
    · subst hkey
      simp [List.getElem?_eq_getElem hlt]
    · have hne : (key' == key) = false := beq_false_of_ne hkey
      simp [List.getElem?_eq_getElem hlt, List.lookup_cons, hne, hkey]
  · have hne : ¬(dimension', key') = (dimension, key) :=
      fun h => hdimension (congrArg Prod.fst h).symm
    simp [hdimension, hne]

theorem length_flatten_modify (entry : Int32 × String) :
    ∀ {tables : List (List (Int32 × String))} {dimension : Nat}, dimension < tables.length →
      (tables.modify dimension (entry :: ·)).flatten.length = tables.flatten.length + 1
  | [], _, hlt => absurd hlt (Nat.not_lt_zero _)
  | table :: tables, 0, _ => rfl
  | table :: tables, dimension + 1, hlt => by
    have ih := length_flatten_modify entry (Nat.lt_of_succ_lt_succ hlt)
    rw [List.modify_succ_cons, List.flatten_cons, List.flatten_cons, List.length_append, ih,
      List.length_append]
    rfl

theorem size_remember (hlt : dimension < c.tables.length) (label : String) :
    (c.remember dimension key label).size = c.size + 1 := length_flatten_modify (key, label) hlt

end

/-! ## One call -/

/-- **What a call can do**: find a label, get one from the store and remember it, or fail. -/
theorem resolve_cases (c : LabelCache) (store : Store) (dimension : Nat) (key : Int32) :
    (∃ label, c.find? dimension key = some label ∧
      c.resolve store dimension key =
        (.ok label, { c.reaching dimension with hits := c.hits + 1 })) ∨
    (c.find? dimension key = none ∧ ∃ label, store.label key = some label ∧
      c.resolve store dimension key =
        (.ok label, (c.reaching dimension).remember dimension key label)) ∨
    (c.find? dimension key = none ∧ store.label key = none ∧
      c.resolve store dimension key =
        (.error (unknownKey store.locator dimension key), c.reaching dimension)) := by
  unfold resolve
  simp only [find?_reaching]
  cases hfind : c.find? dimension key with
  | some label => exact .inl ⟨label, rfl, rfl⟩
  | none =>
    cases hlabel : store.label key with
    | some label => exact .inr (.inl ⟨rfl, label, rfl, rfl⟩)
    | none => exact .inr (.inr ⟨rfl, rfl, rfl⟩)

/-- Every label in the cache is the one the store gives. -/
def Agrees (c : LabelCache) (store : Store) : Prop :=
  ∀ dimension key label, c.find? dimension key = some label → store.label key = some label

theorem agrees_ofDimensions (count : Nat) (store : Store) : (ofDimensions count).Agrees store := by
  intro dimension key label h
  rw [find?_ofDimensions] at h
  cases h

/-- A cache answers as the store does, and holds what the store gives afterwards. -/
theorem resolve_eq {c : LabelCache} {store : Store} (h : c.Agrees store) (dimension : Nat)
    (key : Int32) :
    (c.resolve store dimension key).1 =
        (match store.label key with
          | some label => .ok label
          | none => .error (unknownKey store.locator dimension key)) ∧
      (c.resolve store dimension key).2.Agrees store := by
  have hreaching : (c.reaching dimension).Agrees store := by
    intro dimension' key' label hfind
    rw [find?_reaching] at hfind
    exact h _ _ _ hfind
  rcases c.resolve_cases store dimension key with
    ⟨label, hfind, heq⟩ | ⟨hfind, label, hlabel, heq⟩ | ⟨hfind, hlabel, heq⟩
  · rw [heq, h _ _ _ hfind]
    exact ⟨rfl, hreaching⟩
  · rw [heq, hlabel]
    refine ⟨rfl, fun dimension' key' label' hfind' => ?_⟩
    rw [find?_remember (c.lt_reaching dimension)] at hfind'
    split at hfind'
    · rename_i hpair
      cases hpair
      rw [hlabel, hfind']
    · exact hreaching _ _ _ hfind'
  · rw [heq, hlabel]
    exact ⟨rfl, hreaching⟩

/-! ## Any calls -/

/-- What a store has to say to a call. -/
def answer (store : Store) (call : Nat × Int32) : Except Failure String :=
  match store.label call.2 with
  | some label => .ok label
  | none => .error (unknownKey store.locator call.1 call.2)

/-- The calls for a key that has a label. -/
def labelled (store : Store) (calls : List (Nat × Int32)) : List (Nat × Int32) :=
  calls.filter fun call => (store.label call.2).isSome

/-- The answers to calls, one after the other, and the cache afterwards. -/
def run (c : LabelCache) (store : Store) :
    List (Nat × Int32) → List (Except Failure String) × LabelCache
  | [] => ([], c)
  | call :: rest =>
    let (first, c) := c.resolve store call.1 call.2
    let (answers, c) := run c store rest
    (first :: answers, c)

/-- What a cache holds and has counted after some calls. -/
structure Recalls (c : LabelCache) (store : Store) (calls : List (Nat × Int32)) : Prop where
  find : ∀ dimension key, c.find? dimension key =
    if (dimension, key) ∈ calls then store.label key else none
  misses : c.misses = (labelled store calls).toFinset.card
  size : c.size = c.misses
  hits : c.hits + c.misses = (labelled store calls).length

section
variable {c : LabelCache} {store : Store} {calls : List (Nat × Int32)} {call : Nat × Int32}
  {label : String}

theorem labelled_append_of_some (h : store.label call.2 = some label) :
    labelled store (calls ++ [call]) = labelled store calls ++ [call] := by
  simp [labelled, h]

theorem labelled_append_of_none (h : store.label call.2 = none) (calls more : List (Nat × Int32)) :
    labelled store (calls ++ call :: more) = labelled store (calls ++ more) := by
  simp [labelled, h]

theorem mem_labelled (h : store.label call.2 = some label) :
    call ∈ (labelled store calls).toFinset ↔ call ∈ calls := by
  simp [labelled, h]

/-- A call that has been made before is no new pair. -/
theorem card_labelled_again (hlabel : store.label call.2 = some label) (hmem : call ∈ calls) :
    (labelled store (calls ++ [call])).toFinset.card = (labelled store calls).toFinset.card := by
  rw [labelled_append_of_some hlabel, List.toFinset_append, List.toFinset_cons, List.toFinset_nil,
    insert_empty_eq, Finset.union_singleton,
    Finset.insert_eq_of_mem ((mem_labelled hlabel).2 hmem)]

theorem card_labelled_new (hlabel : store.label call.2 = some label) (hmem : call ∉ calls) :
    (labelled store (calls ++ [call])).toFinset.card =
      (labelled store calls).toFinset.card + 1 := by
  rw [labelled_append_of_some hlabel, List.toFinset_append, List.toFinset_cons, List.toFinset_nil,
    insert_empty_eq, Finset.union_singleton,
    Finset.card_insert_of_notMem fun h => hmem ((mem_labelled hlabel).1 h)]

theorem recalls_ofDimensions (store : Store) (count : Nat) :
    (ofDimensions count).Recalls store [] where
  find := fun _ _ => find?_ofDimensions count
  misses := rfl
  size := size_ofDimensions count
  hits := rfl

/-- A pair that is found has been asked for and has that label. -/
theorem Recalls.of_find? (h : c.Recalls store calls) (hfind : c.find? call.1 call.2 = some label) :
    call ∈ calls ∧ store.label call.2 = some label := by
  rw [h.find] at hfind
  exact Option.ite_none_right_eq_some.1 hfind

/-- A pair that has a label and is not found is new. -/
theorem Recalls.notMem (h : c.Recalls store calls) (hfind : c.find? call.1 call.2 = none)
    (hlabel : store.label call.2 = some label) : call ∉ calls := by
  intro hmem
  rw [h.find, if_pos hmem, hlabel] at hfind
  cases hfind

/-- **One call.** It is answered as the store answers it, and the cache recalls it. -/
theorem recalls_resolve (h : c.Recalls store calls) (call : Nat × Int32) :
    (c.resolve store call.1 call.2).1 = answer store call ∧
      (c.resolve store call.1 call.2).2.Recalls store (calls ++ [call]) := by
  have hcount := h.hits
  unfold answer
  rcases c.resolve_cases store call.1 call.2 with
    ⟨label, hfind, heq⟩ | ⟨hfind, label, hlabel, heq⟩ | ⟨hfind, hlabel, heq⟩
  · obtain ⟨hmem, hlabel⟩ := h.of_find? hfind
    rw [heq, hlabel]
    refine ⟨rfl, { find := fun dimension key => ?_, misses := ?_, size := ?_, hits := ?_ }⟩
    · have hsame : (dimension, key) ∈ calls ++ [call] ↔ (dimension, key) ∈ calls := by
        rw [List.mem_append, List.mem_singleton]
        exact or_iff_left_of_imp fun heq => heq ▸ hmem
      simp only [hsame]
      exact (find?_reaching ..).trans (h.find dimension key)
    · rw [card_labelled_again hlabel hmem]
      exact h.misses
    · exact (size_reaching ..).trans h.size
    · rw [labelled_append_of_some hlabel, List.length_append, ← hcount]
      exact Nat.add_right_comm ..
  · have hmem := h.notMem hfind hlabel
    rw [heq, hlabel]
    refine ⟨rfl, { find := fun dimension key => ?_, misses := ?_, size := ?_, hits := ?_ }⟩
    · rw [find?_remember (c.lt_reaching call.1), find?_reaching, h.find]
      by_cases hpair : (dimension, key) = call
      · subst hpair
        simp [hlabel]
      · simp [hpair]
    · rw [card_labelled_new hlabel hmem, ← h.misses]
      rfl
    · rw [size_remember (c.lt_reaching call.1), size_reaching, h.size]
      rfl
    · rw [labelled_append_of_some hlabel, List.length_append, ← hcount]
      rfl
  · -- a call that fails leaves nothing but an empty table
    have hlabelled := labelled_append_of_none hlabel calls []
    rw [List.append_nil] at hlabelled
    rw [heq, hlabel]
    refine ⟨rfl, { find := fun dimension key => ?_, misses := ?_, size := ?_, hits := ?_ }⟩
    · rw [find?_reaching, h.find]
      by_cases hpair : (dimension, key) = call
      · subst hpair
        simp [hlabel]
      · simp [hpair]
    · rw [hlabelled]
      exact h.misses
    · exact (size_reaching ..).trans h.size
    · rw [hlabelled]
      exact hcount

/-- **Any calls.** The induction is on the calls still to come; those before them may be any. -/
theorem recalls_run : ∀ (more : List (Nat × Int32)) {c : LabelCache} {calls : List (Nat × Int32)},
    c.Recalls store calls → (c.run store more).1 = more.map (answer store) ∧
      (c.run store more).2.Recalls store (calls ++ more)
  | [], _, calls, h => by
    rw [List.append_nil]
    exact ⟨rfl, h⟩
  | call :: more, c, calls, h => by
    obtain ⟨hanswer, hrecalls⟩ := recalls_resolve h call
    obtain ⟨hanswers, hafter⟩ := recalls_run more hrecalls
    rw [List.append_assoc] at hafter
    exact ⟨congrArg₂ List.cons hanswer hanswers, hafter⟩

/-- The hits and misses are those of the calls, so caches that recall the same labelled calls have
counted the same. -/
theorem Recalls.counters_eq {c' : LabelCache} {calls' : List (Nat × Int32)}
    (h : c.Recalls store calls) (h' : c'.Recalls store calls')
    (hsame : labelled store calls' = labelled store calls) :
    c'.hits = c.hits ∧ c'.misses = c.misses ∧ c'.size = c.size := by
  have hmisses : c'.misses = c.misses := by rw [h'.misses, h.misses, hsame]
  have hcount : c'.hits + c'.misses = c.hits + c.misses := by rw [h'.hits, h.hits, hsame]
  refine ⟨by omega, hmisses, ?_⟩
  rw [h'.size, h.size, hmisses]

end

/-- **The cache does not show.** Whatever the number of dimensions it was made for, a cache answers
every call as the store does, or with a storage failure when the key has no label. It has missed
once for each pair with a label that it was asked for and holds as many labels; hits and misses
together are the calls for such pairs. After any calls, a call that fails changes neither the
counters nor the size, nor anything that comes of later calls. -/
theorem answers_of_calls (store : Store) (count : Nat) (calls : List (Nat × Int32)) :
    let c := ((ofDimensions count).run store calls).2
    ((ofDimensions count).run store calls).1 = calls.map (answer store) ∧
      (∀ call f, answer store call = .error f → f.kind = .storage) ∧
      c.misses = (labelled store calls).toFinset.card ∧ c.size = c.misses ∧
      c.hits + c.misses = (labelled store calls).length ∧
      ∀ call : Nat × Int32, store.label call.2 = none →
        let c' := (c.resolve store call.1 call.2).2
        (c'.hits = c.hits ∧ c'.misses = c.misses ∧ c'.size = c.size) ∧
          ∀ more, (c'.run store more).1 = (c.run store more).1 ∧
            (c'.run store more).2.hits = (c.run store more).2.hits ∧
            (c'.run store more).2.misses = (c.run store more).2.misses ∧
            (c'.run store more).2.size = (c.run store more).2.size := by
  intro c
  obtain ⟨hanswers, hc⟩ := recalls_run calls (recalls_ofDimensions store count)
  rw [List.nil_append] at hc
  refine ⟨hanswers, fun call f hf => ?_, hc.misses, hc.size, hc.hits, fun call hlabel => ?_⟩
  · unfold answer at hf
    split at hf
    · cases hf
    · cases hf
      rfl
  intro c'
  have hc' : c'.Recalls store (calls ++ [call]) := (recalls_resolve hc call).2
  have hnone := labelled_append_of_none hlabel calls
  refine ⟨hc.counters_eq hc' (by simpa using hnone []), fun more => ?_⟩
  obtain ⟨hmore, hafter⟩ := recalls_run more hc
  obtain ⟨hmore', hafter'⟩ := recalls_run more hc'
  rw [List.append_assoc] at hafter'
  exact ⟨hmore'.trans hmore.symm, hafter.counters_eq hafter' (hnone more)⟩

end SymbolTables.LabelCache
