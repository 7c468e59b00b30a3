import SymbolTables.Scan.Drain

/-!
# What batches bring

`Batches.pulls` are the answers to so many pulls at the batches of a stream. They are those of
`itemsOf`, which is made of the rows of the stream and its failure alone, and nothing for ever
behind them (`next_of_owes` for one pull, `pulls_of_owes` for any number).

A failure is not always the last of them: a stream that fails before its first row gives an empty
batch behind the failure, and a batch that cannot be made is a failure with more to come.
`pulls_of_stream` says for which streams the first failure is the end.
-/
namespace SymbolTables

/-- How a stream has ended that failed, or did not. -/
def Ending.ofFailure : Option Failure → Ending
  | none => .finished
  | some f => .failed f

namespace Batch

/-- The rows of one batch after the other, when there are pending ones already. -/
def chunks (size : Nat) (pending : List Row) : List Row → List (List Row)
  | [] => if pending = [] then [] else [pending]
  | row :: rest =>
    if size ≤ pending.length + 1 then (pending ++ [row]) :: chunks size [] rest
    else chunks size (pending ++ [row]) rest

/-- What the batches bring for the rows of one batch. -/
def itemOf (schema : Schema) (rows : List Row) : BatchItem :=
  match ofRows schema rows with
  | .ok batch => .batch batch
  | .error f => .failed f

/-- What the batches bring for the rows of a stream and its failure. -/
def itemsOf (schema : Schema) (size : Nat) (rows : List Row) (failure : Option Failure) :
    List BatchItem :=
  if rows = [] then failure.toList.map .failed ++ [itemOf schema []]
  else (chunks size [] rows).map (itemOf schema) ++ failure.toList.map .failed

end Batch

namespace Batches

open Batch

/-- The answers to so many pulls. -/
def pulls : Nat → ReaderSlot → Batches → List (Option BatchItem)
  | 0, _, _ => []
  | n + 1, slot, b => (b.next slot).1 :: pulls n (b.next slot).2.1 (b.next slot).2.2

/-! ## What is still to come -/

/-- What is still to come when the stream is over. -/
def remaining (b : Batches) : List BatchItem :=
  if b.pending = [] then
    b.failure.toList.map .failed ++ if b.emitted then [] else [itemOf b.schema []]
  else itemOf b.schema b.pending :: b.failure.toList.map .failed

/-- What is still to come when the stream has these rows left and then ends, or fails. -/
def owed (failure : Option Failure) : Batches → List Row → List BatchItem
  | b, [] => remaining { b with stream := none, failure }
  | b, row :: rest =>
    if b.size ≤ b.pending.length + 1 then
      itemOf b.schema (b.pending ++ [row]) ::
        owed failure { b with pending := [], emitted := true } rest
    else owed failure { b with pending := b.pending ++ [row] } rest

/-- What is still to come does not depend on the stream itself. -/
theorem owed_stream (failure : Option Failure) (stream : Option RowStream) :
    ∀ (rows : List Row) (b : Batches), owed failure { b with stream } rows = owed failure b rows
  | [], b => rfl
  | row :: rest, b => by
    simp only [owed]
    split
    · rw [← owed_stream failure stream rest { b with pending := [], emitted := true }]
    · rw [← owed_stream failure stream rest { b with pending := b.pending ++ [row] }]

/-- The batches have this still to bring. -/
inductive Owes (items : List BatchItem) (slot : ReaderSlot) (b : Batches) : Prop
  | streaming (stream : RowStream) (k : Nat) (rows : List Row) (failure : Option Failure)
      (hstream : b.stream = some stream) (fresh : b.failure = none)
      (rowsOf : (stream.take k slot).1 = rows)
      (ending : (stream.take k slot).2.1 = Ending.ofFailure failure)
      (items : items = owed failure b rows)
  | ended (stream : b.stream = none) (items : items = b.remaining)

/-! ## One pull -/

theorem fst_flush (b : Batches) : b.flush.1 = itemOf b.schema b.pending := by
  unfold flush itemOf; rfl

/-- Behind the stream a pull brings the first of what remains, and leaves the rest of it. -/
theorem finish_remaining (b : Batches) :
    b.finish.1 = b.remaining.head? ∧ b.finish.2.remaining = b.remaining.tail ∧
      b.finish.2.stream = b.stream := by
  obtain ⟨schema, stream, pending, size, failure, emitted⟩ := b
  cases pending with
  | cons row rest =>
    refine ⟨?_, ?_, rfl⟩
    · simp [finish, remaining, fst_flush]
    · simp [finish, remaining, flush]
  | nil =>
    refine ⟨?_, ?_, ?_⟩
    · cases emitted <;> cases failure <;> simp [finish, remaining, fst_flush]
    · cases emitted <;> cases failure <;> simp [finish, remaining, flush]
    · cases emitted <;> cases failure <;> rfl

theorem owes_finish {items : List BatchItem} {slot : ReaderSlot} {b : Batches}
    (hs : b.stream = none) (h : items = b.remaining) :
    b.finish.1 = items.head? ∧ Owes items.tail slot b.finish.2 := by
  obtain ⟨h₁, h₂, h₃⟩ := finish_remaining b
  exact ⟨h ▸ h₁, .ended (h₃.trans hs) (h ▸ h₂.symm)⟩

/-- Pulling the stream until there is something to bring. -/
theorem owes_fill {failure : Option Failure} :
    ∀ (k : Nat) {rows : List Row} {slot : ReaderSlot} {b : Batches} {stream : RowStream},
      (stream.take k slot).1 = rows → (stream.take k slot).2.1 = Ending.ofFailure failure →
      b.failure = none →
      (b.fill slot stream).1 = (owed failure b rows).head? ∧
        Owes (owed failure b rows).tail (b.fill slot stream).2.1 (b.fill slot stream).2.2
  | 0, rows, slot, b, stream, _, he, _ => by
    cases failure <;> cases he
  | k + 1, rows, slot, b, stream, hr, he, hf => by
    unfold RowStream.take at hr he
    rw [fill]
    generalize stream.next slot = p at hr he ⊢
    obtain ⟨item, slot₁, stream₁⟩ := p
    cases item with
    | none =>
      cases failure with
      | some f => cases he
      | none =>
        subst hr
        have h : owed none b [] = remaining { b with stream := none } := by
          simp only [owed, ← hf]
        exact owes_finish rfl h
    | some item =>
      cases item with
      | crashed => cases failure <;> cases he
      | failed f =>
        cases failure with
        | none => cases he
        | some f' =>
          cases he
          subst hr
          exact owes_finish rfl rfl
      | row row =>
        simp only at hr he
        subst hr
        simp only [owed]
        split
        · rename_i hfull
          refine ⟨congrArg some (fst_flush _), ?_⟩
          exact .streaming stream₁ k _ failure rfl hf rfl he
            (owed_stream failure (some stream₁) _ { b with pending := [], emitted := true }).symm
        · rename_i hfull
          have ih := owes_fill k
            (b := { b with pending := b.pending ++ [row], stream := some stream₁ }) rfl he hf
          rw [owed_stream failure (some stream₁) _ { b with pending := b.pending ++ [row] }] at ih
          exact ih

/-- A pull brings the first of what is still to come, and leaves the rest of it. -/
theorem next_of_owes {items : List BatchItem} {slot : ReaderSlot} {b : Batches}
    (h : Owes items slot b) :
    (b.next slot).1 = items.head? ∧ Owes items.tail (b.next slot).2.1 (b.next slot).2.2 := by
  cases h with
  | streaming stream k rows failure hs hf hr he hi =>
    subst hi
    simp only [next, hs]
    exact owes_fill k hr he hf
  | ended hs hi =>
    simp only [next, hs]
    exact owes_finish hs hi

/-! ## Any number of pulls -/

theorem pulls_of_owes :
    ∀ (n : Nat) {items : List BatchItem} {slot : ReaderSlot} {b : Batches}, Owes items slot b →
      pulls n slot b = (List.range n).map fun i => items[i]?
  | 0, items, slot, b, _ => rfl
  | n + 1, items, slot, b, h => by
    obtain ⟨hitem, h'⟩ := next_of_owes h
    rw [pulls, hitem, pulls_of_owes n h', List.range_succ_eq_map, List.map_cons, List.map_map,
      List.head?_eq_getElem?]
    simp only [List.getElem?_tail, Function.comp_def]

/-- A stream with rows gives its batches and then its failure. -/
theorem owed_eq {failure : Option Failure} :
    ∀ (rows : List Row) (b : Batches), b.emitted = true ∨ b.pending ++ rows ≠ [] →
      owed failure b rows =
        (chunks b.size b.pending rows).map (itemOf b.schema) ++ failure.toList.map .failed
  | [], b, h => by
    simp only [owed, remaining, chunks]
    split
    · rename_i hp
      have he : b.emitted = true := h.resolve_right (by simp [hp])
      simp [he]
    · simp
  | row :: rest, b, _ => by
    simp only [owed, chunks]
    split
    · rw [owed_eq rest _ (.inl rfl)]; rfl
    · rw [owed_eq rest _ (.inr (by simp))]

theorem owed_ofStream (failure : Option Failure) (stream : RowStream) (size : Nat)
    (rows : List Row) :
    owed failure (ofStream stream size) rows =
      itemsOf stream.schema (max size 1) rows failure := by
  unfold itemsOf
  split
  · rename_i hr
    subst hr
    simp [owed, remaining, ofStream]
  · rename_i hr
    exact owed_eq rows _ (.inr hr)

/-! ## Failures -/

/-- Nothing comes behind a failure. -/
def FailureLast (answers : List (Option BatchItem)) : Prop :=
  ∀ i j f, i < j → j < answers.length → answers[i]? = some (some (.failed f)) →
    answers[j]? = some none

theorem failureLast_iff {items : List BatchItem} :
    (∀ n, FailureLast ((List.range n).map fun i => items[i]?)) ↔
      ∀ item ∈ items.dropLast, ∀ f, item ≠ .failed f := by
  constructor
  · intro h item hi f hf
    subst hf
    obtain ⟨i, hlt, hget⟩ := List.getElem_of_mem hi
    have hlen : i + 1 < items.length := by rw [List.length_dropLast] at hlt; omega
    have hnone := h (i + 2) i (i + 1) f (Nat.lt_succ_self i) (by simp) (by
      rw [List.getElem_dropLast] at hget
      simp [← hget])
    simp [hlen] at hnone
  · intro h n i j f hij hj hfail
    simp only [List.length_map, List.length_range] at hj
    have hget : ∀ m, m < n → ((List.range n).map fun i => items[i]?)[m]? = some items[m]? := by
      intro m hm; simp [hm]
    rw [hget i (by omega), Option.some.injEq] at hfail
    obtain ⟨hlt, hi⟩ := List.getElem?_eq_some_iff.1 hfail
    rw [hget j hj, List.getElem?_eq_none_iff.2]
    refine Decidable.byContradiction fun hn => ?_
    have hd : i < items.dropLast.length := by rw [List.length_dropLast]; omega
    refine h items.dropLast[i] (List.getElem_mem hd) f ?_
    rw [List.getElem_dropLast, hi]

theorem itemOf_ne_failed {schema : Schema} {rows : List Row} :
    (∀ f, itemOf schema rows ≠ .failed f) ↔ ∃ batch, ofRows schema rows = .ok batch := by
  unfold itemOf
  cases ofRows schema rows <;> simp

/-- Nothing comes behind a failure of these items exactly if a failure has rows before it, and all
batches can be made that have something behind them. -/
theorem itemsOf_iff {schema : Schema} {size : Nat} {rows : List Row} {failure : Option Failure} :
    (∀ item ∈ (itemsOf schema size rows failure).dropLast, ∀ f, item ≠ .failed f) ↔
      (rows = [] → failure = none) ∧
        ∀ chunk ∈ if failure.isSome then chunks size [] rows else (chunks size [] rows).dropLast,
          ∃ batch, ofRows schema chunk = .ok batch := by
  unfold itemsOf
  cases rows with
  | nil => cases failure <;> simp [chunks]
  | cons row rest =>
    cases failure with
    | none => simp [List.dropLast_eq_take, ← List.map_take, itemOf_ne_failed]
    | some f => simp [itemOf_ne_failed]

/-- **When a failure is the end.** The answers to any number of pulls at the batches of a stream are
the items of its rows and its failure, one after the other, and nothing for ever behind them.
Nothing comes behind the first failure among them exactly if the stream has not failed before its
first row, and a batch that cannot be made is the last thing to come. -/
theorem pulls_of_stream {stream stream' : RowStream} {slot slot' : ReaderSlot} {k : Nat}
    {rows : List Row} {failure : Option Failure}
    (h : stream.take k slot = (rows, Ending.ofFailure failure, slot', stream')) (size : Nat) :
    (∀ n, pulls n slot (ofStream stream size) =
        (List.range n).map fun i => (itemsOf stream.schema (max size 1) rows failure)[i]?) ∧
      ((∀ n, FailureLast (pulls n slot (ofStream stream size))) ↔
        (rows = [] → failure = none) ∧
          ∀ chunk ∈ if failure.isSome then chunks (max size 1) [] rows
              else (chunks (max size 1) [] rows).dropLast,
            ∃ batch, ofRows stream.schema chunk = .ok batch) := by
  have hpulls : ∀ n, pulls n slot (ofStream stream size) =
      (List.range n).map fun i => (itemsOf stream.schema (max size 1) rows failure)[i]? := fun n =>
    pulls_of_owes n (.streaming stream k rows failure rfl rfl (by rw [h]) (by rw [h])
      (owed_ofStream failure stream size rows).symm)
  refine ⟨hpulls, ?_⟩
  rw [← itemsOf_iff, ← failureLast_iff]
  simp only [hpulls]

def sampleSchema : Schema :=
  ⟨"p", .parameter, 1, [⟨"i", .text⟩, ⟨"Value", .number⟩, ⟨"Value (SV)", .text⟩]⟩

def sampleFailure : Failure := .storageAt "sample" "injected failure"

/-- A sequential stream whose reader fails at its first record. -/
def sampleStream : RowStream where
  schema := sampleSchema
  scan := .sequential
    { reader := some [.failed sampleFailure]
      decoder :=
        { store :=
            { locator := "sample", symbols := [], label := fun _ => none
              elementText := fun _ => none, acronymName := fun _ => none, start := fun _ => .ok [] }
          symbol := ⟨"p", .parameter, ["i"], "", 1⟩
          schema := sampleSchema
          selected := [true, true, false]
          emptyDimensions := []
          cache := .empty
          discarded := 0 } }

/-- The failure comes first, and an empty batch behind it. -/
theorem pulls_of_stream_sample : ∃ slot' stream' batch,
    sampleStream.take 1 ⟨true⟩ = ([], Ending.ofFailure (some sampleFailure), slot', stream') ∧
      itemsOf sampleSchema 10 [] (some sampleFailure) = [.failed sampleFailure, .batch batch] ∧
      (∀ n, pulls n ⟨true⟩ (ofStream sampleStream 10) =
        (List.range n).map fun i =>
          (itemsOf sampleSchema 10 [] (some sampleFailure))[i]?) ∧
      ((∀ n, FailureLast (pulls n ⟨true⟩ (ofStream sampleStream 10))) ↔
        (([] : List Row) = [] → some sampleFailure = none) ∧
          ∀ chunk ∈ if (some sampleFailure).isSome then chunks 10 [] []
              else (chunks 10 [] []).dropLast,
            ∃ batch, ofRows sampleSchema chunk = .ok batch) :=
  ⟨_, _, _, rfl, rfl, @pulls_of_stream sampleStream _ ⟨true⟩ _ 1 [] (some sampleFailure) rfl 10⟩

end Batches
end SymbolTables
