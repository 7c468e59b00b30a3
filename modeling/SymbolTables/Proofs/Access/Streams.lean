import SymbolTables.Proofs.Access.Sharing

/-!
# Streams among parties

The operations of a stream let the producer of a filtered scan go as far as it can before and after
each step of the consumer. What they do to the slot, the stream and its answers comes about by moves
of one party, whoever else uses the store, so that whatever holds on every schedule holds of them.

* `producerStep_beginReading`: a producer that starts takes one move, or claims and starts its reader
  in two.
* `comes_settle`, `comes_serve`: the eager schedule of a filtered scan.
* `comes_start`, `comes_next`, `comes_drop`: starting, pulling and dropping a stream.
-/
namespace SymbolTables

namespace FilteredScan

/-- A step of the consumer that answers leaves nothing to be asked, and any other one leaves something.
-/
theorem outstanding_serving {s s' : FilteredScan} {answer : Option (Option Item)}
    (h : Serving s answer s') : s'.Outstanding ↔ answer = none := by
  cases h <;> simp [Outstanding, Consumer.resting]

/-- What is the same after the parties of a scan have gone on: it is cancelled or not, and its queue
has its length. -/
structure Onward (s s' : FilteredScan) : Prop where
  orderly : s'.Orderly
  cancelled : s'.cancelled = s.cancelled
  capacity : s'.capacity = s.capacity

theorem onward_settle {s : FilteredScan} (O : s.Orderly) (slot : ReaderSlot) :
    Onward s (s.settle slot).2 := by
  have hf := (Exchange.settle_settled s slot).2
  refine ⟨?_, by rw [hf], by rw [hf]⟩
  clear hf
  induction s, slot using settle.induct with
  | case1 s slot h =>
    rw [settle]
    split
    · exact O
    · rename_i h'
      rw [h] at h'
      cases h'
  | case2 s slot slot₁ s₁ h ih =>
    rw [settle]
    split
    · exact O
    · rename_i h'
      rw [h] at h'
      cases h'
      exact ih (orderly_producer O h)

theorem onward_serving {s s' : FilteredScan} {answer : Option (Option Item)} (O : s.Orderly)
    (h : Serving s answer s') : Onward s s' := by
  refine ⟨orderly_serving O h, ?_, ?_⟩ <;> cases h <;> rfl

theorem Onward.trans {s₁ s₂ s₃ : FilteredScan} (h : Onward s₁ s₂) (h' : Onward s₂ s₃) :
    Onward s₁ s₃ :=
  ⟨h'.orderly, h'.cancelled.trans h.cancelled, h'.capacity.trans h.capacity⟩

end FilteredScan

namespace Party

/-- A producer that starts is refused the slot or fails, or it claims the slot and starts its reader.
-/
theorem producerStep_beginReading {slot slot₁ : ReaderSlot} {scan scan₁ : FilteredScan}
    {claimed : Bool} {decoder : Decoder} (hp : scan.producer = .starting decoder)
    (h : beginReading slot false scan decoder = (slot₁, claimed, scan₁)) :
    claimed = false ∧ scan.producerStep slot = some (slot₁, scan₁) ∨
      claimed = true ∧ scan₁ = scan ∧ ∃ slot₂ scan₂,
        beginReading slot₁ true scan decoder = (slot₂, false, scan₂) ∧
        scan.producerStep slot = some (slot₂, scan₂) := by
  simp only [FilteredScan.producerStep, hp, Store.readRaw_eq]
  simp only [beginReading, Bool.false_eq_true, if_false] at h
  cases hc : scan.store.claim slot scan.symbol with
  | error f =>
    rw [hc] at h
    cases h
    exact .inl ⟨rfl, rfl⟩
  | ok slot' =>
    rw [hc] at h
    cases h
    refine .inr ⟨rfl, rfl, ?_⟩
    simp only [beginReading, if_true, bind, Except.bind, pure, Except.pure]
    cases scan.store.start scan.symbol with
    | error f => exact ⟨_, _, rfl, by simp only [Store.release_of_claim hc]⟩
    | ok reader => exact ⟨_, _, rfl, rfl⟩

/-- The party that uses a stream. -/
def ofStream (stream : RowStream) (answers : List (Option Item)) : Party :=
  match stream.scan with
  | .sequential scan => .rows scan answers
  | .filtered scan => .filtered false scan answers

end Party

namespace Sharing

/-- By moves of one party, `s` comes to be `s'`. -/
def Comes (i : Nat) (s s' : Sharing) : Prop :=
  ∃ moves, (∀ m ∈ moves, m.party = i) ∧ s.run moves = some s'

@[simp] theorem put_put (s : Sharing) (i : Nat) (slot slot' : ReaderSlot) (p p' : Party) :
    (s.put i slot p).put i slot' p' = s.put i slot' p' := by
  simp only [put, Function.update_idem]

theorem put_self {s : Sharing} {i : Nat} {p : Party} (h : s.parties i = p) :
    s.put i s.slot p = s := by
  simp only [put, ← h, Function.update_eq_self]

section
variable {s s' : Sharing} {i : Nat}

theorem Comes.refl (s : Sharing) (i : Nat) : Comes i s s := ⟨[], nofun, rfl⟩

theorem Comes.trans {s'' : Sharing} (h : Comes i s s') (h' : Comes i s' s'') : Comes i s s'' := by
  obtain ⟨moves, hi, hrun⟩ := h
  obtain ⟨more, hi', hrun'⟩ := h'
  refine ⟨moves ++ more, fun m hm => (List.mem_append.1 hm).elim (hi m) (hi' m), ?_⟩
  rw [run_append, hrun]
  exact hrun'

theorem Comes.of_act {p p' : Party} {a : Action} {slot : ReaderSlot} (hp : s.parties i = p)
    (h : Party.act s.store s.slot p a = some (slot, p')) : Comes i s (s.put i slot p') := by
  refine ⟨[⟨i, a⟩], fun m hm => ?_, ?_⟩
  · rw [List.mem_singleton.1 hm]
  · simp only [run, step, hp, h, Option.map_some, Option.bind_some]

variable {scan scan' : FilteredScan} {answers : List (Option Item)} {slot : ReaderSlot}

theorem comes_producer (hp : s.parties i = .filtered false scan answers)
    (h : scan.producerStep s.slot = some (slot, scan')) :
    Comes i s (s.put i slot (.filtered false scan' answers)) := by
  cases hstart : scan.producer with
  | starting decoder =>
    have htake : ∀ claimed slot, Party.act s.store slot (.filtered claimed scan answers)
        (.turn .producer) = some ((Party.beginReading slot claimed scan decoder).1,
          .filtered (Party.beginReading slot claimed scan decoder).2.1
            (Party.beginReading slot claimed scan decoder).2.2 answers) := fun claimed slot => by
      simp only [Party.act, Party.take, hstart]
    have hfirst := Comes.of_act hp (htake false s.slot)
    generalize hb : Party.beginReading s.slot false scan decoder = b at hfirst
    obtain ⟨slot₁, claimed, scan₁⟩ := b
    rcases Party.producerStep_beginReading hstart hb with
      ⟨rfl, hs⟩ | ⟨rfl, rfl, slot₂, scan₂, hb₂, hs⟩
    · rw [h] at hs
      cases hs
      exact hfirst
    · rw [h] at hs
      cases hs
      have hsecond := Comes.of_act (parties_put s i slot₁ _) (htake true slot₁)
      rw [hb₂, put_put] at hsecond
      exact hfirst.trans hsecond
  | reading | pulled | matched | sending | leaving | gone =>
    have hnot : scan.producer.waiting = false := by rw [hstart]; rfl
    refine .of_act (a := .turn .producer) hp ?_
    rw [Party.act, Party.take_of_started fun _ => hnot]
    simp only [Exchange.step, h, Option.map_some]

theorem comes_settle (scan : FilteredScan) (slot : ReaderSlot) :
    ∀ {s : Sharing}, s.slot = slot → s.parties i = .filtered false scan answers →
      Comes i s (s.put i (scan.settle slot).1 (.filtered false (scan.settle slot).2 answers)) := by
  induction scan, slot using FilteredScan.settle.induct with
  | case1 scan slot h =>
    intro s hslot hp
    rw [FilteredScan.settle]
    split
    · rw [← hslot, put_self hp]
      exact .refl s i
    · rename_i h'
      rw [h] at h'
      cases h'
  | case2 scan slot slot₁ scan₁ h ih =>
    intro s hslot hp
    rw [FilteredScan.settle]
    split
    · rename_i h'
      rw [h] at h'
      cases h'
    · rename_i h'
      rw [h] at h'
      cases h'
      subst hslot
      have hrest := ih (s := s.put i slot₁ (.filtered false scan₁ answers)) rfl (parties_put ..)
      rw [put_put] at hrest
      exact (comes_producer hp h).trans hrest

/-- The consumer is served: what is asked is answered, unless the scan is being dropped. -/
theorem comes_serve :
    ∀ (steps : Nat) {s : Sharing} {scan : FilteredScan}, scan.Orderly → 1 ≤ scan.capacity →
      scan.Outstanding → scan.consumer.rank ≤ steps → s.parties i = .filtered false scan answers →
      ∃ item slot scan', FilteredScan.serve steps s.slot scan = (item, slot, scan') ∧
        FilteredScan.Onward scan scan' ∧ ¬ scan'.Outstanding ∧
        Comes i s (s.put i slot
          (.filtered false scan' (answers ++ if scan.cancelled then [] else [item])))
  | 0, s, scan, _, _, ho, hr, _ => by
    rw [FilteredScan.Outstanding] at ho
    cases hw : scan.consumer <;> simp_all [Consumer.rank, Consumer.resting]
  | steps + 1, s, scan, O, hc, ho, hr, hp => by
    have hsettle := comes_settle scan s.slot rfl hp
    obtain ⟨hstuck, hframe⟩ := Exchange.settle_settled scan s.slot
    have N := FilteredScan.onward_settle O s.slot
    have hconsumer : (scan.settle s.slot).2.consumer = scan.consumer := by rw [hframe]
    unfold FilteredScan.serve
    generalize scan.settle s.slot = settled at hsettle hstuck N hconsumer
    obtain ⟨slot₁, scan₁⟩ := settled
    simp only at hstuck N hconsumer ⊢
    -- the producer cannot go on, so the consumer can
    have hstep := FilteredScan.step_of_outstanding N.orderly (by rw [N.capacity]; exact hc)
      (by rw [FilteredScan.Outstanding, hconsumer]; exact ho) slot₁
    rw [hstuck] at hstep
    obtain ⟨⟨answer, scan₂⟩, hconsume⟩ := Option.isSome_iff_exists.1 (hstep.resolve_left Bool.false_ne_true)
    have V := FilteredScan.serving_of_step hconsume
    have N₂ := N.trans (FilteredScan.onward_serving N.orderly V)
    have hact : Party.act s.store slot₁ (.filtered false scan₁ answers) (.turn .consumer) =
        some (slot₁, .filtered false scan₂
          (answers ++ if scan.cancelled then [] else answer.toList)) := by
      simp only [Party.act, Party.take, Exchange.step, hconsume, Option.map_some, N.cancelled]
    have hserved := Comes.of_act (parties_put s i slot₁ (.filtered false scan₁ answers)) hact
    rw [put_put] at hserved
    have hso_far := hsettle.trans hserved
    rw [hconsume]
    cases answer with
    | none =>
      have hr₂ : scan₂.consumer.rank ≤ steps := by
        have := (Exchange.rank_serving V).2
        rw [hconsumer] at this
        omega
      rw [Option.toList_none, ite_self, List.append_nil] at hso_far
      obtain ⟨item, slot', scan', hserve, N', ho', hcomes⟩ :=
        comes_serve steps (s := s.put i slot₁ (.filtered false scan₂ answers)) N₂.orderly
          (by rw [N₂.capacity]; exact hc) ((FilteredScan.outstanding_serving V).2 rfl) hr₂
          (parties_put ..)
      rw [put_put, N₂.cancelled] at hcomes
      exact ⟨item, slot', scan', hserve, N₂.trans N', ho', hso_far.trans hcomes⟩
    | some item =>
      have hlast := comes_settle scan₂ slot₁ rfl (parties_put s i slot₁ (.filtered false scan₂
        (answers ++ if scan.cancelled then [] else [item])))
      rw [put_put] at hlast
      refine ⟨item, _, _, rfl, N₂.trans (FilteredScan.onward_settle N₂.orderly slot₁), ?_,
        hso_far.trans hlast⟩
      rw [FilteredScan.Outstanding, (Exchange.settle_settled scan₂ slot₁).2]
      exact fun h => by cases (FilteredScan.outstanding_serving V).1 h

/-! ### Streams -/

/-- A stream at rest: a filtered scan waits for the next pull. -/
def AtRest (stream : RowStream) : Prop :=
  match stream.scan with
  | .sequential _ => True
  | .filtered scan => scan.Orderly ∧ 1 ≤ scan.capacity ∧ scan.consumer = .idle

/-- Starting a stream is a schedule of one party, which has the stream afterwards or has failed. -/
theorem comes_start (hp : s.parties i = .absent) (plan : ScanPlan) (capacity : Nat) :
    (∃ f, RowStream.start s.store s.slot plan capacity = .error f ∧
        Comes i s (s.put i s.slot (.failed f))) ∨
      ∃ stream slot, RowStream.start s.store s.slot plan capacity = .ok (stream, slot) ∧
        AtRest stream ∧ Comes i s (s.put i slot (.ofStream stream [])) := by
  have hfirst : Comes i s (s.put i (Party.start s.store s.slot plan capacity).1
      (Party.start s.store s.slot plan capacity).2) := .of_act (a := .start plan capacity) hp rfl
  simp only [RowStream.start, bind, Except.bind, pure, Except.pure]
  simp only [Party.start] at hfirst
  cases hd : Decoder.ofPlan s.store plan with
  | error f =>
    rw [hd] at hfirst
    exact .inl ⟨f, rfl, hfirst⟩
  | ok decoder =>
    simp only [hd] at hfirst ⊢
    by_cases hf : plan.filtered = true
    · rw [if_pos hf] at hfirst
      simp only [hf, if_true]
      have O := FilteredScan.orderly_start s.store plan decoder (max capacity 1)
      have N := FilteredScan.onward_settle O s.slot
      have hstarted := parties_put s i s.slot
        (.filtered false (.start s.store plan decoder (max capacity 1)) [])
      have hsettle := comes_settle _ s.slot (s := s.put i s.slot _) rfl hstarted
      rw [put_put] at hsettle
      refine .inr ⟨_, _, rfl, ⟨N.orderly, ?_, ?_⟩, hfirst.trans hsettle⟩
      · rw [N.capacity]
        exact Nat.le_max_right _ _
      · rw [(Exchange.settle_settled _ _).2]
        rfl
    · rw [if_neg hf] at hfirst
      simp only [hf, Store.readRaw_eq, bind, Except.bind, pure, Except.pure]
      simp only [Party.claim] at hfirst
      cases hc : s.store.claim s.slot plan.symbol with
      | error f =>
        rw [hc] at hfirst
        exact .inl ⟨f, rfl, hfirst⟩
      | ok slot =>
        simp only [hc] at hfirst
        have hopening := parties_put s i slot (.opening plan.symbol (some decoder))
        cases hstart : s.store.start plan.symbol with
        | error f =>
          have hact : Party.act s.store slot (.opening plan.symbol (some decoder)) .launch =
              some (s.slot, .failed f) := by
            simp only [Party.act, Party.launch, hstart, Store.release_of_claim hc]
          have hlaunch := Comes.of_act hopening hact
          rw [put_put] at hlaunch
          exact .inl ⟨f, rfl, hfirst.trans hlaunch⟩
        | ok reader =>
          have hact : Party.act s.store slot (.opening plan.symbol (some decoder)) .launch =
              some (slot, .rows ⟨some reader, decoder⟩ []) := by
            simp only [Party.act, Party.launch, hstart]
          have hlaunch := Comes.of_act hopening hact
          rw [put_put] at hlaunch
          exact .inr ⟨_, _, rfl, trivial, hfirst.trans hlaunch⟩

/-- A pull at a stream is a schedule of its party, which is told what the pull brings. -/
theorem comes_next {stream : RowStream} (hrest : AtRest stream)
    (hp : s.parties i = .ofStream stream answers) :
    AtRest (stream.next s.slot).2.2 ∧
      Comes i s (s.put i (stream.next s.slot).2.1
        (.ofStream (stream.next s.slot).2.2 (answers ++ [(stream.next s.slot).1]))) := by
  obtain ⟨schema, scan⟩ := stream
  cases scan with
  | sequential scan => exact ⟨trivial, .of_act (a := .turn .pull) hp rfl⟩
  | filtered scan =>
    obtain ⟨O, hc, hidle⟩ := hrest
    change s.parties i = .filtered false scan answers at hp
    have hask : Comes i s (s.put i s.slot (.filtered false scan.ask answers)) := by
      refine .of_act (a := .turn .pull) hp ?_
      simp only [Party.act, Party.take, Exchange.step, hidle, if_true, Option.map_some]
    have hflag : scan.ask.cancelled = false := by
      rw [Bool.eq_false_iff, ne_eq]
      exact fun h => by simpa [hidle] using O.flag.1 h
    obtain ⟨item, slot', scan', hserve, N, ho, hcomes⟩ := comes_serve 2
      (s := s.put i s.slot (.filtered false scan.ask answers)) (FilteredScan.orderly_ask O hidle) hc
      rfl (Nat.le_refl 2) (parties_put ..)
    rw [put_put, hflag, if_neg Bool.false_ne_true] at hcomes
    have hnext : scan.next s.slot = (item, slot', scan') := hserve
    simp only [RowStream.next, hnext]
    refine ⟨⟨N.orderly, by rw [N.capacity]; exact hc, ?_⟩, hask.trans hcomes⟩
    -- the consumer is done, and the scan is not dropped
    cases hw : scan'.consumer with
    | idle => rfl
    | dropped =>
      have := N.orderly.flag.2 (.inr (.inr hw))
      rw [N.cancelled, hflag] at this
      cases this
    | receiving | joining | cancelling | closing =>
      exact absurd (by rw [FilteredScan.Outstanding, hw]; rfl) ho

/-- Dropping a stream is a schedule of its party, which is over afterwards. -/
theorem comes_drop {stream : RowStream} (hrest : AtRest stream)
    (hp : s.parties i = .ofStream stream answers) :
    ∃ p : Party, p.Over ∧ Comes i s (s.put i (stream.drop s.slot) p) := by
  obtain ⟨schema, scan⟩ := stream
  cases scan with
  | sequential scan => exact ⟨.dropped, trivial, .of_act (a := .turn .drop) hp rfl⟩
  | filtered scan =>
    obtain ⟨O, hc, hidle⟩ := hrest
    change s.parties i = .filtered false scan answers at hp
    have hcancel : Comes i s (s.put i s.slot (.filtered false scan.cancel answers)) := by
      refine .of_act (a := .turn .drop) hp ?_
      simp only [Party.act, Party.take, Exchange.step, hidle, if_true, Option.map_some]
    obtain ⟨item, slot', scan', hserve, N, ho, hcomes⟩ := comes_serve 2
      (s := s.put i s.slot (.filtered false scan.cancel answers)) (FilteredScan.orderly_cancel O) hc
      rfl (Nat.le_refl 2) (parties_put ..)
    rw [put_put] at hcomes
    have hdrop : scan.drop s.slot = slot' := congrArg (·.2.1) hserve
    refine ⟨_, ?_, hdrop ▸ hcancel.trans hcomes⟩
    right
    -- the flag is set, and the consumer is done
    rcases N.orderly.flag.1 N.cancelled with hw | hw | hw
    · exact absurd (by rw [FilteredScan.Outstanding, hw]; rfl) ho
    · exact absurd (by rw [FilteredScan.Outstanding, hw]; rfl) ho
    · exact hw

end
end Sharing
end SymbolTables
