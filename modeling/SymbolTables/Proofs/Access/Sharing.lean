import SymbolTables.Proofs.Access.Party

/-!
# One reader at a store

Any number of parties share an opened store, and `Sharing` follows their moves in any order.

* `Sharing.exclusive_run`: at most one party holds the slot, and the slot is active exactly while one
  does.
* `Sharing.alone_run`: a party that gets the slot fares as it would alone at the store.
* `Sharing.one_reader`: both on every schedule, with what a move does to the others, who gets the slot
  and when it is given back.
-/
namespace SymbolTables

/-- A store with its reader slot and those who use it, by number. -/
structure Sharing where
  store : Store
  slot : ReaderSlot
  parties : Nat → Party

structure Move where
  party : Nat
  action : Action

namespace Sharing

/-- A store that has just been opened. -/
def ofStore (store : Store) : Sharing := ⟨store, .free, fun _ => .absent⟩

/-- The slot and one party come to be as given. -/
def put (s : Sharing) (i : Nat) (slot : ReaderSlot) (p : Party) : Sharing :=
  ⟨s.store, slot, Function.update s.parties i p⟩

/-- One move; none if it cannot be made. -/
def step (s : Sharing) (m : Move) : Option Sharing :=
  (Party.act s.store s.slot (s.parties m.party) m.action).map fun q => s.put m.party q.1 q.2

/-- Follow a schedule. -/
def run (s : Sharing) : List Move → Option Sharing
  | [] => some s
  | m :: moves => (s.step m).bind fun s => s.run moves

/-- The party holds the slot. -/
def Holds (s : Sharing) (i : Nat) : Prop := (s.parties i).holds = true

def Coherent (s : Sharing) : Prop := ∀ i, (s.parties i).Coherent s.store

/-- At most one party holds the slot, and the slot is active exactly while one does. -/
structure Exclusive (s : Sharing) : Prop where
  single : ∀ i j, s.Holds i → s.Holds j → i = j
  active : s.slot.active = true ↔ ∃ i, s.Holds i

theorem parties_put (s : Sharing) (i : Nat) (slot : ReaderSlot) (p : Party) :
    (s.put i slot p).parties i = p := Function.update_self ..

theorem parties_put_of_ne (s : Sharing) {i j : Nat} (slot : ReaderSlot) (p : Party) (h : j ≠ i) :
    (s.put i slot p).parties j = s.parties j := Function.update_of_ne h ..

theorem step_eq_some {s s' : Sharing} {m : Move} (h : s.step m = some s') :
    ∃ slot p, Party.act s.store s.slot (s.parties m.party) m.action = some (slot, p) ∧
      s' = s.put m.party slot p := by
  obtain ⟨⟨slot, p⟩, hact, rfl⟩ := Option.map_eq_some_iff.1 h
  exact ⟨slot, p, hact, rfl⟩

section
variable {s s' : Sharing} {m : Move}

/-- Nobody else has moved. -/
theorem parties_step (h : s.step m = some s') {j : Nat} (hj : j ≠ m.party) :
    s'.parties j = s.parties j := by
  obtain ⟨slot, p, -, rfl⟩ := step_eq_some h
  exact parties_put_of_ne s slot p hj

theorem store_step (h : s.step m = some s') : s'.store = s.store := by
  obtain ⟨slot, p, -, rfl⟩ := step_eq_some h
  rfl

/-- What a move does, seen by all. -/
theorem acts_step (C : s.Coherent) (h : s.step m = some s') :
    Acts (fun slot => Party.act s.store slot (s.parties m.party) m.action) s.store.locator
      (s.parties m.party) s.slot s'.slot (s'.parties m.party) := by
  obtain ⟨slot, p, hact, rfl⟩ := step_eq_some h
  rw [parties_put]
  exact Party.acts_of_act (C m.party) hact

theorem coherent_step (C : s.Coherent) (h : s.step m = some s') : s'.Coherent := by
  intro i
  rw [store_step h]
  by_cases hi : i = m.party
  · obtain ⟨slot, p, hact, rfl⟩ := step_eq_some h
    rw [hi, parties_put]
    exact Party.coherent_act (C m.party) hact
  · rw [parties_step h hi]
    exact C i

/-- A move that changes nothing about who holds the slot. -/
theorem Exclusive.of_holds (E : s.Exclusive) (hslot : s'.slot = s.slot)
    (hholds : ∀ i, s'.Holds i ↔ s.Holds i) : s'.Exclusive where
  single := fun i j hi hj => E.single i j ((hholds i).1 hi) ((hholds j).1 hj)
  active := by
    rw [hslot, E.active]
    exact exists_congr fun i => (hholds i).symm

theorem holds_step_iff (h : s.step m = some s')
    (hm : (s'.parties m.party).holds = (s.parties m.party).holds) (i : Nat) :
    s'.Holds i ↔ s.Holds i := by
  unfold Holds
  by_cases hi : i = m.party
  · rw [hi, hm]
  · rw [parties_step h hi]

theorem exclusive_step (C : s.Coherent) (E : s.Exclusive) (h : s.step m = some s') :
    s'.Exclusive := by
  have hothers : ∀ {i}, i ≠ m.party → (s'.Holds i ↔ s.Holds i) := fun hi => by
    unfold Holds
    rw [parties_step h hi]
  generalize hp : s'.parties m.party = p
  generalize hslot : s'.slot = slot
  have A := acts_step C h
  rw [hp, hslot] at A
  cases A with
  | keeps _ holds => exact E.of_holds hslot (holds_step_iff h (hp ▸ holds))
  | refused waiting _ holds =>
    refine E.of_holds hslot (holds_step_iff h ?_)
    rw [hp, holds, Party.holds_of_waiting waiting]
  | claims _ free holds =>
    -- nobody has held the slot before
    have hnone : ∀ i, ¬ s.Holds i := fun i hi => by
      rw [E.active.2 ⟨i, hi⟩] at free; cases free
    have hmine : ∀ {i}, s'.Holds i → i = m.party := fun {i} hi =>
      Decidable.byContradiction fun hne => hnone i ((hothers hne).1 hi)
    refine ⟨fun i j hi hj => (hmine hi).trans (hmine hj).symm, ?_⟩
    rw [hslot]
    exact ⟨fun _ => ⟨m.party, (congrArg Party.holds hp).trans holds⟩, fun _ => rfl⟩
  | releases _ holds released =>
    -- nobody else has held the slot before
    have hnone : ∀ i, ¬ s'.Holds i := fun i hi => by
      by_cases hne : i = m.party
      · rw [hne, Holds, hp, released] at hi; cases hi
      · exact hne (E.single i m.party ((hothers hne).1 hi) holds)
    refine ⟨fun i j hi => absurd hi (hnone i), ?_⟩
    rw [hslot]
    exact ⟨nofun, fun ⟨i, hi⟩ => absurd hi (hnone i)⟩

end

/-! ### Schedules -/

theorem coherent_ofStore (store : Store) : (ofStore store).Coherent := fun _ => trivial

theorem exclusive_ofStore (store : Store) : (ofStore store).Exclusive where
  single := fun _ _ hi => by cases hi
  active := ⟨nofun, fun ⟨_, hi⟩ => by cases hi⟩

theorem run_append (moves more : List Move) (s : Sharing) :
    s.run (moves ++ more) = (s.run moves).bind fun s => s.run more := by
  induction moves generalizing s with
  | nil => rfl
  | cons m moves ih =>
    simp only [List.cons_append, run, Option.bind_assoc]
    exact congrArg _ (funext ih)

theorem exclusive_run : ∀ (moves : List Move) {s s' : Sharing}, s.Coherent → s.Exclusive →
    s.run moves = some s' → s'.Coherent ∧ s'.Exclusive ∧ s'.store = s.store
  | [], s, s', C, E, h => by cases h; exact ⟨C, E, rfl⟩
  | m :: moves, s, s', C, E, h => by
    obtain ⟨s₁, h₁, h₂⟩ := Option.bind_eq_some_iff.1 h
    obtain ⟨C', E', hs⟩ := exclusive_run moves (coherent_step C h₁) (exclusive_step C E h₁) h₂
    exact ⟨C', E', hs.trans (store_step h₁)⟩

/-! ### Alone at the store -/

/-- The party fares in `s` as in `t`, where nobody else holds the slot. -/
structure Alone (i : Nat) (s t : Sharing) : Prop where
  store : t.store = s.store
  party : t.parties i = s.parties i
  slot : t.slot.active = (s.parties i).holds

/-- The party does not hold the slot, and cannot come to hold it. -/
def Outside (s : Sharing) (i : Nat) : Prop :=
  (s.parties i).holds = false ∧ (s.parties i).waiting = false

section
variable {s s' t : Sharing} {m : Move} {i : Nat}

theorem alone_other (A : Alone i s t) (h : s.step m = some s') (hi : i ≠ m.party) :
    Alone i s' t where
  store := A.store.trans (store_step h).symm
  party := A.party.trans (parties_step h hi).symm
  slot := by rw [A.slot, parties_step h hi]

/-- The party makes the same move alone, unless it is refused because somebody else holds the slot. -/
theorem alone_step (C : s.Coherent) (A : Alone m.party s t) (h : s.step m = some s') :
    (∃ t', t.step m = some t' ∧ Alone m.party s' t') ∨
      (s.parties m.party).waiting = true ∧ s'.Outside m.party := by
  have hmove : ∀ {slot}, Party.act s.store t.slot (s.parties m.party) m.action =
      some (slot, s'.parties m.party) → slot.active = (s'.parties m.party).holds →
      ∃ t', t.step m = some t' ∧ Alone m.party s' t' := by
    intro slot hact hslot
    refine ⟨t.put m.party slot (s'.parties m.party), ?_, A.store.trans (store_step h).symm,
      parties_put .., hslot⟩
    rw [step, A.store, A.party, hact]
    rfl
  obtain ⟨slot₁, p₁, hact₁, hs'⟩ := step_eq_some h
  generalize hp : s'.parties m.party = p at hmove ⊢
  generalize hslot : s'.slot = slot
  have B := acts_step C h
  rw [hp, hslot] at B
  cases B with
  | keeps anywhere holds => exact .inl (hmove (anywhere _) (A.slot.trans holds.symm))
  | refused waiting _ holds barred =>
    exact .inr ⟨waiting, by rw [Outside, hp]; exact ⟨holds, barred⟩⟩
  | releases anywhere _ released => exact .inl (hmove (anywhere _) released.symm)
  | claims waiting free holds =>
    -- both slots are free, so it is the same claim
    have htfree : t.slot.active = false := A.slot.trans (Party.holds_of_waiting waiting)
    have heq : t.slot = s.slot := ReaderSlot.ext_active (htfree.trans free.symm)
    subst hs'
    rw [parties_put] at hp
    subst hp
    refine .inl (hmove (by rw [heq]; exact hact₁) ?_)
    exact (congrArg ReaderSlot.active hslot).trans holds.symm

theorem outside_step (C : s.Coherent) (O : s.Outside i) (h : s.step m = some s') : s'.Outside i := by
  by_cases hi : i = m.party
  · subst hi
    generalize hp : s'.parties m.party = p
    generalize hslot : s'.slot = slot
    have B := acts_step C h
    rw [hp, hslot] at B
    rw [Outside, hp]
    cases B with
    | keeps _ holds waiting =>
      exact ⟨holds.trans O.1, Bool.eq_false_iff.2 fun hw => by
        rw [O.2] at waiting; exact absurd (waiting hw) nofun⟩
    | claims waiting => rw [O.2] at waiting; cases waiting
    | refused _ _ holds barred => exact ⟨holds, barred⟩
    | releases _ _ released barred => exact ⟨released, barred⟩
  · rw [Outside, parties_step h hi]
    exact O

theorem outside_run : ∀ (moves : List Move) {s s' : Sharing}, s.Coherent → s.Outside i →
    s.run moves = some s' → s'.Outside i
  | [], _, _, _, O, h => by cases h; exact O
  | m :: moves, s, s', C, O, h => by
    obtain ⟨s₁, h₁, h₂⟩ := Option.bind_eq_some_iff.1 h
    exact outside_run moves (coherent_step C h₁) (outside_step C O h₁) h₂

/-- A party fares as it would alone with its own moves, or its claim has been refused. -/
theorem alone_run : ∀ (moves : List Move) {i : Nat} {s s' t : Sharing}, s.Coherent →
    Alone i s t → s.run moves = some s' →
    (∃ t', t.run (moves.filter (·.party == i)) = some t' ∧ Alone i s' t') ∨
      (s.parties i).waiting = true ∧ s'.Outside i
  | [], i, s, s', t, _, A, h => by cases h; exact .inl ⟨t, rfl, A⟩
  | m :: moves, i, s, s', t, C, A, h => by
    obtain ⟨s₁, h₁, h₂⟩ := Option.bind_eq_some_iff.1 h
    have C₁ := coherent_step C h₁
    by_cases hi : m.party = i
    · subst hi
      rw [List.filter_cons_of_pos (by simp)]
      rcases alone_step C A h₁ with ⟨t₁, ht, A₁⟩ | ⟨hw, O⟩
      · simp only [run, ht, Option.bind_some]
        refine (alone_run moves C₁ A₁ h₂).imp_right fun ⟨hw, O⟩ => ⟨?_, O⟩
        obtain ⟨slot, p, hact, rfl⟩ := step_eq_some h₁
        rw [parties_put] at hw
        exact Party.waiting_of_act (C m.party) hact hw
      · exact .inr ⟨hw, outside_run moves C₁ O h₂⟩
    · rw [List.filter_cons_of_neg (by simpa using hi)]
      rw [← parties_step h₁ (Ne.symm hi)]
      exact alone_run moves C₁ (alone_other A h₁ (Ne.symm hi)) h₂

end

/-! ### One reader -/

theorem alone_ofStore (store : Store) (i : Nat) : Alone i (ofStore store) (ofStore store) :=
  ⟨rfl, rfl, rfl⟩

/-- How the slot of a store stands to those who use it, and what the next move may do about it. -/
structure Guarded (s : Sharing) : Prop extends s.Exclusive where
  /-- Claiming the slot succeeds exactly when nobody holds it. -/
  acquires : ∀ locator, (∃ slot, s.slot.acquire locator = .ok slot) ↔ ∀ i, ¬ s.Holds i
  /-- Whoever asks for the slot while it is held is told so, and nothing else changes. -/
  refuses : ∀ m, (s.parties m.party).Asks s.store m.action → (∃ i, s.Holds i) →
    s.step m = some (s.put m.party s.slot ((s.parties m.party).refused s.store.locator))
  /-- Whoever asks for it while nobody holds it gets it. -/
  grants : ∀ m, (s.parties m.party).Asks s.store m.action → (∀ i, ¬ s.Holds i) →
    ∃ s', s.step m = some s' ∧ s'.Holds m.party
  /-- No move changes anything about the others, and none of them takes the slot from its holder. -/
  others : ∀ m s', s.step m = some s' → ∀ i, i ≠ m.party →
    s'.parties i = s.parties i ∧ (s.Holds i → s'.slot = s.slot ∧ s'.Holds i ∧ ¬ s'.Holds m.party)
  /-- Preparing a query has nothing to do with the slot. -/
  prepares : ∀ i query s', s.step ⟨i, .prepare query⟩ = some s' →
    s'.slot = s.slot ∧ ¬ s'.Holds i
  /-- Nobody holds the slot whose stream has ended or failed, or is dropped. -/
  released : ∀ i, (s.parties i).Over → ¬ s.Holds i
  /-- Whoever held it until then has given it back. -/
  frees : ∀ m s', s.step m = some s' → s.Holds m.party → (s'.parties m.party).Over →
    s'.slot = .free

theorem guarded_of_exclusive {s : Sharing} (C : s.Coherent) (E : s.Exclusive) : s.Guarded where
  toExclusive := E
  acquires := fun locator => by
    rw [ReaderSlot.acquire_isOk_iff, Bool.eq_false_iff, ne_eq, E.active, not_exists]
  refuses := fun m hasks hheld => by
    have hact := (Party.answered_of_asks (C m.party) hasks).1 (E.active.2 hheld)
    rw [step, hact]
    rfl
  grants := fun m hasks hnone => by
    have hfree : s.slot.active = false := Bool.eq_false_iff.2 fun ha =>
      (E.active.1 ha).elim hnone
    obtain ⟨p, hact, hp⟩ := (Party.answered_of_asks (C m.party) hasks).2 hfree
    refine ⟨_, by rw [step, hact]; rfl, ?_⟩
    rw [Holds, parties_put]
    exact hp
  others := fun m s' h i hi => by
    refine ⟨parties_step h hi, fun hheld => ?_⟩
    have E' := exclusive_step C E h
    have hheld' : s'.Holds i := by
      rw [Holds, parties_step h hi]
      exact hheld
    refine ⟨?_, hheld', fun hm => hi (E'.single i m.party hheld' hm)⟩
    exact ReaderSlot.ext_active ((E'.active.2 ⟨i, hheld'⟩).trans (E.active.2 ⟨i, hheld⟩).symm)
  prepares := fun i query s' h => by
    obtain ⟨slot, p, hact, rfl⟩ := step_eq_some h
    rw [Holds, parties_put]
    cases hp : s.parties i with
    | absent =>
      simp only [hp, Party.act] at hact
      split at hact <;> cases hact <;> exact ⟨rfl, Bool.false_ne_true⟩
    | prepared | opening | records | rows | filtered | failed | dropped =>
      simp only [hp, Party.act] at hact
      cases hact
  released := fun i hover hi => by
    rw [Holds, Party.holds_of_over (C i) hover] at hi
    cases hi
  frees := fun m s' h hheld hover => by
    have E' := exclusive_step C E h
    have hm : ¬ s'.Holds m.party := fun hm => by
      rw [Holds, Party.holds_of_over (coherent_step C h m.party) hover] at hm
      cases hm
    have hnone : ¬ ∃ i, s'.Holds i := by
      rintro ⟨i, hi⟩
      by_cases hne : i = m.party
      · exact hm (hne ▸ hi)
      · rw [Holds, parties_step h hne] at hi
        exact hne (E.single i m.party hi hheld)
    exact ReaderSlot.ext_active (Bool.eq_false_iff.2 fun ha => hnone (E'.active.1 ha))

/-- **One reader.** However many parties use an opened store, and however their moves and those of the
two sides of their scans follow one another: at most one of them holds the reader slot, which is
active exactly while one does; it goes to who asks for it while it is free, and no refusal and no
other move of somebody else takes it away; it is given back when a stream has reported its end or its
failure, or is dropped, or its reader has not started. And whatever the others do, who holds it has
fared and goes on to fare as alone at the store with the same moves of its own. -/
theorem one_reader (store : Store) (moves : List Move) {s : Sharing}
    (h : (ofStore store).run moves = some s) :
    s.Guarded ∧
      ∀ i, s.Holds i → ∀ more s', s.run more = some s' →
        ∃ t, (ofStore store).run ((moves ++ more).filter (·.party == i)) = some t ∧
          t.parties i = s'.parties i := by
  have C₀ := coherent_ofStore store
  obtain ⟨C, E, -⟩ := exclusive_run moves C₀ (exclusive_ofStore store) h
  refine ⟨guarded_of_exclusive C E, fun i hi more s' hmore => ?_⟩
  rw [List.filter_append, run_append]
  -- who holds the slot has not been refused it, and does not ask for it again
  rcases alone_run moves C₀ (alone_ofStore store i) h with ⟨t, ht, A⟩ | ⟨-, O⟩
  · rcases alone_run more C A hmore with ⟨t', ht', A'⟩ | ⟨hw, -⟩
    · exact ⟨t', by rw [ht]; exact ht', A'.party⟩
    · rw [Holds, Party.holds_of_waiting hw] at hi
      cases hi
  · rw [Holds, O.1] at hi
    cases hi

/-- Party 0 starts a filtered scan, whose producer claims the slot; party 1 wants to read at that
moment; the reader of party 0 starts, and party 2 starts a scan as well. -/
def sampleMoves : List Move :=
  [⟨0, .start Exchange.samplePlan 1⟩, ⟨0, .turn .producer⟩, ⟨1, .read 0⟩, ⟨0, .turn .producer⟩,
   ⟨2, .start Exchange.samplePlan 1⟩, ⟨0, .turn .pull⟩]

theorem one_reader_sample : ∃ s, (ofStore Exchange.sampleStore).run sampleMoves = some s ∧
    s.slot.active = true ∧ s.Holds 0 ∧
    s.parties 1 = .failed (.storageAt "sample" "reader already active") ∧ s.Guarded ∧
    ∀ more s', s.run more = some s' →
      ∃ t, (ofStore Exchange.sampleStore).run ((sampleMoves ++ more).filter (·.party == 0)) =
          some t ∧ t.parties 0 = s'.parties 0 := by
  obtain ⟨s, hrun, hactive, hholds, hrefused⟩ :
      ∃ s, (ofStore Exchange.sampleStore).run sampleMoves = some s ∧ s.slot.active = true ∧
        s.Holds 0 ∧ s.parties 1 = .failed (.storageAt "sample" "reader already active") :=
    ⟨_, rfl, rfl, rfl, rfl⟩
  obtain ⟨hguarded, halone⟩ := one_reader Exchange.sampleStore sampleMoves hrun
  exact ⟨s, hrun, hactive, hholds, hrefused, hguarded, halone 0 hholds⟩

end Sharing
end SymbolTables
