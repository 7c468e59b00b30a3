import Mathlib.Logic.Function.Basic
import SymbolTables.Access.Session
import SymbolTables.Proofs.Scan.Progress

/-!
# Parties at a store

A party is one use of an opened store: it prepares a query, reads the records of a symbol, or scans a
plan. A move is what goes on without anybody else seeing what is between: claiming the slot is a move,
and starting the reader that it was claimed for is another one.

* `Store.readRaw_eq`, `Store.release_of_claim`: reading is these two moves, and giving the claim back
  when the reader does not start leaves the slot as it was.
* `Party.acts_of_act`: a move leaves the slot alone, claims it, is refused it, or gives it back.
* `Party.coherent_act`: what the parts of a party have to do with one another.
* `Party.holds_of_over`: a party that is over does not hold the slot.
* `Party.answered_of_asks`: who asks for the slot gets it while it is free, and is refused otherwise.
-/
namespace SymbolTables

namespace Store

/-- Claim the slot for a reader of a symbol. -/
def claim (s : Store) (slot : ReaderSlot) (nr : Nat) : Except Failure ReaderSlot := do
  let _ ← s.symbolInfo nr
  slot.acquire s.locator

/-- Reading is claiming the slot and then starting a reader. -/
theorem readRaw_eq (s : Store) (slot : ReaderSlot) (nr : Nat) :
    s.readRaw slot nr = (do
      let slot ← s.claim slot nr
      let reader ← s.start nr
      return (reader, slot)) := by
  unfold readRaw claim
  cases s.symbolInfo nr <;> rfl

theorem claim_cases (s : Store) (nr : Nat) :
    (∃ f, ∀ slot, s.claim slot nr = .error f) ∨
      (∃ symbol, s.symbolInfo nr = .ok symbol) ∧ ∀ slot, s.claim slot nr = slot.acquire s.locator := by
  unfold claim
  cases s.symbolInfo nr with
  | error f => exact .inl ⟨f, fun _ => rfl⟩
  | ok symbol => exact .inr ⟨⟨symbol, rfl⟩, fun _ => rfl⟩

end Store

namespace ReaderSlot

/-- What is reported when the slot is taken. -/
def taken (locator : String) : Failure := .storageAt locator "reader already active"

theorem ext_active {a b : ReaderSlot} (h : a.active = b.active) : a = b := by
  cases a; cases b; cases h; rfl

theorem acquire_of_active {slot : ReaderSlot} (h : slot.active = true) (locator : String) :
    slot.acquire locator = .error (taken locator) := by
  simp [acquire, h, taken]

theorem acquire_of_free {slot : ReaderSlot} (h : slot.active = false) (locator : String) :
    slot.acquire locator = .ok ⟨true⟩ := by
  simp [acquire, h]

end ReaderSlot

/-- A reader that does not start gives the slot back as it was before it was claimed. -/
theorem Store.release_of_claim {s : Store} {slot slot' : ReaderSlot} {nr : Nat}
    (h : s.claim slot nr = .ok slot') : slot'.release = slot := by
  rcases s.claim_cases nr with ⟨f, hf⟩ | ⟨-, hc⟩
  · rw [hf] at h; cases h
  · rw [hc] at h
    obtain ⟨active⟩ := slot
    obtain rfl : active = false := (ReaderSlot.active_of_acquire h).1
    rfl

/-! ## Parties -/

/-- The producer holds a reader. -/
def Producer.holds : Producer → Bool
  | .reading .. | .pulled .. | .matched .. | .sending .. => true
  | .starting _ | .leaving _ | .gone _ => false

/-- The producer has not asked for a reader yet. -/
def Producer.waiting : Producer → Bool
  | .starting _ => true
  | .reading .. | .pulled .. | .matched .. | .sending .. | .leaving _ | .gone _ => false

/-- Who uses a store, and how far it has come. The answers are those to its pulls so far. -/
inductive Party
  /-- Has not asked for anything. -/
  | absent
  /-- Has prepared a query. -/
  | prepared (query : PreparedQuery)
  /-- Has claimed the slot and is about to start a reader, for the records of a symbol or for a scan.
  -/
  | opening (symbol : Nat) (decoder : Option Decoder)
  | records (reader : OpenReader) (answers : List (Option Pull))
  | rows (scan : SequentialScan) (answers : List (Option Item))
  /-- A filtered scan; `claimed` says that its producer has claimed the slot and is about to start the
  reader. -/
  | filtered (claimed : Bool) (scan : FilteredScan) (answers : List (Option Item))
  /-- What it asked for has failed. -/
  | failed (f : Failure)
  | dropped

/-- What a party does next. -/
inductive Action
  | prepare (query : Query)
  /-- Claim the slot for the records of a symbol. -/
  | read (symbol : Nat)
  /-- Start a stream of a plan. -/
  | start (plan : ScanPlan) (capacity : Nat)
  /-- Start a stream of the query it has prepared. -/
  | scan (capacity : Nat)
  /-- Start the reader it has claimed the slot for. -/
  | launch
  /-- Pull or drop what it has, or let the producer or the consumer of its scan take a step. -/
  | turn (t : Turn)

namespace Party

/-- The party has a reader. -/
def hasReader : Party → Bool
  | .records .. => true
  | .rows scan _ => scan.reader.isSome
  | .filtered _ scan _ => scan.producer.holds
  | .absent | .prepared _ | .opening .. | .failed _ | .dropped => false

/-- The party has claimed the slot for a reader that is about to start. -/
def claiming : Party → Bool
  | .opening .. => true
  | .filtered claimed _ _ => claimed
  | .absent | .prepared _ | .records .. | .rows .. | .failed _ | .dropped => false

/-- The party holds the slot. -/
def holds (p : Party) : Bool := p.hasReader || p.claiming

/-- The party may still ask for the slot. -/
def waiting : Party → Bool
  | .absent | .prepared _ => true
  | .filtered claimed scan _ => !claimed && scan.producer.waiting
  | .opening .. | .records .. | .rows .. | .failed _ | .dropped => false

/-- What comes of a party whose claim is refused. -/
def refused (locator : String) : Party → Party
  | .filtered claimed scan answers =>
    .filtered claimed (scan.leave (.failed (ReaderSlot.taken locator))) answers
  | _ => .failed (ReaderSlot.taken locator)

/-! ### Moves -/

/-- Claim the slot. -/
def claim (store : Store) (slot : ReaderSlot) (nr : Nat) (decoder : Option Decoder) :
    ReaderSlot × Party :=
  match store.claim slot nr with
  | .error f => (slot, .failed f)
  | .ok slot => (slot, .opening nr decoder)

/-- Start a stream. A filtered scan claims the slot when its producer starts. -/
def start (store : Store) (slot : ReaderSlot) (plan : ScanPlan) (capacity : Nat) :
    ReaderSlot × Party :=
  match Decoder.ofPlan store plan with
  | .error f => (slot, .failed f)
  | .ok decoder =>
    if plan.filtered then (slot, .filtered false (.start store plan decoder (max capacity 1)) [])
    else claim store slot plan.symbol (some decoder)

/-- Start the reader that the slot was claimed for. -/
def launch (store : Store) (slot : ReaderSlot) (nr : Nat) (decoder : Option Decoder) :
    ReaderSlot × Party :=
  match store.start nr, decoder with
  | .error f, _ => (slot.release, .failed f)
  | .ok reader, none => (slot, .records ⟨nr, reader, 0⟩ [])
  | .ok reader, some decoder => (slot, .rows ⟨some reader, decoder⟩ [])

/-- The producer of a filtered scan claims the slot, and then starts its reader. -/
def beginReading (slot : ReaderSlot) (claimed : Bool) (scan : FilteredScan) (decoder : Decoder) :
    ReaderSlot × Bool × FilteredScan :=
  if claimed then
    match scan.store.start scan.symbol with
    | .error f => (slot.release, false, scan.leave (.failed f))
    | .ok reader => (slot, false, { scan with producer := .reading reader decoder })
  else
    match scan.store.claim slot scan.symbol with
    | .error f => (slot, false, scan.leave (.failed f))
    | .ok slot => (slot, true, scan)

/-- A turn of a filtered scan: that of an exchange, but for the beginning of its reading. -/
def take (slot : ReaderSlot) (claimed : Bool) (scan : FilteredScan) (answers : List (Option Item))
    (t : Turn) : Option (ReaderSlot × Party) :=
  match t, scan.producer with
  | .producer, .starting decoder =>
    let (slot, claimed, scan) := beginReading slot claimed scan decoder
    some (slot, .filtered claimed scan answers)
  | t, _ =>
    (Exchange.step ⟨slot, scan, answers⟩ t).map fun e =>
      (e.slot, .filtered claimed e.scan e.answers)

/-- One move of a party; none if it cannot be made. -/
def act (store : Store) (slot : ReaderSlot) : Party → Action → Option (ReaderSlot × Party)
  | .absent, .prepare query =>
    match PreparedQuery.ofQuery store query with
    | .error f => some (slot, .failed f)
    | .ok p => some (slot, .prepared p)
  | .absent, .read nr => some (claim store slot nr none)
  | .absent, .start plan capacity => some (start store slot plan capacity)
  | .prepared p, .scan capacity => some (start store slot p.plan capacity)
  | .opening nr decoder, .launch => some (launch store slot nr decoder)
  | .records reader answers, .turn .pull =>
    let (pull, reader) := reader.pull store
    some (slot, .records reader (answers ++ [pull]))
  | .records _ _, .turn .drop => some (slot.release, .dropped)
  | .rows scan answers, .turn .pull =>
    let (item, slot, scan) := scan.next slot
    some (slot, .rows scan (answers ++ [item]))
  | .rows scan _, .turn .drop => some (scan.drop slot, .dropped)
  | .filtered claimed scan answers, .turn t => take slot claimed scan answers t
  | _, _ => none

end Party

/-! ## What a filtered scan keeps -/

/-- The answer says that a stream is over. -/
def EndsStream (answer : Option Item) : Prop := answer = none ∨ ∃ f, answer = some (.failed f)

/-- A filtered scan of a store with the answers it has given. -/
structure Attended (store : Store) (claimed : Bool) (scan : FilteredScan)
    (answers : List (Option Item)) : Prop where
  orderly : scan.Orderly
  ofStore : scan.store = store
  symbol : ∃ symbol, store.symbolInfo scan.symbol = .ok symbol
  /-- The slot is claimed while the producer is about to start, and not later. -/
  starting : claimed = true → scan.producer.waiting = true
  /-- When the end is reported the producer has been joined. -/
  ended : (∃ answer ∈ answers, EndsStream answer) → scan.joined = true

/-- How the parts of a party stand to one another. -/
def Party.Coherent (store : Store) : Party → Prop
  | .rows scan answers => (∃ answer ∈ answers, EndsStream answer) → scan.reader = none
  | .filtered claimed scan answers => Attended store claimed scan answers
  | .absent | .prepared _ | .opening .. | .records .. | .failed _ | .dropped => True

theorem Producer.holds_of_waiting {p : Producer} (h : p.waiting = true) : p.holds = false := by
  cases p <;> simp_all [waiting, holds]

namespace Party

@[simp] theorem holds_rows (scan : SequentialScan) (answers : List (Option Item)) :
    (rows scan answers).holds = scan.reader.isSome := Bool.or_false _

@[simp] theorem holds_filtered (claimed : Bool) (scan : FilteredScan) (answers : List (Option Item)) :
    (filtered claimed scan answers).holds = (scan.producer.holds || claimed) := rfl

@[simp] theorem waiting_filtered (claimed : Bool) (scan : FilteredScan)
    (answers : List (Option Item)) :
    (filtered claimed scan answers).waiting = (!claimed && scan.producer.waiting) := rfl

theorem holds_of_waiting {p : Party} (h : p.waiting = true) : p.holds = false := by
  cases p with
  | filtered claimed scan answers =>
    simp only [waiting_filtered, Bool.and_eq_true, Bool.not_eq_true'] at h
    simp [h.1, Producer.holds_of_waiting h.2]
  | absent | prepared => rfl
  | opening | records | rows | failed | dropped => cases h

end Party

namespace FilteredScan

/-- What a step of a producer that has started does about the slot: nothing, or it gives the slot
back together with the reader. -/
theorem producerStep_slot {slot slot' : ReaderSlot} {s s' : FilteredScan}
    (hs : s.producer.waiting = false) (h : producerStep slot s = some (slot', s')) :
    s'.producer.waiting = false ∧
      (slot' = slot ∧ s'.producer.holds = s.producer.holds ∧
          (∀ slot, producerStep slot s = some (slot, s')) ∨
        slot' = .free ∧ s.producer.holds = true ∧ s'.producer.holds = false ∧
          ∀ slot, producerStep slot s = some (.free, s')) := by
  unfold producerStep at h ⊢
  repeat' split at h
  all_goals cases h
  all_goals simp_all [leave, Producer.holds, Producer.waiting, ReaderSlot.release]

end FilteredScan

/-! ## What a move does about the slot -/

/-- The moves that `f` allows a party at each state of the slot, by what they do about it. Only asking
for the slot depends on whether it is taken. -/
inductive Acts (f : ReaderSlot → Option (ReaderSlot × Party)) (locator : String) (p : Party)
    (slot : ReaderSlot) : ReaderSlot → Party → Prop
  | keeps {p' : Party} (anywhere : ∀ slot, f slot = some (slot, p')) (holds : p'.holds = p.holds)
      (waiting : p'.waiting = true → p.waiting = true) : Acts f locator p slot slot p'
  | claims {p' : Party} (waiting : p.waiting = true) (free : slot.active = false)
      (holds : p'.holds = true) : Acts f locator p slot ⟨true⟩ p'
  | refused (waiting : p.waiting = true) (active : slot.active = true)
      (holds : (p.refused locator).holds = false) (barred : (p.refused locator).waiting = false) :
      Acts f locator p slot slot (p.refused locator)
  | releases {p' : Party} (anywhere : ∀ slot, f slot = some (.free, p')) (holds : p.holds = true)
      (released : p'.holds = false) (barred : p'.waiting = false) : Acts f locator p slot .free p'

namespace Party

section
variable {store : Store} {slot slot' : ReaderSlot} {p p' : Party}

theorem acts_claim {nr : Nat} {decoder : Option Decoder} (hw : p.waiting = true)
    (hr : p.refused store.locator = .failed (ReaderSlot.taken store.locator))
    (h : claim store slot nr decoder = (slot', p')) :
    Acts (fun slot => some (claim store slot nr decoder)) store.locator p slot slot' p' := by
  rcases store.claim_cases nr with ⟨f, hf⟩ | ⟨-, hc⟩
  · have hclaim : ∀ slot, claim store slot nr decoder = (slot, .failed f) := fun slot => by
      simp only [claim, hf]
    rw [hclaim] at h
    cases h
    exact .keeps (fun slot => by rw [hclaim]) (holds_of_waiting hw).symm nofun
  · unfold claim at h
    rw [hc] at h
    cases ha : slot.active with
    | true =>
      rw [ReaderSlot.acquire_of_active ha] at h
      cases h
      rw [← hr]
      exact .refused hw ha (by rw [hr]; rfl) (by rw [hr]; rfl)
    | false =>
      rw [ReaderSlot.acquire_of_free ha] at h
      cases h
      exact .claims hw ha rfl

theorem acts_start {plan : ScanPlan} {capacity : Nat} (hw : p.waiting = true)
    (hr : p.refused store.locator = .failed (ReaderSlot.taken store.locator))
    (h : start store slot plan capacity = (slot', p')) :
    Acts (fun slot => some (start store slot plan capacity)) store.locator p slot slot' p' := by
  unfold start at h ⊢
  cases hd : Decoder.ofPlan store plan with
  | error f =>
    rw [hd] at h
    cases h
    exact .keeps (fun _ => rfl) (holds_of_waiting hw).symm nofun
  | ok decoder =>
    simp only [hd] at h ⊢
    split at h
    · rename_i hf
      cases h
      exact .keeps (fun _ => by simp only [hf, if_true]) (holds_of_waiting hw).symm fun _ => hw
    · rename_i hf
      simp only [hf]
      exact acts_claim hw hr h

theorem acts_launch {nr : Nat} {decoder : Option Decoder}
    (h : launch store slot nr decoder = (slot', p')) :
    Acts (fun slot => some (launch store slot nr decoder)) store.locator (.opening nr decoder) slot
      slot' p' := by
  unfold launch at h ⊢
  cases hs : store.start nr with
  | error f =>
    simp only [hs] at h ⊢
    cases h
    exact .releases (fun _ => rfl) rfl rfl rfl
  | ok reader =>
    simp only [hs] at h ⊢
    cases decoder with
    | none => cases h; exact .keeps (fun _ => rfl) rfl nofun
    | some decoder => cases h; exact .keeps (fun _ => rfl) rfl nofun

theorem acts_next {scan : SequentialScan} {answers : List (Option Item)}
    (h : act store slot (.rows scan answers) (.turn .pull) = some (slot', p')) :
    Acts (fun slot => act store slot (.rows scan answers) (.turn .pull)) store.locator
      (.rows scan answers) slot slot' p' := by
  simp only [act, SequentialScan.next] at h ⊢
  cases hr : scan.reader with
  | none =>
    simp only [hr] at h ⊢
    cases h
    exact .keeps (fun _ => rfl) rfl nofun
  | some reader =>
    simp only [hr] at h ⊢
    generalize SequentialScan.advance scan.decoder reader = a at h ⊢
    obtain ⟨item, rest, decoder⟩ := a
    cases rest with
    | none =>
      cases h
      exact .releases (fun _ => rfl) (by simp [hr]) rfl rfl
    | some rest =>
      cases h
      exact .keeps (fun _ => rfl) (by simp [hr]) nofun

theorem acts_dropRows {scan : SequentialScan} {answers : List (Option Item)}
    (h : act store slot (.rows scan answers) (.turn .drop) = some (slot', p')) :
    Acts (fun slot => act store slot (.rows scan answers) (.turn .drop)) store.locator
      (.rows scan answers) slot slot' p' := by
  simp only [act, SequentialScan.drop] at h ⊢
  cases hr : scan.reader with
  | none =>
    simp only [hr, Option.isSome_none, Bool.false_eq_true, if_false] at h ⊢
    cases h
    exact .keeps (fun _ => rfl) (by simp [hr, holds, hasReader, claiming]) nofun
  | some reader =>
    simp only [hr, Option.isSome_some, if_true] at h ⊢
    cases h
    exact .releases (fun _ => rfl) (by simp [hr]) rfl rfl

/-- A filtered scan whose producer is about to start claims the slot, or starts the reader it has
claimed it for. -/
theorem acts_beginReading {claimed : Bool} {scan : FilteredScan} {answers : List (Option Item)}
    {decoder : Decoder} (hp : scan.producer = .starting decoder)
    (h : take slot claimed scan answers .producer = some (slot', p')) :
    Acts (fun slot => take slot claimed scan answers .producer) scan.store.locator
      (.filtered claimed scan answers) slot slot' p' := by
  simp only [take, hp] at h ⊢
  cases claimed with
  | true =>
    simp only [beginReading, if_true] at h ⊢
    cases hs : scan.store.start scan.symbol with
    | error f =>
      simp only [hs] at h ⊢
      cases h
      exact .releases (fun _ => rfl) (Bool.or_true _) rfl rfl
    | ok reader =>
      simp only [hs] at h ⊢
      cases h
      exact .keeps (fun _ => rfl) (Bool.or_true _).symm nofun
  | false =>
    simp only [beginReading, Bool.false_eq_true, if_false] at h ⊢
    have hw : (Party.filtered false scan answers).waiting = true := by
      simp [waiting, Producer.waiting, hp]
    rcases scan.store.claim_cases scan.symbol with ⟨f, hf⟩ | ⟨-, hc⟩
    · simp only [hf] at h ⊢
      cases h
      exact .keeps (fun _ => rfl) (holds_of_waiting hw).symm nofun
    · simp only [hc] at h ⊢
      cases ha : slot.active with
      | true =>
        rw [ReaderSlot.acquire_of_active ha] at h
        cases h
        exact .refused hw ha rfl rfl
      | false =>
        rw [ReaderSlot.acquire_of_free ha] at h
        cases h
        exact .claims hw ha (Bool.or_true _)

/-- A turn begins the reading of a filtered scan, or it does not. -/
theorem begins_or_started (scan : FilteredScan) (t : Turn) :
    (∃ decoder, t = .producer ∧ scan.producer = .starting decoder) ∨
      (t = .producer → scan.producer.waiting = false) := by
  cases hp : scan.producer with
  | starting decoder =>
    cases t with
    | producer => exact .inl ⟨decoder, rfl, rfl⟩
    | consumer | pull | drop => exact .inr nofun
  | reading | pulled | matched | sending | leaving | gone => exact .inr fun _ => rfl

/-- A turn of a filtered scan that does not begin its reading. -/
theorem take_of_started {claimed : Bool} {scan : FilteredScan} {answers : List (Option Item)}
    {t : Turn} (h : t = .producer → scan.producer.waiting = false) (slot : ReaderSlot) :
    take slot claimed scan answers t = (Exchange.step ⟨slot, scan, answers⟩ t).map fun e =>
      (e.slot, .filtered claimed e.scan e.answers) := by
  unfold take
  split
  · rename_i hp
    have := h rfl
    rw [hp] at this
    cases this
  · rfl

theorem acts_take {claimed : Bool} {scan : FilteredScan} {answers : List (Option Item)} {t : Turn}
    (A : Attended store claimed scan answers)
    (h : take slot claimed scan answers t = some (slot', p')) :
    Acts (fun slot => take slot claimed scan answers t) store.locator
      (.filtered claimed scan answers) slot slot' p' := by
  rcases begins_or_started scan t with ⟨decoder, rfl, hp⟩ | hstarted
  · rw [← A.ofStore]
    exact acts_beginReading hp h
  simp only [take_of_started hstarted] at h ⊢
  cases t with
  | producer =>
    have hs := hstarted rfl
    have hclaimed : claimed = false := Bool.eq_false_iff.2 fun hc => by
      rw [A.starting hc] at hs; cases hs
    subst hclaimed
    simp only [Exchange.step, Option.map_map, Option.map_eq_some_iff] at h ⊢
    obtain ⟨⟨slot₁, scan'⟩, hstep, hpair⟩ := h
    cases hpair
    obtain ⟨hw, ⟨rfl, hh, hall⟩ | ⟨rfl, hh, hh', hall⟩⟩ := FilteredScan.producerStep_slot hs hstep
    · exact .keeps (fun slot => by rw [hall]; rfl) (by simp [hh]) (by simp [hw])
    · exact .releases (fun slot => by rw [hall]; rfl) (by simp [hh]) (by simp [hh']) (by simp [hw])
  | consumer =>
    simp only [Exchange.step, Option.map_map, Option.map_eq_some_iff] at h ⊢
    obtain ⟨⟨answer, scan'⟩, hstep, hpair⟩ := h
    cases hpair
    have hp := (Exchange.rank_serving (FilteredScan.serving_of_step hstep)).1
    exact .keeps (fun slot => by rw [hstep]; rfl) (by simp [hp]) (by simp [hp])
  | pull =>
    simp only [Exchange.step] at h ⊢
    split at h
    · rename_i hi
      cases h
      exact .keeps (fun slot => by simp only [hi, if_true]; rfl) rfl id
    · cases h
  | drop =>
    simp only [Exchange.step] at h ⊢
    split at h
    · rename_i hi
      cases h
      exact .keeps (fun slot => by simp only [hi, if_true]; rfl) rfl id
    · cases h

/-- **One move.** Every move leaves the slot alone, claims it while it is free, is refused while it is
taken, or gives it back. -/
theorem acts_of_act (C : p.Coherent store) {a : Action} (h : act store slot p a = some (slot', p')) :
    Acts (fun slot => act store slot p a) store.locator p slot slot' p' := by
  cases p with
  | absent =>
    cases a with
    | prepare query =>
      simp only [act] at h ⊢
      cases hq : PreparedQuery.ofQuery store query with
      | error f =>
        simp only [hq] at h ⊢
        cases h
        exact .keeps (fun _ => rfl) rfl nofun
      | ok q =>
        simp only [hq] at h ⊢
        cases h
        exact .keeps (fun _ => rfl) rfl fun _ => rfl
    | read nr => exact acts_claim rfl rfl (Option.some.inj h)
    | start plan capacity => exact acts_start rfl rfl (Option.some.inj h)
    | scan | launch | turn => cases h
  | prepared q =>
    cases a with
    | scan capacity => exact acts_start rfl rfl (Option.some.inj h)
    | prepare | read | start | launch | turn => cases h
  | opening nr decoder =>
    cases a with
    | launch => exact acts_launch (Option.some.inj h)
    | prepare | read | start | scan | turn => cases h
  | records reader answers =>
    cases a with
    | turn t =>
      cases t with
      | pull => cases h; exact .keeps (fun _ => rfl) rfl nofun
      | drop => cases h; exact .releases (fun _ => rfl) rfl rfl rfl
      | producer | consumer => cases h
    | prepare | read | start | scan | launch => cases h
  | rows scan answers =>
    cases a with
    | turn t =>
      cases t with
      | pull => exact acts_next h
      | drop => exact acts_dropRows h
      | producer | consumer => cases h
    | prepare | read | start | scan | launch => cases h
  | filtered claimed scan answers =>
    cases a with
    | turn t => exact acts_take C h
    | prepare | read | start | scan | launch => cases h
  | failed | dropped => cases a <;> cases h

theorem waiting_of_act (C : p.Coherent store) {a : Action}
    (h : act store slot p a = some (slot', p')) (hw : p'.waiting = true) : p.waiting = true := by
  cases acts_of_act C h with
  | keeps _ _ waiting => exact waiting hw
  | claims waiting => exact waiting
  | refused waiting => exact waiting
  | releases _ _ _ barred => rw [barred] at hw; cases hw

end
end Party

/-! ## What a move keeps -/

/-- A pull that reports the end of a sequential scan has dropped the reader. -/
theorem SequentialScan.advance_over :
    ∀ (reader : Reader) (d : Decoder), EndsStream (advance d reader).1 →
      (advance d reader).2.1 = none
  | [], _, _ => rfl
  | .failed _ :: _, _, _ => rfl
  | .crashed :: _, _, h => by rcases h with h | ⟨f, h⟩ <;> cases h
  | .record r :: rest, d, h => by
    unfold advance at h ⊢
    generalize d.decode r = a at h ⊢
    obtain ⟨result, d'⟩ := a
    cases result with
    | ok row => rcases h with h | ⟨f, h⟩ <;> cases h
    | error e =>
      cases e with
      | discarded => exact advance_over rest d' h
      | failed f => rfl
      | outsideLayout => rcases h with h | ⟨f, h⟩ <;> cases h

/-- A producer that has not gone may come to be anywhere else. -/
theorem FilteredScan.Orderly.withProducer {s : FilteredScan} (O : s.Orderly) (h : ¬ s.Gone)
    (p : Producer) : { s with producer := p }.Orderly where
  flag := O.flag
  listens := O.listens
  joins := fun hw => absurd (O.joins hw).2.2 h
  closes := O.closes
  drops := O.drops
  joined := fun hj => absurd (O.joined hj) h
  empty := O.empty
  room := O.room

namespace Exchange

theorem step_frame {e e' : Exchange} {t : Turn} (h : e.step t = some e') :
    e'.scan.store = e.scan.store ∧ e'.scan.symbol = e.scan.symbol := by
  cases taken_of_step h with
  | producer slot scan stepped =>
    rw [FilteredScan.producerStep_frame stepped]
    exact ⟨rfl, rfl⟩
  | consumer answer scan serving => cases serving <;> exact ⟨rfl, rfl⟩
  | pull | drop => exact ⟨rfl, rfl⟩

/-- The end is reported when the producer is joined, and behind it. -/
theorem ended_step {e e' : Exchange} {t : Turn} (h : e.step t = some e')
    (he : (∃ answer ∈ e.answers, EndsStream answer) → e.scan.joined = true) :
    (∃ answer ∈ e'.answers, EndsStream answer) → e'.scan.joined = true := by
  cases taken_of_step h with
  | producer slot scan stepped =>
    rw [FilteredScan.producerStep_frame stepped]
    exact he
  | consumer answer scan serving =>
    rintro ⟨a, ha, hends⟩
    cases serving with
    | ended _ _ hj | closed _ hj => exact hj
    | join | reap => rfl
    | turn | dry | close =>
      simp only [Option.toList_none, ite_self, List.append_nil] at ha
      exact he ⟨a, ha, hends⟩
    | row row =>
      rcases List.mem_append.1 ha with ha | ha
      · exact he ⟨a, ha, hends⟩
      · -- a row is not the end
        split at ha
        · cases ha
        · rcases List.mem_singleton.1 ha with rfl
          rcases hends with hends | ⟨f, hends⟩ <;> cases hends
  | pull | drop => exact he

end Exchange

namespace Party

section
variable {store : Store} {slot slot' : ReaderSlot} {p p' : Party}

theorem symbol_of_decoder {plan : ScanPlan} {decoder : Decoder}
    (hd : Decoder.ofPlan store plan = .ok decoder) :
    ∃ symbol, store.symbolInfo plan.symbol = .ok symbol := by
  cases hs : store.symbolInfo plan.symbol with
  | ok symbol => exact ⟨symbol, rfl⟩
  | error f =>
    simp only [Decoder.ofPlan, hs, bind, Except.bind] at hd
    cases hd

theorem attended_start {plan : ScanPlan} {decoder : Decoder}
    (hd : Decoder.ofPlan store plan = .ok decoder) (capacity : Nat) :
    Attended store false (.start store plan decoder capacity) [] where
  orderly := FilteredScan.orderly_start store plan decoder capacity
  ofStore := rfl
  symbol := symbol_of_decoder hd
  starting := nofun
  ended := nofun

/-- Beginning to read changes nothing but the producer, which has the slot or the reader after it, or
leaves. -/
theorem beginReading_frame (slot : ReaderSlot) (claimed : Bool) {scan : FilteredScan}
    {decoder : Decoder} (hp : scan.producer = .starting decoder) :
    (beginReading slot claimed scan decoder).2.2 =
        { scan with producer := (beginReading slot claimed scan decoder).2.2.producer } ∧
      ((beginReading slot claimed scan decoder).2.1 = true →
        (beginReading slot claimed scan decoder).2.2.producer.waiting = true) := by
  unfold beginReading
  split
  · split <;> exact ⟨rfl, nofun⟩
  · split
    · exact ⟨rfl, nofun⟩
    · exact ⟨rfl, fun _ => by rw [hp]; rfl⟩

theorem attended_take {claimed : Bool} {scan : FilteredScan} {answers : List (Option Item)}
    {t : Turn} (A : Attended store claimed scan answers)
    (h : take slot claimed scan answers t = some (slot', p')) : p'.Coherent store := by
  rcases begins_or_started scan t with ⟨decoder, rfl, hp⟩ | hstarted
  · simp only [take, hp] at h
    obtain ⟨hframe, hstarting⟩ := beginReading_frame slot claimed hp
    generalize beginReading slot claimed scan decoder = b at h hframe hstarting
    obtain ⟨slot₁, claimed', scan'⟩ := b
    cases h
    have hrun : ¬ scan.Gone := fun ⟨o, ho⟩ => by rw [hp] at ho; cases ho
    simp only at hframe
    rw [hframe] at hstarting ⊢
    exact ⟨A.orderly.withProducer hrun _, A.ofStore, A.symbol, hstarting, A.ended⟩
  · rw [take_of_started hstarted, Option.map_eq_some_iff] at h
    obtain ⟨e, hstep, hpair⟩ := h
    cases hpair
    obtain ⟨hstore, hsymbol⟩ := Exchange.step_frame hstep
    refine ⟨Exchange.orderly_step (e := ⟨slot, scan, answers⟩) A.orderly hstep,
      hstore.trans A.ofStore, ?_, fun hc => ?_, Exchange.ended_step hstep A.ended⟩
    · rw [hsymbol]; exact A.symbol
    · have hw := A.starting hc
      by_cases ht : t = .producer
      · rw [hstarted ht] at hw; cases hw
      · rw [(Exchange.scan_step hstep).2 ht]; exact hw

theorem coherent_claim {nr : Nat} {decoder : Option Decoder}
    (h : claim store slot nr decoder = (slot', p')) : p'.Coherent store := by
  unfold claim at h
  split at h <;> cases h <;> trivial

theorem coherent_start {plan : ScanPlan} {capacity : Nat}
    (h : start store slot plan capacity = (slot', p')) : p'.Coherent store := by
  unfold start at h
  cases hd : Decoder.ofPlan store plan with
  | error f =>
    rw [hd] at h
    cases h
    trivial
  | ok decoder =>
    simp only [hd] at h
    split at h
    · cases h
      exact attended_start hd _
    · exact coherent_claim h

theorem coherent_launch {nr : Nat} {decoder : Option Decoder}
    (h : launch store slot nr decoder = (slot', p')) : p'.Coherent store := by
  unfold launch at h
  split at h
  · cases h; trivial
  · cases h; trivial
  · cases h
    rintro ⟨answer, hmem, -⟩
    cases hmem

theorem coherent_next {scan : SequentialScan} {answers : List (Option Item)}
    (C : (rows scan answers).Coherent store)
    (h : act store slot (.rows scan answers) (.turn .pull) = some (slot', p')) :
    p'.Coherent store := by
  simp only [act, SequentialScan.next] at h
  cases hr : scan.reader with
  | none =>
    simp only [hr] at h
    cases h
    exact fun _ => hr
  | some reader =>
    simp only [hr] at h
    have hover := SequentialScan.advance_over reader scan.decoder
    generalize SequentialScan.advance scan.decoder reader = a at h hover
    cases h
    rintro ⟨answer, hmem, hends⟩
    rcases List.mem_append.1 hmem with hmem | hmem
    · have := C ⟨answer, hmem, hends⟩
      rw [hr] at this; cases this
    · rcases List.mem_singleton.1 hmem with rfl
      exact hover hends

theorem coherent_act (C : p.Coherent store) {a : Action}
    (h : act store slot p a = some (slot', p')) : p'.Coherent store := by
  cases p with
  | absent =>
    cases a with
    | prepare query =>
      simp only [act] at h
      split at h <;> cases h <;> trivial
    | read nr => exact coherent_claim (Option.some.inj h)
    | start plan capacity => exact coherent_start (Option.some.inj h)
    | scan | launch | turn => cases h
  | prepared q =>
    cases a with
    | scan capacity => exact coherent_start (Option.some.inj h)
    | prepare | read | start | launch | turn => cases h
  | opening nr decoder =>
    cases a with
    | launch => exact coherent_launch (Option.some.inj h)
    | prepare | read | start | scan | turn => cases h
  | records reader answers =>
    cases a with
    | turn t => cases t <;> cases h <;> trivial
    | prepare | read | start | scan | launch => cases h
  | rows scan answers =>
    cases a with
    | turn t =>
      cases t with
      | pull => exact coherent_next C h
      | drop => cases h; trivial
      | producer | consumer => cases h
    | prepare | read | start | scan | launch => cases h
  | filtered claimed scan answers =>
    cases a with
    | turn t => exact attended_take C h
    | prepare | read | start | scan | launch => cases h
  | failed | dropped => cases a <;> cases h

/-! ## Parties that are over, and parties that ask -/

/-- The stream of a party has reported its end or its failure, or is dropped; or what the party asked
for has failed. -/
def Over : Party → Prop
  | .rows _ answers => ∃ answer ∈ answers, EndsStream answer
  | .filtered _ scan answers =>
    (∃ answer ∈ answers, EndsStream answer) ∨ scan.consumer = .dropped
  | .failed _ | .dropped => True
  | .absent | .prepared _ | .opening .. | .records .. => False

theorem holds_of_over (C : p.Coherent store) (h : p.Over) : p.holds = false := by
  cases p with
  | rows scan answers => rw [holds_rows, C h]; rfl
  | filtered claimed scan answers =>
    have hj : scan.joined = true := h.elim C.ended C.orderly.drops
    obtain ⟨o, hg⟩ := C.orderly.joined hj
    have hc : claimed = false := Bool.eq_false_iff.2 fun hc => by
      have := C.starting hc
      rw [hg] at this; cases this
    rw [holds_filtered, hg, hc]; rfl
  | failed | dropped => rfl
  | absent | prepared | opening | records => exact h.elim

/-- The party asks for the slot, and nothing else is wrong with its request. -/
def Asks (store : Store) : Party → Action → Prop
  | .absent, .read nr => ∃ symbol, store.symbolInfo nr = .ok symbol
  | .absent, .start plan _ | .prepared ⟨_, plan⟩, .scan _ =>
    plan.filtered = false ∧ ∃ decoder, Decoder.ofPlan store plan = .ok decoder
  | .filtered false scan _, .turn .producer => scan.producer.waiting = true
  | _, _ => False

/-- Whoever asks is refused while the slot is active, which changes nothing else, and gets it
otherwise. -/
def Answered (store : Store) (slot : ReaderSlot) (p : Party) (a : Action) : Prop :=
  (slot.active = true → act store slot p a = some (slot, p.refused store.locator)) ∧
    (slot.active = false → ∃ p', act store slot p a = some (⟨true⟩, p') ∧ p'.holds = true)

theorem claim_of_symbol {nr : Nat} {symbol : Symbol} (hs : store.symbolInfo nr = .ok symbol)
    (slot : ReaderSlot) (decoder : Option Decoder) :
    (slot.active = true →
        claim store slot nr decoder = (slot, .failed (ReaderSlot.taken store.locator))) ∧
      (slot.active = false → claim store slot nr decoder = (⟨true⟩, .opening nr decoder)) := by
  have hclaim : store.claim slot nr = slot.acquire store.locator := by
    unfold Store.claim
    rw [hs]
    rfl
  unfold claim
  rw [hclaim]
  constructor
  · intro ha
    rw [ReaderSlot.acquire_of_active ha]
  · intro ha
    rw [ReaderSlot.acquire_of_free ha]

theorem start_of_decoder {plan : ScanPlan} {decoder : Decoder} (hf : plan.filtered = false)
    (hd : Decoder.ofPlan store plan = .ok decoder) (capacity : Nat) :
    start store slot plan capacity = claim store slot plan.symbol (some decoder) := by
  simp only [start, hd, hf, Bool.false_eq_true, if_false]

theorem answered_of_asks (C : p.Coherent store) {a : Action} (h : p.Asks store a) :
    Answered store slot p a := by
  unfold Answered
  cases p with
  | absent =>
    cases a with
    | read nr =>
      obtain ⟨symbol, hs⟩ := h
      obtain ⟨htaken, hfree⟩ := claim_of_symbol hs slot none
      exact ⟨fun ha => congrArg some (htaken ha), fun ha => ⟨_, congrArg some (hfree ha), rfl⟩⟩
    | start plan capacity =>
      obtain ⟨hf, decoder, hd⟩ := h
      obtain ⟨symbol, hs⟩ := symbol_of_decoder hd
      obtain ⟨htaken, hfree⟩ := claim_of_symbol hs slot (some decoder)
      simp only [act, start_of_decoder hf hd]
      exact ⟨fun ha => congrArg some (htaken ha), fun ha => ⟨_, congrArg some (hfree ha), rfl⟩⟩
    | prepare | scan | launch | turn => exact h.elim
  | prepared q =>
    cases a with
    | scan capacity =>
      obtain ⟨hf, decoder, hd⟩ := h
      obtain ⟨symbol, hs⟩ := symbol_of_decoder hd
      obtain ⟨htaken, hfree⟩ := claim_of_symbol hs slot (some decoder)
      simp only [act, start_of_decoder hf hd]
      exact ⟨fun ha => congrArg some (htaken ha), fun ha => ⟨_, congrArg some (hfree ha), rfl⟩⟩
    | prepare | read | start | launch | turn => exact h.elim
  | filtered claimed scan answers =>
    cases a with
    | turn t =>
      cases claimed <;> cases t <;> try exact h.elim
      cases hp : scan.producer with
      | starting decoder =>
        obtain ⟨symbol, hs⟩ := C.symbol
        have hclaim : scan.store.claim slot scan.symbol = slot.acquire store.locator := by
          unfold Store.claim
          rw [C.ofStore, hs]
          rfl
        simp only [act, take, hp, beginReading, hclaim, Bool.false_eq_true, if_false]
        constructor
        · intro ha
          rw [ReaderSlot.acquire_of_active ha]
          rfl
        · intro ha
          rw [ReaderSlot.acquire_of_free ha]
          exact ⟨_, rfl, Bool.or_true _⟩
      | reading | pulled | matched | sending | leaving | gone => rw [Asks, hp] at h; cases h
    | prepare | read | start | scan | launch => cases claimed <;> exact h.elim
  | opening | records | rows | failed | dropped => exact h.elim

end
end Party

end SymbolTables
