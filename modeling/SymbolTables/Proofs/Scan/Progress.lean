import SymbolTables.Proofs.Scan.Exchange

/-!
# Filtered scans do not get stuck

What the parties of a filtered scan may wait for. `Orderly` says how the flag, the queue and the
producer stand at each place of the consumer; every step keeps it.

* `step_of_outstanding`: as long as a pull or the dropping of the scan is not answered, one of the
  parties can go on.
* `released_of_blocked`: a producer that waits at a full queue goes on after the next step of the
  consumer.
* `wellFounded_steps`, `answered_of_orderly`: the parties cannot go on for ever, so what is asked
  is answered.
* `total_of_cancelled`: once the flag is set, the producer sends at most the row it already has, and
  pulls its reader at most once.
* `unstuck_of_run`: all of this on every schedule.
-/
namespace SymbolTables

/-- Nothing is asked of the consumer. -/
def Consumer.resting : Consumer → Bool
  | .idle | .dropped => true
  | .receiving | .joining | .cancelling | .closing => false

/-- Steps that the consumer takes at most until nothing is asked of it. -/
def Consumer.rank : Consumer → Nat
  | .idle | .dropped => 0
  | .joining | .closing => 1
  | .receiving | .cancelling => 2

namespace FilteredScan

/-- A pull or the dropping of the scan is not answered yet. -/
def Outstanding (s : FilteredScan) : Prop := s.consumer.resting = false

/-- The producer has gone, and its side of the queue is closed. -/
def Gone (s : FilteredScan) : Prop := ∃ o, s.producer = .gone o

/-- The producer waits at a full queue. -/
def Blocked (slot : ReaderSlot) (s : FilteredScan) : Prop :=
  producerStep slot s = none ∧ ¬ s.Gone

/-- How flag, queue and producer stand at each place of the consumer. -/
structure Orderly (s : FilteredScan) : Prop where
  /-- The flag is set when the scan is dropped, and not before. -/
  flag : s.cancelled = true ↔
    s.consumer = .cancelling ∨ s.consumer = .closing ∨ s.consumer = .dropped
  /-- A consumer that is free or waits for a row listens, unless the end has been reported. -/
  listens : s.consumer = .idle ∨ s.consumer = .receiving → (s.listening = true ↔ s.joined = false)
  /-- A pull comes to the joining of a producer that has gone. -/
  joins : s.consumer = .joining → s.listening = false ∧ s.joined = false ∧ s.Gone
  /-- The queue is closed before the producer is waited for. -/
  closes : s.consumer = .closing ∨ s.consumer = .dropped → s.listening = false
  drops : s.consumer = .dropped → s.joined = true
  joined : s.joined = true → s.Gone
  /-- A queue that is closed is empty. -/
  empty : s.listening = false → s.queue = []
  room : s.queue.length ≤ s.capacity

/-! ## One step -/

theorem orderly_start (store : Store) (plan : ScanPlan) (decoder : Decoder) (capacity : Nat) :
    (start store plan decoder capacity).Orderly where
  flag := by simp [start]
  listens := fun _ => by simp [start]
  joins := fun h => by cases h
  closes := fun h => by rcases h with h | h <;> cases h
  drops := fun h => by cases h
  joined := fun h => by cases h
  empty := fun h => by cases h
  room := Nat.zero_le _

theorem producerStep_of_gone {s : FilteredScan} (h : s.Gone) (slot : ReaderSlot) :
    producerStep slot s = none := by
  obtain ⟨o, ho⟩ := h
  simp only [producerStep, ho]

/-- The producer changes the queue only by sending its row to a consumer that listens, when there is
room for it. -/
theorem producerStep_queue {slot slot' : ReaderSlot} {s s' : FilteredScan}
    (h : producerStep slot s = some (slot', s')) :
    s'.queue = s.queue ∨
      ∃ row rest d, s.producer = .sending row rest d ∧ s.listening = true ∧
        s.queue.length < s.capacity ∧ s'.queue = s.queue ++ [row] ∧
        s'.producer = .reading rest d := by
  unfold producerStep at h
  repeat' split at h
  all_goals cases h
  all_goals first
    | exact .inl rfl
    | rename_i hp hl hroom
      exact .inr ⟨_, _, _, hp, by simpa using hl, hroom, rfl, rfl⟩

section
variable {slot slot' : ReaderSlot} {s s' : FilteredScan}

theorem orderly_producer (O : s.Orderly) (h : producerStep slot s = some (slot', s')) :
    s'.Orderly := by
  have hrun : ¬ s.Gone := fun hg => by rw [producerStep_of_gone hg] at h; cases h
  have hempty : s.listening = false → s'.queue = [] := fun hl => by
    rcases producerStep_queue h with hq | ⟨_, _, _, -, hl', -⟩
    · rw [hq, O.empty hl]
    · rw [hl] at hl'; cases hl'
  have hroom : s'.queue.length ≤ s.capacity := by
    rcases producerStep_queue h with hq | ⟨_, _, _, -, -, hlt, hq, -⟩
    · rw [hq]; exact O.room
    · rw [hq, List.length_append]; exact hlt
  have hjoined : s.joined = true → s'.Gone := fun hj => absurd (O.joined hj) hrun
  have hjoins : s.consumer = .joining → s'.listening = false ∧ s'.joined = false ∧ s'.Gone :=
    fun hw => absurd (O.joins hw).2.2 hrun
  rw [producerStep_frame h] at hjoined hjoins ⊢
  exact ⟨O.flag, O.listens, hjoins, O.closes, O.drops, hjoined, hempty, hroom⟩

/-- The steps of the consumer, with what they report. -/
inductive Serving (s : FilteredScan) : Option (Option Item) → FilteredScan → Prop
  | ended (receiving : s.consumer = .receiving) (deaf : s.listening = false)
      (joined : s.joined = true) : Serving s (some none) { s with consumer := .idle }
  | turn (receiving : s.consumer = .receiving) (deaf : s.listening = false)
      (apart : s.joined = false) : Serving s none { s with consumer := .joining }
  | row (row : Row) (queue : List Row) (receiving : s.consumer = .receiving)
      (listening : s.listening = true) (front : s.queue = row :: queue) :
      Serving s (some (some (.row row))) { s with queue := queue, consumer := .idle }
  | dry (receiving : s.consumer = .receiving) (listening : s.listening = true)
      (empty : s.queue = []) (gone : s.Gone) :
      Serving s none { s with listening := false, consumer := .joining }
  | join (o : Outcome) (joining : s.consumer = .joining) (gone : s.producer = .gone o) :
      Serving s (some o.item) { s with joined := true, consumer := .idle }
  | close (cancelling : s.consumer = .cancelling) :
      Serving s none { s with listening := false, queue := [], consumer := .closing }
  | closed (closing : s.consumer = .closing) (joined : s.joined = true) :
      Serving s (some none) { s with consumer := .dropped }
  | reap (closing : s.consumer = .closing) (gone : s.Gone) :
      Serving s (some none) { s with joined := true, consumer := .dropped }

theorem serving_of_step {answer : Option (Option Item)} (h : consumerStep s = some (answer, s')) :
    Serving s answer s' := by
  unfold consumerStep at h
  cases hw : s.consumer with
  | idle => rw [hw] at h; cases h
  | dropped => rw [hw] at h; cases h
  | cancelling => rw [hw] at h; cases h; exact .close hw
  | receiving =>
    simp only [hw] at h
    split at h
    · rename_i hl
      split at h
      · rename_i hj
        cases h; exact .ended hw (by simpa using hl) hj
      · rename_i hj
        cases h; exact .turn hw (by simpa using hl) (by simpa using hj)
    · rename_i hl
      split at h
      · rename_i row queue hq
        cases h; exact .row row queue hw (by simpa using hl) hq
      · rename_i o hq hp
        cases h; exact .dry hw (by simpa using hl) hq ⟨o, hp⟩
      · cases h
  | joining =>
    simp only [hw] at h
    split at h
    · rename_i o hp
      cases h; exact .join o hw hp
    · cases h
  | closing =>
    simp only [hw] at h
    split at h
    · rename_i hj
      cases h; exact .closed hw hj
    · split at h
      · rename_i o hp
        cases h; exact .reap hw ⟨o, hp⟩
      · cases h

theorem orderly_serving {answer : Option (Option Item)} (O : s.Orderly) (h : Serving s answer s') :
    s'.Orderly := by
  cases h with
  | ended hw hl hj =>
    have hc : ¬ s.cancelled = true := by rw [O.flag, hw]; simp
    exact ⟨by simpa using hc, fun _ => by simp [hl, hj], nofun, nofun, nofun, O.joined, O.empty, O.room⟩
  | turn hw hl hj =>
    -- a consumer that waits for a row without listening has joined
    have := (O.listens (.inr hw)).2 hj
    rw [hl] at this; cases this
  | row row queue hw hl hq =>
    have hc : ¬ s.cancelled = true := by rw [O.flag, hw]; simp
    have hroom := O.room
    rw [hq, List.length_cons] at hroom
    exact ⟨by simpa using hc, fun _ => O.listens (.inr hw), nofun, nofun, nofun, O.joined,
      fun hd => (nomatch hl.symm.trans hd), Nat.le_of_succ_le hroom⟩
  | dry hw hl hq hg =>
    have hc : ¬ s.cancelled = true := by rw [O.flag, hw]; simp
    have hj := (O.listens (.inr hw)).1 hl
    exact ⟨by simpa using hc, nofun, fun _ => ⟨rfl, hj, hg⟩, nofun, nofun, O.joined, fun _ => hq,
      O.room⟩
  | join o hw hp =>
    have hc : ¬ s.cancelled = true := by rw [O.flag, hw]; simp
    exact ⟨by simpa using hc, fun _ => by simp [(O.joins hw).1], nofun, nofun, nofun,
      fun _ => ⟨o, hp⟩, O.empty, O.room⟩
  | close hw =>
    have hc : s.cancelled = true := O.flag.2 (.inl hw)
    exact ⟨by simp [hc], nofun, nofun, fun _ => rfl, nofun, O.joined, fun _ => rfl, Nat.zero_le _⟩
  | closed hw hj =>
    have hc : s.cancelled = true := O.flag.2 (.inr (.inl hw))
    exact ⟨by simp [hc], nofun, nofun, fun _ => O.closes (.inl hw), fun _ => hj, O.joined, O.empty,
      O.room⟩
  | reap hw hg =>
    have hc : s.cancelled = true := O.flag.2 (.inr (.inl hw))
    exact ⟨by simp [hc], nofun, nofun, fun _ => O.closes (.inl hw), fun _ => rfl, fun _ => hg,
      O.empty, O.room⟩

theorem orderly_ask (O : s.Orderly) (hi : s.consumer = .idle) : s.ask.Orderly := by
  have hc : ¬ s.cancelled = true := by rw [O.flag, hi]; simp
  exact ⟨by simpa [ask] using hc, fun _ => O.listens (.inl hi), nofun, nofun, nofun, O.joined,
    O.empty, O.room⟩

theorem orderly_cancel (O : s.Orderly) : s.cancel.Orderly :=
  ⟨by simp [cancel], nofun, nofun, nofun, nofun, O.joined, O.empty, O.room⟩

/-! ## Nobody waits in vain -/

/-- With an empty queue, only a producer that has gone cannot go on. -/
theorem gone_of_empty (hc : 1 ≤ s.capacity) (h : producerStep slot s = none) (hq : s.queue = []) :
    s.Gone := by
  rcases producerStep_eq_none h with hg | ⟨row, reader, d, -, hfull⟩
  · exact hg
  · rw [hq, List.length_nil] at hfull
    exact absurd (Nat.le_trans hc hfull) (by simp)

/-- As long as something is asked for, one of the parties can go on. -/
theorem step_of_outstanding (O : s.Orderly) (hc : 1 ≤ s.capacity) (ho : s.Outstanding)
    (slot : ReaderSlot) : (producerStep slot s).isSome ∨ (consumerStep s).isSome := by
  by_cases hp : (producerStep slot s).isSome
  · exact .inl hp
  rw [Option.not_isSome_iff_eq_none] at hp
  refine .inr ?_
  cases hw : s.consumer with
  | idle | dropped => rw [Outstanding, hw] at ho; cases ho
  | receiving =>
    cases hl : s.listening with
    | true =>
      cases hq : s.queue with
      | cons row queue => rw [consumerStep_row hw hl hq]; rfl
      | nil =>
        obtain ⟨o, hg⟩ := gone_of_empty hc hp hq
        rw [consumerStep_dry hw hl hq hg]; rfl
    | false =>
      have hj : s.joined = true := by
        cases hj : s.joined with
        | true => rfl
        | false =>
          have := (O.listens (.inr hw)).2 hj
          rw [hl] at this; cases this
      rw [consumerStep_over hw hl hj]; rfl
  | joining =>
    obtain ⟨-, -, o, hg⟩ := O.joins hw
    rw [consumerStep_join hw hg]; rfl
  | cancelling => simp only [consumerStep, hw, Option.isSome_some]
  | closing =>
    obtain ⟨o, hg⟩ := gone_of_empty hc hp (O.empty (O.closes (.inl hw)))
    simp only [consumerStep, hw, hg]
    split <;> rfl

/-- A producer that waits at a full queue can go on after the next step of the consumer. -/
theorem released_of_blocked (O : s.Orderly) (hc : 1 ≤ s.capacity) (ho : s.Outstanding)
    (hb : Blocked slot s) :
    ∃ answer s', consumerStep s = some (answer, s') ∧ (producerStep slot s').isSome := by
  obtain ⟨hp, hrun⟩ := hb
  rcases producerStep_eq_none hp with hg | ⟨row, reader, d, hsend, hfull⟩
  · exact absurd hg hrun
  have hne : s.queue ≠ [] := fun hq => hrun (gone_of_empty hc hp hq)
  have hl : s.listening = true := by
    cases hl : s.listening with
    | true => rfl
    | false => exact absurd (O.empty hl) hne
  cases hw : s.consumer with
  | idle | dropped => rw [Outstanding, hw] at ho; cases ho
  | receiving =>
    obtain ⟨first, queue, hq⟩ := List.exists_cons_of_ne_nil hne
    have hroom := O.room
    rw [hq, List.length_cons] at hroom
    refine ⟨_, _, consumerStep_row hw hl hq, ?_⟩
    simp only [producerStep, hsend, hl, Bool.not_true, Bool.false_eq_true, if_false,
      if_pos (Nat.lt_of_succ_le hroom), Option.isSome_some]
  | joining => exact absurd (O.joins hw).2.2 hrun
  | cancelling =>
    refine ⟨none, { s with listening := false, queue := [], consumer := .closing }, ?_, ?_⟩
    · simp only [consumerStep, hw]
    · simp only [producerStep, hsend, Bool.not_false, if_true, Option.isSome_some]
  | closing => exact absurd (O.empty (O.closes (.inl hw))) hne

end
end FilteredScan

namespace Exchange

/-! ## Schedules -/

/-- The turns that can be taken, with what comes of them. -/
inductive Taken (e : Exchange) : Turn → Exchange → Prop
  | producer (slot : ReaderSlot) (scan : FilteredScan)
      (stepped : e.scan.producerStep e.slot = some (slot, scan)) :
      Taken e .producer { e with slot := slot, scan := scan }
  | consumer (answer : Option (Option Item)) (scan : FilteredScan)
      (serving : FilteredScan.Serving e.scan answer scan) :
      Taken e .consumer
        { e with
          scan := scan
          answers := e.answers ++ if e.scan.cancelled then [] else answer.toList }
  | pull (idle : e.scan.consumer = .idle) : Taken e .pull { e with scan := e.scan.ask }
  | drop (idle : e.scan.consumer = .idle) : Taken e .drop { e with scan := e.scan.cancel }

theorem taken_of_step {e e' : Exchange} {turn : Turn} (h : e.step turn = some e') :
    Taken e turn e' := by
  cases turn with
  | producer =>
    obtain ⟨⟨slot, scan⟩, hs, rfl⟩ := Option.map_eq_some_iff.1 h
    exact .producer slot scan hs
  | consumer =>
    obtain ⟨⟨answer, scan⟩, hs, rfl⟩ := Option.map_eq_some_iff.1 h
    exact .consumer answer scan (FilteredScan.serving_of_step hs)
  | pull =>
    simp only [step] at h
    split at h
    · rename_i hi
      cases h
      exact .pull hi
    · cases h
  | drop =>
    simp only [step] at h
    split at h
    · rename_i hi
      cases h
      exact .drop hi
    · cases h

theorem orderly_step {e e' : Exchange} {turn : Turn} (O : e.scan.Orderly)
    (h : e.step turn = some e') : e'.scan.Orderly := by
  cases taken_of_step h with
  | producer slot scan stepped => exact FilteredScan.orderly_producer O stepped
  | consumer answer scan serving => exact FilteredScan.orderly_serving O serving
  | pull idle => exact FilteredScan.orderly_ask O idle
  | drop idle => exact FilteredScan.orderly_cancel O

theorem orderly_run : ∀ (turns : List Turn) {e e' : Exchange}, e.scan.Orderly →
    e.run turns = some e' → e'.scan.Orderly
  | [], e, e', O, h => by cases h; exact O
  | turn :: turns, e, e', O, h => by
    simp only [run, Option.bind_eq_some_iff] at h
    obtain ⟨e₁, h₁, h₂⟩ := h
    exact orderly_run turns (orderly_step O h₁) h₂

/-- A step of one of the parties; nothing new is asked for. -/
def Advances (e e' : Exchange) : Prop := e.step .producer = some e' ∨ e.step .consumer = some e'

theorem rank_serving {s s' : FilteredScan} {answer : Option (Option Item)}
    (h : FilteredScan.Serving s answer s') :
    s'.producer = s.producer ∧ s'.consumer.rank < s.consumer.rank := by
  cases h <;> simp_all [Consumer.rank]

/-- The parties cannot go on for ever. -/
theorem wellFounded_steps : WellFounded fun e' e : Exchange => e.Advances e' := by
  -- the producer comes nearer to its end; the consumer leaves it alone and nears its own
  refine Subrelation.wf ?_ (InvImage.wf (fun e : Exchange => (e.scan.producer.rank, e.scan.consumer.rank))
    (Prod.lex (Prod.lex Nat.lt_wfRel (Prod.lex Nat.lt_wfRel Nat.lt_wfRel)) Nat.lt_wfRel).wf)
  rintro e' e (h | h)
  · cases taken_of_step h with
    | producer slot scan stepped => exact .left _ _ (FilteredScan.rank_producerStep stepped)
  · cases taken_of_step h with
    | consumer answer scan serving =>
      obtain ⟨hp, hr⟩ := rank_serving serving
      show Prod.Lex _ _ (scan.producer.rank, scan.consumer.rank) _
      rw [hp]
      exact .right _ hr

/-- What is asked for is answered, if the parties go on. -/
theorem answered_of_orderly (e : Exchange) (O : e.scan.Orderly) (hc : 1 ≤ e.scan.capacity) :
    ∃ steps e', (∀ turn ∈ steps, turn = .producer ∨ turn = .consumer) ∧ e.run steps = some e' ∧
      ¬ e'.scan.Outstanding := by
  induction e using wellFounded_steps.induction with
  | _ e ih =>
    by_cases ho : e.scan.Outstanding
    · obtain ⟨turn, e₁, hturn, h₁⟩ : ∃ turn e₁, (turn = .producer ∨ turn = .consumer) ∧
          e.step turn = some e₁ := by
        rcases FilteredScan.step_of_outstanding O hc ho e.slot with h | h
        · obtain ⟨p, hp⟩ := Option.isSome_iff_exists.1 h
          exact ⟨.producer, _, .inl rfl, by simp only [step, hp, Option.map_some]; rfl⟩
        · obtain ⟨p, hp⟩ := Option.isSome_iff_exists.1 h
          exact ⟨.consumer, _, .inr rfl, by simp only [step, hp, Option.map_some]; rfl⟩
      have hadv : e.Advances e₁ := by
        rcases hturn with rfl | rfl
        · exact .inl h₁
        · exact .inr h₁
      obtain ⟨steps, e', hsteps, hrun, hdone⟩ :=
        ih e₁ hadv (orderly_step O h₁) (by rw [capacity_step h₁]; exact hc)
      refine ⟨turn :: steps, e', fun t ht => ?_, ?_, hdone⟩
      · rcases List.mem_cons.1 ht with rfl | ht
        · exact hturn
        · exact hsteps t ht
      · simp only [run, h₁, Option.bind_some, hrun]
    · exact ⟨[], e, fun t ht => absurd ht List.not_mem_nil, rfl, ho⟩

/-! ## Counting -/

/-- Rows that a turn puts into the queue. -/
def rowsSent (e : Exchange) : Turn → Nat
  | .producer =>
    match e.step .producer with
    | some e' => e'.scan.queue.length - e.scan.queue.length
    | none => 0
  | .consumer | .pull | .drop => 0

/-- Pulls at the reader in a turn. -/
def readerPulls (e : Exchange) : Turn → Nat
  | .producer =>
    match e.scan.producer with
    | .reading _ _ => 1
    | _ => 0
  | .consumer | .pull | .drop => 0

/-- What a schedule comes to, turn by turn. -/
def total (count : Exchange → Turn → Nat) (e : Exchange) : List Turn → Nat
  | [] => 0
  | turn :: turns =>
    count e turn +
      match e.step turn with
      | some e' => total count e' turns
      | none => 0

/-- Rows that the consumer has been answered. -/
def rowsGot (e : Exchange) : Nat :=
  e.answers.countP fun
    | some (.row _) => true
    | _ => false

theorem total_cons {e e' : Exchange} {turn : Turn} (h : e.step turn = some e')
    (count : Exchange → Turn → Nat) (turns : List Turn) :
    total count e (turn :: turns) = count e turn + total count e' turns := by
  simp only [total, h]

/-- A potential that pays for every turn bounds the whole schedule. -/
theorem total_le {count : Exchange → Turn → Nat} {potential : Exchange → Nat}
    {P : Exchange → Prop}
    (hstep : ∀ {e e' turn}, P e → e.step turn = some e' →
      P e' ∧ count e turn + potential e' ≤ potential e) :
    ∀ (turns : List Turn) {e e' : Exchange}, P e → e.run turns = some e' →
      total count e turns ≤ potential e
  | [], _, _, _, _ => Nat.zero_le _
  | turn :: turns, e, e', hP, h => by
    simp only [run, Option.bind_eq_some_iff] at h
    obtain ⟨e₁, h₁, h₂⟩ := h
    obtain ⟨hP₁, hle⟩ := hstep hP h₁
    have := total_le hstep turns hP₁ h₂
    rw [total_cons h₁]
    omega

/-- What a turn does to the producer and to the flag. -/
theorem scan_step {e e' : Exchange} {turn : Turn} (h : e.step turn = some e') :
    (e.scan.cancelled = true → e'.scan.cancelled = true) ∧
      (turn ≠ .producer → e'.scan.producer = e.scan.producer) := by
  cases taken_of_step h with
  | producer slot scan stepped =>
    rw [FilteredScan.producerStep_frame stepped]
    exact ⟨id, fun hne => absurd rfl hne⟩
  | consumer answer scan serving =>
    refine ⟨fun hc => ?_, fun _ => (rank_serving serving).1⟩
    cases serving <;> exact hc
  | pull => exact ⟨id, fun _ => rfl⟩
  | drop => exact ⟨fun _ => rfl, fun _ => rfl⟩

theorem cancelled_run : ∀ (turns : List Turn) {e e' : Exchange}, e.scan.cancelled = true →
    e.run turns = some e' → e'.scan.cancelled = true
  | [], _, _, hc, h => by cases h; exact hc
  | turn :: turns, e, e', hc, h => by
    simp only [run, Option.bind_eq_some_iff] at h
    obtain ⟨e₁, h₁, h₂⟩ := h
    exact cancelled_run turns ((scan_step h₁).1 hc) h₂

/-! ### After the flag has been set -/

/-- Rows that the producer has and may still send. -/
def rowInHand (e : Exchange) : Nat :=
  match e.scan.producer with
  | .sending .. => 1
  | _ => 0

/-- Pulls at the reader before the producer looks at the flag again. -/
def pullAhead (e : Exchange) : Nat :=
  match e.scan.producer with
  | .starting _ | .reading .. | .sending .. => 1
  | .pulled .. | .matched .. | .leaving _ | .gone _ => 0

theorem pullAhead_le (e : Exchange) : e.pullAhead ≤ 1 := by
  unfold pullAhead
  split <;> decide

/-- Every step of the producer is paid for by what it has in hand when it has seen the flag. -/
theorem producer_of_cancelled {e e' : Exchange} (hc : e.scan.cancelled = true)
    (h : e.step .producer = some e') :
    e.rowsSent .producer + e'.rowInHand ≤ e.rowInHand ∧
      e.readerPulls .producer + e'.pullAhead ≤ e.pullAhead := by
  simp only [rowsSent, h]
  simp only [step, Option.map_eq_some_iff] at h
  obtain ⟨⟨slot, scan⟩, hs, rfl⟩ := h
  simp only [FilteredScan.producerStep, hc, if_true] at hs
  repeat' split at hs
  all_goals cases hs
  all_goals simp [rowInHand, readerPulls, pullAhead, FilteredScan.leave, *]

/-- Once the flag is set, no more rows are sent than the producer has in hand, and the reader is
pulled no more often than before the next look at the flag. -/
theorem total_of_cancelled {e e' : Exchange} (hc : e.scan.cancelled = true) {turns : List Turn}
    (h : e.run turns = some e') :
    total rowsSent e turns ≤ e.rowInHand ∧ total readerPulls e turns ≤ e.pullAhead := by
  have hrows : ∀ {e e' : Exchange} {turn : Turn}, e.scan.cancelled = true →
      e.step turn = some e' →
      e'.scan.cancelled = true ∧ e.rowsSent turn + e'.rowInHand ≤ e.rowInHand ∧
        e.readerPulls turn + e'.pullAhead ≤ e.pullAhead := by
    intro e e' turn hc h
    refine ⟨(scan_step h).1 hc, ?_⟩
    cases turn with
    | producer => exact producer_of_cancelled hc h
    | consumer | pull | drop =>
      have hp := (scan_step h).2 nofun
      simp only [rowsSent, readerPulls, rowInHand, pullAhead, hp]
      omega
  exact ⟨total_le (fun hc h => ⟨(hrows hc h).1, (hrows hc h).2.1⟩) turns hc h,
    total_le (fun hc h => ⟨(hrows hc h).1, (hrows hc h).2.2⟩) turns hc h⟩

/-! ### Before it -/

/-- As long as the scan is not dropped, every row that has been sent is in the queue or answered. -/
theorem rows_step {e e' : Exchange} {turn : Turn} (O : e.scan.Orderly)
    (hn : e'.scan.cancelled = false) (h : e.step turn = some e') :
    e'.scan.queue.length + e'.rowsGot = e.scan.queue.length + e.rowsGot + e.rowsSent turn := by
  have hn₀ : e.scan.cancelled = false := by
    cases hc : e.scan.cancelled with
    | false => rfl
    | true => rw [(scan_step h).1 hc] at hn; cases hn
  cases taken_of_step h with
  | producer slot scan stepped =>
    simp only [rowsSent, h]
    have hgrows : e.scan.queue.length ≤ scan.queue.length := by
      rcases FilteredScan.producerStep_queue stepped with hq | ⟨_, _, _, -, -, -, hq, -⟩
      · exact Nat.le_of_eq (congrArg List.length hq.symm)
      · rw [hq, List.length_append]; omega
    simp only [rowsGot]
    omega
  | consumer answer scan serving =>
    simp only [hn₀, Bool.false_eq_true, if_false, rowsSent, rowsGot, List.countP_append] at hn ⊢
    cases serving with
    | ended | turn | dry => simp
    | row row queue hw hl hq => simp [hq]; omega
    | join o => cases o <;> simp [Outcome.item]
    | close hw => rw [O.flag.2 (.inl hw)] at hn₀; cases hn₀
    | closed | reap => simp
  | pull => rfl
  | drop => cases hn

theorem rows_run : ∀ (turns : List Turn) {e e' : Exchange}, e.scan.Orderly →
    e'.scan.cancelled = false → e.run turns = some e' →
    e'.scan.queue.length + e'.rowsGot = e.scan.queue.length + e.rowsGot + total rowsSent e turns
  | [], e, e', _, _, h => by cases h; rfl
  | turn :: turns, e, e', O, hn, h => by
    simp only [run, Option.bind_eq_some_iff] at h
    obtain ⟨e₁, h₁, h₂⟩ := h
    have hn₁ : e₁.scan.cancelled = false := by
      cases hc : e₁.scan.cancelled with
      | false => rfl
      | true => rw [cancelled_run turns hc h₂] at hn; cases hn
    have hrest := rows_run turns (orderly_step O h₁) hn h₂
    have hfirst := rows_step O hn₁ h₁
    rw [total_cons h₁]
    omega

/-- **Never stuck.** On every schedule, whatever the store, the plan and the length of the queue:

* as long as a pull or the dropping of the scan is outstanding, the producer or the consumer can go
  on, and a producer that waits at a full queue can go on after the next step of the consumer; so the
  parties come to answer what is outstanding;
* a pull comes to the joining of the producer only when the producer has gone and every row it has
  sent is answered, and a scan that is dropped only when its queue is closed;
* once the flag is set, no row is sent any more but one that the producer has in hand, for which it
  had looked at the flag before, and the reader is pulled at most once. -/
theorem unstuck_of_run (store : Store) (slot : ReaderSlot) (plan : ScanPlan) (decoder : Decoder)
    {capacity : Nat} (hc : 1 ≤ capacity) (turns : List Turn) {e : Exchange}
    (h : (start store slot plan decoder capacity).run turns = some e) :
    (e.scan.Outstanding →
      ((e.step .producer).isSome ∨ (e.step .consumer).isSome) ∧
        (e.scan.Blocked e.slot →
          ∃ e₁, e.step .consumer = some e₁ ∧ (e₁.step .producer).isSome)) ∧
      (∃ steps e', (∀ turn ∈ steps, turn = .producer ∨ turn = .consumer) ∧
        e.run steps = some e' ∧ ¬ e'.scan.Outstanding) ∧
      (e.scan.consumer = .joining → e.scan.listening = false ∧ e.scan.queue = [] ∧ e.scan.Gone ∧
        total rowsSent (start store slot plan decoder capacity) turns = e.rowsGot) ∧
      (e.scan.consumer = .closing → e.scan.listening = false) ∧
      (e.scan.cancelled = true → ∀ later e', e.run later = some e' →
        total rowsSent e later ≤ e.rowInHand ∧ e.rowInHand ≤ 1 ∧ total readerPulls e later ≤ 1) := by
  have O₀ := FilteredScan.orderly_start store plan decoder capacity
  have O : e.scan.Orderly := orderly_run turns O₀ h
  have hk : 1 ≤ e.scan.capacity := by rw [capacity_run turns h]; exact hc
  refine ⟨fun ho => ⟨?_, fun hb => ?_⟩, answered_of_orderly e O hk, fun hw => ?_,
    fun hw => O.closes (.inl hw), fun hflag later e' hrun => ?_⟩
  · simp only [step, Option.isSome_map]
    exact FilteredScan.step_of_outstanding O hk ho e.slot
  · obtain ⟨answer, scan, hs, hp⟩ := FilteredScan.released_of_blocked O hk ho hb
    exact ⟨_, by simp only [step, hs, Option.map_some]; rfl, by simpa only [step, Option.isSome_map]⟩
  · obtain ⟨hl, -, hg⟩ := O.joins hw
    have hn : e.scan.cancelled = false := by
      rw [Bool.eq_false_iff, ne_eq, O.flag, hw]; simp
    have hrows := rows_run turns O₀ hn h
    rw [O.empty hl] at hrows
    refine ⟨hl, O.empty hl, hg, ?_⟩
    simpa [start, FilteredScan.start, rowsGot] using hrows.symm
  · obtain ⟨hrows, hpulls⟩ := total_of_cancelled hflag hrun
    refine ⟨hrows, ?_, Nat.le_trans hpulls e.pullAhead_le⟩
    unfold rowInHand
    split <;> decide

/-- The producer has its first row when the scan is dropped. -/
def droppedTurns : List Turn :=
  [.producer, .producer, .producer, .producer, .producer, .producer, .producer, .producer,
   .producer, .drop]

theorem unstuck_of_run_sample : ∃ decoder e,
    Decoder.ofPlan sampleStore samplePlan = .ok decoder ∧
      (start sampleStore .free samplePlan decoder 1).run droppedTurns = some e ∧
      e.scan.Outstanding ∧ e.rowInHand = 1 ∧
      ((e.step .producer).isSome ∨ (e.step .consumer).isSome) ∧
      ∀ later e', e.run later = some e' →
        total rowsSent e later ≤ e.rowInHand ∧ total readerPulls e later ≤ 1 := by
  obtain ⟨decoder, hd⟩ : ∃ decoder, Decoder.ofPlan sampleStore samplePlan = .ok decoder := ⟨_, rfl⟩
  have hstate : ((Decoder.ofPlan sampleStore samplePlan).toOption.bind fun decoder =>
      ((start sampleStore .free samplePlan decoder 1).run droppedTurns).map fun e =>
        (e.scan.consumer, e.scan.cancelled, e.rowInHand)) = some (.cancelling, true, 1) := rfl
  rw [hd, Except.toOption, Option.bind_some, Option.map_eq_some_iff] at hstate
  obtain ⟨e, he, hfields⟩ := hstate
  simp only [Prod.mk.injEq] at hfields
  obtain ⟨hw, hflag, hhand⟩ := hfields
  have ho : e.scan.Outstanding := by rw [FilteredScan.Outstanding, hw]; rfl
  obtain ⟨hstep, -, -, -, hlater⟩ :=
    unstuck_of_run sampleStore .free samplePlan decoder (Nat.le_refl 1) droppedTurns he
  exact ⟨decoder, e, hd, he, ho, hhand, (hstep ho).1, fun later e' h =>
    ⟨(hlater hflag later e' h).1, (hlater hflag later e' h).2.2⟩⟩

end Exchange
end SymbolTables
