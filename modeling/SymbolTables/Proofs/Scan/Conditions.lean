import SymbolTables.Proofs.Scan.Stream

/-!
# What conditions on labels single out

A plan keeps one label for every dimension and the dimensions whose label must be empty, so of
several conditions with a label on the same dimension only the last is in force (`inForce`).

* `ofColumns_ok`, `wants_iff`: a plan looks for the conditions in force.
* `satisfies_inForce_iff`: for which lists of conditions those in force say the same as all of them.
* `rows_of_conditions`: the rows of a stream are those of the records that satisfy the conditions in
  force, one each and in store order.
-/
namespace SymbolTables

/-- The records of a symbol, up to the first failure of its reader. -/
def Store.records (s : Store) (nr : Nat) : List Record :=
  match s.start nr with
  | .ok reader => reader.records
  | .error _ => []

namespace ColumnCondition

/-- Whether labels are as all the conditions want them. -/
def satisfies (labels : Nat → Option String) (conditions : List ColumnCondition) : Bool :=
  conditions.all fun c => labels c.column == some c.value

theorem satisfies_iff {labels : Nat → Option String} {conditions : List ColumnCondition} :
    satisfies labels conditions = true ↔ ∀ c ∈ conditions, labels c.column = some c.value := by
  simp [satisfies]

/-- Whether a condition wants a label in the column, and not the empty one. -/
def labels (column : Nat) (conditions : List ColumnCondition) : Prop :=
  ∃ c ∈ conditions, c.column = column ∧ c.value ≠ ""

instance (column : Nat) (conditions : List ColumnCondition) :
    Decidable (labels column conditions) :=
  inferInstanceAs (Decidable (∃ c ∈ conditions, _))

theorem labels_cons {column : Nat} {c : ColumnCondition} {rest : List ColumnCondition} :
    labels column (c :: rest) ↔ (c.column = column ∧ c.value ≠ "") ∨ labels column rest := by
  simp [labels]

protected theorem ext_iff {c d : ColumnCondition} :
    c = d ↔ c.column = d.column ∧ c.value = d.value := by
  cases c; cases d; simp

/-- The conditions in force: a label that is wanted gives way to one that is wanted later. -/
def inForce : List ColumnCondition → List ColumnCondition
  | [] => []
  | c :: rest =>
    if c.value ≠ "" ∧ labels c.column rest then inForce rest else c :: inForce rest

/-- Conditions of which none is lost: no two labels are wanted in one column, or none could be found
anyway because it has to be empty as well. -/
def Coherent (conditions : List ColumnCondition) : Prop :=
  (∀ c ∈ conditions, ∀ d ∈ conditions, c.column = d.column → c.value ≠ "" → d.value ≠ "" →
    c.value = d.value) ∨
  ∃ c ∈ conditions, ∃ d ∈ conditions, c.column = d.column ∧ c.value = "" ∧ d.value ≠ ""

/-! ## The conditions in force -/

theorem inForce_subset : ∀ {conditions : List ColumnCondition}, inForce conditions ⊆ conditions
  | [] => List.Subset.refl _
  | c :: rest => by
    unfold inForce
    split
    · exact fun d hd => List.mem_cons_of_mem _ (inForce_subset hd)
    · exact List.cons_subset_cons _ inForce_subset

/-- A condition is in force, or its column has a label in force. -/
theorem mem_inForce_or {c : ColumnCondition} :
    ∀ {conditions : List ColumnCondition}, c ∈ conditions →
      c ∈ inForce conditions ∨ c.value ≠ "" ∧ labels c.column (inForce conditions)
  | d :: rest, h => by
    unfold inForce
    split
    · rename_i hd
      rcases List.mem_cons.1 h with rfl | h
      · obtain ⟨hc, e, he, hcol, hval⟩ := hd
        rcases mem_inForce_or he with hf | hf
        · exact .inr ⟨hc, e, hf, hcol, hval⟩
        · exact .inr ⟨hc, hcol ▸ hf.2⟩
      · exact mem_inForce_or h
    · rcases List.mem_cons.1 h with rfl | h
      · exact .inl List.mem_cons_self
      · rcases mem_inForce_or h with hf | ⟨hc, e, he, hcol, hval⟩
        · exact .inl (List.mem_cons_of_mem _ hf)
        · exact .inr ⟨hc, e, List.mem_cons_of_mem _ he, hcol, hval⟩

/-- No two labels are in force in one column. -/
theorem eq_of_mem_inForce {c d : ColumnCondition} (hcol : c.column = d.column) (hcv : c.value ≠ "")
    (hdv : d.value ≠ "") :
    ∀ {conditions : List ColumnCondition}, c ∈ inForce conditions → d ∈ inForce conditions → c = d
  | [], hc, _ => nomatch hc
  | first :: rest, hc, hd => by
    unfold inForce at hc hd
    split at hc
    · rename_i hf
      rw [if_pos hf] at hd
      exact eq_of_mem_inForce hcol hcv hdv hc hd
    · rename_i hf
      rw [if_neg hf] at hd
      rcases List.mem_cons.1 hc with hc | hc <;> rcases List.mem_cons.1 hd with hd | hd
      · exact hc.trans hd.symm
      · exact absurd ⟨hc ▸ hcv, d, inForce_subset hd, by rw [← hcol, hc], hdv⟩ hf
      · exact absurd ⟨hd ▸ hdv, c, inForce_subset hc, by rw [hcol, hd], hcv⟩ hf
      · exact eq_of_mem_inForce hcol hcv hdv hc hd

theorem satisfies_inForce_of_satisfies {labels : Nat → Option String}
    {conditions : List ColumnCondition} (h : satisfies labels conditions = true) :
    satisfies labels (inForce conditions) = true :=
  satisfies_iff.2 fun c hc => satisfies_iff.1 h c (inForce_subset hc)

theorem satisfies_of_coherent {conditions : List ColumnCondition} (hco : Coherent conditions)
    {labels : Nat → Option String} (h : satisfies labels (inForce conditions) = true) :
    satisfies labels conditions = true := by
  rw [satisfies_iff] at h ⊢
  intro c hc
  rcases hco with hsame | ⟨e, he, n, hn, hcol, hev, hnv⟩
  · rcases mem_inForce_or hc with hf | ⟨hcv, d, hd, hcol, hdv⟩
    · exact h c hf
    · rw [hsame c hc d (inForce_subset hd) hcol.symm hcv hdv, ← hcol]
      exact h d hd
  · -- an empty label and another one are both in force, which no label satisfies
    have hempty : labels e.column = some "" := by
      rcases mem_inForce_or he with hf | ⟨hv, -⟩
      · rw [h e hf, hev]
      · exact absurd hev hv
    have : ∃ d ∈ inForce conditions, d.column = n.column ∧ d.value ≠ "" := by
      rcases mem_inForce_or hn with hf | ⟨-, hf⟩
      · exact ⟨n, hf, rfl, hnv⟩
      · exact hf
    obtain ⟨d, hd, hdcol, hdv⟩ := this
    have hlabel := h d hd
    rw [hdcol, ← hcol, hempty] at hlabel
    exact absurd (Option.some.inj hlabel).symm hdv

/-- Labels that satisfy the conditions in force, when no column is to be empty and labelled. -/
theorem exists_satisfies_inForce {conditions : List ColumnCondition}
    (h : ∀ c ∈ conditions, ∀ d ∈ conditions, c.column = d.column → c.value = "" → d.value = "") :
    ∃ labels, satisfies labels (inForce conditions) = true := by
  refine ⟨fun column => ((inForce conditions).find? (·.column == column)).map (·.value), ?_⟩
  rw [satisfies_iff]
  intro c hc
  cases hf : (inForce conditions).find? (·.column == c.column) with
  | none => exact absurd (List.find?_eq_none.1 hf c hc) (by simp)
  | some d =>
    have hd := List.mem_of_find?_eq_some hf
    have hcol : d.column = c.column := by simpa using List.find?_some hf
    have heq : d.value = c.value := by
      by_cases hdv : d.value = ""
      · rw [hdv, h d (inForce_subset hd) c (inForce_subset hc) hcol hdv]
      · by_cases hcv : c.value = ""
        · exact absurd (h c (inForce_subset hc) d (inForce_subset hd) hcol.symm hcv) hdv
        · rw [eq_of_mem_inForce hcol hdv hcv hd hc]
    simp only [Option.map_some, heq]

/-- **When a conjunction is one.** The conditions in force say the same as all of them, whatever the
labels are, exactly for coherent lists of conditions. -/
theorem satisfies_inForce_iff {conditions : List ColumnCondition} :
    (∀ labels, satisfies labels (inForce conditions) = satisfies labels conditions) ↔
      Coherent conditions := by
  constructor
  · intro h
    by_cases hmixed : ∃ c ∈ conditions, ∃ d ∈ conditions,
        c.column = d.column ∧ c.value = "" ∧ d.value ≠ ""
    · exact .inr hmixed
    · have hpure : ∀ c ∈ conditions, ∀ d ∈ conditions, c.column = d.column → c.value = "" →
          d.value = "" := fun c hc d hd hcol hcv =>
        Decidable.byContradiction fun hdv => hmixed ⟨c, hc, d, hd, hcol, hcv, hdv⟩
      obtain ⟨labels, hl⟩ := exists_satisfies_inForce hpure
      rw [h, satisfies_iff] at hl
      refine .inl fun c hc d hd hcol _ _ => ?_
      have heq := hl c hc
      rw [hcol, hl d hd] at heq
      exact (Option.some.inj heq).symm
  · intro hco labels
    rw [Bool.eq_iff_iff]
    exact ⟨satisfies_of_coherent hco, satisfies_inForce_of_satisfies⟩

end ColumnCondition

/-! ## Plans -/

namespace ScanPlan

open ColumnCondition

/-- A condition is on a dimension; it adds to the dimensions that have to be empty, or to the labels
that are looked for. -/
theorem restrict_ok {schema : Schema} {filter filter' : List String} {empties empties' : List Nat}
    {c : ColumnCondition} (h : restrict schema (filter, empties) c = .ok (filter', empties')) :
    c.column < schema.dimensions ∧
      (c.value = "" ∧ filter' = filter ∧ (∀ k, k ∈ empties' ↔ k ∈ empties ∨ k = c.column) ∨
        c.value ≠ "" ∧ filter' = filter.set c.column c.value ∧ empties' = empties) := by
  unfold restrict at h
  split at h
  · cases h
  · rename_i hdim
    refine ⟨by simpa [Schema.isDimension] using hdim, ?_⟩
    split at h
    · rename_i hv
      simp only [Except.ok.injEq, Prod.mk.injEq] at h
      obtain ⟨rfl, rfl⟩ := h
      refine .inl ⟨hv, rfl, fun k => ?_⟩
      split
      · rename_i hm
        exact ⟨.inl, fun hk => hk.elim id fun hk => hk ▸ hm⟩
      · simp
    · rename_i hv
      simp only [Except.ok.injEq, Prod.mk.injEq] at h
      exact .inr ⟨hv, h.1.symm, h.2.symm⟩

/-- What the conditions make of a filter. -/
theorem foldlM_restrict {schema : Schema} :
    ∀ {conditions : List ColumnCondition} {filter filter' : List String}
      {empties empties' : List Nat}, schema.dimensions ≤ filter.length →
      conditions.foldlM (restrict schema) (filter, empties) = .ok (filter', empties') →
      (∀ c ∈ conditions, c.column < schema.dimensions) ∧
        (∀ k, k ∈ empties' ↔ k ∈ empties ∨ ⟨k, ""⟩ ∈ conditions) ∧
        ∀ k w, w ≠ "" → (filter'[k]? = some w ↔
          ⟨k, w⟩ ∈ inForce conditions ∨ filter[k]? = some w ∧ ¬ labels k conditions)
  | [], filter, filter', empties, empties', _, h => by
    cases h
    simp [inForce, labels]
  | c :: rest, filter, filter', empties, empties', hlen, h => by
    rw [List.foldlM_cons] at h
    cases hc : restrict schema (filter, empties) c with
    | error f => rw [hc] at h; cases h
    | ok p =>
      obtain ⟨filter₁, empties₁⟩ := p
      rw [hc] at h
      obtain ⟨hdim, hstep⟩ := restrict_ok hc
      have hlen₁ : schema.dimensions ≤ filter₁.length := by
        rcases hstep with ⟨-, rfl, -⟩ | ⟨-, rfl, -⟩ <;> simpa using hlen
      obtain ⟨hcols, hemp, hfil⟩ := foldlM_restrict hlen₁ h
      refine ⟨List.forall_mem_cons.2 ⟨hdim, hcols⟩, fun k => ?_, fun k w hw => ?_⟩
      · rw [hemp, List.mem_cons]
        rcases hstep with ⟨hv, -, he⟩ | ⟨hv, -, rfl⟩
        · rw [he, ColumnCondition.ext_iff]
          simp only [hv, and_true, or_assoc]
        · have : (⟨k, ""⟩ : ColumnCondition) ≠ c := fun he => hv (he ▸ rfl)
          simp only [this, false_or]
      · rw [hfil k w hw, inForce, labels_cons]
        rcases hstep with ⟨hv, rfl, -⟩ | ⟨hv, rfl, -⟩
        · have : (⟨k, w⟩ : ColumnCondition) ≠ c := fun he => hw (by rw [← hv, ← he])
          simp [hv, this]
        · rw [List.getElem?_set]
          by_cases hk : c.column = k
          · subst hk
            have hin : c.column < filter.length := Nat.lt_of_lt_of_le hdim hlen
            by_cases hl : labels c.column rest
            · simp [hl, hv]
            · have : (⟨c.column, w⟩ : ColumnCondition) = c ↔ c.value = w := by
                rw [ColumnCondition.ext_iff]; simp [eq_comm]
              simp [hl, hv, hin, this, or_comm]
          · have : (⟨k, w⟩ : ColumnCondition) ≠ c := fun he => hk (by rw [← he])
            by_cases hl : labels c.column rest <;> simp [hl, hv, hk, this]

section
variable {nr : Nat} {schema : Schema} {selected : List Nat} {conditions : List ColumnCondition}
  {plan : ScanPlan}

/-- What a plan takes over from the conditions. -/
theorem ofColumns_ok (h : ofColumns nr schema selected conditions = .ok plan) :
    plan.symbol = nr ∧ plan.schema = schema ∧ plan.filtered = !conditions.isEmpty ∧
      (∀ c ∈ conditions, c.column < schema.dimensions) ∧
      (∀ k, k ∈ plan.emptyDimensions ↔ ⟨k, ""⟩ ∈ conditions) ∧
      ∀ k w, w ≠ "" → (plan.filter[k]? = some w ↔ ⟨k, w⟩ ∈ inForce conditions) := by
  unfold ofColumns at h
  cases hs : select (List.replicate schema.width false) selected with
  | error f => rw [hs] at h; cases h
  | ok marks =>
    cases hf : conditions.foldlM (restrict schema) (List.replicate schema.dimensions "", []) with
    | error f => rw [hs, hf] at h; cases h
    | ok p =>
      obtain ⟨filter, empties⟩ := p
      simp only [hs, hf, bind, Except.bind, pure, Except.pure, Except.ok.injEq] at h
      subst h
      obtain ⟨hcols, hemp, hfil⟩ := foldlM_restrict (by simp) hf
      refine ⟨rfl, rfl, rfl, hcols, fun k => by simp [hemp], fun k w hw => ?_⟩
      rw [hfil k w hw, List.getElem?_replicate]
      have : ¬ (if k < schema.dimensions then some "" else none) = some w := by
        split <;> simp [Ne.symm hw]
      simp [this]

end

end ScanPlan

/-! ## Records -/

namespace Store

/-- A record matches a filter if it has every label that the filter wants. -/
theorem keysMatch_iff {s : Store} :
    ∀ {filter : List String} {keys : List Int32}, s.keysMatch filter keys = true ↔
      ∀ (k : Nat) (w : String), w ≠ "" → filter[k]? = some w → keys[k]?.bind s.label = some w
  | [], keys => by simp [keysMatch]
  | wanted :: filter, keys => by
    rw [keysMatch, Bool.and_eq_true, keysMatch_iff, keyMatches, Bool.or_eq_true, beq_iff_eq,
      beq_iff_eq, List.head?_eq_getElem?]
    constructor
    · rintro ⟨hhead, htail⟩ (_ | k) w hw hk
      · simp only [List.getElem?_cons_zero, Option.some.injEq] at hk
        subst hk
        exact hhead.resolve_left hw
      · have := htail k w hw hk
        rwa [List.getElem?_tail] at this
    · intro h
      refine ⟨?_, fun k w hw hk => ?_⟩
      · by_cases hw : wanted = ""
        · exact .inl hw
        · exact .inr (h 0 wanted hw rfl)
      · rw [List.getElem?_tail]
        exact h (k + 1) w hw hk

end Store

open ColumnCondition

section
variable {nr : Nat} {schema : Schema} {selected : List Nat} {conditions : List ColumnCondition}
  {plan : ScanPlan} {store : Store}

/-- A scan looks closer at the records that have every label in force. -/
theorem ScanPlan.wants_iff (h : ofColumns nr schema selected conditions = .ok plan) (r : Record) :
    plan.wants store r = true ↔
      ∀ c ∈ inForce conditions, c.value ≠ "" → store.labelAt r c.column = some c.value := by
  obtain ⟨-, -, hf, -, -, hfil⟩ := ofColumns_ok h
  rw [wants, hf, Bool.not_not, Bool.or_eq_true, Store.recordMatches, Store.keysMatch_iff]
  constructor
  · rintro (he | hk) c hc hv
    · rw [List.isEmpty_iff.1 he] at hc; cases hc
    · exact hk c.column c.value hv ((hfil _ _ hv).2 hc)
  · intro hc
    exact .inr fun k w hw hk => hc ⟨k, w⟩ ((hfil k w hw).1 hk) hw

/-- The records that give a row satisfy the conditions in force, and those that are passed over or
discarded do not. -/
theorem satisfies_of_plan (h : ScanPlan.ofColumns nr schema selected conditions = .ok plan)
    {decoder : Decoder} (hd : Decoder.ofPlan store plan = .ok decoder) (r : Record) :
    (∀ row, plan.wants store r = true → decoder.rowOf r = .ok row →
        satisfies (store.labelAt r) (inForce conditions) = true) ∧
      (plan.wants store r = false → satisfies (store.labelAt r) (inForce conditions) = false) ∧
      (decoder.rowOf r = .error .discarded →
        satisfies (store.labelAt r) (inForce conditions) = false) := by
  obtain ⟨-, hschema, -, hcols, hemp, -⟩ := ScanPlan.ofColumns_ok h
  obtain ⟨hstore, hdim, hdec, -⟩ := Decoder.ofPlan_ok hd
  refine ⟨fun row hw hrow => ?_, fun hw => ?_, fun hrow => ?_⟩
  · rw [satisfies_iff]
    intro c hc
    by_cases hv : c.value = ""
    · have hcd : c.column < decoder.schema.dimensions := by
        rw [hdim, hschema]; exact hcols c (inForce_subset hc)
      obtain ⟨label, hl, hempty⟩ := Decoder.labelAt_of_rowOf hrow hcd
      rw [← hstore, hl, hv, hempty (by rw [hdec, hemp, ← hv]; exact inForce_subset hc)]
    · exact (ScanPlan.wants_iff h r).1 hw c hc hv
  · rw [Bool.eq_false_iff, Ne, satisfies_iff]
    intro hs
    have hw' : plan.wants store r = true := (ScanPlan.wants_iff h r).2 fun c hc _ => hs c hc
    rw [hw] at hw'; cases hw'
  · obtain ⟨k, hk, label, hl, hne⟩ := Decoder.labelAt_of_discarded hrow
    rw [hdec, hemp] at hk
    rw [Bool.eq_false_iff, Ne, satisfies_iff]
    intro hs
    have hc : (⟨k, ""⟩ : ColumnCondition) ∈ inForce conditions :=
      (mem_inForce_or hk).resolve_right fun hf => hf.1 rfl
    have := hs _ hc
    rw [← hstore, hl] at this
    exact hne (Option.some.inj this)

/-- **What a scan with conditions shows.** The rows that are pulled at a stream are those of the
first records of the symbol that satisfy the conditions in force, one row each and in store order,
and of all of them if the stream comes to its end; then the reader has given nothing but records. To
satisfy the conditions in force is to satisfy all of them exactly for coherent lists of conditions.
-/
theorem rows_of_conditions (h : ScanPlan.ofColumns nr schema selected conditions = .ok plan)
    {slot slot' : ReaderSlot} {capacity : Nat} {stream : RowStream}
    (hs : RowStream.start store slot plan capacity = .ok (stream, slot')) (n : Nat)
    (slot₁ : ReaderSlot) :
    (∃ decoder taken, Decoder.ofPlan store plan = .ok decoder ∧
      taken <+: (store.records nr).filter
        (fun r => satisfies (store.labelAt r) (inForce conditions)) ∧
      taken.map (fun r => (decoder.decode r).1) = (stream.take n slot₁).1.map .ok ∧
      ((stream.take n slot₁).2.1 = .finished →
        taken = (store.records nr).filter
            (fun r => satisfies (store.labelAt r) (inForce conditions)) ∧
          store.start nr = .ok ((store.records nr).map .record))) ∧
      ((∀ labels, satisfies labels (inForce conditions) = satisfies labels conditions) ↔
        Coherent conditions) := by
  refine ⟨?_, satisfies_inForce_iff⟩
  obtain ⟨decoder, rows, last, hd, hb, hrows⟩ := RowStream.brings_start hs
  obtain ⟨htake, hend⟩ := RowStream.take_of_brings n hb slot₁
  have hdecode : (fun r => (decoder.decode r).1) = decoder.rowOf :=
    funext fun r => Decoder.decode_fst (Decoder.agrees_ofPlan hd) r
  have hlast : (stream.take n slot₁).2.1 = .finished → last = none ∧ rows.length < n := by
    rw [hend]
    intro he
    split at he
    · rename_i hlt
      exact ⟨RowStream.eq_none_of_finished (RowStream.last_of_brings hb) he, hlt⟩
    · cases he
  obtain rfl : plan.symbol = nr := (ScanPlan.ofColumns_ok h).1
  rcases hrows with ⟨rfl, hne⟩ | ⟨reader, hr, rfl, hcompleted⟩
  · refine ⟨decoder, [], hd, List.nil_prefix, by rw [htake, List.take_nil]; rfl, fun he => ?_⟩
    exact absurd (hlast he).1 hne
  · have hsat := fun r => satisfies_of_plan h hd r
    obtain ⟨taken, hp, hm, hc⟩ := Reader.rows_records (fun r row => (hsat r).1 row)
      (fun r => (hsat r).2.1) (fun r _ => (hsat r).2.2) reader
    have hrecords : store.records plan.symbol = reader.records := by simp only [Store.records, hr]
    rw [hrecords, hr]
    refine ⟨decoder, taken.take n, hd, (List.take_prefix n taken).trans hp, ?_, fun he => ?_⟩
    · rw [hdecode, htake, List.map_take, List.map_take, hm]
    · obtain ⟨hnone, hlt⟩ := hlast he
      obtain ⟨htaken, hreader⟩ := hc (hcompleted hnone)
      have hlen : taken.length ≤ n := by
        have := congrArg List.length hm
        simp only [List.length_map] at this
        omega
      rw [List.take_of_length_le hlen, ← hreader]
      exact ⟨htaken, rfl⟩

end

/-- `i = 'b'` and `i = 'a'`. -/
def sampleConditions : List ColumnCondition := [⟨0, "b"⟩, ⟨0, "a"⟩]

/-- Of two labels for one column the second alone is in force: two records of the sample store are
labelled `a` there, and none is labelled `a` and `b`. -/
theorem rows_of_conditions_sample : ∃ plan stream slot,
    ScanPlan.ofColumns 0 Exchange.samplePlan.schema [0] sampleConditions = .ok plan ∧
      RowStream.start Exchange.sampleStore .free plan 1 = .ok (stream, slot) ∧
      inForce sampleConditions = [⟨0, "a"⟩] ∧
      (∃ decoder taken, Decoder.ofPlan Exchange.sampleStore plan = .ok decoder ∧
        taken <+: (Exchange.sampleStore.records 0).filter
          (fun r => satisfies (Exchange.sampleStore.labelAt r) (inForce sampleConditions)) ∧
        taken.map (fun r => (decoder.decode r).1) = (stream.take 2 slot).1.map .ok ∧
        ((stream.take 2 slot).2.1 = .finished →
          taken = (Exchange.sampleStore.records 0).filter
              (fun r => satisfies (Exchange.sampleStore.labelAt r) (inForce sampleConditions)) ∧
            Exchange.sampleStore.start 0 =
              .ok ((Exchange.sampleStore.records 0).map .record))) ∧
      ((∀ labels, satisfies labels (inForce sampleConditions) =
          satisfies labels sampleConditions) ↔ Coherent sampleConditions) :=
  ⟨_, _, _, rfl, rfl, by decide,
    @rows_of_conditions 0 Exchange.samplePlan.schema [0] sampleConditions _ Exchange.sampleStore rfl
      _ _ _ _ rfl 2 _⟩

end SymbolTables
