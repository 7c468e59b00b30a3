import SymbolTables.Proofs.Store.RoundTrip

/-!
# A store file that has been cut off

The first `n` bytes of a written store, for any `n`. Where the header is not whole the file cannot be
opened. Otherwise the store is the same but for its records: `recordEnd` is where a record ends in
the written file, and the records of a symbol that end within `n` bytes are read as they were, the
first missing one as a failure.

* `readRecords_take`: reading records off a byte string that has been cut off.
* `wholeRecords_eq`: how many records of a symbol are left, counted by their length.
* `cut_of_run`: all of this for every writer and every `n`.
-/
namespace SymbolTables

/-! ## Records -/

/-- Of records one after the other those are read that are there as a whole; if that is not all of
them, a failure comes behind. -/
theorem StoreFile.readRecords_take (locator : String) {dimensions : Nat} (rest : Bytes) :
    ∀ {records : List Record} (m : Nat), (∀ r ∈ records, r.keys.length = dimensions) →
      readRecords locator dimensions records.length
          ((records.flatMap Record.encode ++ rest).take m) =
        (records.take (m / recordLength dimensions)).map .record ++
          if m / recordLength dimensions < records.length then [.failed (readFailure locator)]
          else []
  | [], m, _ => by simp [readRecords]
  | r :: records, m, h => by
    have hr := h r List.mem_cons_self
    have hlen : r.encode.length = recordLength dimensions := hr ▸ length_record_encode r
    have hpos : 0 < recordLength dimensions := by
      simp only [recordLength]
      omega
    simp only [List.length_cons, List.flatMap_cons, List.append_assoc]
    by_cases hm : m < recordLength dimensions
    · -- the first record is not there as a whole
      have hcut : Bytes.cut? (recordLength dimensions)
          ((r.encode ++ (records.flatMap Record.encode ++ rest)).take m) = none := by
        apply Bytes.cut?_eq_none
        rw [List.length_take]
        omega
      rw [Nat.div_eq_of_lt hm, readRecords, hcut]
      simp
    · -- it is, and the others have been cut off at `m` less its length
      have hm := Nat.le_of_not_lt hm
      have hdecode : Record.decode dimensions r.encode = r := hr ▸ Record.decode_encode r
      have ih := readRecords_take locator rest (m - recordLength dimensions)
        fun s hs => h s (List.mem_cons_of_mem r hs)
      have htake : (r.encode ++ (records.flatMap Record.encode ++ rest)).take m =
          r.encode ++ (records.flatMap Record.encode ++ rest).take (m - recordLength dimensions) := by
        rw [List.take_append, List.take_of_length_le (by omega), hlen]
      have hdiv : m / recordLength dimensions =
          (m - recordLength dimensions) / recordLength dimensions + 1 := by
        rw [← Nat.div_eq_sub_div hpos hm]
      rw [htake, readRecords, ← hlen, Bytes.cut?_append, hlen]
      simp only [hdecode]
      rw [ih, hdiv, List.take_succ_cons, List.map_cons, List.cons_append]
      simp only [Nat.add_lt_add_iff_right]

namespace StoreWriter

/-! ## Writers -/

/-- Records keep having as many keys as their symbol has dimensions. -/
theorem dimensions_apply {w : StoreWriter} (op : Operation)
    (h : ∀ s ∈ w.symbols, ∀ r ∈ s.records, r.keys.length = s.domains.length) :
    ∀ s ∈ (w.apply op).2.symbols, ∀ r ∈ s.records, r.keys.length = s.domains.length := by
  have hstep := step_apply w op
  generalize w.apply op = p at hstep ⊢
  cases hstep with
  | refused | label | acronym => exact h
  | symbol => exact records_append (P := fun s r => r.keys.length = s.domains.length) rfl h
  | record _ present dimensions =>
    exact records_appendRecord (P := fun s r => r.keys.length = s.domains.length) present
      dimensions h

theorem dimensions_run :
    ∀ (ops : List Operation) {w : StoreWriter},
      (∀ s ∈ w.symbols, ∀ r ∈ s.records, r.keys.length = s.domains.length) →
      ∀ s ∈ (w.run ops).symbols, ∀ r ∈ s.records, r.keys.length = s.domains.length
  | [], _, h => h
  | op :: ops, _, h => dimensions_run ops (dimensions_apply op h)

/-! ## Where records end -/

/-- The position behind the `j`-th record of a symbol in the written file: behind the header, the
records of the symbols before it, and `j + 1` records of its own. -/
def recordEnd (w : StoreWriter) (nr j : Nat) : Nat :=
  preambleLength + w.header.encode.length + (w.dataBefore nr).length +
    (((w.recordsOf nr).take (j + 1)).flatMap Record.encode).length

/-- How many records of a symbol lie wholly in the first `n` bytes of the written file. -/
def wholeRecords (w : StoreWriter) (nr n : Nat) : Nat :=
  (List.range (w.recordsOf nr).length).countP fun j => w.recordEnd nr j ≤ n

/-- Places at a distance of `width` from each other that lie below `n`. -/
theorem countP_range_le {width : Nat} (hwidth : 0 < width) (start n : Nat) :
    ∀ count, ((List.range count).countP fun j => start + (j + 1) * width ≤ n) =
      min count ((n - start) / width)
  | 0 => by simp
  | count + 1 => by
    have ih := countP_range_le hwidth start n count
    have hpos : 0 < (count + 1) * width := Nat.mul_pos (Nat.succ_pos count) hwidth
    have hle : start + (count + 1) * width ≤ n ↔ count + 1 ≤ (n - start) / width := by
      rw [Nat.le_div_iff_mul_le hwidth]
      omega
    rw [List.range_succ, List.countP_append, ih, List.countP_singleton]
    simp only [decide_eq_true_eq, hle]
    split <;> omega

section
variable {w : StoreWriter}
  (hdim : ∀ s ∈ w.symbols, ∀ r ∈ s.records, r.keys.length = s.domains.length)
  {nr : Nat} {s : PendingSymbol} (hs : w.symbols[nr]? = some s)
include hs

theorem recordsOf_eq : w.recordsOf nr = s.records := by
  simp only [recordsOf, hs]

/-- The file up to the end of a record ends with the bytes of that record. -/
theorem encode_suffix_recordEnd {j : Nat} {r : Record} (hr : s.records[j]? = some r) :
    r.encode <:+ w.toBytes.take (w.recordEnd nr j) := by
  obtain ⟨hlt, hget⟩ := List.getElem?_eq_some_iff.1 hr
  obtain ⟨hnr, hsymbol⟩ := List.getElem?_eq_some_iff.1 hs
  have hsymbols : w.symbols = w.symbols.take nr ++ s :: w.symbols.drop (nr + 1) := by
    rw [← hsymbol, ← List.drop_eq_getElem_cons hnr, List.take_append_drop]
  have hdata : w.data = w.dataBefore nr ++ ((s.records.take (j + 1)).flatMap Record.encode ++
      ((s.records.drop (j + 1)).flatMap Record.encode ++
        (w.symbols.drop (nr + 1)).flatMap fun s => s.records.flatMap Record.encode)) := by
    have hrecords : s.records.flatMap Record.encode =
        (s.records.take (j + 1)).flatMap Record.encode ++
          (s.records.drop (j + 1)).flatMap Record.encode := by
      rw [← List.flatMap_append, List.take_append_drop]
    rw [data]
    conv_lhs => rw [hsymbols]
    rw [List.flatMap_append, List.flatMap_cons, hrecords, List.append_assoc, dataBefore]
  have htake : w.toBytes.take (w.recordEnd nr j) =
      w.preamble ++ (w.header.encode ++
        (w.dataBefore nr ++ (s.records.take (j + 1)).flatMap Record.encode)) := by
    rw [toBytes_eq, hdata]
    simp only [← List.append_assoc]
    rw [List.append_assoc (w.preamble ++ _ ++ _ ++ _)]
    refine List.take_left' ?_
    simp only [recordEnd, recordsOf_eq hs, List.length_append, length_preamble]
  rw [htake, List.take_add_one, hr, Option.toList_some, List.flatMap_append, List.flatMap_singleton]
  simp only [← List.append_assoc]
  exact List.suffix_append _ _

include hdim

/-- The whole records of a symbol, counted by the length of a record. -/
theorem wholeRecords_eq (n : Nat) :
    w.wholeRecords nr n = min s.records.length
      ((n - (preambleLength + w.header.encode.length + (w.dataBefore nr).length)) /
        recordLength s.domains.length) := by
  have hmem : s ∈ w.symbols := List.mem_iff_getElem?.2 ⟨nr, hs⟩
  have hpos : 0 < recordLength s.domains.length := by
    simp only [recordLength]
    omega
  rw [← countP_range_le hpos, wholeRecords, recordsOf_eq hs]
  apply List.countP_congr
  intro j hj
  have hj := List.mem_range.1 hj
  have hlen : ((s.records.take (j + 1)).flatMap Record.encode).length =
      (j + 1) * recordLength s.domains.length := by
    rw [length_flatMap_encode fun r hr => hdim s hmem r (List.mem_of_mem_take hr),
      List.length_take, Nat.min_eq_left (by omega)]
  simp only [recordEnd, recordsOf_eq hs, hlen]

end

/-! ## Opening and reading -/

/-- What is left of an opened store when its file is cut off behind `n` bytes, under a system that lets
seek up to a limit. -/
structure CutOff (w : StoreWriter) (limit n : Nat) (whole cut : StoreFile) : Prop where
  /-- Labels, texts, acronyms and symbols are those of the whole file. -/
  header : cut.header = whole.header
  /-- The store differs in nothing but what its readers give. -/
  store : cut.storeUnder limit =
    { whole.storeUnder limit with start := (cut.storeUnder limit).start }
  /-- A symbol gives its whole records in order, and then one failure if there should be more. -/
  records : ∀ nr s, w.symbols[nr]? = some s → ∃ failure : Failure, failure.kind = .storage ∧
    (cut.storeUnder limit).readRaw .free nr =
      .ok ((s.records.take (w.wholeRecords nr n)).map .record ++
        (if w.wholeRecords nr n < s.records.length then [.failed failure] else []), ⟨true⟩)
  /-- Behind that there is nothing for ever. -/
  pastEnd : ∀ nr pulls, (cut.storeUnder limit).pastEnd nr pulls = none

section
variable {w : StoreWriter} (hr : w.HasRoom)
  (hdim : ∀ s ∈ w.symbols, ∀ r ∈ s.records, r.keys.length = s.domains.length)
include hr

/-- A file that ends in front of the end of its header cannot be opened. -/
theorem openBytes_take_error (locator : String) {n : Nat}
    (hn : n < preambleLength + w.header.encode.length) :
    ∃ fault, StoreFile.openBytes locator (w.toBytes.take n) = .error fault := by
  have hpre := length_preamble w
  by_cases hshort : n < preambleLength
  · refine ⟨.unreadable .endOfFile, ?_⟩
    have hcut : Bytes.cut? preambleLength (w.toBytes.take n) = none := by
      apply Bytes.cut?_eq_none
      rw [List.length_take]
      omega
    simp only [StoreFile.openBytes, hcut]
  · have htake : w.toBytes.take n =
        w.preamble ++ (w.header.encode ++ w.data).take (n - preambleLength) := by
      rw [toBytes_eq, List.take_append, List.take_of_length_le (by omega), hpre]
    have hcut : Bytes.cut? w.header.encode.length
        ((w.header.encode ++ w.data).take (n - preambleLength)) = none := by
      apply Bytes.cut?_eq_none
      rw [List.length_take]
      omega
    refine ⟨.headerTooLong w.header.encode.length (w.toBytes.take n).length, ?_⟩
    rw [htake, openBytes_preamble hr, openHeader, hcut]

include hdim

/-- Behind the header only records can be missing. -/
theorem openBytes_take_ok (locator : String) {n : Nat}
    (hn : preambleLength + w.header.encode.length ≤ n) :
    StoreFile.openBytes locator (w.toBytes.take n) =
      .ok { w.asFile locator with content := w.toBytes.take n } := by
  have htake : w.toBytes.take n = w.preamble ++ (w.header.encode ++
      w.data.take (n - (preambleLength + w.header.encode.length))) := by
    rw [toBytes_eq, ← List.append_assoc, List.take_append, List.take_of_length_le, List.append_assoc,
      List.length_append, length_preamble]
    rw [List.length_append, length_preamble]
    exact hn
  rw [htake]
  exact openBytes_header hr hdim locator _

omit hr in
/-- A symbol of a file that has been cut off gives its whole records, and then a failure. -/
theorem readRaw_take (locator : String) {limit : Nat} (hlimit : w.toBytes.length ≤ limit) (n : Nat)
    {nr : Nat} {s : PendingSymbol} (hs : w.symbols[nr]? = some s) :
    (StoreFile.storeUnder { w.asFile locator with content := w.toBytes.take n } limit).readRaw
        .free nr =
      .ok ((s.records.take (w.wholeRecords nr n)).map .record ++
        (if w.wholeRecords nr n < s.records.length then
          [.failed (StoreFile.readFailure locator)] else []), ⟨true⟩) := by
  obtain ⟨rest, hentry, hstart, hdrop⟩ := records_at hdim hs
  have hstart := Nat.le_trans hstart hlimit
  have hmem : s ∈ w.symbols := List.mem_iff_getElem?.2 ⟨nr, hs⟩
  have hrecords := StoreFile.readRecords_take locator rest
    (n - (preambleLength + w.header.encode.length + (w.dataBefore nr).length)) (hdim s hmem)
  have hless : ∀ q, min s.records.length q < s.records.length ↔ q < s.records.length := by
    omega
  have htake : ∀ q, s.records.take (min s.records.length q) = s.records.take q := by
    intro q
    rw [Nat.min_comm, ← List.take_take, List.take_length]
  refine readRaw_of_entry hentry ?_
  simp only [StoreFile.readEntry, asFile, PendingSymbol.entry, if_neg (Nat.not_lt.2 hstart),
    List.drop_take, hdrop, Symbol.dimensions, hrecords, wholeRecords_eq hdim hs n, hless, htake]

end

/-- **A cut store never yields wrong data.** Whatever operations have been applied to an empty
writer, some of them in vain, and wherever its file is cut off: in front of the end of the header the
file cannot be opened, and behind it the store, under any system that can hold the whole file, is the
same, every symbol gives the records that are wholly there, in order, and, if and only if some are not,
exactly one failure behind them. -/
theorem cut_of_run (ops : List Operation) {w : StoreWriter} (hw : empty.run ops = w)
    (hr : w.HasRoom) {limit : Nat} (hlimit : w.toBytes.length ≤ limit) (locator : String) (n : Nat) :
    (n < preambleLength + w.header.encode.length →
      ∃ fault, StoreFile.openBytes locator (w.toBytes.take n) = .error fault ∧
        (fault.toFailure locator).kind = .storage) ∧
    (preambleLength + w.header.encode.length ≤ n →
      ∃ whole cut, StoreFile.openBytes locator w.toBytes = .ok whole ∧
        StoreFile.openBytes locator (w.toBytes.take n) = .ok cut ∧ CutOff w limit n whole cut) ∧
    ∀ nr s j r, w.symbols[nr]? = some s → s.records[j]? = some r →
      r.encode <:+ w.toBytes.take (w.recordEnd nr j) := by
  have hdim : ∀ s ∈ w.symbols, ∀ r ∈ s.records, r.keys.length = s.domains.length := by
    rw [← hw]
    exact dimensions_run ops fun s hs => nomatch hs
  refine ⟨fun hn => ?_, fun hn => ?_, fun nr s j r hs hget => encode_suffix_recordEnd hs hget⟩
  · obtain ⟨fault, hfault⟩ := openBytes_take_error hr locator hn
    exact ⟨fault, hfault, rfl⟩
  · have hwhole := openBytes_header hr hdim locator w.data
    rw [← toBytes_eq] at hwhole
    refine ⟨_, _, hwhole, openBytes_take_ok hr hdim locator hn, ?_⟩
    exact {
      header := rfl
      store := rfl
      records := fun nr s hs =>
        ⟨StoreFile.readFailure locator, rfl, readRaw_take hdim locator hlimit n hs⟩
      pastEnd := fun _ _ => rfl }

/-- The set and the parameter with a second record, whose bytes end at 267. -/
def cutOperations : List Operation :=
  sampleOperations ++ [.value 1 ["a"] .zero]

theorem cut_of_run_sample :
    (empty.run cutOperations).HasRoom ∧
      ∃ whole cut, StoreFile.openBytes "sample" (empty.run cutOperations).toBytes = .ok whole ∧
        StoreFile.openBytes "sample" ((empty.run cutOperations).toBytes.take 266) = .ok cut ∧
        cut.header = whole.header ∧
        ∃ failure : Failure, failure.kind = .storage ∧
          cut.toStore.readRaw .free 1 =
            .ok ([.record ⟨[2], .ofLevel ⟨0x3FF0000000000000⟩⟩, .failed failure], ⟨true⟩) := by
  have hr : (empty.run cutOperations).HasRoom :=
    ⟨by decide, by decide, by decide, by decide, by decide +kernel⟩
  have hlimit : (empty.run cutOperations).toBytes.length ≤ StoreFile.seekLimit := by
    decide +kernel
  obtain ⟨-, hcut, -⟩ := cut_of_run cutOperations rfl hr hlimit "sample" 266
  obtain ⟨whole, cut, hwhole, hopen, h⟩ := hcut (by decide +kernel)
  obtain ⟨failure, hkind, hread⟩ := h.records 1 _ rfl
  refine ⟨hr, whole, cut, hwhole, hopen, h.header, failure, hkind, hread.trans ?_⟩
  have hcount : (empty.run cutOperations).wholeRecords 1 266 = 1 := by
    decide +kernel
  rw [hcount]
  rfl

end StoreWriter
end SymbolTables
