import SymbolTables.Access.Session
import SymbolTables.Proofs.Store.HeaderExact
import SymbolTables.Proofs.Store.RecordBlock

/-!
# Reading any file that can be opened

`Proofs.Store.RoundTrip` reads what a writer has written. Here the file may be anything that opening
accepts: a header may promise more records than there are, or let them start anywhere, inside the
records of another symbol or behind the end of the file.

* `openBytes_ok`: what opening has found.
* `Record.encode_decode`: a block is the encoding of the record it is read as.
* `readRecords_getElem?`: what stands at each place of a reader, by the length of the bytes.
* `RecordReader.brought_eq`: a reader that takes one record after the other brings what
  `readRecords` lists, and nothing behind it.
* `OpenReader.pulled_eq`: what the pulls at a reader bring, one after the other.
* `reads_of_openBytes`: all of this for every file, symbol and limit of what can be sought.
-/
namespace SymbolTables

/-! ## Blocks -/

/-- The `i`-th of the blocks of one width, counted from 0. -/
def Bytes.block (width i : Nat) (bytes : Bytes) : Bytes := (bytes.drop (i * width)).take width

section
variable {width i : Nat} {bytes : Bytes}

theorem Bytes.block_succ :
    Bytes.block width (i + 1) bytes = Bytes.block width i (bytes.drop width) := by
  unfold block
  rw [List.drop_drop, Nat.succ_mul, Nat.add_comm]

theorem Bytes.length_block (h : i < bytes.length / width) :
    (Bytes.block width i bytes).length = width := by
  have hfits : (i + 1) * width ≤ bytes.length :=
    Nat.le_trans (Nat.mul_le_mul_right width h) (Nat.div_mul_le_self bytes.length width)
  rw [Nat.succ_mul] at hfits
  rw [block, List.length_take, List.length_drop]
  omega

end

theorem encodeKey_decodeKey {bytes : Bytes} (h : bytes.length = 4) :
    encodeKey (decodeKey bytes) = bytes := by
  have hlt : Bytes.toNat bytes < 2 ^ 32 := by
    have := Bytes.toNat_lt bytes
    rwa [h] at this
  rw [encodeKey, decodeKey, UInt32.toUInt32_toInt32, UInt32.toNat_ofNat', Nat.mod_eq_of_lt hlt, ← h,
    Bytes.ofNat_toNat]

theorem encodeNumber_decodeNumber {bytes : Bytes} (h : bytes.length = 8) :
    encodeNumber (decodeNumber bytes) = bytes := by
  have hlt : Bytes.toNat bytes < 2 ^ 64 := by
    have := Bytes.toNat_lt bytes
    rwa [h] at this
  rw [encodeNumber, decodeNumber, UInt64.toNat_ofNat', Nat.mod_eq_of_lt hlt, ← h, Bytes.ofNat_toNat]

theorem length_decodeKeys : ∀ (dimensions : Nat) (bytes : Bytes),
    (decodeKeys dimensions bytes).length = dimensions
  | 0, _ => rfl
  | dimensions + 1, bytes => congrArg (· + 1) (length_decodeKeys dimensions (bytes.drop 4))

theorem encode_decodeKeys : ∀ (dimensions : Nat) {bytes : Bytes}, 4 * dimensions ≤ bytes.length →
    (decodeKeys dimensions bytes).flatMap encodeKey = bytes.take (4 * dimensions)
  | 0, _, _ => rfl
  | dimensions + 1, bytes, h => by
    have hkey : (bytes.take 4).length = 4 := by
      rw [List.length_take]
      omega
    have hrest : 4 * dimensions ≤ (bytes.drop 4).length := by
      rw [List.length_drop]
      omega
    rw [decodeKeys, List.flatMap_cons, encodeKey_decodeKey hkey, encode_decodeKeys dimensions hrest,
      Nat.mul_succ, Nat.add_comm, List.take_add]

theorem Slots.encode_decode {bytes : Bytes} (h : bytes.length = 40) :
    (Slots.decode bytes).encode = bytes := by
  have hslot (s : Slot) : encodeNumber ((Slots.decode bytes).get s) =
      (bytes.drop (8 * s.index)).take 8 := by
    have hlength : ((bytes.drop (8 * s.index)).take 8).length = 8 := by
      rw [List.length_take, List.length_drop]
      cases s <;> simp [Slot.index, h]
    have hget : (Slots.decode bytes).get s = decodeSlot bytes s := by cases s <;> rfl
    rw [hget, decodeSlot, encodeNumber_decodeNumber hlength]
  have hjoin (n : Nat) : (bytes.drop n).take 8 ++ bytes.drop (n + 8) = bytes.drop n := by
    rw [← List.drop_drop, List.take_append_drop]
  have hend : bytes.drop 40 = [] := List.drop_eq_nil_of_le (by omega)
  simp only [Slots.encode, Slot.all, List.flatMap_cons, List.flatMap_nil, hslot, Slot.index]
  rw [← hend, hjoin 32, hjoin 24, hjoin 16, hjoin 8, hjoin 0, List.drop_zero]

/-- A block is what is written for the record it is read as. -/
theorem Record.encode_decode {dimensions : Nat} {block : Bytes}
    (h : block.length = recordLength dimensions) :
    (Record.decode dimensions block).encode = block := by
  unfold recordLength at h
  have hvalues : (block.drop (4 * dimensions)).length = 40 := by
    rw [List.length_drop]
    omega
  rw [Record.encode, Record.decode, encode_decodeKeys dimensions (by omega),
    Slots.encode_decode hvalues, List.take_append_drop]

namespace StoreFile

/-- A reader has as many records as it should have and as there are blocks; if the bytes are not
enough, a failure stands behind them. -/
theorem readRecords_getElem? (locator : String) (dimensions : Nat) :
    ∀ (n : Nat) (bytes : Bytes) (i : Nat),
      (readRecords locator dimensions n bytes)[i]? =
        if i < min n (bytes.length / recordLength dimensions) then
          some (.record (Record.decode dimensions (Bytes.block (recordLength dimensions) i bytes)))
        else if i = bytes.length / recordLength dimensions ∧ i < n then
          some (.failed (readFailure locator))
        else none
  | 0, _, i => by simp [readRecords]
  | n + 1, bytes, i => by
    have hpos : 0 < recordLength dimensions := by
      unfold recordLength
      omega
    by_cases hshort : bytes.length < recordLength dimensions
    · rw [readRecords, Bytes.cut?_eq_none hshort, Nat.div_eq_of_lt hshort]
      cases i <;> simp
    · have hlength := Nat.le_of_not_lt hshort
      have hcut : Bytes.cut? (recordLength dimensions) bytes =
          some (bytes.take (recordLength dimensions), bytes.drop (recordLength dimensions)) :=
        if_pos (by rw [List.length_take]; omega)
      have hblocks : bytes.length / recordLength dimensions =
          (bytes.drop (recordLength dimensions)).length / recordLength dimensions + 1 := by
        rw [List.length_drop, ← Nat.div_eq_sub_div hpos hlength]
      rw [readRecords, hcut, hblocks]
      cases i with
      | zero =>
        have hfirst : Bytes.block (recordLength dimensions) 0 bytes =
            bytes.take (recordLength dimensions) := by
          rw [Bytes.block, Nat.zero_mul, List.drop_zero]
        rw [hfirst, if_pos (Nat.lt_min.2 ⟨Nat.succ_pos n, Nat.succ_pos _⟩)]
        rfl
      | succ i =>
        simp only [List.getElem?_cons_succ, Bytes.block_succ, Nat.add_min_add_right,
          Nat.add_lt_add_iff_right, Nat.add_right_cancel_iff]
        exact readRecords_getElem? locator dimensions n _ i

/-! ## One record after the other -/

namespace RecordReader

/-- A reader after some calls. -/
def after (r : RecordReader) : Nat → RecordReader
  | 0 => r
  | n + 1 => after r.next.2 n

/-- What the `i`-th call brings, counted from 0. -/
def brought (r : RecordReader) (i : Nat) : Option Pull := (r.after i).next.1

variable {r : RecordReader}

/-- A reader that has failed or has read everything stays as it is and brings nothing. -/
theorem brought_of_ended (h : r.failed = true ∨ r.remaining = 0) : ∀ i, r.brought i = none := by
  have hnext : r.next = (none, r) := if_pos h
  intro i
  induction i with
  | zero => rw [brought, after, hnext]
  | succ i ih => rwa [brought, after, hnext]

/-- A reader brings what `readRecords` lists, one after the other, and behind that nothing for ever:
one failure ends it, and so does the last record. -/
theorem brought_eq : ∀ (i : Nat) {r : RecordReader}, r.failed = false →
    r.brought i = (readRecords r.locator r.dimensions r.remaining r.bytes)[i]?
  | i, ⟨locator, dimensions, bytes, 0, failed⟩, _ => by
    rw [brought_of_ended (.inr rfl)]
    rfl
  | i, ⟨locator, dimensions, bytes, remaining + 1, failed⟩, hfailed => by
    have hworks : ¬(failed = true ∨ remaining + 1 = 0) := by
      intro h
      rcases h with h | h
      · exact absurd (h.symm.trans hfailed) nofun
      · cases h
    rw [readRecords]
    cases hcut : Bytes.cut? (recordLength dimensions) bytes with
    | none =>
      have hnext : next ⟨locator, dimensions, bytes, remaining + 1, failed⟩ =
          (some (.failed (readFailure locator)),
            ⟨locator, dimensions, bytes, remaining + 1, true⟩) := by
        simp only [next, if_neg hworks, hcut]
      cases i with
      | zero => rw [brought, after, hnext]; rfl
      | succ i =>
        have hended := @brought_of_ended ⟨locator, dimensions, bytes, remaining + 1, true⟩ (.inl rfl) i
        rw [brought, after, hnext]
        exact hended
    | some cut =>
      obtain ⟨block, rest⟩ := cut
      have hnext : next ⟨locator, dimensions, bytes, remaining + 1, failed⟩ =
          (some (.record (Record.decode dimensions block)),
            ⟨locator, dimensions, rest, remaining, failed⟩) := by
        simp only [next, if_neg hworks, hcut, Nat.add_sub_cancel]
      cases i with
      | zero => rw [brought, after, hnext]; rfl
      | succ i =>
        have hrest := @brought_eq i ⟨locator, dimensions, rest, remaining, failed⟩ hfailed
        rw [brought, after, hnext]
        exact hrest

end RecordReader
end StoreFile

/-! ## Pulls -/

namespace OpenReader

/-- A reader after some pulls. -/
def after (store : Store) (reader : OpenReader) : Nat → OpenReader
  | 0 => reader
  | n + 1 => after store (reader.pull store).2 n

/-- What the `i`-th pull at a reader brings, counted from 0. -/
def pulled (store : Store) (reader : OpenReader) (i : Nat) : Option Pull :=
  ((reader.after store i).pull store).1

section
variable {store : Store}

/-- A pull that is no crash takes one item. -/
theorem pull_cons {symbol past : Nat} {p : Pull} {rest : Reader} (h : .crashed ≠ p) :
    (OpenReader.mk symbol (p :: rest) past).pull store = (some p, ⟨symbol, rest, past⟩) := by
  cases p with
  | crashed => exact absurd rfl h
  | record | failed => rfl

/-- A reader that does not crash hands over what it has, and then nothing for ever if nothing comes
past its end. -/
theorem pulled_eq : ∀ (i : Nat) (reader : OpenReader),
    .crashed ∉ reader.rest → (∀ past, store.pastEnd reader.symbol past = none) →
      reader.pulled store i = reader.rest[i]?
  | 0, ⟨_, [], past⟩, _, hpast => hpast past
  | i + 1, ⟨symbol, [], past⟩, hrest, hpast => pulled_eq i ⟨symbol, [], past + 1⟩ hrest hpast
  | 0, ⟨_, p :: rest, past⟩, hrest, _ => by
    rw [pulled, after, pull_cons (List.ne_of_not_mem_cons hrest)]
    rfl
  | i + 1, ⟨symbol, p :: rest, past⟩, hrest, hpast => by
    rw [pulled, after, pull_cons (List.ne_of_not_mem_cons hrest)]
    exact pulled_eq i ⟨symbol, rest, past⟩ (List.not_mem_of_not_mem_cons hrest) hpast

end

end OpenReader

namespace StoreFile

/-! ## Opened files -/

/-- What opening has found: the header stands behind the preamble, which gives its length, and all
records start within the range of 64-bit positions. -/
structure Opened (locator : String) (content : Bytes) (f : StoreFile) : Prop where
  locator_eq : f.locator = locator
  content_eq : f.content = content
  dataStart_eq : f.dataStart = preambleLength + Bytes.toNat ((content.drop 8).take 8)
  header : Header.decode ((content.take f.dataStart).drop preambleLength) = .ok f.header
  starts : ∀ e ∈ f.header.entries, f.dataStart + e.offset < UInt64.size

theorem openBytes_ok {locator : String} {content : Bytes} {f : StoreFile}
    (h : openBytes locator content = .ok f) : Opened locator content f := by
  unfold openBytes at h
  split at h
  · cases h
  rename_i preamble rest hcut
  simp only at h
  split at h
  · cases h
  split at h
  · cases h
  split at h
  · cases h
  rename_i headerBytes behind hcut'
  split at h
  · cases h
  rename_i header hdecode
  split at h
  · cases h
  rename_i hstarts
  cases h
  obtain ⟨rfl, hpreamble⟩ := Bytes.eq_append_of_cut? hcut
  obtain ⟨rfl, hheader⟩ := Bytes.eq_append_of_cut? hcut'
  have hlength : (preamble.drop 8).length = 8 := by
    rw [List.length_drop, hpreamble]
    rfl
  have hnumber : ((preamble ++ (headerBytes ++ behind)).drop 8).take 8 = preamble.drop 8 := by
    rw [List.drop_append_of_le_length (by rw [hpreamble]; decide), List.take_left' hlength]
  have htake : ((preamble ++ (headerBytes ++ behind)).take
      (preambleLength + Bytes.toNat (preamble.drop 8))).drop preambleLength = headerBytes := by
    rw [← List.append_assoc, List.take_left' (by rw [List.length_append, hpreamble, hheader]),
      List.drop_left' hpreamble]
  refine ⟨rfl, rfl, by rw [hnumber], ?_, fun e he => ?_⟩
  · rw [htake]
    exact hdecode
  · simpa using List.find?_eq_none.1 hstarts e he

/-! ## Reading -/

/-- The records of an entry that the file holds as a whole. -/
def wholeRecords (f : StoreFile) (e : HeaderEntry) : Nat :=
  min e.symbol.recordCount
    ((f.content.length - (f.dataStart + e.offset)) / recordLength e.symbol.dimensions)

/-- What the pulls at a reader of an entry bring, numbered from 0. -/
structure Brings (f : StoreFile) (e : HeaderEntry) (pull : Nat → Option Pull) : Prop where
  /-- First the whole records; what is written for the `i`-th stands in the `i`-th block from where
  the records start: its keys and its five numbers, all little-endian. -/
  records : ∀ i < f.wholeRecords e, ∃ r, pull i = some (.record r) ∧
    r.keys.length = e.symbol.dimensions ∧
    r.encode = Bytes.block (recordLength e.symbol.dimensions) i
      (f.content.drop (f.dataStart + e.offset))
  /-- Then one failure, if there should be more. -/
  failure : f.wholeRecords e < e.symbol.recordCount → ∃ failure : Failure, failure.kind = .storage ∧
    pull (f.wholeRecords e) = some (.failed failure)
  /-- Then nothing for ever. -/
  ended : ∀ i, f.wholeRecords e ≤ i →
    (f.wholeRecords e < e.symbol.recordCount → i ≠ f.wholeRecords e) → pull i = none

theorem crashed_notMem_readRecords (locator : String) (dimensions : Nat) :
    ∀ (n : Nat) (bytes : Bytes), .crashed ∉ readRecords locator dimensions n bytes
  | 0, _ => List.not_mem_nil
  | n + 1, bytes => by
    unfold readRecords
    split
    · simp
    · rename_i rest _
      simpa using crashed_notMem_readRecords locator dimensions n rest

/-- Reading brings the whole records and, if they are too few, a failure. -/
theorem brings_readRecords (f : StoreFile) (e : HeaderEntry) :
    Brings f e fun i => (readRecords f.locator e.symbol.dimensions e.symbol.recordCount
      (f.content.drop (f.dataStart + e.offset)))[i]? := by
  have hwhole : f.wholeRecords e = min e.symbol.recordCount
      ((f.content.drop (f.dataStart + e.offset)).length / recordLength e.symbol.dimensions) := by
    rw [List.length_drop, wholeRecords]
  refine {
    records := fun i hi => ⟨_, ?_, length_decodeKeys .., Record.encode_decode ?_⟩
    failure := fun hless => ⟨readFailure f.locator, rfl, ?_⟩
    ended := fun i hi hne => ?_ }
  · rw [readRecords_getElem?, if_pos (hwhole ▸ hi)]
  · exact Bytes.length_block (Nat.lt_of_lt_of_le (hwhole ▸ hi) (Nat.min_le_right ..))
  · rw [readRecords_getElem?, if_neg (by omega), if_pos (by omega)]
  · rw [readRecords_getElem?, if_neg (by omega), if_neg (by omega)]

/-- **Any file that can be opened is read exactly.** Whatever its header says about a symbol, where
its records start does not leave the range of 64-bit positions. A reader is refused only if the
system, which lets seek up to some limit, refuses that position, and then the file, if the system can
hold it, ends in front of it. Every other reader takes one record after the other: it brings the whole
records that the file holds from there on, as many as the header promises at most, one failure if it
promises more, and then nothing for ever. -/
theorem reads_of_openBytes {locator : String} {content : Bytes} {f : StoreFile}
    (hopen : openBytes locator content = .ok f) {nr : Nat} {e : HeaderEntry}
    (hentry : f.header.entries[nr]? = some e) (limit : Nat) :
    Opened locator content f ∧ f.dataStart + e.offset < UInt64.size ∧
      (limit < f.dataStart + e.offset →
        (∃ failure : Failure, failure.kind = .storage ∧
          (f.storeUnder limit).readRaw .free nr = .error failure) ∧
        (content.length ≤ limit → content.length < f.dataStart + e.offset)) ∧
      (f.dataStart + e.offset ≤ limit → ∃ reader,
        (f.storeUnder limit).readRaw .free nr = .ok (reader, ⟨true⟩) ∧
        OpenReader.pulled (f.storeUnder limit) ⟨nr, reader, 0⟩ = (f.recordReader e).brought ∧
        Brings f e (OpenReader.pulled (f.storeUnder limit) ⟨nr, reader, 0⟩)) := by
  have hopened := openBytes_ok hopen
  have hread := readRaw_free hentry limit
  refine ⟨hopened, hopened.starts e (List.mem_of_getElem? hentry), fun hlimit => ⟨?_, ?_⟩,
    fun hlimit => ?_⟩
  · refine ⟨seekFailure f.locator e.symbol.name, rfl, ?_⟩
    rw [hread, readEntry, if_pos hlimit]
    rfl
  · exact fun hcontent => Nat.lt_of_le_of_lt hcontent hlimit
  · rw [readEntry, if_neg (Nat.not_lt.2 hlimit)] at hread
    have hpulled := fun i => @OpenReader.pulled_eq (f.storeUnder limit) i ⟨nr, _, 0⟩
      (crashed_notMem_readRecords f.locator e.symbol.dimensions e.symbol.recordCount
        (f.content.drop (f.dataStart + e.offset))) fun _ => rfl
    have hbrought := fun i => @RecordReader.brought_eq i (f.recordReader e) rfl
    refine ⟨_, hread, funext fun i => (hpulled i).trans (hbrought i).symm, ?_⟩
    rw [funext hpulled]
    exact brings_readRecords f e

/-- A parameter of which three records are promised, two bytes behind the header. -/
def sampleEntry : HeaderEntry := ⟨⟨"p", .parameter, ["i"], "", 3⟩, 2⟩

def sampleRecords : List Record := [⟨[1], .ofLevel .zero⟩, ⟨[-2], .ofLevel .infinity⟩]

/-- A file with two of the records and a part of the third. -/
def sample : StoreFile where
  locator := "sample"
  content := storeMagic ++ Bytes.ofNat 4 storeVersion ++
    Bytes.ofNat 8 (Header.encode ⟨["a"], [], [], [sampleEntry]⟩).length ++
    Header.encode ⟨["a"], [], [], [sampleEntry]⟩ ++ [0xFF, 0xFF] ++
    sampleRecords.flatMap Record.encode ++ [1, 0, 0, 0, 0]
  header := ⟨["a"], [], [], [sampleEntry]⟩
  dataStart := preambleLength + (Header.encode ⟨["a"], [], [], [sampleEntry]⟩).length

theorem reads_of_openBytes_sample :
    openBytes "sample" sample.content = .ok sample ∧
    sample.header.entries[0]? = some sampleEntry ∧
    (∃ failure : Failure, failure.kind = .storage ∧
      (sample.storeUnder 16).readRaw .free 0 = .error failure) ∧
    ∃ reader, sample.toStore.readRaw .free 0 = .ok (reader, ⟨true⟩) ∧
      (∀ i r, sampleRecords[i]? = some r →
        OpenReader.pulled sample.toStore ⟨0, reader, 0⟩ i = some (.record r)) ∧
      (∃ failure : Failure, failure.kind = .storage ∧
        OpenReader.pulled sample.toStore ⟨0, reader, 0⟩ 2 = some (.failed failure)) ∧
      ∀ i, 2 < i → OpenReader.pulled sample.toStore ⟨0, reader, 0⟩ i = none := by
  have hopen : openBytes "sample" sample.content = .ok sample := by rfl
  have hentry : sample.header.entries[0]? = some sampleEntry := rfl
  obtain ⟨-, -, hrefused, -⟩ := reads_of_openBytes hopen hentry 16
  obtain ⟨-, -, -, hread⟩ := reads_of_openBytes hopen hentry seekLimit
  obtain ⟨reader, hread, -, hbrings⟩ := hread (by decide +kernel)
  change Brings _ _ (OpenReader.pulled sample.toStore _) at hbrings
  have hwhole : sample.wholeRecords sampleEntry = 2 := by decide +kernel
  have hblock : ∀ i r, sampleRecords[i]? = some r → Record.decode 1 (Bytes.block 44 i
      (sample.content.drop (sample.dataStart + 2))) = r := by
    intro i r hr
    match i, hr with
    | 0, rfl | 1, rfl => decide +kernel
  obtain ⟨failure, hkind, hfailure⟩ := hbrings.failure (hwhole ▸ by decide)
  refine ⟨hopen, hentry, (hrefused (by decide +kernel)).1, reader, hread, fun i r hr => ?_,
    ⟨failure, hkind, hwhole ▸ hfailure⟩, fun i hi => hbrings.ended i ?_ fun _ => ?_⟩
  · have hlt : i < 2 := (List.getElem?_eq_some_iff.1 hr).1
    obtain ⟨read, hpulled, hkeys, hencode⟩ := hbrings.records i (hwhole ▸ hlt)
    have hdecode := Record.decode_encode read
    rw [hkeys, hencode] at hdecode
    rw [hpulled, ← hdecode]
    exact congrArg (some ∘ Pull.record) (hblock i r hr)
  · rw [hwhole]
    exact Nat.le_of_lt hi
  · rw [hwhole]
    exact Nat.ne_of_gt hi

end StoreFile
end SymbolTables
