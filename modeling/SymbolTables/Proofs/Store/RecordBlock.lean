import SymbolTables.Store.File

/-!
# Records are read as they are written

`Record.decode_encode` reads back one record, `StoreFile.readRecords_encode` the records that stand
one after the other at the front of a byte string.
-/
namespace SymbolTables

/-! ## Fields -/

theorem decodeKey_encodeKey (key : Int32) : decodeKey (encodeKey key) = key := by
  have hlt : key.toUInt32.toNat < Bytes.bound 4 := key.toUInt32.toNat_lt
  rw [decodeKey, encodeKey, Bytes.toNat_ofNat, Nat.mod_eq_of_lt hlt, UInt32.ofNat_toNat,
    Int32.toInt32_toUInt32]

theorem decodeNumber_encodeNumber (x : Binary64) : decodeNumber (encodeNumber x) = x := by
  have hlt : x.bits.toNat < Bytes.bound 8 := x.bits.toNat_lt
  rw [decodeNumber, encodeNumber, Bytes.toNat_ofNat, Nat.mod_eq_of_lt hlt, UInt64.ofNat_toNat]

theorem decodeKeys_encode :
    ∀ (keys : List Int32) (rest : Bytes),
      decodeKeys keys.length (keys.flatMap encodeKey ++ rest) = keys
  | [], rest => rfl
  | key :: keys, rest => by
    have hlen := length_encodeKey key
    simp only [List.length_cons, decodeKeys, List.flatMap_cons, List.append_assoc,
      List.take_left' hlen, List.drop_left' hlen, decodeKey_encodeKey, decodeKeys_encode keys rest]

theorem length_flatMap_encodeKey (keys : List Int32) :
    (keys.flatMap encodeKey).length = 4 * keys.length := by
  induction keys with
  | nil => rfl
  | cons key keys ih =>
    rw [List.flatMap_cons, List.length_append, length_encodeKey, ih, List.length_cons]; omega

/-- Items of one width stand at multiples of it. -/
theorem drop_flatMap {α : Type} {f : α → Bytes} {width : Nat} (h : ∀ a, (f a).length = width) :
    ∀ (n : Nat) (items : List α), (items.flatMap f).drop (width * n) = (items.drop n).flatMap f
  | 0, items => rfl
  | n + 1, [] => by simp
  | n + 1, a :: items => by
    rw [List.flatMap_cons, List.drop_succ_cons, ← drop_flatMap h n items, Nat.mul_succ,
      Nat.add_comm, ← List.drop_drop, List.drop_left' (h a)]

theorem decodeSlot_encode (v : Slots) (s : Slot) : decodeSlot v.encode s = v.get s := by
  have hlen : ∀ s, (encodeNumber (v.get s)).length = 8 := fun s => Bytes.length_ofNat 8 _
  have hat : ∃ rest, Slot.all.drop s.index = s :: rest := by cases s <;> exact ⟨_, rfl⟩
  obtain ⟨rest, hrest⟩ := hat
  rw [decodeSlot, Slots.encode, drop_flatMap hlen, hrest, List.flatMap_cons,
    List.take_left' (hlen s), decodeNumber_encodeNumber]

theorem Slots.decode_encode (v : Slots) : Slots.decode v.encode = v := by
  simp only [Slots.decode, decodeSlot_encode, Slots.get]

/-! ## Records -/

/-- A record is read back as it was. -/
theorem Record.decode_encode (r : Record) : Record.decode r.keys.length r.encode = r := by
  rw [Record.decode, Record.encode, decodeKeys_encode,
    List.drop_left' (length_flatMap_encodeKey r.keys), Slots.decode_encode]

/-- The records at the front of a byte string are read one after the other, to the last. -/
theorem StoreFile.readRecords_encode (locator : String) {dimensions : Nat} (rest : Bytes) :
    ∀ {records : List Record}, (∀ r ∈ records, r.keys.length = dimensions) →
      readRecords locator dimensions records.length (records.flatMap Record.encode ++ rest) =
        records.map .record
  | [], _ => rfl
  | r :: records, h => by
    have hr := h r List.mem_cons_self
    have hlen : r.encode.length = recordLength dimensions := hr ▸ length_record_encode r
    have hdecode : Record.decode dimensions r.encode = r := hr ▸ Record.decode_encode r
    have ih := readRecords_encode locator rest fun s hs => h s (List.mem_cons_of_mem r hs)
    simp only [List.length_cons, List.flatMap_cons, List.append_assoc, readRecords, ← hlen,
      Bytes.cut?_append, hdecode, List.map_cons]
    rw [ih]

/-- At a free slot a reader of a symbol is the reader of its entry. -/
theorem StoreFile.readRaw_free {f : StoreFile} {nr : Nat} {e : HeaderEntry}
    (hentry : f.header.entries[nr]? = some e) (limit : Nat) :
    (f.storeUnder limit).readRaw .free nr =
      (f.readEntry e limit).map fun reader => (reader, ⟨true⟩) := by
  have hinfo : (f.storeUnder limit).symbolInfo nr = .ok e.symbol := by
    simp only [Store.symbolInfo, storeUnder, List.getElem?_map, hentry, Option.map_some]
  have hstart : (f.storeUnder limit).start nr = f.readEntry e limit := by
    show f.start nr limit = _
    rw [start, hentry]
  have hslot : ReaderSlot.free.acquire (f.storeUnder limit).locator = .ok ⟨true⟩ := rfl
  rw [Store.readRaw, hinfo, hslot, hstart]
  cases f.readEntry e limit <;> rfl

/-- An entry that points to its records gives them. -/
theorem StoreFile.readEntry_ok {f : StoreFile} {e : HeaderEntry} {records : List Record}
    {rest : Bytes} {limit : Nat} (hlimit : f.dataStart + e.offset ≤ limit)
    (hdata : f.content.drop (f.dataStart + e.offset) = records.flatMap Record.encode ++ rest)
    (hcount : e.symbol.recordCount = records.length)
    (hdim : ∀ r ∈ records, r.keys.length = e.symbol.dimensions) :
    f.readEntry e limit = .ok (records.map .record) := by
  rw [readEntry, if_neg (Nat.not_lt.2 hlimit), hdata, hcount, readRecords_encode _ _ hdim]

theorem length_flatMap_encode {dimensions : Nat} :
    ∀ {records : List Record}, (∀ r ∈ records, r.keys.length = dimensions) →
      (records.flatMap Record.encode).length = records.length * recordLength dimensions
  | [], _ => by simp
  | r :: records, h => by
    have hr := h r List.mem_cons_self
    have ih := length_flatMap_encode fun s hs => h s (List.mem_cons_of_mem r hs)
    rw [List.flatMap_cons, List.length_append, length_record_encode, hr, ih, List.length_cons,
      Nat.succ_mul, Nat.add_comm]

end SymbolTables
