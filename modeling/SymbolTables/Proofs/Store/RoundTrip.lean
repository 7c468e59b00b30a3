import SymbolTables.Proofs.Store.Header
import SymbolTables.Proofs.Store.RecordBlock
import SymbolTables.Proofs.Store.Writer

/-!
# A written store is read as it was put together

* `entry_at`: the entry of a symbol says where its records start, whatever the symbols before it
  are.
* `openBytes_header`, `openBytes_toBytes`: what a writer writes can be opened, and has the writer's
  header, whatever is behind that.
* `readRaw_asFile`, `findSymbol_of_distinct`: in the opened store every symbol is found under its
  name and gives its records.
* `store_of_run`: the opened store is the one that the operations describe.
-/
namespace SymbolTables

open List (Forall₂)

/-- A record that is read is the one that was to be added: its keys lead to the labels, and it holds
the content. -/
structure Addition.ReadFrom (f : StoreFile) (limit : Nat) (a : Addition) (r : Record) : Prop where
  keys : Forall₂ (fun key label => (f.storeUnder limit).label key = some label) r.keys a.labels
  content : a.content.HeldBy f.header.texts r.values

namespace StoreWriter

open Header (TextFits TableFits)

/-- Whether names, domains and text of a symbol have room. -/
structure PendingSymbol.Fits (s : PendingSymbol) : Prop where
  name : TextFits s.name
  domains : TableFits TextFits s.domains
  text : TextFits s.text

instance (s : PendingSymbol) : Decidable (PendingSymbol.Fits s) :=
  decidable_of_iff (TextFits s.name ∧ TableFits TextFits s.domains ∧ TextFits s.text)
    ⟨fun h => ⟨h.1, h.2.1, h.2.2⟩, fun h => ⟨h.name, h.domains, h.text⟩⟩

/-- A writer whose counts and texts have room in the fields of a store, and whose bytes have 64-bit
positions. Keys are signed, so there are only half as many labels as other things. -/
structure Fits (w : StoreWriter) : Prop where
  labels : w.labels.length < 2 ^ 31
  label : ∀ label ∈ w.labels, TextFits label
  texts : TableFits TextFits w.texts
  acronyms : TableFits TextFits w.acronyms
  symbols : TableFits PendingSymbol.Fits w.symbols
  bytes : w.toBytes.length < UInt64.size

/-- A writer whose counts and texts have room in 32 bits each, and whose bytes have 64-bit positions.
It may have more labels than there are keys. -/
structure HasRoom (w : StoreWriter) : Prop where
  labels : TableFits TextFits w.labels
  texts : TableFits TextFits w.texts
  acronyms : TableFits TextFits w.acronyms
  symbols : TableFits PendingSymbol.Fits w.symbols
  bytes : w.toBytes.length < UInt64.size

theorem Fits.hasRoom {w : StoreWriter} (h : w.Fits) : w.HasRoom where
  labels := ⟨Nat.lt_trans h.labels (by decide), h.label⟩
  texts := h.texts
  acronyms := h.acronyms
  symbols := h.symbols
  bytes := h.bytes

/-! ## Entries -/

/-- The entry of a symbol points behind the records of the symbols before it. -/
theorem entry_at :
    ∀ {symbols : List PendingSymbol} (offset : Nat) {nr : Nat} {s : PendingSymbol},
      (∀ s ∈ symbols, ∀ r ∈ s.records, r.keys.length = s.domains.length) →
      symbols[nr]? = some s →
      ∃ before rest,
        (symbols.flatMap fun s => s.records.flatMap Record.encode) =
            before ++ (s.records.flatMap Record.encode ++ rest) ∧
          (entriesFrom offset symbols)[nr]? = some (PendingSymbol.entry s (offset + before.length)) ∧
          before = (symbols.take nr).flatMap fun s => s.records.flatMap Record.encode
  | [], _, _, _, _, h => nomatch h
  | first :: symbols, offset, 0, s, _, h => by
    simp only [List.getElem?_cons_zero, Option.some.injEq] at h
    subst h
    refine ⟨[], _, rfl, ?_, rfl⟩
    simp [entriesFrom]
  | first :: symbols, offset, nr + 1, s, hdim, h => by
    rw [List.getElem?_cons_succ] at h
    obtain ⟨before, rest, hdata, hentry, hbefore⟩ := entry_at (offset + PendingSymbol.dataLength first)
      (fun s hs => hdim s (List.mem_cons_of_mem _ hs)) h
    have hlen : (first.records.flatMap Record.encode).length = PendingSymbol.dataLength first :=
      length_flatMap_encode (hdim first List.mem_cons_self)
    refine ⟨first.records.flatMap Record.encode ++ before, rest, ?_, ?_, ?_⟩
    · rw [List.flatMap_cons, hdata, List.append_assoc]
    · rw [entriesFrom, List.getElem?_cons_succ, hentry, List.length_append, hlen, Nat.add_assoc]
    · rw [List.take_succ_cons, List.flatMap_cons, hbefore]

theorem length_entriesFrom :
    ∀ (symbols : List PendingSymbol) (offset : Nat),
      (entriesFrom offset symbols).length = symbols.length
  | [], _ => rfl
  | s :: symbols, offset => by
    simp only [entriesFrom, List.length_cons, length_entriesFrom symbols]

/-- The symbols of a store are those of its writer, with the number of their records. -/
theorem map_symbol_entriesFrom :
    ∀ (symbols : List PendingSymbol) (offset : Nat),
      (entriesFrom offset symbols).map (·.symbol) =
        symbols.map fun s => { PendingSymbol.declared s with recordCount := s.records.length }
  | [], _ => rfl
  | s :: symbols, offset => by
    simp only [entriesFrom, List.map_cons, map_symbol_entriesFrom symbols]
    rfl

section
variable {w : StoreWriter}
  (hdim : ∀ s ∈ w.symbols, ∀ r ∈ s.records, r.keys.length = s.domains.length)
include hdim

/-- Entries stay within the records. -/
theorem entry_bounds {e : HeaderEntry} (he : e ∈ w.header.entries) :
    e.offset ≤ w.data.length ∧ e.symbol.recordCount ≤ w.data.length ∧
      ∃ s ∈ w.symbols, e = PendingSymbol.entry s e.offset := by
  obtain ⟨nr, hnr⟩ := List.mem_iff_getElem?.1 he
  have hlt : nr < w.symbols.length := by
    have := (List.getElem?_eq_some_iff.1 hnr).1
    rwa [header, length_entriesFrom] at this
  obtain ⟨before, rest, hdata, hentry, -⟩ := entry_at 0 hdim (List.getElem?_eq_getElem hlt)
  rw [show w.header.entries = entriesFrom 0 w.symbols from rfl, hentry, Nat.zero_add,
    Option.some.injEq] at hnr
  subst hnr
  have hrecords := length_flatMap_encode (hdim _ (List.getElem_mem hlt))
  have hlen : w.data.length = _ := congrArg List.length hdata
  rw [List.length_append, List.length_append, hrecords] at hlen
  have hcount := Nat.le_mul_of_pos_right w.symbols[nr].records.length
    (show 0 < recordLength w.symbols[nr].domains.length by simp only [recordLength]; omega)
  refine ⟨?_, ?_, w.symbols[nr], List.getElem_mem hlt, rfl⟩
  · simp only [PendingSymbol.entry]; omega
  · simp only [PendingSymbol.entry]; omega

end

/-- In the enumeration of names from `first` on, the `i`-th has the number `first + i`. -/
theorem numberedFrom_getElem? :
    ∀ (first : Nat) (names : List String) (i : Nat),
      (numberedFrom first names)[i]? = names[i]?.map fun name => (first + i, name)
  | _, [], _ => rfl
  | _, _ :: _, 0 => rfl
  | first, name :: names, i + 1 => by
    rw [numberedFrom, List.getElem?_cons_succ, numberedFrom_getElem?, List.getElem?_cons_succ,
      Nat.add_right_comm, Nat.add_assoc]

theorem length_numberedFrom (first : Nat) (names : List String) :
    (numberedFrom first names).length = names.length := by
  induction names generalizing first with
  | nil => rfl
  | cons name names ih => rw [numberedFrom, List.length_cons, ih, List.length_cons]

theorem mem_numberedFrom {first : Nat} {names : List String} {a : Nat × String}
    (h : a ∈ numberedFrom first names) : a.1 < first + names.length ∧ a.2 ∈ names := by
  obtain ⟨i, hi⟩ := List.mem_iff_getElem?.1 h
  rw [numberedFrom_getElem?, Option.map_eq_some_iff] at hi
  obtain ⟨name, hname, rfl⟩ := hi
  exact ⟨Nat.add_lt_add_left (List.getElem?_eq_some_iff.1 hname).1 first, List.mem_of_getElem? hname⟩

/-- Each number stands once in an enumeration, so it does not matter from which end it is looked up. -/
theorem lookup_numberedFrom (first : Nat) (names : List String) (k : Nat) :
    (numberedFrom first names).reverse.lookup k = if k < first then none else names[k - first]? := by
  induction names generalizing first with
  | nil => simp [numberedFrom]
  | cons name names ih =>
    rw [numberedFrom, List.reverse_cons, List.lookup_append, ih]
    rcases Nat.lt_trichotomy k first with hlt | rfl | hgt
    · have hne : (k == first) = false := by simpa using Nat.ne_of_lt hlt
      simp [hlt, Nat.lt_succ_of_lt hlt, List.lookup_cons, hne]
    · simp
    · have hne : (k == first) = false := by simpa using Nat.ne_of_gt hgt
      have hplace : k - first = k - (first + 1) + 1 := by omega
      rw [if_neg (Nat.not_lt.2 hgt), if_neg (Nat.not_lt.2 (Nat.le_of_lt hgt)), hplace,
        List.getElem?_cons_succ]
      simp [List.lookup_cons, hne]

/-! ## Opening -/

/-- What stands in front of the header. -/
def preamble (w : StoreWriter) : Bytes :=
  storeMagic ++ Bytes.ofNat 4 storeVersion ++ Bytes.ofNat 8 w.header.encode.length

theorem length_preamble (w : StoreWriter) : w.preamble.length = preambleLength := by
  simp only [preamble, storeMagic, preambleLength, List.length_append, Bytes.length_ofNat,
    List.length_cons, List.length_nil]

theorem toBytes_eq (w : StoreWriter) : w.toBytes = w.preamble ++ (w.header.encode ++ w.data) := by
  simp only [toBytes, preamble, List.append_assoc]

theorem length_toBytes (w : StoreWriter) :
    w.toBytes.length = preambleLength + w.header.encode.length + w.data.length := by
  rw [toBytes_eq, List.length_append, List.length_append, length_preamble, Nat.add_assoc]

/-- The records of the symbols before a symbol. -/
def dataBefore (w : StoreWriter) (nr : Nat) : Bytes :=
  (w.symbols.take nr).flatMap fun s => s.records.flatMap Record.encode

/-- The file of a writer, once it has been opened. -/
def asFile (w : StoreWriter) (locator : String) : StoreFile where
  locator := locator
  content := w.toBytes
  header := w.header
  dataStart := preambleLength + w.header.encode.length

/-- A reader of an opened store starts with the entry of its symbol. -/
theorem readRaw_of_entry {f : StoreFile} {nr : Nat} {e : HeaderEntry} {reader : Reader}
    {limit : Nat} (hentry : f.header.entries[nr]? = some e)
    (hread : f.readEntry e limit = .ok reader) :
    (f.storeUnder limit).readRaw .free nr = .ok (reader, ⟨true⟩) := by
  rw [StoreFile.readRaw_free hentry, hread]
  rfl

/-- What is left of opening a file behind its preamble, which says how long the header is. -/
def openHeader (locator : String) (content : Bytes) (length : Nat) (rest : Bytes) :
    Except StoreFile.Fault StoreFile :=
  match Bytes.cut? length rest with
  | none => .error (.headerTooLong length content.length)
  | some (headerBytes, _) =>
    match Header.decode headerBytes with
    | .error fault => .error (.badHeader fault)
    | .ok header =>
      match header.entries.find? fun e => UInt64.size ≤ preambleLength + length + e.offset with
      | some e => .error (.offsetOutOfRange e.symbol.name e.offset)
      | none => .ok ⟨locator, content, header, preambleLength + length⟩

section
variable {w : StoreWriter} (hr : w.HasRoom)
include hr

/-- Behind the preamble of a writer a header of the right length is looked for. -/
theorem openBytes_preamble (locator : String) (rest : Bytes) :
    StoreFile.openBytes locator (w.preamble ++ rest) =
      openHeader locator (w.preamble ++ rest) w.header.encode.length rest := by
  have hbytes := hr.bytes
  rw [length_toBytes] at hbytes
  have hlen : w.header.encode.length < Bytes.bound 8 := by
    show _ < UInt64.size
    omega
  have hcut : Bytes.cut? preambleLength (w.preamble ++ rest) = some (w.preamble, rest) := by
    rw [← length_preamble w]
    exact Bytes.cut?_append _ _
  have hmagic : w.preamble.take 4 = storeMagic := rfl
  have hversion : Bytes.toNat ((w.preamble.drop 4).take 4) = storeVersion := rfl
  have hlength : Bytes.toNat (w.preamble.drop 8) = w.header.encode.length := by
    show Bytes.toNat (Bytes.ofNat 8 w.header.encode.length) = _
    rw [Bytes.toNat_ofNat, Nat.mod_eq_of_lt hlen]
  simp only [StoreFile.openBytes, hcut, hmagic, hversion, hlength, ne_eq, not_true_eq_false,
    if_false]
  rfl

variable (hdim : ∀ s ∈ w.symbols, ∀ r ∈ s.records, r.keys.length = s.domains.length)
include hdim

/-- The header of a writer that has room has room in the fields of a store. -/
theorem header_fits : w.header.Fits := by
  have hbytes := hr.bytes
  rw [length_toBytes] at hbytes
  refine ⟨hr.labels, hr.texts, ⟨?_, fun a ha => ?_⟩, ⟨?_, fun e he => ?_⟩⟩
  · rw [header, length_numberedFrom]
    exact hr.acronyms.1
  · obtain ⟨hlt, hname⟩ := mem_numberedFrom ha
    have := hr.acronyms.1
    exact ⟨by omega, hr.acronyms.2 _ hname⟩
  · rw [header, length_entriesFrom]
    exact hr.symbols.1
  · obtain ⟨hoffset, hcount, s, hs, hentry⟩ := entry_bounds hdim he
    obtain ⟨hname, hdomains, htext⟩ := hr.symbols.2 s hs
    refine ⟨?_, ?_, ?_, by omega, by omega⟩ <;> rw [hentry] <;> assumption

/-- Preamble and header of a writer can be opened, whatever is behind them. -/
theorem openBytes_header (locator : String) (rest : Bytes) :
    StoreFile.openBytes locator (w.preamble ++ (w.header.encode ++ rest)) =
      .ok { w.asFile locator with content := w.preamble ++ (w.header.encode ++ rest) } := by
  have hbytes := hr.bytes
  rw [length_toBytes] at hbytes
  have hoffsets : w.header.entries.find?
      (fun e => UInt64.size ≤ preambleLength + w.header.encode.length + e.offset) = none := by
    rw [List.find?_eq_none]
    intro e he
    have := (entry_bounds hdim he).1
    simp only [decide_eq_true_eq]
    omega
  rw [openBytes_preamble hr]
  simp only [openHeader, Bytes.cut?_append, Header.decode_encode (header_fits hr hdim), hoffsets, asFile]

end

section
variable {w : StoreWriter}
  (hdim : ∀ s ∈ w.symbols, ∀ r ∈ s.records, r.keys.length = s.domains.length)
include hdim

/-- What a writer writes can be opened, and is read as its header. -/
theorem openBytes_toBytes (hf : w.Fits) (locator : String) :
    StoreFile.openBytes locator w.toBytes = .ok (w.asFile locator) := by
  have h := openBytes_header hf.hasRoom hdim locator w.data
  rw [← toBytes_eq] at h
  exact h

/-! ## Reading -/

/-- The entry of a symbol leads to the place in the file where its records are. -/
theorem records_at {nr : Nat} {s : PendingSymbol} (hs : w.symbols[nr]? = some s) :
    ∃ rest, w.header.entries[nr]? = some (PendingSymbol.entry s (w.dataBefore nr).length) ∧
      preambleLength + w.header.encode.length + (w.dataBefore nr).length ≤ w.toBytes.length ∧
      w.toBytes.drop (preambleLength + w.header.encode.length + (w.dataBefore nr).length) =
        s.records.flatMap Record.encode ++ rest := by
  obtain ⟨before, rest, hdata, hentry, hbefore⟩ := entry_at 0 hdim hs
  have hbefore : w.dataBefore nr = before := hbefore.symm
  rw [Nat.zero_add] at hentry
  refine ⟨rest, ?_, ?_, ?_⟩
  · rw [hbefore]
    exact hentry
  · have hlen : w.data.length = _ := congrArg List.length hdata
    rw [length_toBytes, hlen, List.length_append, hbefore]
    omega
  · rw [hbefore, toBytes_eq, show w.data = _ from hdata, ← List.append_assoc, ← List.append_assoc]
    refine List.drop_left' ?_
    simp only [List.length_append, length_preamble]

/-- A symbol of an opened store gives the records of its writer, and nothing else. -/
theorem readRaw_asFile (locator : String) {limit : Nat} (hlimit : w.toBytes.length ≤ limit)
    {nr : Nat} {s : PendingSymbol} (hs : w.symbols[nr]? = some s) :
    ((w.asFile locator).storeUnder limit).readRaw .free nr =
      .ok (s.records.map .record, ⟨true⟩) := by
  obtain ⟨rest, hentry, hstart, hdrop⟩ := records_at hdim hs
  have hmem : s ∈ w.symbols := List.mem_iff_getElem?.2 ⟨nr, hs⟩
  have hread : (w.asFile locator).readEntry (PendingSymbol.entry s (w.dataBefore nr).length) limit =
      .ok (s.records.map .record) :=
    StoreFile.readEntry_ok (Nat.le_trans hstart hlimit) hdrop rfl (hdim s hmem)
  exact readRaw_of_entry hentry hread

end

/-! ## Names -/

/-- After opening, the names of a writer's acronyms stand behind the numbers that were given for
them, and no other number has a name. -/
theorem acronymName_asFile {w : StoreWriter} (hcount : w.acronyms.length < UInt32.size) (locator : String)
    (x : Binary64) (name : String) :
    (w.asFile locator).acronymName x = some name ↔
      x.isFinite = true ∧ ∃ i, w.acronyms[i]? = some name ∧ x = Acronym.value (i + 1) := by
  have hlookup : ∀ k, (numberedFrom 1 w.acronyms).reverse.lookup (k + 1) = w.acronyms[k]? :=
    fun k => lookup_numberedFrom 1 w.acronyms (k + 1)
  rw [StoreFile.acronymName, Option.bind_eq_some_iff]
  constructor
  · intro h
    obtain ⟨k, hk, hname⟩ := h
    obtain ⟨hpos, -, hfinite, hx⟩ := Acronym.index?_eq_some_iff.1 hk
    obtain ⟨i, rfl⟩ : ∃ i, k = i + 1 := ⟨k - 1, by omega⟩
    exact ⟨hfinite, i, (hlookup i).symm.trans hname, hx⟩
  · intro h
    obtain ⟨hfinite, i, hname, hx⟩ := h
    have hlt := (List.getElem?_eq_some_iff.1 hname).1
    exact ⟨i + 1, Acronym.index?_eq_some_iff.2 ⟨by omega, by omega, hfinite, hx⟩,
      (hlookup i).trans hname⟩

theorem sameName_iff {s t : String} :
    Text.sameName s t = true ↔ s.toList.map Char.toLower = t.toList.map Char.toLower := by
  simp [Text.sameName, Text.sameLetters]

/-- Where no two names differ in letter case alone, a symbol is found under its name in any case. -/
theorem findSymbol_of_distinct {store : Store}
    (hdistinct : store.symbols.Pairwise fun s t => Text.sameName s.name t.name = false) {nr : Nat}
    {symbol : Symbol} (h : store.symbols[nr]? = some symbol) {name : String}
    (hname : Text.sameName symbol.name name = true) : store.findSymbol name = some nr := by
  obtain ⟨hlt, hsymbol⟩ := List.getElem?_eq_some_iff.1 h
  have unique : ∀ m (hm : m < store.symbols.length),
      Text.sameName store.symbols[m].name name = true → m = nr := by
    intro m hm hmname
    have hpairs := List.pairwise_iff_getElem.1 hdistinct
    subst hsymbol
    rw [sameName_iff] at hname hmname
    rcases Nat.lt_trichotomy m nr with hlt' | heq | hlt'
    · have := hpairs m nr hm hlt hlt'
      rw [sameName_iff.2 (hmname.trans hname.symm)] at this
      cases this
    · exact heq
    · have := hpairs nr m hlt hm hlt'
      rw [sameName_iff.2 (hname.trans hmname.symm)] at this
      cases this
  unfold Store.findSymbol
  cases hexact : store.symbols.findIdx? fun symbol => symbol.name == name with
  | some m =>
    obtain ⟨hm, hbeq, -⟩ := List.findIdx?_eq_some_iff_getElem.1 hexact
    simp only [Option.some.injEq]
    refine unique m hm ?_
    rw [beq_iff_eq.1 hbeq]
    exact Text.sameName_refl name
  | none =>
    refine List.findIdx?_eq_some_iff_getElem.2 ⟨hlt, by rw [hsymbol]; exact hname, ?_⟩
    intro j hj hjname
    have := unique j (Nat.lt_trans hj hlt) hjname
    omega

/-! ## The round trip -/

/-- **Round trip.** Whatever operations have been applied to an empty writer, some of them in vain:
its bytes can be opened, and the store, under any system that can hold them, holds what the operations
say, and nothing else. These are the labels in the order of their first use, the element texts, the
acronyms, each behind the number that was given for it as long as this is finite, and the symbols; every
symbol is found under its name in any letter case, and gives one record for every operation that has
added one to it, in order. -/
theorem store_of_run (ops : List Operation) (hf : (empty.run ops).Fits) (locator : String)
    {limit : Nat} (hlimit : (empty.run ops).toBytes.length ≤ limit) :
    ∃ f, StoreFile.openBytes locator (empty.run ops).toBytes = .ok f ∧
      f.header.labels = interned ((empty.succeeded ops).flatMap Operation.labels) ∧
      (∀ i label, f.header.labels[i]? = some label →
        (f.storeUnder limit).label (Int32.ofNat (i + 1)) = some label) ∧
      f.header.texts = ops.filterMap Operation.text? ∧
      (∀ i text, f.header.texts[i]? = some text →
        (Binary64.ofNat (i + 1)).wholePart = i + 1 ∧
          (i + 1 < 2 ^ 31 →
            (f.storeUnder limit).elementText (Binary64.ofNat (i + 1)).toInt32 = some text)) ∧
      (f.storeUnder limit).elementText Binary64.zero.toInt32 = none ∧
      f.header.acronyms = numberedFrom 1 (ops.filterMap Operation.acronym?) ∧
      (∀ x name, (f.storeUnder limit).acronymName x = some name ↔ x.isFinite = true ∧
        ∃ i, (ops.filterMap Operation.acronym?)[i]? = some name ∧ x = Acronym.value (i + 1)) ∧
      ((f.storeUnder limit).symbols.map fun s => { s with recordCount := 0 }) =
        (empty.succeeded ops).filterMap Operation.symbol? ∧
      ∀ nr symbol, (f.storeUnder limit).symbols[nr]? = some symbol →
        (∀ name, Text.sameName symbol.name name = true →
          (f.storeUnder limit).findSymbol name = some nr) ∧
        ∃ records,
          (f.storeUnder limit).readRaw .free nr = .ok (records.map .record, ⟨true⟩) ∧
          symbol.recordCount = records.length ∧
          Forall₂ (Addition.ReadFrom f limit)
            ((empty.succeeded ops).filterMap (Operation.additionTo? nr)) records := by
  have htexts : (empty.run ops).texts.length < UInt32.size := hf.texts.1
  have hsize : UInt32.size < 2 ^ 53 := by decide
  have R : Reflects (empty.run ops) (empty.succeeded ops) ops :=
    reflects_run ops reflects_empty hf.labels (by omega)
  have hsymbols := map_symbol_entriesFrom (empty.run ops).symbols 0
  refine ⟨_, openBytes_toBytes R.dimensions hf locator, R.labels, fun i label h => ?_, R.texts,
    fun i text h => ?_, rfl, ?_, ?_, ?_, fun nr symbol h => ⟨fun name hname => ?_, ?_⟩⟩
  · have := (List.getElem?_eq_some_iff.1 h).1
    have := hf.labels
    exact numbered_ofNat h (by simp only [asFile, header] at *; omega)
  · have hlt := (List.getElem?_eq_some_iff.1 h).1
    simp only [asFile, header] at hlt
    refine ⟨Binary64.wholePart_ofNat (by omega), fun hi => ?_⟩
    rw [Binary64.toInt32_ofNat hi]
    exact numbered_ofNat h hi
  · rw [← R.acronyms]; rfl
  · rw [← R.acronyms]
    exact acronymName_asFile hf.acronyms.1 locator
  · rw [← R.symbols]
    show ((entriesFrom 0 (empty.run ops).symbols).map (·.symbol)).map _ = _
    rw [hsymbols, List.map_map]
    rfl
  · refine findSymbol_of_distinct ?_ h hname
    show ((entriesFrom 0 (empty.run ops).symbols).map (·.symbol)).Pairwise _
    rw [hsymbols, List.pairwise_map]
    exact List.pairwise_map.1 R.distinct
  · have hnr : ((entriesFrom 0 (empty.run ops).symbols).map (·.symbol))[nr]? = some symbol := h
    rw [hsymbols, List.getElem?_map, Option.map_eq_some_iff] at hnr
    obtain ⟨s, hs, rfl⟩ := hnr
    refine ⟨s.records, readRaw_asFile R.dimensions locator hlimit hs, rfl, ?_⟩
    have hrecords := R.records nr
    rw [recordsOf, hs] at hrecords
    exact hrecords.imp fun a r hr => ⟨hr.keys, hr.content⟩

/-- An acronym, a set with a text, and a parameter; a name and a record are refused. -/
def sampleOperations : List Operation :=
  [.acronym "open", .symbol "i" .set ["*"] "plants", .element 0 ["a"] (some "x"),
   .symbol "I" .parameter [] "", .symbol "d" .parameter ["i"] "", .value 1 ["a", "b"] .zero,
   .value 1 ["b"] ⟨0x3FF0000000000000⟩]

theorem store_of_run_sample :
    (empty.run sampleOperations).Fits ∧
      ∃ f, StoreFile.openBytes "sample" (empty.run sampleOperations).toBytes = .ok f ∧
        f.header.labels = ["a", "b"] ∧ f.header.texts = ["x"] ∧
        f.toStore.acronymName (Acronym.value 1) = some "open" ∧ f.toStore.symbols.length = 2 ∧
        ∀ nr symbol, f.toStore.symbols[nr]? = some symbol →
          (∀ name, Text.sameName symbol.name name = true →
            f.toStore.findSymbol name = some nr) ∧
          ∃ records, f.toStore.readRaw .free nr = .ok (records.map .record, ⟨true⟩) ∧
            symbol.recordCount = records.length ∧
            Forall₂ (Addition.ReadFrom f StoreFile.seekLimit)
              ((empty.succeeded sampleOperations).filterMap (Operation.additionTo? nr))
              records := by
  have hf : (empty.run sampleOperations).Fits :=
    ⟨by decide, by decide, by decide, by decide, by decide, by decide +kernel⟩
  have hlimit : (empty.run sampleOperations).toBytes.length ≤ StoreFile.seekLimit := by
    decide +kernel
  obtain ⟨f, hopen, hlabels, -, htexts, -, -, -, hacronyms, hsymbols, hrecords⟩ :=
    store_of_run sampleOperations hf "sample" hlimit
  have hacronym : (Acronym.value 1).isFinite = true := by decide +kernel
  refine ⟨hf, f, hopen, hlabels.trans (by decide), htexts,
    (hacronyms _ _).2 ⟨hacronym, 0, rfl, rfl⟩, ?_, hrecords⟩
  have := congrArg List.length hsymbols
  rw [List.length_map] at this
  exact this

end StoreWriter
end SymbolTables
