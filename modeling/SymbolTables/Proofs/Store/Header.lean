import SymbolTables.Store.Header

/-!
# Headers are read as they are written

`Reads m bytes a` says that `m` reads `a` off the front of `bytes` and leaves what is behind. It
holds of numbers, texts and tables that fit their widths and goes through sequences (`reads_bind`),
so it holds of a whole header.

* `reads_table`: a table is read if its items are, and if each of them has the least length that the
  check of the count reckons with.
* `decode_encode`: a header whose numbers and lengths fit is read back as it was.
-/
namespace SymbolTables

namespace Text.Utf8

/-- Every text can be read back. -/
theorem decode_encode (s : String) : decode (encode s) = .ok s := by
  have hbytes : (encode s).toByteArray = s.toByteArray := by
    apply ByteArray.ext
    simp [encode, List.data_toByteArray]
  have hvalid : (encode s).toByteArray.IsValidUTF8 := hbytes ▸ s.isValidUTF8
  have hs : String.fromUTF8? (encode s).toByteArray = some s := by
    rw [String.fromUTF8?, dif_pos hvalid, Option.some.injEq, ← String.toByteArray_inj]
    exact hbytes
  simp only [decode, hs]

end Text.Utf8

namespace Header

/-- A text whose length has room in 32 bits. -/
def TextFits (s : String) : Prop := (Text.Utf8.encode s).length < UInt32.size

instance (s : String) : Decidable (TextFits s) := inferInstanceAs (Decidable (_ < _))

/-- A table whose count has room in 32 bits. -/
def TableFits {α : Type} (item : α → Prop) (items : List α) : Prop :=
  items.length < UInt32.size ∧ ∀ a ∈ items, item a

instance {α : Type} (item : α → Prop) [DecidablePred item] (items : List α) :
    Decidable (TableFits item items) :=
  inferInstanceAs (Decidable (_ ∧ _))

/-- An entry whose lengths and numbers have room. -/
structure EntryFits (e : HeaderEntry) : Prop where
  name : TextFits e.symbol.name
  domains : TableFits TextFits e.symbol.domains
  text : TextFits e.symbol.text
  recordCount : e.symbol.recordCount < UInt64.size
  offset : e.offset < UInt64.size

/-- A header whose lengths and numbers have room. -/
structure Fits (h : Header) : Prop where
  labels : TableFits TextFits h.labels
  texts : TableFits TextFits h.texts
  acronyms : TableFits (fun a => a.1 < UInt32.size ∧ TextFits a.2) h.acronyms
  entries : TableFits EntryFits h.entries

/-- Reads `a` off the front of the bytes, whatever is behind them. -/
def Reads {α : Type} (m : Decode α) (bytes : Bytes) (a : α) : Prop :=
  ∀ rest, m (bytes ++ rest) = .ok (a, rest)

/-! ## Sequences -/

section
variable {α β : Type}

theorem reads_pure (a : α) : Reads (pure a) [] a := fun _ => rfl

theorem reads_bind {m : Decode α} {f : α → Decode β} {first second : Bytes} {a : α} {b : β}
    (h₁ : Reads m first a) (h₂ : Reads (f a) second b) : Reads (m >>= f) (first ++ second) b := by
  intro rest
  rw [List.append_assoc]
  show (m (first ++ (second ++ rest)) >>= fun p => f p.1 p.2) = _
  rw [h₁]
  exact h₂ rest

/-- What is read last may be put into a value. -/
theorem reads_map {m : Decode α} {f : α → β} {bytes : Bytes} {a : α} (h : Reads m bytes a) :
    Reads (m >>= fun a => pure (f a)) bytes (f a) := by
  have := reads_bind (f := fun a => pure (f a)) h (reads_pure (f a))
  rwa [List.append_nil] at this

theorem reads_items {item : Decode α} {encode : α → Bytes} :
    ∀ {items : List α}, (∀ a ∈ items, Reads item (encode a) a) →
      Reads (decodeItems item items.length) (items.flatMap encode) items
  | [], _ => reads_pure []
  | a :: items, h => by
    rw [List.flatMap_cons]
    exact reads_bind (h a List.mem_cons_self)
      (reads_map (reads_items fun b hb => h b (List.mem_cons_of_mem _ hb)))

theorem length_flatMap_ge {encode : α → Bytes} {least : Nat} :
    ∀ {items : List α}, (∀ a ∈ items, least ≤ (encode a).length) →
      items.length * least ≤ (items.flatMap encode).length
  | [], _ => by simp
  | a :: items, h => by
    have ha := h a List.mem_cons_self
    have ih := length_flatMap_ge fun b hb => h b (List.mem_cons_of_mem a hb)
    rw [List.flatMap_cons, List.length_append, List.length_cons, Nat.succ_mul]
    omega

end

/-! ## Numbers and texts -/

theorem reads_bytes (piece : Piece) (bytes : Bytes) :
    Reads (decodeBytes piece bytes.length) bytes bytes := by
  intro rest
  simp only [decodeBytes, Bytes.cut?_append]

theorem reads_nat (piece : Piece) {width n : Nat} (h : n < Bytes.bound width) :
    Reads (decodeNat piece width) (Bytes.ofNat width n) n := by
  have hb := reads_bytes piece (Bytes.ofNat width n)
  rw [Bytes.length_ofNat] at hb
  have := reads_map (f := Bytes.toNat) hb
  rwa [Bytes.toNat_ofNat, Nat.mod_eq_of_lt h] at this

theorem reads_text (piece : Piece) {s : String} (h : TextFits s) :
    Reads (decodeText piece) (encodeText s) s := by
  refine reads_bind (reads_nat piece h) ?_
  rw [← List.append_nil (Text.Utf8.encode s)]
  refine reads_bind (by simpa using reads_bytes piece (Text.Utf8.encode s)) ?_
  rw [Text.Utf8.decode_encode]
  exact reads_pure s

/-! ## Tables -/

/-- The check of a count looks at how many bytes are left, and takes none. -/
theorem check_eq (piece : Piece) (n least : Nat) (bytes : Bytes) :
    (do
      if (← get).length < n * least then throw (.truncated piece)
      return n : Decode Nat) bytes =
      if bytes.length < n * least then .error (.truncated piece) else .ok (n, bytes) := by
  simp only [bind, StateT.bind, get, getThe, MonadStateOf.get, StateT.get, pure, Except.pure,
    Except.bind]
  split <;> rfl

theorem decodeCount_ok (piece : Piece) {least n : Nat} {rest : Bytes} (h : n < UInt32.size)
    (hrest : n * least ≤ rest.length) :
    decodeCount piece least (Bytes.ofNat 4 n ++ rest) = .ok (n, rest) := by
  show (decodeNat piece 4 (Bytes.ofNat 4 n ++ rest) >>= fun p => _) = _
  rw [reads_nat piece h rest]
  exact (check_eq piece n least rest).trans (if_neg (Nat.not_lt.2 hrest))

theorem reads_table {α : Type} {item : Decode α} {encode : α → Bytes} {piece : Piece} {least : Nat}
    {items : List α} (hlen : items.length < UInt32.size)
    (hleast : ∀ a ∈ items, least ≤ (encode a).length)
    (hitem : ∀ a ∈ items, Reads item (encode a) a) :
    Reads (decodeTable piece least item) (encodeTable encode items) items := by
  intro rest
  have hrest : items.length * least ≤ (items.flatMap encode ++ rest).length := by
    have := length_flatMap_ge hleast
    rw [List.length_append]; omega
  rw [encodeTable, List.append_assoc]
  show (decodeCount piece least _ >>= fun p => decodeItems item p.1 p.2) = _
  rw [decodeCount_ok piece hlen hrest]
  exact reads_items hitem rest

theorem length_encodeText (s : String) : 4 ≤ (encodeText s).length := by
  rw [encodeText, List.length_append, Bytes.length_ofNat]; omega

theorem length_encodeTable {α : Type} (item : α → Bytes) (items : List α) :
    4 ≤ (encodeTable item items).length := by
  rw [encodeTable, List.length_append, Bytes.length_ofNat]; omega

theorem reads_texts (count piece : Piece) {items : List String} (h : TableFits TextFits items) :
    Reads (decodeTable count 4 (decodeText piece)) (encodeTable encodeText items) items :=
  reads_table h.1 (fun s _ => length_encodeText s) fun s hs => reads_text piece (h.2 s hs)

/-! ## Acronyms and entries -/

theorem length_encodeAcronym (a : Nat × String) : 8 ≤ (encodeAcronym a).length := by
  have := length_encodeText a.2
  rw [encodeAcronym, List.length_append, Bytes.length_ofNat]; omega

theorem reads_acronym {a : Nat × String} (h : a.1 < UInt32.size ∧ TextFits a.2) :
    Reads decodeAcronym (encodeAcronym a) a :=
  reads_bind (reads_nat _ h.1) (reads_map (reads_text _ h.2))

theorem reads_kind (symbol : String) (kind : Kind) :
    Reads (decodeKind symbol) (Bytes.ofNat 1 kind.code) kind := by
  have hcode : kind.code < Bytes.bound 1 := by cases kind <;> decide
  rw [← List.append_nil (Bytes.ofNat 1 kind.code)]
  refine reads_bind (reads_nat _ hcode) ?_
  rw [Kind.ofCode?_eq_some_iff.2 rfl]
  exact reads_pure kind

theorem length_encodeEntry (e : HeaderEntry) : 29 ≤ (encodeEntry e).length := by
  have h₁ := length_encodeText e.symbol.name
  have h₂ := length_encodeTable encodeText e.symbol.domains
  have h₃ := length_encodeText e.symbol.text
  simp only [encodeEntry, List.length_append, Bytes.length_ofNat]; omega

theorem reads_entry {e : HeaderEntry} (h : EntryFits e) : Reads decodeEntry (encodeEntry e) e := by
  unfold encodeEntry
  simp only [List.append_assoc]
  refine reads_bind (reads_text _ h.name) ?_
  refine reads_bind (reads_kind _ _) ?_
  refine reads_bind (reads_texts _ _ h.domains) ?_
  refine reads_bind (reads_text _ h.text) ?_
  exact reads_bind (reads_nat _ h.recordCount) (reads_map (reads_nat _ h.offset))

/-! ## The header -/

theorem reads_header {h : Header} (hf : Fits h) : Reads decodeHeader (encode h) h := by
  unfold encode
  simp only [List.append_assoc]
  refine reads_bind (reads_texts _ _ hf.labels) ?_
  refine reads_bind (reads_texts _ _ hf.texts) ?_
  refine reads_bind (reads_table hf.acronyms.1 (fun a _ => length_encodeAcronym a)
    fun a ha => reads_acronym (hf.acronyms.2 a ha)) ?_
  exact reads_map (reads_table hf.entries.1 (fun e _ => length_encodeEntry e)
    fun e he => reads_entry (hf.entries.2 e he))

/-- A header that fits is read back as it was. -/
theorem decode_encode {h : Header} (hf : Fits h) : decode (encode h) = .ok h := by
  have hr := reads_header hf []
  rw [List.append_nil] at hr
  simp only [decode, hr]

end Header
end SymbolTables
