import SymbolTables.Proofs.Store.Header

/-!
# Which byte strings begin with a header

`Proofs.Store.Header` reads back what has been written. Here the bytes come first, whatever they
are: `Takes encode fits m` says that `m` takes nothing off the front of a byte string but the
encoding of the value it gives, and that this value fits. With `Reads` for the way back, the
encodings of headers that fit are all that is accepted.

`Bounded m` says that the answer of `m` rests on the bytes it has been given: more bytes behind them
change it only where it was that they had run out.

* `decode_eq_ok_iff`: a header is read exactly where its encoding stands, whatever is behind it.
* `bounded_header`: no answer rests on bytes behind the given ones.
* `header_exact`: both, for every byte string.
-/
namespace SymbolTables

namespace Bytes

/-- A number is written with the bytes it was read from. -/
theorem ofNat_toNat (bytes : Bytes) : ofNat bytes.length (toNat bytes) = bytes := by
  induction bytes with
  | nil => rfl
  | cons b rest ih =>
    have hb := b.toNat_lt
    have hlow : UInt8.ofNat (b.toNat + 256 * toNat rest) = b := by
      apply UInt8.toNat_inj.mp
      rw [UInt8.toNat_ofNat']
      omega
    have hhigh : (b.toNat + 256 * toNat rest) / 256 = toNat rest := by omega
    simp only [List.length_cons, toNat, ofNat, hlow, hhigh, ih]

end Bytes

namespace Text.Utf8

/-- Bytes that are read as a text are the bytes of that text. -/
theorem encode_decode {bytes : Bytes} {s : String} (h : decode bytes = .ok s) :
    encode s = bytes := by
  unfold decode at h
  cases hs : String.fromUTF8? bytes.toByteArray with
  | none => rw [hs] at h; cases h
  | some t =>
    rw [hs] at h
    cases h
    unfold String.fromUTF8? at hs
    split at hs
    · cases hs
      show (List.toByteArray bytes).data.toList = bytes
      rw [List.data_toByteArray, List.toList_toArray]
    · cases hs

end Text.Utf8

namespace Header

/-- Takes the encoding of a value that fits off the front of the bytes, and nothing else. -/
def Takes {α : Type} (encode : α → Bytes) (fits : α → Prop) (m : Decode α) : Prop :=
  ∀ bytes a rest, m bytes = .ok (a, rest) → fits a ∧ bytes = encode a ++ rest

/-! ## What is taken -/

section
variable {α β : Type}

/-- A sequence succeeds where its parts do, one behind the other. -/
theorem bind_ok {m : Decode α} {f : α → Decode β} {bytes rest : Bytes} {b : β}
    (h : (m >>= f) bytes = .ok (b, rest)) :
    ∃ a mid, m bytes = .ok (a, mid) ∧ f a mid = .ok (b, rest) := by
  replace h : (m bytes >>= fun p => f p.1 p.2) = .ok (b, rest) := h
  cases hm : m bytes with
  | error fault => rw [hm] at h; cases h
  | ok p =>
    rw [hm] at h
    exact ⟨p.1, p.2, rfl, h⟩

theorem pure_ok {a b : α} {bytes rest : Bytes} (h : (pure a : Decode α) bytes = .ok (b, rest)) :
    b = a ∧ rest = bytes := by
  cases h
  exact ⟨rfl, rfl⟩

theorem takes_items {item : Decode α} {encode : α → Bytes} {fits : α → Prop}
    (hitem : Takes encode fits item) :
    ∀ (n : Nat) {bytes rest : Bytes} {items : List α},
      decodeItems item n bytes = .ok (items, rest) →
        items.length = n ∧ (∀ a ∈ items, fits a) ∧ bytes = items.flatMap encode ++ rest
  | 0, bytes, rest, items, h => by
    obtain ⟨rfl, rfl⟩ := pure_ok h
    simp
  | n + 1, bytes, rest, items, h => by
    obtain ⟨a, mid, hfirst, h₁⟩ := bind_ok h
    obtain ⟨more, mid', hmore, h₂⟩ := bind_ok h₁
    obtain ⟨rfl, rfl⟩ := pure_ok h₂
    obtain ⟨ha, rfl⟩ := hitem _ _ _ hfirst
    obtain ⟨hlen, hfits, rfl⟩ := takes_items hitem n hmore
    refine ⟨by rw [List.length_cons, hlen], List.forall_mem_cons.2 ⟨ha, hfits⟩, ?_⟩
    rw [List.flatMap_cons, List.append_assoc]

end

/-! ### Numbers and texts -/

theorem bytes_ok {piece : Piece} {n : Nat} {bytes head rest : Bytes}
    (h : decodeBytes piece n bytes = .ok (head, rest)) : bytes = head ++ rest ∧ head.length = n := by
  unfold decodeBytes at h
  split at h
  · rename_i p hp
    cases h
    exact Bytes.eq_append_of_cut? hp
  · cases h

theorem takes_nat (piece : Piece) (width : Nat) :
    Takes (Bytes.ofNat width) (· < Bytes.bound width) (decodeNat piece width) := by
  intro bytes n rest h
  obtain ⟨head, mid, hbytes, h₁⟩ := bind_ok h
  obtain ⟨rfl, rfl⟩ := pure_ok h₁
  obtain ⟨rfl, rfl⟩ := bytes_ok hbytes
  refine ⟨Bytes.toNat_lt head, ?_⟩
  rw [Bytes.ofNat_toNat]

theorem takes_text (piece : Piece) : Takes encodeText TextFits (decodeText piece) := by
  intro bytes s rest h
  obtain ⟨n, mid, hn, h₁⟩ := bind_ok h
  obtain ⟨head, mid', hbytes, h₂⟩ := bind_ok h₁
  obtain ⟨hlt, rfl⟩ := takes_nat piece 4 _ _ _ hn
  obtain ⟨rfl, rfl⟩ := bytes_ok hbytes
  cases ht : Text.Utf8.decode head with
  | error fault =>
    rw [ht] at h₂
    cases h₂
  | ok t =>
    rw [ht] at h₂
    obtain ⟨rfl, rfl⟩ := pure_ok h₂
    rw [← Text.Utf8.encode_decode ht] at hlt ⊢
    refine ⟨hlt, ?_⟩
    rw [encodeText, List.append_assoc]

/-! ### Tables -/

/-- A count that passes the check is the one that is written there. -/
theorem count_ok {piece : Piece} {least n : Nat} {bytes rest : Bytes}
    (h : decodeCount piece least bytes = .ok (n, rest)) :
    n < UInt32.size ∧ bytes = Bytes.ofNat 4 n ++ rest := by
  obtain ⟨m, mid, hm, h₁⟩ := bind_ok h
  rw [check_eq] at h₁
  split at h₁
  · cases h₁
  · cases h₁
    exact takes_nat piece 4 _ _ _ hm

theorem takes_table {α : Type} {item : Decode α} {encode : α → Bytes} {fits : α → Prop}
    (hitem : Takes encode fits item) (piece : Piece) (least : Nat) :
    Takes (encodeTable encode) (TableFits fits) (decodeTable piece least item) := by
  intro bytes items rest h
  obtain ⟨n, mid, hn, h₁⟩ := bind_ok h
  obtain ⟨hlt, rfl⟩ := count_ok hn
  obtain ⟨rfl, hfits, rfl⟩ := takes_items hitem n h₁
  refine ⟨⟨hlt, hfits⟩, ?_⟩
  rw [encodeTable, List.append_assoc]

theorem takes_texts (count piece : Piece) :
    Takes (encodeTable encodeText) (TableFits TextFits) (decodeTable count 4 (decodeText piece)) :=
  takes_table (takes_text piece) count 4

/-! ### Acronyms and entries -/

theorem takes_acronym :
    Takes encodeAcronym (fun a => a.1 < UInt32.size ∧ TextFits a.2) decodeAcronym := by
  intro bytes a rest h
  obtain ⟨number, mid, hnumber, h₁⟩ := bind_ok h
  obtain ⟨name, mid', hname, h₂⟩ := bind_ok h₁
  obtain ⟨rfl, rfl⟩ := pure_ok h₂
  obtain ⟨hlt, rfl⟩ := takes_nat _ 4 _ _ _ hnumber
  obtain ⟨hfits, rfl⟩ := takes_text _ _ _ _ hname
  refine ⟨⟨hlt, hfits⟩, ?_⟩
  rw [encodeAcronym, List.append_assoc]

theorem kind_ok {symbol : String} {kind : Kind} {bytes rest : Bytes}
    (h : decodeKind symbol bytes = .ok (kind, rest)) : bytes = Bytes.ofNat 1 kind.code ++ rest := by
  obtain ⟨code, mid, hcode, h₁⟩ := bind_ok h
  obtain ⟨-, rfl⟩ := takes_nat _ 1 _ _ _ hcode
  cases hk : Kind.ofCode? code with
  | none =>
    rw [hk] at h₁
    cases h₁
  | some k =>
    rw [hk] at h₁
    obtain ⟨rfl, rfl⟩ := pure_ok h₁
    rw [Kind.ofCode?_eq_some_iff.1 hk]

theorem takes_entry : Takes encodeEntry EntryFits decodeEntry := by
  intro bytes e rest h
  obtain ⟨name, _, hname, h₁⟩ := bind_ok h
  obtain ⟨kind, _, hkind, h₂⟩ := bind_ok h₁
  obtain ⟨domains, _, hdomains, h₃⟩ := bind_ok h₂
  obtain ⟨text, _, htext, h₄⟩ := bind_ok h₃
  obtain ⟨recordCount, _, hcount, h₅⟩ := bind_ok h₄
  obtain ⟨offset, _, hoffset, h₆⟩ := bind_ok h₅
  obtain ⟨rfl, rfl⟩ := pure_ok h₆
  obtain ⟨fname, rfl⟩ := takes_text _ _ _ _ hname
  obtain rfl := kind_ok hkind
  obtain ⟨fdomains, rfl⟩ := takes_texts _ _ _ _ _ hdomains
  obtain ⟨ftext, rfl⟩ := takes_text _ _ _ _ htext
  obtain ⟨fcount, rfl⟩ := takes_nat _ 8 _ _ _ hcount
  obtain ⟨foffset, rfl⟩ := takes_nat _ 8 _ _ _ hoffset
  refine ⟨⟨fname, fdomains, ftext, fcount, foffset⟩, ?_⟩
  simp only [encodeEntry, List.append_assoc]

/-! ### The header -/

theorem takes_header : Takes encode Fits decodeHeader := by
  intro bytes header rest h
  obtain ⟨labels, _, hlabels, h₁⟩ := bind_ok h
  obtain ⟨texts, _, htexts, h₂⟩ := bind_ok h₁
  obtain ⟨acronyms, _, hacronyms, h₃⟩ := bind_ok h₂
  obtain ⟨entries, _, hentries, h₄⟩ := bind_ok h₃
  obtain ⟨rfl, rfl⟩ := pure_ok h₄
  obtain ⟨flabels, rfl⟩ := takes_texts _ _ _ _ _ hlabels
  obtain ⟨ftexts, rfl⟩ := takes_texts _ _ _ _ _ htexts
  obtain ⟨facronyms, rfl⟩ := takes_table takes_acronym _ _ _ _ _ hacronyms
  obtain ⟨fentries, rfl⟩ := takes_table takes_entry _ _ _ _ _ hentries
  refine ⟨⟨flabels, ftexts, facronyms, fentries⟩, ?_⟩
  simp only [encode, List.append_assoc]

/-- A header is read exactly where its encoding stands in front. -/
theorem decode_eq_ok_iff {bytes : Bytes} {h : Header} :
    decode bytes = .ok h ↔ Fits h ∧ encode h <+: bytes := by
  constructor
  · intro hd
    unfold decode at hd
    split at hd
    · rename_i header rest hr
      cases hd
      obtain ⟨hf, hbytes⟩ := takes_header _ _ _ hr
      exact ⟨hf, rest, hbytes.symm⟩
    · cases hd
  · rintro ⟨hf, rest, rfl⟩
    have hr := reads_header hf rest
    simp only [decode, hr]

/-! ## What an answer rests on -/

/-- More bytes behind the given ones change no answer, but where these have run out. -/
structure Bounded {α : Type} (m : Decode α) : Prop where
  ok : ∀ {bytes a rest}, m bytes = .ok (a, rest) → ∀ more, m (bytes ++ more) = .ok (a, rest ++ more)
  error : ∀ {bytes fault}, m bytes = .error fault → (∀ piece, fault ≠ .truncated piece) →
    ∀ more, m (bytes ++ more) = .error fault

section
variable {α β : Type}

theorem bounded_pure (a : α) : Bounded (pure a : Decode α) where
  ok h more := by
    obtain ⟨rfl, rfl⟩ := pure_ok h
    rfl
  error h := by cases h

theorem bounded_throw (fault : Fault) : Bounded (throw fault : Decode α) where
  ok h := by cases h
  error h _ more := by
    cases h
    rfl

theorem bind_eq {m : Decode α} {f : α → Decode β} {bytes : Bytes} :
    (m >>= f) bytes = (m bytes >>= fun p => f p.1 p.2) := rfl

theorem bounded_bind {m : Decode α} {f : α → Decode β} (hm : Bounded m) (hf : ∀ a, Bounded (f a)) :
    Bounded (m >>= f) where
  ok h more := by
    obtain ⟨a, mid, h₁, h₂⟩ := bind_ok h
    rw [bind_eq, hm.ok h₁ more]
    exact (hf a).ok h₂ more
  error {bytes fault} h hfault more := by
    rw [bind_eq] at h ⊢
    cases hb : m bytes with
    | error first =>
      rw [hb] at h
      cases h
      rw [hm.error hb hfault more]
      rfl
    | ok p =>
      rw [hb] at h
      rw [hm.ok hb more]
      exact (hf p.1).error h hfault more

theorem bounded_items {item : Decode α} (hitem : Bounded item) :
    ∀ n, Bounded (decodeItems item n)
  | 0 => bounded_pure []
  | n + 1 => bounded_bind hitem fun _ => bounded_bind (bounded_items hitem n) fun _ => bounded_pure _

end

theorem bounded_bytes (piece : Piece) (n : Nat) : Bounded (decodeBytes piece n) where
  ok {bytes head rest} h more := by
    obtain ⟨rfl, rfl⟩ := bytes_ok h
    simp only [decodeBytes, List.append_assoc, Bytes.cut?_append]
  error {bytes fault} h hfault more := by
    unfold decodeBytes at h
    split at h
    · cases h
    · cases h
      exact absurd rfl (hfault piece)

theorem bounded_nat (piece : Piece) (width : Nat) : Bounded (decodeNat piece width) :=
  bounded_bind (bounded_bytes piece width) fun _ => bounded_pure _

theorem bounded_text (piece : Piece) : Bounded (decodeText piece) := by
  refine bounded_bind (bounded_nat piece 4) fun n => bounded_bind (bounded_bytes piece n) fun head => ?_
  split
  · exact bounded_pure _
  · exact bounded_throw _

/-- A check that is passed is passed with more bytes as well. -/
theorem bounded_count (piece : Piece) (least : Nat) : Bounded (decodeCount piece least) := by
  refine bounded_bind (bounded_nat piece 4) fun n => ?_
  refine ⟨fun {bytes a rest} h more => ?_, fun {bytes fault} h hfault more => ?_⟩
  · rw [check_eq] at h ⊢
    split at h
    · cases h
    · rename_i hleft
      cases h
      have hmore : ¬ (bytes ++ more).length < n * least := by
        rw [List.length_append]
        omega
      rw [if_neg hmore]
  · rw [check_eq] at h
    split at h
    · cases h
      exact absurd rfl (hfault piece)
    · cases h

theorem bounded_table {α : Type} {item : Decode α} (hitem : Bounded item) (count : Piece)
    (least : Nat) : Bounded (decodeTable count least item) :=
  bounded_bind (bounded_count count least) fun n => bounded_items hitem n

theorem bounded_acronym : Bounded decodeAcronym :=
  bounded_bind (bounded_nat _ 4) fun _ => bounded_bind (bounded_text _) fun _ => bounded_pure _

theorem bounded_kind (symbol : String) : Bounded (decodeKind symbol) := by
  refine bounded_bind (bounded_nat _ 1) fun code => ?_
  split
  · exact bounded_pure _
  · exact bounded_throw _

theorem bounded_entry : Bounded decodeEntry :=
  bounded_bind (bounded_text _) fun name =>
  bounded_bind (bounded_kind name) fun _ =>
  bounded_bind (bounded_table (bounded_text _) _ 4) fun _ =>
  bounded_bind (bounded_text _) fun _ =>
  bounded_bind (bounded_nat _ 8) fun _ =>
  bounded_bind (bounded_nat _ 8) fun _ => bounded_pure _

theorem bounded_header : Bounded decodeHeader :=
  bounded_bind (bounded_table (bounded_text _) _ 4) fun _ =>
  bounded_bind (bounded_table (bounded_text _) _ 4) fun _ =>
  bounded_bind (bounded_table bounded_acronym _ 8) fun _ =>
  bounded_bind (bounded_table bounded_entry _ 29) fun _ => bounded_pure _

/-! ## All byte strings -/

/-- **Exactly the encodings.** A byte string is read as a header if and only if the encoding of that
header, all of whose lengths and numbers have room in their fields, stands in front of it; what is
behind does not matter. Every other byte string gives a fault. A fault that is not about bytes
running out has been found in the bytes themselves: it stays, whatever is put behind them. -/
theorem header_exact (bytes : Bytes) :
    (∀ h, decode bytes = .ok h ↔ Fits h ∧ encode h <+: bytes) ∧
      ((¬ ∃ h, Fits h ∧ encode h <+: bytes) ↔ ∃ fault, decode bytes = .error fault) ∧
      ∀ fault, decode bytes = .error fault → (∀ piece, fault ≠ .truncated piece) →
        ∀ more, decode (bytes ++ more) = .error fault := by
  refine ⟨fun h => decode_eq_ok_iff, ⟨fun hnone => ?_, ?_⟩, fun fault hd hfault more => ?_⟩
  · cases hd : decode bytes with
    | ok h => exact absurd ⟨h, decode_eq_ok_iff.1 hd⟩ hnone
    | error fault => exact ⟨fault, rfl⟩
  · rintro ⟨fault, hd⟩ ⟨h, hh⟩
    rw [decode_eq_ok_iff.2 hh] at hd
    cases hd
  · unfold decode at hd ⊢
    cases hr : decodeHeader bytes with
    | ok p => rw [hr] at hd; cases hd
    | error first =>
      rw [hr] at hd
      cases hd
      rw [bounded_header.error hr hfault more]

end Header
end SymbolTables
