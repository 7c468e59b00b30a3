import SymbolTables.Proofs.Store.RoundTrip

/-!
# What a refused operation leaves behind

Operations look at the names, kinds and domains of the symbols, at the labels and at the number of
acronyms, but never at an element text or at a number of a record. `SameShape w v` says that two
writers agree in what operations look at.

* `sameShape_apply`, `sameShape_run`: such writers answer alike, and stay alike.
* `length_toBytes_of_sameShape`: their bytes differ in length as their element texts do.
* `state_of_refused`: a refused operation leaves its element text behind, if it has one, and nothing
  else. Nothing is answered differently for it, but the bytes are longer ever after.
-/
namespace SymbolTables

namespace StoreWriter

open Header (encodeText encodeTable)

/-- The answers to operations that are applied one after the other. -/
def answers : StoreWriter → List Operation → List (Except Fault Answer)
  | _, [] => []
  | w, op :: rest => (w.apply op).1 :: answers (w.apply op).2 rest

/-- A symbol as it was declared, with the keys of its records. -/
def PendingSymbol.shape (s : PendingSymbol) : Symbol × List (List Int32) :=
  (PendingSymbol.declared s, s.records.map (·.keys))

/-- The writers differ in element texts and in the numbers of records alone. -/
structure SameShape (w v : StoreWriter) : Prop where
  labels : w.labels = v.labels
  acronyms : w.acronyms = v.acronyms
  symbols : w.symbols.map PendingSymbol.shape = v.symbols.map PendingSymbol.shape

theorem sameShape_texts (w : StoreWriter) (texts : List String) :
    SameShape w { w with texts := texts } :=
  ⟨rfl, rfl, rfl⟩

section
variable {w v : StoreWriter}

/-! ## Operations -/

/-- A symbol of the one writer has its like in the other. -/
theorem SameShape.symbol (h : SameShape w v) (nr : Nat) :
    (w.symbols[nr]? = none ∧ v.symbols[nr]? = none) ∨
      ∃ s t, w.symbols[nr]? = some s ∧ v.symbols[nr]? = some t ∧ s.name = t.name ∧
        s.kind = t.kind ∧ s.domains = t.domains := by
  have hs := congrArg (·[nr]?) h.symbols
  simp only [List.getElem?_map] at hs
  cases hw : w.symbols[nr]? with
  | none =>
    rw [hw, Option.map_none, eq_comm, Option.map_eq_none_iff] at hs
    exact .inl ⟨rfl, hs⟩
  | some s =>
    rw [hw, Option.map_some, eq_comm, Option.map_eq_some_iff] at hs
    obtain ⟨t, hv, ht⟩ := hs
    simp only [PendingSymbol.shape, PendingSymbol.declared, Prod.mk.injEq, Symbol.mk.injEq] at ht
    obtain ⟨⟨hname, hkind, hdomains, -, -⟩, -⟩ := ht
    exact .inr ⟨s, t, rfl, hv, hname.symm, hkind.symm, hdomains.symm⟩

theorem fst_addLabel (h : w.labels = v.labels) (label : String) :
    (w.addLabel label).1 = (v.addLabel label).1 := by
  simp only [addLabel, keyOf?, h]
  cases v.labels.idxOf? label <;> rfl

theorem fst_addLabels : ∀ (labels : List String) {w v : StoreWriter}, w.labels = v.labels →
    (w.addLabels labels).1 = (v.addLabels labels).1
  | [], _, _, _ => rfl
  | label :: labels, w, v, h => by
    have hrest : (w.addLabel label).2.labels = (v.addLabel label).2.labels := by
      rw [(addLabel_spec w label).1, (addLabel_spec v label).1, h]
    simp only [addLabels, fst_addLabel h, fst_addLabels labels hrest]

theorem sameShape_addLabels (h : SameShape w v) (labels : List String) :
    SameShape (w.addLabels labels).2 (v.addLabels labels).2 := by
  rw [(addLabels_spec labels w).1, (addLabels_spec labels v).1]
  exact ⟨by rw [h.labels], h.acronyms, h.symbols⟩

/-- A record shows in the shape of its symbol by its keys. -/
theorem map_shape_appendRecord (w : StoreWriter) (nr : Nat) (r : Record) :
    (w.appendRecord nr r).symbols.map PendingSymbol.shape =
      (w.symbols.map PendingSymbol.shape).modify nr fun p => (p.1, p.2 ++ [r.keys]) := by
  apply List.ext_getElem?
  intro n
  simp only [appendRecord, List.getElem?_map, List.getElem?_modify]
  cases w.symbols[n]? with
  | none => rfl
  | some s => by_cases hn : nr = n <;> simp [hn, PendingSymbol.shape, PendingSymbol.declared]

theorem sameShape_appendRecord (h : SameShape w v) (nr : Nat) {r q : Record}
    (hkeys : r.keys = q.keys) : SameShape (w.appendRecord nr r) (v.appendRecord nr q) := by
  refine ⟨h.labels, h.acronyms, ?_⟩
  rw [map_shape_appendRecord, map_shape_appendRecord, h.symbols, hkeys]

theorem sameShape_addRecord (h : SameShape w v) (nr : Nat) (expected : Kind)
    (labels : List String) (values values' : Slots) :
    (w.addRecord nr expected labels values).1 = (v.addRecord nr expected labels values').1 ∧
      SameShape (w.addRecord nr expected labels values).2
        (v.addRecord nr expected labels values').2 := by
  unfold addRecord
  rcases h.symbol nr with ⟨hw, hv⟩ | ⟨s, t, hw, hv, hname, hkind, hdomains⟩
  · simp only [hw, hv]
    exact ⟨trivial, h⟩
  · -- what is checked is the same in both
    simp only [hw, hv, hname, hkind, hdomains]
    split
    · exact ⟨rfl, h⟩
    · split
      · exact ⟨rfl, h⟩
      · exact ⟨rfl, sameShape_appendRecord (sameShape_addLabels h labels) nr
          (fst_addLabels labels h.labels)⟩

theorem sameShape_addElement (h : SameShape w v) (nr : Nat) (labels : List String)
    (text : Option String) :
    (w.addElement nr labels text).1 = (v.addElement nr labels text).1 ∧
      SameShape (w.addElement nr labels text).2 (v.addElement nr labels text).2 := by
  cases text with
  | none => exact sameShape_addRecord h nr .set labels _ _
  | some text =>
    have h' : SameShape { w with texts := w.texts ++ [text] } { v with texts := v.texts ++ [text] } :=
      ⟨h.labels, h.acronyms, h.symbols⟩
    exact sameShape_addRecord h' nr .set labels _ _

theorem sameShape_addValues (h : SameShape w v) (nr : Nat) (labels : List String)
    (values : Slots) :
    (w.addValues nr labels values).1 = (v.addValues nr labels values).1 ∧
      SameShape (w.addValues nr labels values).2 (v.addValues nr labels values).2 := by
  unfold addValues
  rcases h.symbol nr with ⟨hw, hv⟩ | ⟨s, t, hw, hv, hname, hkind, -⟩
  · simp only [hw, hv]
    exact ⟨trivial, h⟩
  · simp only [hw, hv, hname, hkind]
    cases t.kind with
    | var => exact sameShape_addRecord h nr .var labels values values
    | equation => exact sameShape_addRecord h nr .equation labels values values
    | set => exact ⟨rfl, h⟩
    | parameter => exact ⟨rfl, h⟩

theorem sameShape_addSymbol (h : SameShape w v) (name : String) (kind : Kind)
    (domains : List String) (text : String) :
    (w.addSymbol name kind domains text).1 = (v.addSymbol name kind domains text).1 ∧
      SameShape (w.addSymbol name kind domains text).2 (v.addSymbol name kind domains text).2 := by
  have hnames : w.symbols.map (·.name) = v.symbols.map (·.name) := by
    have := congrArg (List.map fun p : Symbol × List (List Int32) => p.1.name) h.symbols
    rw [List.map_map, List.map_map] at this
    exact this
  have hany : (w.symbols.any fun s => Text.sameName s.name name) =
      v.symbols.any fun s => Text.sameName s.name name := by
    have := congrArg (fun names : List String => names.any (Text.sameName · name)) hnames
    simpa only [List.any_map, Function.comp_def] using this
  have hlength : w.symbols.length = v.symbols.length := by
    simpa only [List.length_map] using congrArg List.length hnames
  simp only [addSymbol, hany, hlength]
  split
  · exact ⟨rfl, h⟩
  · exact ⟨rfl, h.labels, h.acronyms, by simp only [List.map_append, h.symbols]⟩

/-- Writers of one shape answer alike and keep one shape. -/
theorem sameShape_apply (h : SameShape w v) (op : Operation) :
    (w.apply op).1 = (v.apply op).1 ∧ SameShape (w.apply op).2 (v.apply op).2 := by
  cases op with
  | label label =>
    have hs := sameShape_addLabels h [label]
    exact ⟨by simp only [apply, fst_addLabel h.labels], hs⟩
  | acronym name =>
    exact ⟨by simp only [apply, addAcronym, h.acronyms], h.labels,
      by simp only [apply, addAcronym, h.acronyms], h.symbols⟩
  | symbol name kind domains text =>
    obtain ⟨hanswer, hs⟩ := sameShape_addSymbol h name kind domains text
    exact ⟨by simp only [apply, hanswer], hs⟩
  | element nr labels text =>
    obtain ⟨hanswer, hs⟩ := sameShape_addElement h nr labels text
    exact ⟨by simp only [apply, hanswer], hs⟩
  | value nr labels x =>
    obtain ⟨hanswer, hs⟩ := sameShape_addRecord h nr .parameter labels (.ofLevel x) (.ofLevel x)
    exact ⟨by simp only [apply, addValue, hanswer], hs⟩
  | values nr labels values =>
    obtain ⟨hanswer, hs⟩ := sameShape_addValues h nr labels values
    exact ⟨by simp only [apply, hanswer], hs⟩

end

theorem sameShape_run : ∀ (ops : List Operation) {w v : StoreWriter}, SameShape w v →
    answers w ops = answers v ops ∧ SameShape (w.run ops) (v.run ops)
  | [], _, _, h => ⟨rfl, h⟩
  | op :: ops, _, _, h => by
    obtain ⟨hanswer, h'⟩ := sameShape_apply h op
    obtain ⟨hanswers, h''⟩ := sameShape_run ops h'
    exact ⟨by rw [answers, answers, hanswer, hanswers], h''⟩

/-- Every operation that has an element text leaves it behind, whether or not it succeeds. -/
theorem texts_run : ∀ (ops : List Operation) (w : StoreWriter),
    (w.run ops).texts = w.texts ++ ops.filterMap Operation.text?
  | [], w => (List.append_nil _).symm
  | op :: ops, w => by
    rw [show w.run (op :: ops) = (w.apply op).2.run ops from rfl, texts_run ops, (apply_grows w op).1]
    cases ht : op.text? <;> simp [ht]

/-! ## Bytes -/

/-- The entries of a header show the shapes of the symbols. -/
theorem entriesFrom_of_shapes : ∀ {symbols symbols' : List PendingSymbol} (offset : Nat),
    symbols.map PendingSymbol.shape = symbols'.map PendingSymbol.shape →
    entriesFrom offset symbols = entriesFrom offset symbols'
  | [], [], _, _ => rfl
  | [], _ :: _, _, h => by cases h
  | _ :: _, [], _, h => by cases h
  | s :: symbols, t :: symbols', offset, h => by
    simp only [List.map_cons, List.cons.injEq, PendingSymbol.shape, PendingSymbol.declared,
      Prod.mk.injEq, Symbol.mk.injEq] at h
    obtain ⟨⟨⟨hname, hkind, hdomains, htext, -⟩, hkeys⟩, hrest⟩ := h
    have hcount : s.records.length = t.records.length := by
      simpa only [List.length_map] using congrArg List.length hkeys
    simp only [entriesFrom, PendingSymbol.entry, PendingSymbol.dataLength, hname, hkind, hdomains,
      htext, hcount, entriesFrom_of_shapes _ hrest]

/-- Records of the same keys take as many bytes. -/
theorem length_records_of_keys : ∀ {records records' : List Record},
    records.map (·.keys) = records'.map (·.keys) →
    (records.flatMap Record.encode).length = (records'.flatMap Record.encode).length
  | [], [], _ => rfl
  | [], _ :: _, h => by cases h
  | _ :: _, [], h => by cases h
  | r :: records, t :: records', h => by
    simp only [List.map_cons, List.cons.injEq] at h
    obtain ⟨hkeys, hrest⟩ := h
    simp only [List.flatMap_cons, List.length_append, length_record_encode, hkeys,
      length_records_of_keys hrest]

/-- Symbols of the same shapes have data of the same length. -/
theorem length_data_of_shapes : ∀ {symbols symbols' : List PendingSymbol},
    symbols.map PendingSymbol.shape = symbols'.map PendingSymbol.shape →
    (symbols.flatMap fun s => s.records.flatMap Record.encode).length =
      (symbols'.flatMap fun s => s.records.flatMap Record.encode).length
  | [], [], _ => rfl
  | [], _ :: _, h => by cases h
  | _ :: _, [], h => by cases h
  | s :: symbols, t :: symbols', h => by
    simp only [List.map_cons, List.cons.injEq, PendingSymbol.shape, Prod.mk.injEq] at h
    obtain ⟨⟨-, hkeys⟩, hrest⟩ := h
    simp only [List.flatMap_cons, List.length_append, length_records_of_keys hkeys,
      length_data_of_shapes hrest]

theorem length_encodeTable_append {α : Type} (item : α → Bytes) (items more : List α) :
    (encodeTable item (items ++ more)).length =
      (encodeTable item items).length + (more.flatMap item).length := by
  simp only [encodeTable, List.length_append, Bytes.length_ofNat, List.flatMap_append, Nat.add_assoc]

/-- The bytes of writers of one shape differ in length as their element texts do. -/
theorem length_toBytes_of_sameShape {w v : StoreWriter} (h : SameShape w v) :
    w.toBytes.length + (encodeTable encodeText v.texts).length =
      v.toBytes.length + (encodeTable encodeText w.texts).length := by
  have hentries : entriesFrom 0 w.symbols = entriesFrom 0 v.symbols :=
    entriesFrom_of_shapes 0 h.symbols
  have hdata : w.data.length = v.data.length := length_data_of_shapes h.symbols
  simp only [length_toBytes, header, Header.encode, List.length_append, h.labels, h.acronyms,
    hentries, hdata]
  omega

/-! ## Refused operations -/

/-- An operation that is refused leaves its element text behind, and nothing else. -/
theorem apply_refused {w : StoreWriter} {op : Operation} {f : Fault}
    (h : (w.apply op).1 = .error f) :
    (w.apply op).2 = { w with texts := w.texts ++ op.text?.toList } := by
  have hstep := step_apply w op
  generalize w.apply op = p at h hstep ⊢
  cases hstep with
  | refused => rfl
  | label | acronym | symbol | record => cases h

/-- **Refused operations.** Whatever state a writer is in and whatever operation it refuses, for
whatever cause: it is left as it was, but for the element text of the operation, if it has one. All
later operations are answered as if the refused one had not been asked for. The bytes after them are
the same if there is no text, and otherwise longer by just the text with its length. -/
theorem state_of_refused (w : StoreWriter) {op : Operation} {f : Fault}
    (h : (w.apply op).1 = .error f) :
    (w.apply op).2 = { w with texts := w.texts ++ op.text?.toList } ∧
      ((w.apply op).2 = w ↔ op.text? = none) ∧
      ∀ later, answers (w.apply op).2 later = answers w later ∧
        ((w.apply op).2.run later).toBytes.length =
          (w.run later).toBytes.length + (op.text?.toList.flatMap encodeText).length ∧
        (((w.apply op).2.run later).toBytes = (w.run later).toBytes ↔ op.text? = none) := by
  have hstate := apply_refused h
  have hsame : op.text? = none → (w.apply op).2 = w := fun hnone => by
    rw [hstate, hnone, Option.toList_none, List.append_nil]
  have hshape : SameShape w (w.apply op).2 := hstate ▸ sameShape_texts w _
  refine ⟨hstate, ⟨fun hw => ?_, hsame⟩, fun later => ?_⟩
  · have htexts := congrArg StoreWriter.texts (hstate.symm.trans hw)
    simpa using htexts
  · obtain ⟨hanswers, hrun⟩ := sameShape_run later hshape
    have hlength : ((w.apply op).2.run later).toBytes.length =
        (w.run later).toBytes.length + (op.text?.toList.flatMap encodeText).length := by
      have hbytes := length_toBytes_of_sameShape hrun
      have htexts : (w.apply op).2.texts = w.texts ++ op.text?.toList := (apply_grows w op).1
      simp only [texts_run, htexts, length_encodeTable_append, List.append_assoc,
        List.flatMap_append, List.length_append] at hbytes
      omega
    refine ⟨hanswers.symm, hlength, fun hbytes => ?_, fun hnone => by rw [hsame hnone]⟩
    cases ht : op.text? with
    | none => rfl
    | some text =>
      have htext := Header.length_encodeText text
      rw [hbytes, ht, Option.toList_some, List.flatMap_singleton] at hlength
      omega

/-- A writer with one parameter. -/
def sampleParameter : StoreWriter := empty.run [.symbol "p" .parameter ["i"] ""]

/-- A set element for it. -/
def sampleElement : Operation := .element 0 ["a"] (some "note")

theorem state_of_refused_sample :
    (sampleParameter.apply sampleElement).1 = .error (.wrongKind "p" .parameter .set) ∧
      ∀ later,
        answers (sampleParameter.apply sampleElement).2 later = answers sampleParameter later ∧
        ((sampleParameter.apply sampleElement).2.run later).toBytes.length =
          (sampleParameter.run later).toBytes.length + 8 := by
  have hrefused :
      (sampleParameter.apply sampleElement).1 = .error (.wrongKind "p" .parameter .set) := rfl
  refine ⟨hrefused, fun later => ?_⟩
  obtain ⟨hanswers, hlength, -⟩ := (state_of_refused sampleParameter hrefused).2.2 later
  exact ⟨hanswers, hlength.trans (congrArg _ (by decide))⟩

end StoreWriter
end SymbolTables
