import Mathlib.Data.List.Forall2
import SymbolTables.Proofs.Store.Special
import SymbolTables.Store.Writer

/-!
# What a writer holds after some operations

`Reflects w done all` says that a writer holds what the operations `all` have put into it, of which
`done` have succeeded: the labels in the order of their first use, the element texts, the acronyms,
the symbols, and for each symbol the records that were added to it, in order.

* `step_apply`: what an operation can do. It is refused, or it does what its kind of operation does;
  one that adds a record interns the labels and appends the record.
* `reflects_apply`, `reflects_run`: every operation keeps it, as long as there are fewer than `2^31`
  labels and `2^32` texts.
-/
namespace SymbolTables

open List (Forall₂)

/-! ## What operations ask for -/

/-- What a record is to hold: numbers, or the text of a set element. -/
inductive Content
  | numbers (values : Slots)
  | element (text : Option String)

/-- A record that is to be added. -/
structure Addition where
  labels : List String
  content : Content

namespace StoreWriter.Operation

/-- The record that an operation adds, with the number of its symbol. -/
def addition? : Operation → Option (Nat × Addition)
  | .element nr labels text => some (nr, ⟨labels, .element text⟩)
  | .value nr labels x => some (nr, ⟨labels, .numbers (.ofLevel x)⟩)
  | .values nr labels v => some (nr, ⟨labels, .numbers v⟩)
  | .label _ | .acronym _ | .symbol .. => none

/-- The record that an operation adds to a symbol. -/
def additionTo? (nr : Nat) (op : Operation) : Option Addition :=
  op.addition?.bind fun p => if p.1 = nr then some p.2 else none

/-- The labels that an operation uses, in their order. -/
def labels (op : Operation) : List String :=
  match op with
  | .label name => [name]
  | .element _ labels _ | .value _ labels _ | .values _ labels _ => labels
  | .acronym _ | .symbol .. => []

def text? : Operation → Option String
  | .element _ _ text => text
  | .label _ | .acronym _ | .symbol .. | .value .. | .values .. => none

def acronym? : Operation → Option String
  | .acronym name => some name
  | .label _ | .symbol .. | .element .. | .value .. | .values .. => none

/-- The symbol that an operation declares, without records. -/
def symbol? : Operation → Option Symbol
  | .symbol name kind domains text => some ⟨name, kind, domains, text, 0⟩
  | .label _ | .acronym _ | .element .. | .value .. | .values .. => none

end StoreWriter.Operation

namespace StoreWriter

/-- The operation, if it succeeds. -/
def outcome (w : StoreWriter) (op : Operation) : List Operation :=
  match (w.apply op).1 with
  | .ok _ => [op]
  | .error _ => []

/-- The operations that succeed when they are applied one after the other. -/
def succeeded : StoreWriter → List Operation → List Operation
  | _, [] => []
  | w, op :: rest => w.outcome op ++ succeeded (w.apply op).2 rest

/-! ## Labels -/

/-- Put a label behind the others, if it is not among them. -/
def intern (labels : List String) (label : String) : List String :=
  if label ∈ labels then labels else labels ++ [label]

/-- The labels in the order of their first use. -/
def interned (labels : List String) : List String := labels.foldl intern []

theorem prefix_intern (labels : List String) (label : String) : labels <+: intern labels label := by
  unfold intern
  split
  · exact List.prefix_refl _
  · exact List.prefix_append _ _

theorem prefix_foldl_intern : ∀ (more labels : List String), labels <+: more.foldl intern labels
  | [], _ => List.prefix_refl _
  | label :: more, labels => (prefix_intern labels label).trans (prefix_foldl_intern more _)

/-- The key of a label is its place among the labels, counted from 1. -/
theorem addLabel_spec (w : StoreWriter) (label : String) :
    (w.addLabel label).2 = { w with labels := intern w.labels label } ∧
      ∃ i, (w.addLabel label).1 = Int32.ofNat (i + 1) ∧
        (intern w.labels label)[i]? = some label := by
  unfold addLabel keyOf?
  cases hi : w.labels.idxOf? label with
  | some i =>
    have hget := (List.idxOf?_eq_some_iff.1 hi)
    obtain ⟨hlt, hlabel, -⟩ := hget
    have hmem : label ∈ w.labels := hlabel ▸ List.getElem_mem hlt
    simp only [Option.map_some, intern, hmem, if_true, true_and]
    exact ⟨i, rfl, by rw [List.getElem?_eq_getElem hlt, hlabel]⟩
  | none =>
    have hmem : label ∉ w.labels := List.idxOf?_eq_none_iff.1 hi
    simp only [Option.map_none, intern, hmem, if_false, true_and]
    exact ⟨w.labels.length, rfl, by simp⟩

theorem numbered_ofNat {items : List String} {i : Nat} {item : String} (h : items[i]? = some item)
    (hi : i + 1 < 2 ^ 31) : StoreFile.numbered items (Int32.ofNat (i + 1)) = some item := by
  have hint : (Int32.ofNat (i + 1)).toInt = i + 1 := Int32.toInt_ofNat_of_lt hi
  have hpos : ¬ Int32.ofNat (i + 1) < 1 := by
    rw [Int32.lt_iff_toInt_lt, hint]
    show ¬ ((i : Int) + 1 < 1)
    omega
  rw [StoreFile.numbered, if_neg hpos, hint, ← h]
  congr 1

theorem numbered_of_prefix {items more : List String} {number : Int32} {item : String}
    (hp : items <+: more) (h : StoreFile.numbered items number = some item) :
    StoreFile.numbered more number = some item := by
  unfold StoreFile.numbered at h ⊢
  split at h
  · cases h
  · rename_i hn
    rw [if_neg hn]
    obtain ⟨rest, rfl⟩ := hp
    have hlt := (List.getElem?_eq_some_iff.1 h).1
    rw [List.getElem?_append_left hlt, h]

/-- Labels are interned one after the other, and their keys lead back to them. -/
theorem addLabels_spec :
    ∀ (labels : List String) (w : StoreWriter),
      (w.addLabels labels).2 = { w with labels := labels.foldl intern w.labels } ∧
        ((labels.foldl intern w.labels).length < 2 ^ 31 →
          Forall₂ (fun key label =>
            StoreFile.numbered (labels.foldl intern w.labels) key = some label)
            (w.addLabels labels).1 labels)
  | [], w => ⟨rfl, fun _ => .nil⟩
  | label :: labels, w => by
    obtain ⟨hw, i, hkey, hget⟩ := addLabel_spec w label
    obtain ⟨hw', hkeys⟩ := addLabels_spec labels (w.addLabel label).2
    rw [hw] at hw' hkeys
    have hp := prefix_foldl_intern labels (intern w.labels label)
    refine ⟨?_, fun hlen => ?_⟩
    · simp only [addLabels, hw, hw', List.foldl_cons]
    · simp only [addLabels, hw, List.foldl_cons] at hlen ⊢
      refine .cons ?_ (hkeys hlen)
      have hshort : i + 1 < 2 ^ 31 := by
        have := (List.getElem?_eq_some_iff.1 hget).1
        have := hp.length_le
        omega
      rw [hkey]
      exact numbered_of_prefix hp (numbered_ofNat hget hshort)

end StoreWriter

/-! ## Records -/

/-- The numbers that a record is given when so many texts are there before it. -/
def Content.slots (texts : Nat) : Content → Slots
  | .numbers values => values
  | .element none => .ofLevel .zero
  | .element (some _) => .ofLevel (.ofNat (texts + 1))

/-- What a record holds: its numbers, normalised, or the number of its text. -/
def Content.HeldBy (texts : List String) (held : Slots) : Content → Prop
  | .numbers values => held = values.map SpecialValue.normalize
  | .element none => held = .ofLevel .zero
  | .element (some text) => ∃ i, held = .ofLevel (.ofNat (i + 1)) ∧ texts[i]? = some text

/-- Contents go with kinds: elements with sets, numbers with all others. -/
def Content.Fits (kind : Kind) : Content → Prop
  | .numbers _ => kind ≠ .set
  | .element _ => kind = .set

/-- A record is the one that was to be added: its keys lead to the labels, and it holds the
content. -/
structure Addition.StoredAs (labels texts : List String) (a : Addition) (r : Record) : Prop where
  keys : Forall₂ (fun key label => StoreFile.numbered labels key = some label) r.keys a.labels
  content : a.content.HeldBy texts r.values

theorem Slots.map_normalize_ofLevel {x : Binary64} (h : x.isFinite = true) :
    (Slots.ofLevel x).map SpecialValue.normalize = .ofLevel x := by
  have hzero : SpecialValue.normalize .zero = .zero :=
    SpecialValue.normalize_of_isFinite (by decide)
  simp only [Slots.map, Slots.ofLevel, SpecialValue.normalize_of_isFinite h, hzero]

/-- More labels and texts do not change what a record is. -/
theorem Addition.StoredAs.mono {labels labels' texts texts' : List String} {a : Addition}
    {r : Record} (hl : labels <+: labels') (ht : texts <+: texts') (h : a.StoredAs labels texts r) :
    a.StoredAs labels' texts' r := by
  refine ⟨h.keys.imp fun _ _ hk => StoreWriter.numbered_of_prefix hl hk, ?_⟩
  obtain ⟨as, content⟩ := a
  cases content with
  | numbers values => exact h.content
  | element text =>
    cases text with
    | none => exact h.content
    | some text =>
      obtain ⟨i, hi, hget⟩ := h.content
      obtain ⟨more, rfl⟩ := ht
      refine ⟨i, hi, ?_⟩
      rw [List.getElem?_append_left (List.getElem?_eq_some_iff.1 hget).1, hget]

namespace StoreWriter

/-- The records of a symbol. -/
def recordsOf (w : StoreWriter) (nr : Nat) : List Record :=
  match w.symbols[nr]? with
  | some s => s.records
  | none => []

/-- A record is refused, and nothing changes, or its labels are interned and it is appended to a
symbol of the expected kind. -/
theorem addRecord_spec (w : StoreWriter) (nr : Nat) (expected : Kind) (labels : List String)
    (values : Slots) :
    (∃ f, w.addRecord nr expected labels values = (.error f, w)) ∨
      ∃ s, w.symbols[nr]? = some s ∧ s.domains.length = labels.length ∧ s.kind = expected ∧
        w.addRecord nr expected labels values =
          (.ok (), (w.addLabels labels).2.appendRecord nr
            ⟨(w.addLabels labels).1, values.map SpecialValue.normalize⟩) := by
  unfold addRecord
  cases hs : w.symbols[nr]? with
  | none => exact .inl ⟨_, rfl⟩
  | some s =>
    simp only
    split
    · exact .inl ⟨_, rfl⟩
    · rename_i hkind
      split
      · exact .inl ⟨_, rfl⟩
      · rename_i hd
        exact .inr ⟨s, rfl, by simpa using hd, by simpa using hkind, rfl⟩

/-- Numbers for all slots are refused, or added to a symbol of its own kind, which is no set. -/
theorem addValues_spec (w : StoreWriter) (nr : Nat) (labels : List String) (values : Slots) :
    (∃ f, w.addValues nr labels values = (.error f, w)) ∨
      ∃ kind, kind ≠ .set ∧ w.addValues nr labels values = w.addRecord nr kind labels values := by
  unfold addValues
  cases w.symbols[nr]? with
  | none => exact .inl ⟨_, rfl⟩
  | some s =>
    cases hkind : s.kind with
    | set => exact .inl ⟨.singleValued s.name .set, by simp only [hkind]⟩
    | parameter => exact .inl ⟨.singleValued s.name .parameter, by simp only [hkind]⟩
    | var => exact .inr ⟨.var, by decide, by simp only [hkind]⟩
    | equation => exact .inr ⟨.equation, by decide, by simp only [hkind]⟩

/-- An operation that adds a record is refused, or appends it to a symbol whose kind goes with its
content. Its text has got a number before. -/
theorem apply_addition {w : StoreWriter} {op : Operation} {nr : Nat} {a : Addition}
    (h : op.addition? = some (nr, a)) :
    (∃ f, w.apply op = (.error f, { w with texts := w.texts ++ op.text?.toList })) ∨
      ∃ s, w.symbols[nr]? = some s ∧ s.domains.length = a.labels.length ∧ a.content.Fits s.kind ∧
        w.apply op = (.ok .done,
          ({ w with texts := w.texts ++ op.text?.toList }.addLabels a.labels).2.appendRecord nr
            ⟨({ w with texts := w.texts ++ op.text?.toList }.addLabels a.labels).1,
              (a.content.slots w.texts.length).map SpecialValue.normalize⟩) := by
  cases op with
  | label | acronym | symbol => cases h
  | element nr labels text =>
    cases h
    cases text with
    | none =>
      simp only [Operation.text?, Option.toList_none, List.append_nil, Content.slots]
      rcases addRecord_spec w nr .set labels (.ofLevel .zero) with ⟨f, hf⟩ | ⟨s, hs, hd, hk, hr⟩
      · exact .inl ⟨f, by simp only [apply, addElement, hf, Except.map]⟩
      · exact .inr ⟨s, hs, hd, hk, by simp only [apply, addElement, hr, Except.map]⟩
    | some text =>
      simp only [Operation.text?, Option.toList_some, Content.slots]
      have hlen : (w.texts ++ [text]).length = w.texts.length + 1 := by simp
      rcases addRecord_spec { w with texts := w.texts ++ [text] } nr .set labels
        (.ofLevel (.ofNat (w.texts.length + 1))) with ⟨f, hf⟩ | ⟨s, hs, hd, hk, hr⟩
      · exact .inl ⟨f, by simp only [apply, addElement, hlen, hf, Except.map]⟩
      · exact .inr ⟨s, hs, hd, hk, by simp only [apply, addElement, hlen, hr, Except.map]⟩
  | value nr labels x =>
    cases h
    simp only [Operation.text?, Option.toList_none, List.append_nil, Content.slots]
    rcases addRecord_spec w nr .parameter labels (.ofLevel x) with ⟨f, hf⟩ | ⟨s, hs, hd, hk, hr⟩
    · exact .inl ⟨f, by simp only [apply, addValue, hf, Except.map]⟩
    · have hfits : s.kind ≠ .set := by rw [hk]; decide
      exact .inr ⟨s, hs, hd, hfits, by simp only [apply, addValue, hr, Except.map]⟩
  | values nr labels values =>
    cases h
    simp only [Operation.text?, Option.toList_none, List.append_nil, Content.slots]
    rcases addValues_spec w nr labels values with ⟨f, hf⟩ | ⟨kind, hkind, hv⟩
    · exact .inl ⟨f, by simp only [apply, hf, Except.map]⟩
    · rcases addRecord_spec w nr kind labels values with ⟨f, hf⟩ | ⟨s, hs, hd, hk, hr⟩
      · exact .inl ⟨f, by simp only [apply, hv, hf, Except.map]⟩
      · have hfits : s.kind ≠ .set := by rw [hk]; exact hkind
        exact .inr ⟨s, hs, hd, hfits, by simp only [apply, hv, hr, Except.map]⟩

/-- A record that is appended holds what was to be added. -/
theorem heldBy_slots {w : StoreWriter} {op : Operation} {nr : Nat} {a : Addition}
    (h : op.addition? = some (nr, a)) (hlen : (w.texts ++ op.text?.toList).length < 2 ^ 53) :
    a.content.HeldBy (w.texts ++ op.text?.toList)
      ((a.content.slots w.texts.length).map SpecialValue.normalize) := by
  cases op with
  | label | acronym | symbol => cases h
  | value | values => cases h; rfl
  | element nr labels text =>
    cases h
    cases text with
    | none => exact Slots.map_normalize_ofLevel (by decide)
    | some text =>
      simp only [Operation.text?, Option.toList_some, List.length_append,
        List.length_singleton] at hlen
      exact ⟨w.texts.length, Slots.map_normalize_ofLevel (Binary64.isFinite_ofNat hlen), by
        simp [Operation.text?]⟩

/-! ## One operation -/

/-- What an operation that adds a record does not do. -/
theorem Operation.of_addition? {op : Operation} {nr : Nat} {a : Addition}
    (h : op.addition? = some (nr, a)) :
    op.labels = a.labels ∧ op.acronym? = none ∧ op.symbol? = none ∧
      ∀ n, op.additionTo? n = if nr = n then some a else none := by
  refine ⟨?_, ?_, ?_, fun n => by rw [additionTo?, h]; rfl⟩ <;>
    cases op <;> cases h <;> rfl

/-- What an operation can do, with its result and the writer after it. The keys of a record lead to
its labels unless there are too many labels. -/
inductive Step (w : StoreWriter) : Operation → Except Fault Answer × StoreWriter → Prop
  | refused {op : Operation} (f : Fault) (acronym : op.acronym? = none) :
    Step w op (.error f, { w with texts := w.texts ++ op.text?.toList })
  | label (name : String) :
    Step w (.label name)
      (.ok (.key (w.addLabel name).1), { w with labels := intern w.labels name })
  | acronym (name : String) :
    Step w (.acronym name)
      (.ok (.number (w.addAcronym name).1), { w with acronyms := w.acronyms ++ [name] })
  | symbol {name : String} (kind : Kind) (domains : List String) (text : String)
    (new : ∀ s ∈ w.symbols, Text.sameName s.name name = false) :
    Step w (.symbol name kind domains text)
      (.ok (.symbol w.symbols.length),
        { w with symbols := w.symbols ++ [⟨name, kind, domains, text, []⟩] })
  | record {op : Operation} {nr : Nat} {a : Addition} {s : PendingSymbol} {keys : List Int32}
    (addition : op.addition? = some (nr, a)) (present : w.symbols[nr]? = some s)
    (dimensions : keys.length = s.domains.length) (fits : a.content.Fits s.kind)
    (numbered : (a.labels.foldl intern w.labels).length < 2 ^ 31 →
      Forall₂ (fun key label =>
        StoreFile.numbered (a.labels.foldl intern w.labels) key = some label) keys a.labels) :
    Step w op
      (.ok .done,
        { w with
          labels := a.labels.foldl intern w.labels
          texts := w.texts ++ op.text?.toList }.appendRecord nr
            ⟨keys, (a.content.slots w.texts.length).map SpecialValue.normalize⟩)

theorem length_addLabels :
    ∀ (labels : List String) (w : StoreWriter), (w.addLabels labels).1.length = labels.length
  | [], _ => rfl
  | label :: labels, w => by simp only [addLabels, List.length_cons, length_addLabels labels]

theorem step_apply (w : StoreWriter) (op : Operation) : Step w op (w.apply op) := by
  cases ha : op.addition? with
  | some p =>
    rcases apply_addition (w := w) ha with ⟨f, hf⟩ | ⟨s, hs, hd, hfits, hok⟩
    · rw [hf]
      exact .refused f (Operation.of_addition? ha).2.1
    · obtain ⟨hlabels, hkeys⟩ :=
        addLabels_spec p.2.labels { w with texts := w.texts ++ op.text?.toList }
      rw [hok, hlabels]
      exact .record ha hs ((length_addLabels _ _).trans hd.symm) hfits hkeys
  | none =>
    cases op with
    | label name =>
      rw [apply, (addLabel_spec w name).1]
      exact .label name
    | acronym name => exact .acronym name
    | symbol name kind domains text =>
      simp only [apply, addSymbol]
      split
      · have hrefused : Step w (.symbol name kind domains text)
            (.error (.duplicateSymbol name), { w with texts := w.texts ++ [] }) := .refused _ rfl
        rw [List.append_nil] at hrefused
        exact hrefused
      · rename_i hnew
        exact .symbol kind domains text (by simpa using hnew)
    | element | value | values => cases ha

/-! ## Symbols and their records -/

/-- The symbol as it was declared, without records. -/
def PendingSymbol.declared (s : PendingSymbol) : Symbol := ⟨s.name, s.kind, s.domains, s.text, 0⟩

theorem recordsOf_append (w : StoreWriter) (s : PendingSymbol) (hs : s.records = []) (nr : Nat) :
    recordsOf { w with symbols := w.symbols ++ [s] } nr = w.recordsOf nr := by
  unfold recordsOf
  by_cases hlt : nr < w.symbols.length
  · simp only [List.getElem?_append_left hlt]
  · rw [List.getElem?_eq_none_iff.2 (Nat.le_of_not_lt hlt)]
    by_cases heq : nr = w.symbols.length
    · simp [heq, hs]
    · rw [List.getElem?_eq_none_iff.2 (by simp; omega)]

/-- Appending a record does not change what a symbol was declared as. -/
theorem map_declared_appendRecord (w : StoreWriter) (nr : Nat) (r : Record) :
    (w.appendRecord nr r).symbols.map PendingSymbol.declared =
      w.symbols.map PendingSymbol.declared := by
  apply List.ext_getElem?
  intro n
  simp only [appendRecord, List.getElem?_map, List.getElem?_modify]
  cases w.symbols[n]? with
  | none => rfl
  | some s => by_cases h : nr = n <;> simp [h, PendingSymbol.declared]

theorem recordsOf_appendRecord {w : StoreWriter} {nr : Nat} {s : PendingSymbol}
    (hs : w.symbols[nr]? = some s) (r : Record) (n : Nat) :
    (w.appendRecord nr r).recordsOf n = w.recordsOf n ++ if nr = n then [r] else [] := by
  simp only [recordsOf, appendRecord, List.getElem?_modify]
  by_cases h : nr = n
  · subst h; simp [hs]
  · cases w.symbols[n]? <;> simp [h]

/-- Names stay apart when a symbol is added whose name is apart from all. -/
theorem distinct_append {w : StoreWriter} {s : PendingSymbol}
    (h : (w.symbols.map PendingSymbol.declared).Pairwise
      fun s t => Text.sameName s.name t.name = false)
    (hnew : ∀ t ∈ w.symbols, Text.sameName t.name s.name = false) :
    ((w.symbols ++ [s]).map PendingSymbol.declared).Pairwise
      fun s t => Text.sameName s.name t.name = false := by
  rw [List.map_append, List.pairwise_append]
  refine ⟨h, List.pairwise_singleton _ _, fun t ht u hu => ?_⟩
  obtain ⟨p, hp, rfl⟩ := List.mem_map.1 ht
  obtain rfl := List.mem_singleton.1 hu
  exact hnew p hp

/-- What holds of all records, each under its symbol, holds of them still when it holds of the
record that is appended. -/
theorem records_appendRecord {P : Symbol → Record → Prop} {w : StoreWriter} {nr : Nat}
    {s : PendingSymbol} {r : Record} (hs : w.symbols[nr]? = some s)
    (hr : P (PendingSymbol.declared s) r)
    (h : ∀ s ∈ w.symbols, ∀ r ∈ s.records, P (PendingSymbol.declared s) r) :
    ∀ s ∈ (w.appendRecord nr r).symbols, ∀ r ∈ s.records, P (PendingSymbol.declared s) r := by
  intro t ht q hq
  obtain ⟨n, hn⟩ := List.mem_iff_getElem?.1 ht
  simp only [appendRecord, List.getElem?_modify] at hn
  cases hw : w.symbols[n]? with
  | none => rw [hw] at hn; cases hn
  | some p =>
    have hp : p ∈ w.symbols := List.mem_iff_getElem?.2 ⟨n, hw⟩
    rw [hw] at hn
    by_cases hnr : nr = n
    · subst hnr
      rw [hs] at hw
      cases hw
      simp only [if_true, Option.map_eq_map, Option.map_some, Option.some.injEq] at hn
      subst hn
      rcases List.mem_append.1 hq with hq | hq
      · exact h s hp q hq
      · rw [List.mem_singleton.1 hq]; exact hr
    · simp only [hnr, if_false, Option.map_eq_map, Option.map_some, Option.some.injEq] at hn
      subst hn
      exact h p hp q hq

/-- What holds of all records holds of them still when a symbol without records is added. -/
theorem records_append {P : Symbol → Record → Prop} {w : StoreWriter} {s : PendingSymbol}
    (hs : s.records = []) (h : ∀ s ∈ w.symbols, ∀ r ∈ s.records, P (PendingSymbol.declared s) r) :
    ∀ t ∈ w.symbols ++ [s], ∀ r ∈ t.records, P (PendingSymbol.declared t) r := by
  intro t ht r hr
  rcases List.mem_append.1 ht with ht | ht
  · exact h t ht r hr
  · rw [List.mem_singleton.1 ht, hs] at hr
    cases hr

/-! ## All operations -/

/-- The writer holds what the operations `all` have put into it, of which `done` have succeeded. -/
structure Reflects (w : StoreWriter) (done all : List Operation) : Prop where
  labels : w.labels = interned (done.flatMap Operation.labels)
  texts : w.texts = all.filterMap Operation.text?
  acronyms : w.acronyms = all.filterMap Operation.acronym?
  symbols : w.symbols.map PendingSymbol.declared = done.filterMap Operation.symbol?
  /-- No two names differ in letter case alone. -/
  distinct : (w.symbols.map PendingSymbol.declared).Pairwise
    fun s t => Text.sameName s.name t.name = false
  dimensions : ∀ s ∈ w.symbols, ∀ r ∈ s.records, r.keys.length = s.domains.length
  records : ∀ nr, Forall₂ (fun a r => a.StoredAs w.labels w.texts r)
    (done.filterMap (Operation.additionTo? nr)) (w.recordsOf nr)

theorem reflects_empty : Reflects empty [] [] where
  labels := rfl
  texts := rfl
  acronyms := rfl
  symbols := rfl
  distinct := .nil
  dimensions := fun _ hs => nomatch hs
  records := fun _ => .nil

section
variable {w : StoreWriter} {done all : List Operation}

/-- An operation that is refused leaves its text behind. -/
theorem reflects_refused (R : Reflects w done all) {op : Operation} (h : op.acronym? = none) :
    Reflects { w with texts := w.texts ++ op.text?.toList } done (all ++ [op]) where
  labels := R.labels
  texts := by cases ht : op.text? <;> simp [R.texts, ht]
  acronyms := by simp [R.acronyms, h]
  symbols := R.symbols
  distinct := R.distinct
  dimensions := R.dimensions
  records := fun n =>
    (R.records n).imp fun _ _ hr => hr.mono (List.prefix_refl _) (List.prefix_append _ _)

theorem reflects_label (R : Reflects w done all) (label : String) :
    Reflects { w with labels := intern w.labels label } (done ++ [.label label])
      (all ++ [.label label]) where
  labels := by
    simp only [R.labels, interned, List.flatMap_append, List.foldl_append, List.flatMap_singleton,
      Operation.labels, List.foldl_cons, List.foldl_nil]
  texts := by simp [R.texts, Operation.text?]
  acronyms := by simp [R.acronyms, Operation.acronym?]
  symbols := by simp [R.symbols, Operation.symbol?]
  distinct := R.distinct
  dimensions := R.dimensions
  records := fun nr => by
    have hnone : [Operation.label label].filterMap (Operation.additionTo? nr) = [] := rfl
    rw [List.filterMap_append, hnone, List.append_nil]
    exact (R.records nr).imp fun _ _ h => h.mono (prefix_intern _ _) (List.prefix_refl _)

theorem reflects_acronym (R : Reflects w done all) (name : String) :
    Reflects { w with acronyms := w.acronyms ++ [name] } (done ++ [.acronym name])
      (all ++ [.acronym name]) where
  labels := by simp [R.labels, Operation.labels]
  texts := by simp [R.texts, Operation.text?]
  acronyms := by simp [R.acronyms, Operation.acronym?]
  symbols := by simp [R.symbols, Operation.symbol?]
  distinct := R.distinct
  dimensions := R.dimensions
  records := fun nr => by
    have hnone : [Operation.acronym name].filterMap (Operation.additionTo? nr) = [] := rfl
    rw [List.filterMap_append, hnone, List.append_nil]
    exact R.records nr

theorem reflects_symbol (R : Reflects w done all) {name : String} {kind : Kind}
    {domains : List String} {text : String}
    (hnew : ∀ s ∈ w.symbols, Text.sameName s.name name = false) :
    Reflects { w with symbols := w.symbols ++ [⟨name, kind, domains, text, []⟩] }
      (done ++ [.symbol name kind domains text]) (all ++ [.symbol name kind domains text]) where
  labels := by simp [R.labels, Operation.labels]
  texts := by simp [R.texts, Operation.text?]
  acronyms := by simp [R.acronyms, Operation.acronym?]
  symbols := by simp [R.symbols, Operation.symbol?, PendingSymbol.declared]
  distinct := distinct_append R.distinct hnew
  dimensions := records_append (P := fun s r => r.keys.length = s.domains.length) rfl R.dimensions
  records := fun nr => by
    have hnone :
        [Operation.symbol name kind domains text].filterMap (Operation.additionTo? nr) = [] := rfl
    rw [List.filterMap_append, hnone, List.append_nil, recordsOf_append w _ rfl]
    exact R.records nr

/-- A record that is added leaves its text, its labels, and itself at the end of its symbol. -/
theorem reflects_addition (R : Reflects w done all) {op : Operation} {nr : Nat} {a : Addition}
    (h : op.addition? = some (nr, a)) {s : PendingSymbol} (hs : w.symbols[nr]? = some s)
    {r : Record} (hlen : r.keys.length = s.domains.length)
    (hr : a.StoredAs (a.labels.foldl intern w.labels) (w.texts ++ op.text?.toList) r) :
    Reflects
      ({ w with
        labels := a.labels.foldl intern w.labels
        texts := w.texts ++ op.text?.toList }.appendRecord nr r) (done ++ [op]) (all ++ [op]) := by
  obtain ⟨hop, hacronym, hsymbol, hto⟩ := Operation.of_addition? h
  refine ⟨?_, ?_, ?_, ?_, ?_, ?_, fun n => ?_⟩
  · simp only [appendRecord, R.labels, interned, List.flatMap_append, List.foldl_append,
      List.flatMap_singleton, hop]
  · cases ht : op.text? <;> simp [appendRecord, R.texts, ht]
  · simp [appendRecord, R.acronyms, hacronym]
  · rw [map_declared_appendRecord, R.symbols]; simp [hsymbol]
  · rw [map_declared_appendRecord]; exact R.distinct
  · exact records_appendRecord (P := fun s r => r.keys.length = s.domains.length) hs hlen
      R.dimensions
  · rw [recordsOf_appendRecord (s := s) (by exact hs), List.filterMap_append]
    refine List.rel_append ?_ ?_
    · exact (R.records n).imp fun _ _ hq =>
        hq.mono (prefix_foldl_intern _ _) (List.prefix_append _ _)
    · by_cases hn : nr = n
      · simp only [List.filterMap_cons, hto, hn, if_true, List.filterMap_nil]
        exact .cons hr .nil
      · simp only [List.filterMap_cons, hto, hn, if_false, List.filterMap_nil]
        exact .nil

/-! ### One operation and any number of them -/

/-- Texts and labels are only ever added. -/
theorem apply_grows (w : StoreWriter) (op : Operation) :
    (w.apply op).2.texts = w.texts ++ op.text?.toList ∧ w.labels <+: (w.apply op).2.labels := by
  have hstep := step_apply w op
  generalize w.apply op = p at hstep ⊢
  cases hstep with
  | refused => exact ⟨rfl, List.prefix_refl _⟩
  | label name => exact ⟨by simp [Operation.text?], prefix_intern _ _⟩
  | acronym | symbol => simp [Operation.text?]
  | record => exact ⟨rfl, prefix_foldl_intern _ _⟩

/-- Every operation keeps what the writer holds in step with what has been put into it. -/
theorem reflects_apply (R : Reflects w done all) (op : Operation)
    (hlabels : (w.apply op).2.labels.length < 2 ^ 31)
    (htexts : (w.apply op).2.texts.length < 2 ^ 53) :
    Reflects (w.apply op).2 (done ++ w.outcome op) (all ++ [op]) := by
  rw [(apply_grows w op).1] at htexts
  have hstep := step_apply w op
  unfold outcome
  generalize w.apply op = p at hlabels hstep ⊢
  cases hstep with
  | refused f hacronym =>
    simp only [List.append_nil]
    exact reflects_refused R hacronym
  | label name => exact reflects_label R name
  | acronym name => exact reflects_acronym R name
  | symbol kind domains text new => exact reflects_symbol R new
  | record addition present dimensions fits numbered =>
    exact reflects_addition R addition present dimensions
      ⟨numbered hlabels, heldBy_slots addition htexts⟩

end

theorem run_grows : ∀ (ops : List Operation) (w : StoreWriter),
    w.texts <+: (w.run ops).texts ∧ w.labels <+: (w.run ops).labels
  | [], _ => ⟨List.prefix_refl _, List.prefix_refl _⟩
  | op :: ops, w => by
    obtain ⟨ht, hl⟩ := apply_grows w op
    obtain ⟨ht', hl'⟩ := run_grows ops (w.apply op).2
    exact ⟨(ht ▸ List.prefix_append _ _ : w.texts <+: _).trans ht', hl.trans hl'⟩

theorem reflects_run :
    ∀ (ops : List Operation) {w : StoreWriter} {done all : List Operation}, Reflects w done all →
      (w.run ops).labels.length < 2 ^ 31 → (w.run ops).texts.length < 2 ^ 53 →
      Reflects (w.run ops) (done ++ w.succeeded ops) (all ++ ops)
  | [], w, done, all, R, _, _ => by
    rw [succeeded, List.append_nil, List.append_nil]; exact R
  | op :: ops, w, done, all, R, hlabels, htexts => by
    obtain ⟨ht, hl⟩ := run_grows ops (w.apply op).2
    have R' := reflects_apply R op (Nat.lt_of_le_of_lt hl.length_le hlabels)
      (Nat.lt_of_le_of_lt ht.length_le htexts)
    have := reflects_run ops R' hlabels htexts
    rw [List.append_assoc, List.append_assoc] at this
    exact this

end StoreWriter
end SymbolTables
