import Mathlib.Data.List.Nodup
import SymbolTables.Proofs.Store.LabelIndex
import SymbolTables.Proofs.Store.RoundTrip

/-!
# What is always true of a writer

`Sound w` says how the tables of a writer fit together: no label stands twice, no two symbol names
differ in letter case alone, and every record goes with its symbol and points at labels and element
texts that are there.

* `sound_apply`, `sound_run`: every operation keeps a writer sound, one that is refused too.
* `extends_apply`, `extends_run`: keys, the numbers of acronyms and those of symbols stay what they
  are.
* `representation_of_run`: all of it, for any operations on an empty writer, and for the hash map that
  an `IndexedWriter` carries through them.
-/
namespace SymbolTables

open List (Forall₂)

namespace StoreWriter

/-! ## Keys -/

theorem nodup_intern {labels : List String} (h : labels.Nodup) (label : String) :
    (intern labels label).Nodup := by
  unfold intern
  split
  · exact h
  · rename_i hmem
    exact h.append (List.nodup_singleton _) (by simpa using hmem)

theorem nodup_foldl_intern :
    ∀ (more : List String) {labels : List String}, labels.Nodup → (more.foldl intern labels).Nodup
  | [], _, h => h
  | label :: more, _, h => nodup_foldl_intern more (nodup_intern h label)

section
variable {w v : StoreWriter} {label : String} {key : Int32}

/-- The key of a label is its place among the labels, counted from 1. -/
theorem keyOf?_eq_some_iff (hnodup : w.labels.Nodup) (hlen : w.labels.length < 2 ^ 31) :
    w.keyOf? label = some key ↔ ∃ i : Nat, w.labels[i]? = some label ∧ key.toInt = i + 1 := by
  unfold keyOf?
  rw [Option.map_eq_some_iff]
  constructor
  · rintro ⟨i, hi, rfl⟩
    obtain ⟨hlt, hget, -⟩ := List.idxOf?_eq_some_iff.1 hi
    have hint : (Int32.ofNat (i + 1)).toInt = i + 1 := Int32.toInt_ofNat_of_lt (by omega)
    exact ⟨i, by rw [List.getElem?_eq_getElem hlt, hget], hint⟩
  · rintro ⟨i, hget, hkey⟩
    obtain ⟨hlt, hi⟩ := List.getElem?_eq_some_iff.1 hget
    have hint : (Int32.ofNat (i + 1)).toInt = i + 1 := Int32.toInt_ofNat_of_lt (by omega)
    refine ⟨i, List.idxOf?_eq_some_iff.2 ⟨hlt, hi, fun j hj hjlabel => ?_⟩,
      Int32.toInt_inj.1 (hint.trans hkey.symm)⟩
    have hjget : w.labels[j]? = w.labels[i]? := by
      rw [hget, List.getElem?_eq_getElem (Nat.lt_trans hj hlt), hjlabel]
    have := (List.getElem?_inj (Nat.lt_trans hj hlt) hnodup).1 hjget
    omega

end

/-! ## Records -/

/-- A record as it may stand under a symbol, beside so many labels and texts. The level of a set
element is the number of its text, or 0; it is exact below `2^53`. -/
structure GoesWith (labels texts : Nat) (s : Symbol) (r : Record) : Prop where
  dimensions : r.keys.length = s.domains.length
  keys : ∀ key ∈ r.keys, 1 ≤ key.toInt ∧ key.toInt ≤ labels
  finite : ∀ slot, (r.values.get slot).isFinite = true
  text : s.kind = .set → ∃ k ≤ texts,
    r.values.level = SpecialValue.normalize (.ofNat k) ∧
      (k < 2 ^ 53 → r.values.level = .ofNat k ∧ r.values.level.wholePart = k)

theorem GoesWith.mono {labels labels' texts texts' : Nat} {s : Symbol} {r : Record}
    (hl : labels ≤ labels') (ht : texts ≤ texts') (h : GoesWith labels texts s r) :
    GoesWith labels' texts' s r where
  dimensions := h.dimensions
  keys := fun key hkey => by
    have := h.keys key hkey
    omega
  finite := h.finite
  text := fun hset => by
    obtain ⟨k, hk, hlevel⟩ := h.text hset
    exact ⟨k, by omega, hlevel⟩

theorem bounds_of_numbered {items : List String} {key : Int32} {item : String}
    (h : StoreFile.numbered items key = some item) : 1 ≤ key.toInt ∧ key.toInt ≤ items.length := by
  unfold StoreFile.numbered at h
  split at h
  · cases h
  · rename_i hpos
    have hlt := (List.getElem?_eq_some_iff.1 h).1
    rw [Int32.lt_iff_toInt_lt] at hpos
    have hone : (1 : Int32).toInt = 1 := rfl
    omega

/-- The text of an element is the text of its operation. -/
theorem text_of_addition {op : Operation} {nr : Nat} {labels : List String} {text : Option String}
    (h : op.addition? = some (nr, ⟨labels, .element text⟩)) : op.text? = text := by
  cases op with
  | element => cases h; rfl
  | label | acronym | symbol | value | values => cases h

/-- An element stands for one of the texts by its number, or for none. -/
theorem slots_element (texts : Nat) (text : Option String) :
    ∃ k ≤ texts + text.toList.length,
      (Content.element text).slots texts = .ofLevel (.ofNat k) := by
  cases text with
  | none => exact ⟨0, Nat.zero_le _, rfl⟩
  | some text => exact ⟨texts + 1, Nat.le_refl _, rfl⟩

/-- The record that an operation adds goes with the symbol it is added to. -/
theorem goesWith_addition {w : StoreWriter} {op : Operation} {nr : Nat} {a : Addition}
    (h : op.addition? = some (nr, a)) {s : PendingSymbol} {keys : List Int32}
    (hlen : keys.length = s.domains.length) (hfits : a.content.Fits s.kind) {labels : List String}
    (hkeys : Forall₂ (fun key label => StoreFile.numbered labels key = some label) keys a.labels) :
    GoesWith labels.length (w.texts ++ op.text?.toList).length (PendingSymbol.declared s)
      ⟨keys, (a.content.slots w.texts.length).map SpecialValue.normalize⟩ where
  dimensions := hlen
  keys := fun key hkey => by
    obtain ⟨i, hi⟩ := List.mem_iff_getElem?.1 hkey
    obtain ⟨hlt, rfl⟩ := List.getElem?_eq_some_iff.1 hi
    exact bounds_of_numbered (hkeys.get hlt (hkeys.length_eq ▸ hlt))
  finite := fun slot => by
    rw [Slots.get_map]
    exact SpecialValue.isFinite_normalize _
  text := fun hset => by
    obtain ⟨names, content⟩ := a
    cases content with
    | numbers => exact absurd hset hfits
    | element text =>
      obtain ⟨k, hk, hslots⟩ := slots_element w.texts.length text
      refine ⟨k, ?_, by rw [hslots]; rfl, fun hexact => ?_⟩
      · rw [List.length_append, text_of_addition h]
        exact hk
      · have hfinite := Binary64.isFinite_ofNat hexact
        simp only [hslots, Slots.map, Slots.ofLevel, SpecialValue.normalize_of_isFinite hfinite]
        exact ⟨trivial, Binary64.wholePart_ofNat hexact⟩

/-! ## Writers -/

/-- The tables of a writer fit together. -/
structure Sound (w : StoreWriter) : Prop where
  nodup : w.labels.Nodup
  /-- No two names differ in letter case alone. -/
  distinct : (w.symbols.map PendingSymbol.declared).Pairwise
    fun s t => Text.sameName s.name t.name = false
  records : ∀ s ∈ w.symbols, ∀ r ∈ s.records,
    GoesWith w.labels.length w.texts.length (PendingSymbol.declared s) r

theorem sound_empty : Sound empty := ⟨.nil, .nil, fun _ hs => nomatch hs⟩

section
variable {w : StoreWriter}

/-- More labels and texts do no harm. -/
theorem Sound.grow {labels texts : List String} (S : Sound w) (hnodup : labels.Nodup)
    (hl : w.labels <+: labels) (ht : w.texts <+: texts) :
    Sound { w with labels := labels, texts := texts } where
  nodup := hnodup
  distinct := S.distinct
  records := fun s hs r hr => (S.records s hs r hr).mono hl.length_le ht.length_le

/-- Every operation keeps a writer sound. -/
theorem sound_apply (S : Sound w) (op : Operation)
    (hlabels : (w.apply op).2.labels.length < 2 ^ 31) : Sound (w.apply op).2 := by
  have hstep := step_apply w op
  generalize w.apply op = p at hlabels hstep ⊢
  cases hstep with
  | refused => exact S.grow S.nodup (List.prefix_refl _) (List.prefix_append _ _)
  | label name =>
    exact S.grow (nodup_intern S.nodup name) (prefix_intern _ _) (List.prefix_refl _)
  | acronym => exact ⟨S.nodup, S.distinct, S.records⟩
  | symbol kind domains text new =>
    exact ⟨S.nodup, distinct_append S.distinct new, records_append rfl S.records⟩
  | @record _ _ a _ _ addition present dimensions fits numbered =>
    have hgrown := S.grow (nodup_foldl_intern a.labels S.nodup) (prefix_foldl_intern _ _)
      (List.prefix_append w.texts op.text?.toList)
    refine ⟨hgrown.nodup, ?_, ?_⟩
    · rw [map_declared_appendRecord]
      exact S.distinct
    · exact records_appendRecord present
        (goesWith_addition addition dimensions fits (numbered hlabels)) hgrown.records

end

theorem sound_run : ∀ (ops : List Operation) {w : StoreWriter}, Sound w →
    (w.run ops).labels.length < 2 ^ 31 → Sound (w.run ops)
  | [], _, S, _ => S
  | op :: ops, w, S, hlabels => by
    have hl := (run_grows ops (w.apply op).2).2
    exact sound_run ops (sound_apply S op (Nat.lt_of_le_of_lt hl.length_le hlabels)) hlabels

/-! ## What stays -/

/-- The writer `v` has the labels and the acronyms of `w` in front of its own, and under each symbol
number of `w` the same symbol, with at least its records. -/
structure Extends (w v : StoreWriter) : Prop where
  labels : w.labels <+: v.labels
  acronyms : w.acronyms <+: v.acronyms
  symbols : ∀ (nr : Nat) s, w.symbols[nr]? = some s → ∃ t, v.symbols[nr]? = some t ∧
    PendingSymbol.declared t = PendingSymbol.declared s ∧ s.records <+: t.records

section
variable {u v w : StoreWriter}

theorem Extends.refl (w : StoreWriter) : Extends w w :=
  ⟨List.prefix_refl _, List.prefix_refl _, fun _ s hs => ⟨s, hs, rfl, List.prefix_refl _⟩⟩

theorem Extends.trans (h : Extends u v) (h' : Extends v w) : Extends u w where
  labels := h.labels.trans h'.labels
  acronyms := h.acronyms.trans h'.acronyms
  symbols := fun nr s hs => by
    obtain ⟨t, ht, hdeclared, hrecords⟩ := h.symbols nr s hs
    obtain ⟨p, hp, hdeclared', hrecords'⟩ := h'.symbols nr t ht
    exact ⟨p, hp, hdeclared'.trans hdeclared, hrecords.trans hrecords'⟩

/-- The symbols stay when nothing is done to them. -/
theorem Extends.of_symbols (hl : w.labels <+: v.labels) (ha : w.acronyms <+: v.acronyms)
    (hs : w.symbols = v.symbols) : Extends w v :=
  ⟨hl, ha, fun _ s h => ⟨s, hs ▸ h, rfl, List.prefix_refl _⟩⟩

theorem extends_appendRecord (w : StoreWriter) (nr : Nat) (r : Record) :
    Extends w (w.appendRecord nr r) where
  labels := List.prefix_refl _
  acronyms := List.prefix_refl _
  symbols := fun n s hs => by
    simp only [appendRecord, List.getElem?_modify, hs]
    by_cases hn : nr = n
    · subst hn
      exact ⟨{ s with records := s.records ++ [r] }, by simp, rfl, List.prefix_append _ _⟩
    · exact ⟨s, by simp [hn], rfl, List.prefix_refl _⟩

theorem extends_apply (w : StoreWriter) (op : Operation) : Extends w (w.apply op).2 := by
  have hstep := step_apply w op
  generalize w.apply op = p at hstep ⊢
  cases hstep with
  | refused => exact .of_symbols (List.prefix_refl _) (List.prefix_refl _) rfl
  | acronym => exact .of_symbols (List.prefix_refl _) (List.prefix_append _ _) rfl
  | label name => exact .of_symbols (prefix_intern _ _) (List.prefix_refl _) rfl
  | symbol =>
    refine ⟨List.prefix_refl _, List.prefix_refl _, fun nr s hs => ⟨s, ?_, rfl, List.prefix_refl _⟩⟩
    rw [List.getElem?_append_left (List.getElem?_eq_some_iff.1 hs).1, hs]
  | @record _ _ a _ _ addition =>
    have hgrown : Extends w { w with
        labels := a.labels.foldl intern w.labels
        texts := w.texts ++ op.text?.toList } :=
      .of_symbols (prefix_foldl_intern _ _) (List.prefix_refl _) rfl
    exact hgrown.trans (extends_appendRecord _ _ _)

theorem extends_run : ∀ (ops : List Operation) (w : StoreWriter), Extends w (w.run ops)
  | [], w => .refl w
  | op :: ops, w => (extends_apply w op).trans (extends_run ops _)

/-- What an answer says: the label has the key, the number stands for the acronym, or the symbol has
the number. -/
def Answer.HoldsIn (w : StoreWriter) : Operation → Answer → Prop
  | .label name, .key k => w.keyOf? name = some k
  | .acronym name, .number x => ∃ i, w.acronyms[i]? = some name ∧ x = Acronym.value (i + 1)
  | .symbol name kind domains text, .symbol nr => ∃ s, w.symbols[nr]? = some s ∧
    PendingSymbol.declared s = ⟨name, kind, domains, text, 0⟩
  | _, _ => True

theorem holdsIn_apply {op : Operation} {answer : Answer} (h : (w.apply op).1 = .ok answer) :
    answer.HoldsIn (w.apply op).2 op := by
  have hstep := step_apply w op
  generalize w.apply op = p at h hstep ⊢
  cases hstep with
  | refused => cases h
  | label name =>
    cases h
    have hkey := keyOf?_addLabel w name
    rw [(addLabel_spec w name).1] at hkey
    exact hkey
  | acronym =>
    cases h
    exact ⟨w.acronyms.length, by simp, by rw [addAcronym]⟩
  | @symbol name kind domains text =>
    cases h
    exact ⟨⟨name, kind, domains, text, []⟩, by simp, rfl⟩
  | record =>
    cases h
    cases op <;> trivial

theorem Answer.HoldsIn.mono {op : Operation} {answer : Answer} (h : answer.HoldsIn w op)
    (hv : Extends w v) : answer.HoldsIn v op := by
  unfold Answer.HoldsIn at h ⊢
  split
  · exact keyOf?_mono hv.labels h
  · obtain ⟨i, hname, hx⟩ := h
    obtain ⟨more, hmore⟩ := hv.acronyms
    have hlt := (List.getElem?_eq_some_iff.1 hname).1
    exact ⟨i, by rw [← hmore, List.getElem?_append_left hlt, hname], hx⟩
  · obtain ⟨s, hs, hdeclared⟩ := h
    obtain ⟨t, ht, hdeclared', -⟩ := hv.symbols _ s hs
    exact ⟨t, ht, hdeclared'.trans hdeclared⟩
  · trivial

end

/-- **Representation.** Whatever operations have been applied to an empty writer, some of them in
vain: its tables fit together, as long as it has fewer than `2^31` labels. A writer that carries the
keys in a hash map is in step at every operation, and its map holds for each label its place, counted
from 1, and nothing else. A label that is added has its key then, is given the same key when it is added
again, and does not change a writer that has it already. An answer to an earlier operation holds to the
end: no later one changes the key of a label, the acronym of a number, or the number of a symbol. -/
theorem representation_of_run (ops : List Operation)
    (h : (empty.run ops).labels.length < 2 ^ 31) :
    Sound (empty.run ops) ∧
      (IndexedWriter.empty.run ops).toStoreWriter = empty.run ops ∧
      (IndexedWriter.empty.run ops).Indexed ∧
      (∀ before op later, ops = before ++ op :: later → IndexedWriter.InStep
        ((IndexedWriter.empty.run before).apply op) ((empty.run before).apply op)) ∧
      (∀ (label : String) (key : Int32),
        (IndexedWriter.empty.run ops).index[label]? = some key ↔
          ∃ i : Nat, (empty.run ops).labels[i]? = some label ∧ key.toInt = i + 1) ∧
      (∀ label key w, (empty.run ops).addLabel label = (key, w) →
        w.keyOf? label = some key ∧ w.addLabel label = (key, w) ∧
          (label ∈ (empty.run ops).labels → w = empty.run ops)) ∧
      ∀ before op later answer, ops = before ++ op :: later →
        ((empty.run before).apply op).1 = .ok answer → answer.HoldsIn (empty.run ops) op := by
  have S : Sound (empty.run ops) := sound_run ops sound_empty h
  have hrun := fun ops => IndexedWriter.inStep_run ops IndexedWriter.indexed_empty
  obtain ⟨hwriter, hindexed⟩ := hrun ops
  refine ⟨S, hwriter, hindexed, fun before op later _ => ?_, fun label key => ?_,
    fun label key w hadd => ?_, fun before op later answer hops hanswer => ?_⟩
  · have hstep := IndexedWriter.inStep_apply (hrun before).2 op
    rw [(hrun before).1] at hstep
    exact hstep
  · rw [hindexed, hwriter]
    exact keyOf?_eq_some_iff S.nodup h
  · have hkey : w.keyOf? label = some key := by
      have := keyOf?_addLabel (empty.run ops) label
      rwa [hadd] at this
    refine ⟨hkey, addLabel_of_keyOf? hkey, fun hmem => ?_⟩
    obtain ⟨known, hknown⟩ := exists_keyOf? hmem
    rw [addLabel_of_keyOf? hknown] at hadd
    exact (congrArg Prod.snd hadd).symm
  · have hrun : empty.run ops = (((empty.run before).apply op).2).run later := by
      rw [hops, run, List.foldl_append, List.foldl_cons]
      rfl
    rw [hrun]
    exact (holdsIn_apply hanswer).mono (extends_run later _)

/-- The label `b` is the second. It has its key from the last record; the one before was refused. -/
theorem representation_of_run_sample :
    (empty.run sampleOperations).labels.length < 2 ^ 31 ∧
      (empty.run sampleOperations).labels = ["a", "b"] ∧ Sound (empty.run sampleOperations) ∧
      (IndexedWriter.empty.run sampleOperations).index["b"]? = some 2 ∧
      ((IndexedWriter.empty.run (sampleOperations.take 5)).apply
        (.value 1 ["a", "b"] .zero)).1.isOk = false ∧
      (Answer.number (Acronym.value 1)).HoldsIn (empty.run sampleOperations) (.acronym "open") ∧
      (Answer.symbol 1).HoldsIn (empty.run sampleOperations)
        (.symbol "d" .parameter ["i"] "") := by
  have hlen : (empty.run sampleOperations).labels.length < 2 ^ 31 := by decide
  obtain ⟨S, -, -, hstep, hkeys, -, hanswers⟩ := representation_of_run sampleOperations hlen
  refine ⟨hlen, by decide, S, (hkeys "b" 2).2 ⟨1, by decide, rfl⟩, ?_, ?_, ?_⟩
  · have hrefused := (hstep (sampleOperations.take 5) _ (sampleOperations.drop 6) rfl).answer
    rw [hrefused]
    decide
  · have hanswer : ((empty.run []).apply (.acronym "open")).1 =
        .ok (.number (Acronym.value 1)) := by
      simp only [apply, addAcronym]
      decide +kernel
    exact hanswers [] _ (sampleOperations.drop 1) _ rfl hanswer
  · exact hanswers (sampleOperations.take 4) _ (sampleOperations.drop 5) _ rfl rfl

end StoreWriter
end SymbolTables
