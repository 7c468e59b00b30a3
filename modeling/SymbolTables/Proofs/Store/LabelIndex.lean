import Std.Data.HashMap.Lemmas
import SymbolTables.Proofs.Store.Writer

/-!
# Writers with an index of their labels

A `StoreWriter` looks for a label in its list. An `IndexedWriter` has the key of each label in a hash
map beside the list, carries the map through every operation, and looks nowhere else.

* `InStep`: the same answer and the same writer, with a map that holds the keys that are found in the
  list, and no others.
* `inStep_apply`, `inStep_run`: both writers stay in step, at each operation and over any, whether they
  succeed or are refused.
-/
namespace SymbolTables

namespace StoreWriter

/-! ## Keys -/

section
variable {w v : StoreWriter} {label : String} {key : Int32}

/-- A key that is found is found still when there are more labels. -/
theorem keyOf?_mono (hp : w.labels <+: v.labels) (h : w.keyOf? label = some key) :
    v.keyOf? label = some key := by
  unfold keyOf? at h ⊢
  rw [Option.map_eq_some_iff] at h ⊢
  obtain ⟨i, hi, rfl⟩ := h
  obtain ⟨more, hmore⟩ := hp
  refine ⟨i, ?_, rfl⟩
  obtain ⟨hlt, hget, hfirst⟩ := List.idxOf?_eq_some_iff.1 hi
  have hlt' : i < (w.labels ++ more).length := by
    rw [List.length_append]
    omega
  rw [← hmore, List.idxOf?_eq_some_iff]
  refine ⟨hlt', (List.getElem_append_left hlt).trans hget, fun j hj => ?_⟩
  rw [List.getElem_append_left (Nat.lt_trans hj hlt)]
  exact hfirst j hj

theorem exists_keyOf? (h : label ∈ w.labels) : ∃ key, w.keyOf? label = some key := by
  unfold keyOf?
  cases hi : w.labels.idxOf? label with
  | some i => exact ⟨_, rfl⟩
  | none => exact absurd h (List.idxOf?_eq_none_iff.1 hi)

/-- A label that has a key is given that key, and nothing changes. -/
theorem addLabel_of_keyOf? (h : w.keyOf? label = some key) : w.addLabel label = (key, w) := by
  rw [addLabel, h]

/-- The key that a label is given is the one it has from then on. -/
theorem keyOf?_addLabel (w : StoreWriter) (label : String) :
    (w.addLabel label).2.keyOf? label = some (w.addLabel label).1 := by
  cases hk : w.keyOf? label with
  | some key =>
    rw [addLabel_of_keyOf? hk]
    exact hk
  | none =>
    have hnew : label ∉ w.labels := by
      intro hmem
      obtain ⟨key, hkey⟩ := exists_keyOf? hmem
      rw [hk] at hkey
      cases hkey
    have hplace : (w.labels ++ [label]).idxOf? label = some w.labels.length := by
      rw [List.idxOf?_eq_some_iff]
      refine ⟨by simp, by simp, fun j hj hjlabel => hnew ?_⟩
      rw [List.getElem_append_left hj] at hjlabel
      exact hjlabel ▸ List.getElem_mem hj
    rw [addLabel, hk]
    simp only [keyOf?, hplace, Option.map_some]

end
end StoreWriter

/-! ## Writers with a map -/

/-- A writer that has the keys of its labels in a hash map. -/
structure IndexedWriter extends StoreWriter where
  index : Std.HashMap String Int32

namespace IndexedWriter

open StoreWriter (Fault Operation Answer)

def empty : IndexedWriter := ⟨.empty, ∅⟩

/-- The key of a label. If the map has none, the label is put behind the others, and gets as its key
how many labels there are then. -/
def addLabel (w : IndexedWriter) (label : String) : Int32 × IndexedWriter :=
  match w.index[label]? with
  | some key => (key, w)
  | none =>
    let labels := w.labels ++ [label]
    let key := Int32.ofNat labels.length
    (key, { w with labels, index := w.index.insert label key })

def addLabels (w : IndexedWriter) : List String → List Int32 × IndexedWriter
  | [] => ([], w)
  | label :: rest =>
    let (key, w) := w.addLabel label
    let (keys, w) := w.addLabels rest
    (key :: keys, w)

/-- Do what has nothing to do with labels. -/
def lift {α : Type} (w : IndexedWriter) (p : α × StoreWriter) : α × IndexedWriter :=
  (p.1, { w with toStoreWriter := p.2 })

/-- Add a record to a symbol of the expected kind. -/
def addRecord (w : IndexedWriter) (nr : Nat) (expected : Kind) (labels : List String)
    (values : Slots) : Except Fault Unit × IndexedWriter :=
  match w.symbols[nr]? with
  | none => (.error (.numberOutOfRange nr), w)
  | some s =>
    if s.kind ≠ expected then (.error (.wrongKind s.name s.kind expected), w)
    else if s.domains.length ≠ labels.length then
      (.error (.wrongLabelCount s.name s.domains.length labels.length), w)
    else
      let (keys, w) := w.addLabels labels
      w.lift (.ok (), w.appendRecord nr ⟨keys, values.map SpecialValue.normalize⟩)

def addElement (w : IndexedWriter) (nr : Nat) (labels : List String) (text : Option String) :
    Except Fault Unit × IndexedWriter :=
  match text with
  | none => w.addRecord nr .set labels (.ofLevel .zero)
  | some text =>
    let w := { w with texts := w.texts ++ [text] }
    w.addRecord nr .set labels (.ofLevel (.ofNat w.texts.length))

def addValue (w : IndexedWriter) (nr : Nat) (labels : List String) (value : Binary64) :
    Except Fault Unit × IndexedWriter :=
  w.addRecord nr .parameter labels (.ofLevel value)

def addValues (w : IndexedWriter) (nr : Nat) (labels : List String) (values : Slots) :
    Except Fault Unit × IndexedWriter :=
  match w.symbols[nr]? with
  | none => (.error (.numberOutOfRange nr), w)
  | some s =>
    match s.kind with
    | .var | .equation => w.addRecord nr s.kind labels values
    | .set | .parameter => (.error (.singleValued s.name s.kind), w)

def apply (w : IndexedWriter) : Operation → Except Fault Answer × IndexedWriter
  | .label label => ((.ok (.key (w.addLabel label).1)), (w.addLabel label).2)
  | .acronym name => w.lift (w.toStoreWriter.apply (.acronym name))
  | .symbol name kind domains text => w.lift (w.toStoreWriter.apply (.symbol name kind domains text))
  | .element nr labels text =>
    let (result, w) := w.addElement nr labels text
    (result.map fun _ => .done, w)
  | .value nr labels value =>
    let (result, w) := w.addValue nr labels value
    (result.map fun _ => .done, w)
  | .values nr labels values =>
    let (result, w) := w.addValues nr labels values
    (result.map fun _ => .done, w)

def run (w : IndexedWriter) (operations : List Operation) : IndexedWriter :=
  operations.foldl (fun w operation => (w.apply operation).2) w

/-! ## In step -/

/-- The map holds the keys that are found in the list of labels, and no others. -/
def Indexed (w : IndexedWriter) : Prop := ∀ label, w.index[label]? = w.keyOf? label

/-- The same answer and the same writer, with a map that holds the keys. -/
structure InStep {α : Type} (p : α × IndexedWriter) (q : α × StoreWriter) : Prop where
  answer : p.1 = q.1
  writer : p.2.toStoreWriter = q.2
  indexed : p.2.Indexed

theorem indexed_empty : empty.Indexed := fun label => by
  simp [empty, StoreWriter.empty, StoreWriter.keyOf?]

theorem InStep.map {α β : Type} {p : α × IndexedWriter} {q : α × StoreWriter} (f : α → β)
    (h : InStep p q) : InStep (f p.1, p.2) (f q.1, q.2) :=
  ⟨congrArg f h.answer, h.writer, h.indexed⟩

section
variable {w : IndexedWriter}

/-- A refusal leaves both as they are. -/
theorem inStep_same {α : Type} (h : w.Indexed) (a : α) : InStep (a, w) (a, w.toStoreWriter) :=
  ⟨rfl, rfl, h⟩

/-- What leaves the labels alone can be done to the list alone. -/
theorem inStep_lift {α : Type} (h : w.Indexed) {p : α × StoreWriter}
    (hlabels : p.2.labels = w.labels) : InStep (w.lift p) p where
  answer := rfl
  writer := rfl
  indexed := fun label => by
    rw [lift, StoreWriter.keyOf?, hlabels]
    exact h label

/-- A label gets from the map the key that is found in the list. -/
theorem inStep_addLabel (h : w.Indexed) (label : String) :
    InStep (w.addLabel label) (w.toStoreWriter.addLabel label) := by
  unfold addLabel
  rw [h label]
  cases hk : w.keyOf? label with
  | some key =>
    rw [StoreWriter.addLabel_of_keyOf? hk]
    exact inStep_same h key
  | none =>
    have hadd : w.toStoreWriter.addLabel label = (Int32.ofNat (w.labels.length + 1),
        { w.toStoreWriter with labels := w.labels ++ [label] }) := by
      rw [StoreWriter.addLabel, hk]
    have hkey : Int32.ofNat (w.labels ++ [label]).length = Int32.ofNat (w.labels.length + 1) := by
      rw [List.length_append, List.length_singleton]
    rw [hadd]
    refine ⟨hkey, rfl, fun other => ?_⟩
    rw [Std.HashMap.getElem?_insert]
    by_cases heq : label = other
    · subst heq
      have hfound := StoreWriter.keyOf?_addLabel w.toStoreWriter label
      rw [hadd] at hfound
      rw [if_pos (beq_self_eq_true label), hkey]
      exact hfound.symm
    · rw [if_neg (by simpa using heq), h other]
      cases hother : w.keyOf? other with
      | some key => exact (StoreWriter.keyOf?_mono (List.prefix_append _ _) hother).symm
      | none =>
        have hnew : other ∉ w.labels ++ [label] := by
          intro hmem
          rcases List.mem_append.1 hmem with hmem | hmem
          · obtain ⟨key, hkey⟩ := StoreWriter.exists_keyOf? hmem
            rw [hother] at hkey
            cases hkey
          · exact heq (List.mem_singleton.1 hmem).symm
        rw [StoreWriter.keyOf?, List.idxOf?_eq_none_iff.2 hnew, Option.map_none]

theorem inStep_addLabels : ∀ (labels : List String) {w : IndexedWriter}, w.Indexed →
    InStep (w.addLabels labels) (w.toStoreWriter.addLabels labels)
  | [], _, h => inStep_same h []
  | label :: labels, w, h => by
    have hfirst := inStep_addLabel h label
    have hrest := inStep_addLabels labels hfirst.indexed
    rw [hfirst.writer] at hrest
    refine ⟨?_, hrest.writer, hrest.indexed⟩
    simp only [addLabels, StoreWriter.addLabels, hfirst.answer, hrest.answer]

/-- The labels of a record are looked for when it is certain that it is added. -/
theorem inStep_addRecord (h : w.Indexed) (nr : Nat) (expected : Kind) (labels : List String)
    (values : Slots) : InStep (w.addRecord nr expected labels values)
      (w.toStoreWriter.addRecord nr expected labels values) := by
  unfold addRecord StoreWriter.addRecord
  cases w.symbols[nr]? with
  | none => exact inStep_same h _
  | some s =>
    dsimp only
    split
    · exact inStep_same h _
    · split
      · exact inStep_same h _
      · have hkeys := inStep_addLabels labels h
        rw [← hkeys.answer, ← hkeys.writer]
        exact inStep_lift hkeys.indexed rfl

theorem inStep_addElement (h : w.Indexed) (nr : Nat) (labels : List String) (text : Option String) :
    InStep (w.addElement nr labels text) (w.toStoreWriter.addElement nr labels text) := by
  cases text with
  | none => exact inStep_addRecord h nr .set labels _
  | some text =>
    have hgrown : Indexed { w with texts := w.texts ++ [text] } := h
    exact inStep_addRecord hgrown nr .set labels _

theorem inStep_addValues (h : w.Indexed) (nr : Nat) (labels : List String) (values : Slots) :
    InStep (w.addValues nr labels values) (w.toStoreWriter.addValues nr labels values) := by
  unfold addValues StoreWriter.addValues
  cases w.symbols[nr]? with
  | none => exact inStep_same h _
  | some s =>
    obtain ⟨name, kind, domains, text, records⟩ := s
    cases kind with
    | var | equation => exact inStep_addRecord h nr _ labels values
    | set | parameter => exact inStep_same h _

/-- **Every operation** gives the same answer with the map as without, and does the same, also when it
is refused. -/
theorem inStep_apply (h : w.Indexed) (op : Operation) :
    InStep (w.apply op) (w.toStoreWriter.apply op) := by
  cases op with
  | label label => exact (inStep_addLabel h label).map fun key => Except.ok (Answer.key key)
  | acronym name => exact inStep_lift h rfl
  | symbol name kind domains text =>
    refine inStep_lift h ?_
    simp only [StoreWriter.apply, StoreWriter.addSymbol]
    split <;> rfl
  | element nr labels text =>
    exact (inStep_addElement h nr labels text).map (Except.map fun _ => Answer.done)
  | value nr labels value =>
    exact (inStep_addRecord h nr .parameter labels _).map (Except.map fun _ => Answer.done)
  | values nr labels values =>
    exact (inStep_addValues h nr labels values).map (Except.map fun _ => Answer.done)

end

/-- So do any operations one after the other. -/
theorem inStep_run : ∀ (ops : List Operation) {w : IndexedWriter}, w.Indexed →
    (w.run ops).toStoreWriter = w.toStoreWriter.run ops ∧ (w.run ops).Indexed
  | [], _, h => ⟨rfl, h⟩
  | op :: ops, w, h => by
    have hstep := inStep_apply h op
    have hrest := inStep_run ops hstep.indexed
    rw [hstep.writer] at hrest
    exact hrest

end IndexedWriter
end SymbolTables
