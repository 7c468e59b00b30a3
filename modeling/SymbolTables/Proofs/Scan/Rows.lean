import SymbolTables.Proofs.Scan.Decoding
import SymbolTables.Scan.Drain

/-!
# The rows of a reader

`Reader.rows` walks over a reader in one go, without queue, parties or cache: records that are not
wanted or are discarded are passed over, and the first failure or crash ends the walk. What a scan
delivers, sequential or filtered, is measured against it.

* `rows_records`: the rows are those of the records that a test singles out, one each and in order,
  when the test agrees with what is wanted and with what is discarded.
* `advance_row`, `advance_end`: a sequential scan brings the rows of its reader one after the other.
-/
namespace SymbolTables

namespace Reader

/-- Put what became of a record in front of what the records behind it give. -/
def prepend : Except NoRow Row → List Row × Outcome → List Row × Outcome
  | .ok row, rest => (row :: rest.1, rest.2)
  | .error .discarded, rest => rest
  | .error (.failed f), _ => ([], .failed f)
  | .error .outsideLayout, _ => ([], .crashed)

/-- The rows a reader gives one after the other, and how it ends. -/
def rows (wanted : Record → Bool) (rowOf : Record → Except NoRow Row) : Reader → List Row × Outcome
  | [] => ([], .completed)
  | .failed f :: _ => ([], .failed f)
  | .crashed :: _ => ([], .crashed)
  | .record r :: rest =>
    if wanted r then prepend (rowOf r) (rows wanted rowOf rest) else rows wanted rowOf rest

/-- The records up to the first failure. -/
def records : Reader → List Record
  | .record r :: rest => r :: records rest
  | _ => []

/-- Let `test` hold for the records that give a row, and fail for those that are passed over. Then
the rows are those of the first records that pass the test, one each and in order; of all of them,
if the walk completes, and then the reader holds nothing but records. -/
theorem rows_records {wanted test : Record → Bool} {rowOf : Record → Except NoRow Row}
    (hrow : ∀ r row, wanted r = true → rowOf r = .ok row → test r = true)
    (hskip : ∀ r, wanted r = false → test r = false)
    (hdiscard : ∀ r, wanted r = true → rowOf r = .error .discarded → test r = false)
    (reader : Reader) :
    ∃ taken, taken <+: reader.records.filter test ∧
      taken.map rowOf = (reader.rows wanted rowOf).1.map .ok ∧
      ((reader.rows wanted rowOf).2 = .completed →
        taken = reader.records.filter test ∧ reader = reader.records.map .record) := by
  induction reader with
  | nil => exact ⟨[], List.nil_prefix, rfl, fun _ => ⟨rfl, rfl⟩⟩
  | cons pull rest ih =>
    cases pull with
    | failed f => exact ⟨[], List.nil_prefix, rfl, fun h => by cases h⟩
    | crashed => exact ⟨[], List.nil_prefix, rfl, fun h => by cases h⟩
    | record r =>
      obtain ⟨taken, hp, hm, hc⟩ := ih
      -- a record that is passed over leaves everything as it is behind it
      have skip : test r = false →
          ∃ taken, taken <+: (records (.record r :: rest)).filter test ∧
            taken.map rowOf = (rows wanted rowOf rest).1.map .ok ∧
            ((rows wanted rowOf rest).2 = .completed →
              taken = (records (.record r :: rest)).filter test ∧
                .record r :: rest = (records (.record r :: rest)).map .record) := by
        intro ht
        have he : (records (.record r :: rest)).filter test = (records rest).filter test := by
          rw [records, List.filter_cons_of_neg (by simp [ht])]
        refine ⟨taken, he ▸ hp, hm, fun h => ⟨he ▸ (hc h).1, ?_⟩⟩
        rw [records, List.map_cons, ← (hc h).2]
      simp only [rows]
      split
      · rename_i hw
        cases ho : rowOf r with
        | ok row =>
          have he : (records (.record r :: rest)).filter test =
              r :: (records rest).filter test := by
            rw [records, List.filter_cons_of_pos (hrow r row hw ho)]
          refine ⟨r :: taken, ?_, ?_, fun h => ⟨?_, ?_⟩⟩
          · rw [he]; exact List.cons_prefix_cons.2 ⟨rfl, hp⟩
          · simp only [prepend, List.map_cons, ho, hm]
          · rw [he, (hc h).1]
          · rw [records, List.map_cons, ← (hc h).2]
        | error e =>
          cases e with
          | discarded => exact skip (hdiscard r hw ho)
          | failed f => exact ⟨[], List.nil_prefix, rfl, fun h => by cases h⟩
          | outsideLayout => exact ⟨[], List.nil_prefix, rfl, fun h => by cases h⟩
      · rename_i hw
        exact skip (hskip r (by simpa using hw))

end Reader

/-! ## Sequential scans -/

namespace SequentialScan

/-- The rows that are left to a decoder and a reader. -/
def rest (d : Decoder) (reader : Reader) : List Row × Outcome :=
  reader.rows (fun _ => true) d.rowOf

/-- What a sequential scan reports at its end. -/
def lastItem : Outcome → Option Item
  | .completed => none
  | .failed f => some (.failed f)
  | .crashed => some .crashed

/-- A pull brings the next row and leaves the others. -/
theorem advance_row {row : Row} {rows : List Row} {o : Outcome} :
    ∀ {reader : Reader} {d : Decoder}, d.cache.Agrees d.store → rest d reader = (row :: rows, o) →
      ∃ reader' d', advance d reader = (some (.row row), some reader', d') ∧
        d'.cache.Agrees d'.store ∧ rest d' reader' = (rows, o)
  | [], d, _, h => by cases h
  | .failed f :: _, d, _, h => by cases h
  | .crashed :: _, d, _, h => by cases h
  | .record r :: reader, d, ha, h => by
    simp only [rest, Reader.rows, if_true] at h
    have hd := Decoder.decode_fst ha r
    have ha' := Decoder.agrees_decode ha r
    have hr := Decoder.rowOf_decode d r
    unfold advance
    generalize d.decode r = a at hd ha' hr ⊢
    obtain ⟨result, d'⟩ := a
    simp only at hd ha' hr
    rw [← hd] at h
    cases result with
    | ok row' =>
      simp only [Reader.prepend, Prod.mk.injEq, List.cons.injEq] at h
      obtain ⟨⟨rfl, h₁⟩, h₂⟩ := h
      refine ⟨reader, d', rfl, ha', ?_⟩
      rw [rest, hr, ← h₁, ← h₂]
    | error e =>
      cases e with
      | discarded =>
        simp only [Reader.prepend, ← hr] at h
        exact advance_row ha' h
      | failed f => cases h
      | outsideLayout => cases h

/-- A pull behind the last row reports the end. -/
theorem advance_end {o : Outcome} :
    ∀ {reader : Reader} {d : Decoder}, d.cache.Agrees d.store → rest d reader = ([], o) →
      (advance d reader).1 = lastItem o
  | [], d, _, h => by cases h; rfl
  | .failed f :: _, d, _, h => by cases h; rfl
  | .crashed :: _, d, _, h => by cases h; rfl
  | .record r :: reader, d, ha, h => by
    simp only [rest, Reader.rows, if_true] at h
    have hd := Decoder.decode_fst ha r
    have ha' := Decoder.agrees_decode ha r
    have hr := Decoder.rowOf_decode d r
    unfold advance
    generalize d.decode r = a at hd ha' hr ⊢
    obtain ⟨result, d'⟩ := a
    simp only at hd ha' hr
    rw [← hd] at h
    cases result with
    | ok row => cases h
    | error e =>
      cases e with
      | discarded =>
        simp only [Reader.prepend, ← hr] at h
        exact advance_end ha' h
      | failed f => cases h; rfl
      | outsideLayout => cases h; rfl

end SequentialScan
end SymbolTables
