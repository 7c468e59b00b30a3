import SymbolTables.Proofs.Binary64
import SymbolTables.Scan.Value
import SymbolTables.Store.File

/-!
# What a number in a store stands for

* `SpecialValue.classify_eq_some_iff`: a number is special when what is kept for it is the stored
  number of a special value, and for this one it stands.
* `Acronym.index?_eq_some_iff`: a number stands for an acronym when it is the stored number of that
  acronym, as long as this is finite.
* `SlotValue.text?_decode`, `SlotValue.number?_decode`: the text and the number that are shown for a
  number of an opened store.
-/
namespace SymbolTables

/-! ## Special values -/

namespace SpecialValue

theorem isFinite_stored (v : SpecialValue) : v.stored.isFinite = true := by
  cases v <;> decide +kernel

/-- A finite number is kept as it is. -/
theorem normalize_of_isFinite {x : Binary64} (h : x.isFinite = true) : normalize x = x := by
  obtain ⟨hnan, hinf⟩ := Binary64.not_isNaN_of_isFinite h
  simp [normalize, hnan, hinf]

/-- A number that is not finite is a NaN or an infinity. -/
theorem special_of_not_isFinite {x : Binary64} (h : x.isFinite = false) :
    ∃ v : SpecialValue, normalize x = v.stored ∧ classify x = some v := by
  have hfield : x.exponentField = 2047 := by simpa [Binary64.isFinite] using h
  unfold normalize classify
  by_cases hnan : x.isNaN = true
  · rw [if_pos hnan, if_pos hnan]
    exact ⟨.notAvailable, rfl, rfl⟩
  · have hinf : x.isInfinite = true := by
      simp only [Binary64.isNaN, Binary64.isInfinite, hfield] at hnan ⊢
      simpa using hnan
    rw [if_neg hnan, if_neg hnan, if_pos hinf, if_pos hinf]
    cases x.isNegative with
    | true => exact ⟨.negativeInfinity, if_pos rfl, congrArg some (if_pos rfl)⟩
    | false => exact ⟨.positiveInfinity, if_neg Bool.false_ne_true, congrArg some (if_neg Bool.false_ne_true)⟩

theorem isFinite_normalize (x : Binary64) : (normalize x).isFinite = true := by
  cases h : x.isFinite with
  | true => rw [normalize_of_isFinite h, h]
  | false =>
    obtain ⟨v, hv, -⟩ := special_of_not_isFinite h
    rw [hv, isFinite_stored]

/-- A special value is recognised by the number that is stored for it. -/
theorem classify_stored (v : SpecialValue) : classify v.stored = some v := by
  cases v <;> decide +kernel

/-- What is kept for a number stands for the same. -/
theorem classify_normalize (x : Binary64) : classify (normalize x) = classify x := by
  cases h : x.isFinite with
  | true => rw [normalize_of_isFinite h]
  | false =>
    obtain ⟨v, hv, hx⟩ := special_of_not_isFinite h
    rw [hv, hx, classify_stored]

/-- A finite number is special when it is the stored number of a special value. -/
theorem classify_of_isFinite {x : Binary64} (h : x.isFinite = true) :
    classify x = all.find? fun v => x == v.stored := by
  obtain ⟨hnan, hinf⟩ := Binary64.not_isNaN_of_isFinite h
  simp [classify, hnan, hinf]

/-- **Special values.** A number stands for a special value exactly when the number that is kept for
it is the stored one. -/
theorem classify_eq_some_iff {x : Binary64} {v : SpecialValue} :
    classify x = some v ↔ normalize x = v.stored := by
  constructor
  · intro h
    rw [← classify_normalize, classify_of_isFinite (isFinite_normalize x)] at h
    have hfound := List.find?_some h
    rwa [beq_iff_eq] at hfound
  · intro h
    rw [← classify_normalize, h, classify_stored]

/-- A number stands for itself exactly when it is finite and stored for no special value. -/
theorem classify_eq_none_iff {x : Binary64} :
    classify x = none ↔ x.isFinite = true ∧ ∀ v : SpecialValue, x ≠ v.stored := by
  constructor
  · intro h
    cases hx : x.isFinite with
    | true =>
      refine ⟨rfl, fun v hv => ?_⟩
      rw [hv, classify_stored] at h
      cases h
    | false =>
      obtain ⟨v, -, hv⟩ := special_of_not_isFinite hx
      rw [h] at hv
      cases hv
  · intro hx
    obtain ⟨hfinite, hne⟩ := hx
    cases h : classify x with
    | none => rfl
    | some v =>
      have hstored := classify_eq_some_iff.1 h
      rw [normalize_of_isFinite hfinite] at hstored
      exact absurd hstored (hne v)

/-- No two special values are shown alike. -/
theorem label_inj {v v' : SpecialValue} : v.label = v'.label ↔ v = v' := by
  cases v <;> cases v' <;> decide

end SpecialValue

/-! ## Acronyms -/

namespace Acronym

/-- A multiple of a unit that has been changed by little is still nearest to its multiple. -/
theorem nearest_multiple {k u x : Nat} (hk : k < 2 ^ 32) (hu : 0 < u)
    (hlow : 2 ^ 53 * (k * u) ≤ 2 ^ 53 * x + k * u) (hhigh : 2 ^ 53 * x ≤ 2 ^ 53 * (k * u) + k * u) :
    (2 * x + u) / (2 * u) = k := by
  have hsmall : k * u < 2 ^ 32 * u := Nat.mul_lt_mul_of_pos_right hk hu
  have hdouble : k * (2 * u) = 2 * (k * u) := Nat.mul_left_comm k 2 u
  rw [Nat.div_eq_iff (by omega), hdouble]
  omega

/-- The stored number of an acronym, if it is not too large, leads back to it. -/
theorem index?_value {k : Nat} (hpos : 1 ≤ k) (hlt : k < UInt32.size)
    (hfinite : (value k).isFinite = true) : index? (value k) = some k := by
  have hunit : 0 < unit.wholePart := by decide +kernel
  have hnegative : (value k).isNegative = false := Binary64.isNegative_ofNat_of_isFinite hfinite
  have hnear := Binary64.wholePart_ofNat_near hfinite
  have hquotient : (2 * (value k).wholePart + unit.wholePart) / (2 * unit.wholePart) = k :=
    @nearest_multiple k unit.wholePart (value k).wholePart hlt hunit hnear.1 hnear.2
  simp only [index?, hfinite, hnegative, hquotient]
  simp [hpos, hlt]

/-- **Acronyms.** A number stands for an acronym exactly when it is finite and the stored number of
that acronym. -/
theorem index?_eq_some_iff {x : Binary64} {k : Nat} :
    index? x = some k ↔ 1 ≤ k ∧ k < UInt32.size ∧ x.isFinite = true ∧ x = value k := by
  constructor
  · intro h
    simp only [index?] at h
    split at h
    · rename_i hx
      split at h
      · rename_i hk
        cases h
        exact ⟨hk.1, hk.2.1, (Bool.and_eq_true_iff.1 hx).1, hk.2.2.symm⟩
      · cases h
    · cases h
  · intro h
    obtain ⟨hpos, hlt, hfinite, hx⟩ := h
    rw [hx] at hfinite ⊢
    exact index?_value hpos hlt hfinite

/-- A number that stands for a special value stands for no acronym. -/
theorem index?_of_special {x : Binary64} {v : SpecialValue}
    (h : SpecialValue.normalize x = v.stored) : index? x = none := by
  have hstored : index? v.stored = none := by cases v <;> decide +kernel
  cases hx : index? x with
  | none => rfl
  | some k =>
    have hfinite := (index?_eq_some_iff.1 hx).2.2.1
    rw [SpecialValue.normalize_of_isFinite hfinite] at h
    rw [h, hstored] at hx
    cases hx

end Acronym

/-! ## Opened stores -/

namespace SlotValue

variable (f : StoreFile) (limit : Nat) (x : Binary64)

/-- A number of an opened store is shown as a text exactly when it stands for an acronym that has a
name, or for a special value, and then by this name or label. -/
theorem text?_decode (text : String) :
    (decode (f.storeUnder limit) x).text? = some text ↔
      f.acronymName x = some text ∨
        ∃ v : SpecialValue, SpecialValue.normalize x = v.stored ∧ v.label = text := by
  simp only [decode, StoreFile.storeUnder]
  cases hname : f.acronymName x with
  | some name =>
    -- a number with a name is no special value
    have hplain : ∀ v : SpecialValue, SpecialValue.normalize x ≠ v.stored := by
      intro v hv
      rw [StoreFile.acronymName, Acronym.index?_of_special hv] at hname
      cases hname
    simp [text?, hplain]
  | none =>
    cases hvalue : SpecialValue.classify x with
    | some v =>
      have hstored := SpecialValue.classify_eq_some_iff.1 hvalue
      constructor
      · intro h
        exact .inr ⟨v, hstored, Option.some.inj h⟩
      · rintro (h | ⟨v', hv', rfl⟩)
        · cases h
        · rw [← SpecialValue.classify_eq_some_iff, hvalue] at hv'
          cases hv'
          rfl
    | none =>
      have hplain : ∀ v : SpecialValue, SpecialValue.normalize x ≠ v.stored := by
        intro v hv
        rw [SpecialValue.classify_eq_some_iff.2 hv] at hvalue
        cases hvalue
      simp [text?, hplain]

/-- It is shown as a number exactly when it is finite and stands for neither, and then as it is. -/
theorem number?_decode (y : Binary64) :
    (decode (f.storeUnder limit) x).number? = some y ↔
      y = x ∧ x.isFinite = true ∧ f.acronymName x = none ∧ ∀ v : SpecialValue, x ≠ v.stored := by
  simp only [decode, StoreFile.storeUnder]
  cases f.acronymName x with
  | some name => simp [number?]
  | none =>
    cases hvalue : SpecialValue.classify x with
    | some v =>
      have hspecial : ¬(x.isFinite = true ∧ ∀ v : SpecialValue, x ≠ v.stored) := by
        rw [← SpecialValue.classify_eq_none_iff, hvalue]
        nofun
      simp only [number?, reduceCtorEq, true_and, false_iff]
      exact fun h => hspecial h.2
    | none =>
      have hplain := SpecialValue.classify_eq_none_iff.1 hvalue
      simp [number?, hplain, eq_comm]

end SlotValue
end SymbolTables
