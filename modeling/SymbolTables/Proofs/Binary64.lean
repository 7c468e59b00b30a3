import Mathlib.Algebra.Group.Nat.Defs
import SymbolTables.Binary64

/-!
# Natural numbers as binary64

`Binary64.ofNat` shifts a natural number below `2^53` into place without rounding. Its pattern is
`pattern_ofNat`; the fields, the integer part and the conversion to 32 bits follow from it. A larger
number keeps its first 53 bits, rounded (`wholePart_ofNat_of_le`); as long as the result is finite it
is off by one part in `2^53` at most (`wholePart_ofNat_near`).
-/
namespace SymbolTables

namespace Binary64

/-! ## Small numbers are exact -/

/-- The integer part of the magnitude, shifted into the place where fractions begin. -/
theorem shift_bounds {n : Nat} (h₀ : n ≠ 0) (h : n < 2 ^ 53) :
    n.log2 ≤ 52 ∧ 2 ^ 52 ≤ n <<< (52 - n.log2) ∧ n <<< (52 - n.log2) < 2 ^ 53 := by
  have htop : n.log2 < 53 := (Nat.log2_lt h₀).2 h
  have hlow : 2 ^ n.log2 ≤ n := Nat.log2_self_le h₀
  have hhigh : n < 2 ^ (n.log2 + 1) := Nat.lt_log2_self
  have hpow : 2 ^ n.log2 * 2 ^ (52 - n.log2) = 2 ^ 52 := by
    rw [← Nat.pow_add]; congr 1; omega
  have hpos : 0 < 2 ^ (52 - n.log2) := Nat.two_pow_pos _
  rw [Nat.shiftLeft_eq]
  refine ⟨by omega, ?_, ?_⟩
  · rw [← hpow]; exact Nat.mul_le_mul_right _ hlow
  · calc n * 2 ^ (52 - n.log2) < 2 ^ (n.log2 + 1) * 2 ^ (52 - n.log2) :=
          Nat.mul_lt_mul_of_pos_right hhigh hpos
      _ = 2 ^ 52 * 2 := by rw [Nat.pow_succ, Nat.mul_right_comm, hpow]
      _ = 2 ^ 53 := rfl

/-- The pattern of a number below `2^53`. -/
theorem pattern_ofNat {n : Nat} (h₀ : n ≠ 0) (h : n < 2 ^ 53) :
    (ofNat n).bits.toNat = (n.log2 + 1022) * 2 ^ 52 + n <<< (52 - n.log2) := by
  obtain ⟨htop, -, hhigh⟩ := shift_bounds h₀ h
  have hp : ¬ overflow ≤ (n.log2 + 1022) * fractionCount + n <<< (52 - n.log2) := by
    simp only [overflow, fractionCount]; omega
  simp only [ofNat, h₀, if_false, htop, if_true, hp]
  rw [UInt64.toNat_ofNat', Nat.mod_eq_of_lt (by simp only [fractionCount]; omega)]
  rfl

section
variable {n : Nat}

theorem exponentField_ofNat (h₀ : n ≠ 0) (h : n < 2 ^ 53) :
    (ofNat n).exponentField = n.log2 + 1023 := by
  obtain ⟨htop, hlow, hhigh⟩ := shift_bounds h₀ h
  simp only [exponentField, pattern_ofNat h₀ h, fractionCount]
  omega

theorem fraction_ofNat (h₀ : n ≠ 0) (h : n < 2 ^ 53) :
    (ofNat n).fraction = n <<< (52 - n.log2) - 2 ^ 52 := by
  obtain ⟨htop, hlow, hhigh⟩ := shift_bounds h₀ h
  simp only [fraction, pattern_ofNat h₀ h, fractionCount]
  omega

theorem isFinite_ofNat (h : n < 2 ^ 53) : (ofNat n).isFinite = true := by
  by_cases h₀ : n = 0
  · subst h₀; decide
  · have := (shift_bounds h₀ h).1
    simp only [isFinite, exponentField_ofNat h₀ h, bne_iff_ne]
    omega

theorem isNegative_ofNat (h : n < 2 ^ 53) : (ofNat n).isNegative = false := by
  by_cases h₀ : n = 0
  · subst h₀; decide
  · obtain ⟨htop, hlow, hhigh⟩ := shift_bounds h₀ h
    simp only [isNegative, pattern_ofNat h₀ h, decide_eq_false_iff_not]
    omega

/-- A natural number below `2^53` is represented exactly. -/
theorem wholePart_ofNat (h : n < 2 ^ 53) : (ofNat n).wholePart = n := by
  by_cases h₀ : n = 0
  · subst h₀; decide
  · obtain ⟨htop, hlow, hhigh⟩ := shift_bounds h₀ h
    have hsig : (ofNat n).significand = n <<< (52 - n.log2) := by
      have hfield : (ofNat n).exponentField ≠ 0 := by rw [exponentField_ofNat h₀ h]; omega
      rw [significand, if_neg hfield, fraction_ofNat h₀ h, fractionCount]
      omega
    have hexp : (ofNat n).exponent = n.log2 - 52 := by
      simp only [exponent, exponentField_ofNat h₀ h]
      omega
    unfold wholePart
    rw [hsig, hexp]
    split
    · rename_i hpos
      have htop' : n.log2 = 52 := by omega
      simp [htop']
    · have hneg : (-((n.log2 : Int) - 52)).toNat = 52 - n.log2 := by omega
      rw [hneg, Nat.shiftLeft_shiftRight]

theorem not_isNaN_of_isFinite {x : Binary64} (h : x.isFinite = true) :
    x.isNaN = false ∧ x.isInfinite = false := by
  simp only [isFinite, bne_iff_ne] at h
  simp [isNaN, isInfinite, h]

theorem toInt32_ofNat (h : n < 2 ^ 31) : (ofNat n).toInt32 = Int32.ofNat n := by
  have hn : n < 2 ^ 53 := by omega
  obtain ⟨hnan, hinf⟩ := not_isNaN_of_isFinite (isFinite_ofNat hn)
  have hmin : min (min n 0x80000000) 0x7FFFFFFF = n := by omega
  simp only [toInt32, hnan, hinf, isNegative_ofNat hn, wholePart_ofNat hn, Bool.false_eq_true,
    if_false]
  rw [← Int32.toInt_inj, Int32.toInt_ofNat_of_lt h, Int32.toInt_ofInt_of_le (by omega) (by omega)]
  omega

end

/-! ## Large numbers are rounded -/

/-- The quotient is rounded to one of the two integers around it, and by a half at most. -/
theorem divideRounding_bounds (num : Nat) {den : Nat} (hden : 0 < den) :
    num / den ≤ divideRounding num den ∧ divideRounding num den ≤ num / den + 1 ∧
      2 * num ≤ 2 * (divideRounding num den * den) + den ∧
      2 * (divideRounding num den * den) ≤ 2 * num + den := by
  have hrest := Nat.mod_lt num hden
  have hnum : num / den * den + num % den = num := Nat.div_add_mod' num den
  have hnext : (num / den + 1) * den = num / den * den + den := Nat.succ_mul _ _
  simp only [divideRounding]
  split <;> omega

section
variable {n : Nat}

/-- A number from `2^53` on is rounded to 53 bits, which may carry into one bit more. -/
theorem rounded_bounds (h : 2 ^ 53 ≤ n) :
    53 ≤ n.log2 ∧ 2 ^ 52 ≤ divideRounding n (2 ^ (n.log2 - 52)) ∧
      divideRounding n (2 ^ (n.log2 - 52)) ≤ 2 ^ 53 := by
  have h₀ : n ≠ 0 := by omega
  have htop : 53 ≤ n.log2 := (Nat.le_log2 h₀).2 h
  have hden : 0 < 2 ^ (n.log2 - 52) := Nat.two_pow_pos _
  obtain ⟨hlow, hhigh, -, -⟩ := divideRounding_bounds n hden
  have hpow : ∀ k, 2 ^ (52 + k) * 2 ^ (n.log2 - 52) = 2 ^ (n.log2 + k) := by
    intro k
    rw [← Nat.pow_add]
    congr 1
    omega
  have hle : 2 ^ 52 ≤ n / 2 ^ (n.log2 - 52) := by
    rw [Nat.le_div_iff_mul_le hden]
    exact (hpow 0) ▸ Nat.log2_self_le h₀
  have hlt : n / 2 ^ (n.log2 - 52) < 2 ^ 53 := by
    rw [Nat.div_lt_iff_lt_mul hden]
    exact (hpow 1) ▸ Nat.lt_log2_self
  omega

/-- The pattern of a number from `2^53` on. -/
theorem pattern_ofNat_of_le (h : 2 ^ 53 ≤ n) (hfinite : (ofNat n).isFinite = true) :
    (ofNat n).bits.toNat =
        (n.log2 + 1022) * 2 ^ 52 + divideRounding n (2 ^ (n.log2 - 52)) ∧
      (ofNat n).bits.toNat < 2047 * 2 ^ 52 := by
  have h₀ : n ≠ 0 := by omega
  have htop : ¬n.log2 ≤ 52 := by
    have := (rounded_bounds h).1
    omega
  simp only [ofNat, h₀, htop, if_false, Nat.one_shiftLeft] at hfinite ⊢
  split at hfinite
  · cases hfinite
  · rename_i hpattern
    rw [if_neg hpattern]
    simp only [overflow, fractionCount] at hpattern ⊢
    rw [UInt64.toNat_ofNat', Nat.mod_eq_of_lt (by omega)]
    omega

theorem isNegative_ofNat_of_le (h : 2 ^ 53 ≤ n) (hfinite : (ofNat n).isFinite = true) :
    (ofNat n).isNegative = false := by
  have := (pattern_ofNat_of_le h hfinite).2
  simp only [isNegative, decide_eq_false_iff_not]
  omega

/-- The integer part of a number from `2^53` on is its 53 bits in their place. -/
theorem wholePart_ofNat_of_le (h : 2 ^ 53 ≤ n) (hfinite : (ofNat n).isFinite = true) :
    (ofNat n).wholePart = divideRounding n (2 ^ (n.log2 - 52)) * 2 ^ (n.log2 - 52) := by
  obtain ⟨htop, hlow, hhigh⟩ := rounded_bounds h
  obtain ⟨hpattern, hbound⟩ := pattern_ofNat_of_le h hfinite
  by_cases hcarry : divideRounding n (2 ^ (n.log2 - 52)) = 2 ^ 53
  · -- the rounding carries into the exponent
    have hfield : (ofNat n).exponentField = n.log2 + 1024 := by
      simp only [exponentField, hpattern, fractionCount, hcarry]
      omega
    have hfraction : (ofNat n).fraction = 0 := by
      simp only [fraction, hpattern, fractionCount, hcarry]
      omega
    have hshift : (ofNat n).exponent = ((n.log2 - 52 + 1 : Nat) : Int) := by
      simp only [exponent, hfield]
      omega
    have hsignificand : (ofNat n).significand = 2 ^ 52 := by
      rw [significand, if_neg (by omega), hfraction]
      rfl
    rw [wholePart, hshift, if_pos (Int.natCast_nonneg _), Int.toNat_natCast, hsignificand,
      Nat.shiftLeft_eq, hcarry, Nat.pow_succ 2 (n.log2 - 52), Nat.mul_left_comm]
    omega
  · have hfield : (ofNat n).exponentField = n.log2 + 1023 := by
      simp only [exponentField, hpattern, fractionCount]
      omega
    have hshift : (ofNat n).exponent = ((n.log2 - 52 : Nat) : Int) := by
      simp only [exponent, hfield]
      omega
    have hsignificand : (ofNat n).significand = divideRounding n (2 ^ (n.log2 - 52)) := by
      rw [significand, if_neg (by omega), fraction, hpattern]
      simp only [fractionCount]
      omega
    rw [wholePart, hshift, if_pos (Int.natCast_nonneg _), Int.toNat_natCast, hsignificand,
      Nat.shiftLeft_eq]

/-- A number that is not too large is rounded by at most one part in `2^53`. -/
theorem wholePart_ofNat_near (hfinite : (ofNat n).isFinite = true) :
    2 ^ 53 * n ≤ 2 ^ 53 * (ofNat n).wholePart + n ∧
      2 ^ 53 * (ofNat n).wholePart ≤ 2 ^ 53 * n + n := by
  by_cases h : n < 2 ^ 53
  · rw [wholePart_ofNat h]
    omega
  · have h := Nat.le_of_not_lt h
    obtain ⟨htop, -, -⟩ := rounded_bounds h
    obtain ⟨-, -, hlow, hhigh⟩ := divideRounding_bounds n (Nat.two_pow_pos (n.log2 - 52))
    have hulp : 2 ^ 52 * 2 ^ (n.log2 - 52) ≤ n := by
      rw [← Nat.pow_add, Nat.add_sub_cancel' (by omega)]
      exact Nat.log2_self_le (by omega)
    rw [wholePart_ofNat_of_le h hfinite]
    omega

/-- A natural number that is not too large becomes a number that is not negative. -/
theorem isNegative_ofNat_of_isFinite (hfinite : (ofNat n).isFinite = true) :
    (ofNat n).isNegative = false := by
  by_cases h : n < 2 ^ 53
  · exact isNegative_ofNat h
  · exact isNegative_ofNat_of_le (Nat.le_of_not_lt h) hfinite

end

end Binary64
end SymbolTables
