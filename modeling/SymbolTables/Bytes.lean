/-!
# Bytes

Byte strings as lists, little-endian numbers, and cutting a byte string. `ofNat` writes a number in
a fixed width and keeps its low bytes; `toNat` reads it back.
-/
namespace SymbolTables

abbrev Bytes := List UInt8

namespace Bytes

/-- The `width` low bytes of `n`, least significant first. -/
def ofNat : Nat → Nat → Bytes
  | 0, _ => []
  | width + 1, n => UInt8.ofNat n :: ofNat width (n / 256)

/-- The number a little-endian byte string stands for. -/
def toNat : Bytes → Nat
  | [] => 0
  | b :: rest => b.toNat + 256 * toNat rest

/-- Numbers below it fit into `width` bytes. -/
def bound : Nat → Nat
  | 0 => 1
  | width + 1 => 256 * bound width

/-- Cut off the first `n` bytes, if there are so many. -/
def cut? (n : Nat) (bytes : Bytes) : Option (Bytes × Bytes) :=
  if (bytes.take n).length = n then some (bytes.take n, bytes.drop n) else none

theorem length_ofNat (width n : Nat) : (ofNat width n).length = width := by
  induction width generalizing n with
  | zero => rfl
  | succ width ih => simp [ofNat, ih]

theorem toNat_ofNat (width n : Nat) : toNat (ofNat width n) = n % bound width := by
  induction width generalizing n with
  | zero => simp [ofNat, toNat, bound, Nat.mod_one]
  | succ width ih =>
    have byte : (UInt8.ofNat n).toNat = n % 256 := by simp
    rw [ofNat, toNat, ih, byte, bound, Nat.mod_mul]

theorem toNat_lt (bytes : Bytes) : toNat bytes < bound bytes.length := by
  induction bytes with
  | nil => simp [toNat, bound]
  | cons b rest ih =>
    have := b.toNat_lt
    simp only [toNat, List.length_cons, bound]
    omega

theorem cut?_eq_none {n : Nat} {bytes : Bytes} (h : bytes.length < n) : cut? n bytes = none := by
  unfold cut?
  rw [if_neg]
  rw [List.length_take]
  omega

theorem cut?_append (head rest : Bytes) : cut? head.length (head ++ rest) = some (head, rest) := by
  simp [cut?]

theorem eq_append_of_cut? {n : Nat} {bytes head rest : Bytes} (h : cut? n bytes = some (head, rest)) :
    bytes = head ++ rest ∧ head.length = n := by
  simp only [cut?, Option.ite_none_right_eq_some, Option.some.injEq, Prod.mk.injEq] at h
  obtain ⟨hlen, rfl, rfl⟩ := h
  exact ⟨(List.take_append_drop n bytes).symm, hlen⟩

end Bytes
end SymbolTables
