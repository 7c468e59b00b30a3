import SymbolTables.Failure

/-!
# The reader slot

An opened store admits one reader at a time. A reader claims the slot before it starts and releases
it when it is dropped.
-/
namespace SymbolTables

structure ReaderSlot where
  active : Bool
deriving DecidableEq

namespace ReaderSlot

def free : ReaderSlot := ⟨false⟩

/-- Claim the slot; fails while another reader holds it. -/
def acquire (slot : ReaderSlot) (locator : String) : Except Failure ReaderSlot :=
  if slot.active then .error (.storageAt locator "reader already active") else .ok ⟨true⟩

def release (_ : ReaderSlot) : ReaderSlot := free

theorem acquire_isOk_iff (slot : ReaderSlot) (locator : String) :
    (∃ s, slot.acquire locator = .ok s) ↔ slot.active = false := by
  cases h : slot.active <;> simp [acquire, h]

theorem active_of_acquire {slot slot' : ReaderSlot} {locator : String}
    (h : slot.acquire locator = .ok slot') : slot.active = false ∧ slot'.active = true := by
  cases ha : slot.active <;> simp [acquire, ha] at h
  subst h; exact ⟨rfl, rfl⟩

end ReaderSlot
end SymbolTables
