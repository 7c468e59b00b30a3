import SymbolTables.Bytes
import SymbolTables.Store.Symbol

/-!
# Records as bytes

A record of `d` dimensions is a block of `4 d + 40` bytes: its keys as signed 32-bit numbers, then
its five numbers as 64-bit patterns, all little-endian.
-/
namespace SymbolTables

/-- Bytes of one record. -/
def recordLength (dimensions : Nat) : Nat := 4 * dimensions + 40

def encodeKey (key : Int32) : Bytes := Bytes.ofNat 4 key.toUInt32.toNat

def decodeKey (bytes : Bytes) : Int32 := (UInt32.ofNat (Bytes.toNat bytes)).toInt32

def encodeNumber (x : Binary64) : Bytes := Bytes.ofNat 8 x.bits.toNat

def decodeNumber (bytes : Bytes) : Binary64 := ⟨UInt64.ofNat (Bytes.toNat bytes)⟩

def Slots.encode (v : Slots) : Bytes := Slot.all.flatMap fun s => encodeNumber (v.get s)

/-- The number in a slot of a block's 40 last bytes. -/
def decodeSlot (bytes : Bytes) (s : Slot) : Binary64 :=
  decodeNumber ((bytes.drop (8 * s.index)).take 8)

def Slots.decode (bytes : Bytes) : Slots :=
  ⟨decodeSlot bytes .level, decodeSlot bytes .marginal, decodeSlot bytes .lower,
   decodeSlot bytes .upper, decodeSlot bytes .scale⟩

/-- The first `dimensions` keys of a block. -/
def decodeKeys : Nat → Bytes → List Int32
  | 0, _ => []
  | dimensions + 1, bytes => decodeKey (bytes.take 4) :: decodeKeys dimensions (bytes.drop 4)

def Record.encode (r : Record) : Bytes := r.keys.flatMap encodeKey ++ r.values.encode

def Record.decode (dimensions : Nat) (block : Bytes) : Record :=
  ⟨decodeKeys dimensions block, Slots.decode (block.drop (4 * dimensions))⟩

theorem length_encodeKey (key : Int32) : (encodeKey key).length = 4 := Bytes.length_ofNat ..

theorem length_slots_encode (v : Slots) : v.encode.length = 40 := by
  simp [Slots.encode, Slot.all, encodeNumber, Bytes.length_ofNat]

theorem length_record_encode (r : Record) : r.encode.length = recordLength r.keys.length := by
  have : (r.keys.flatMap encodeKey).length = 4 * r.keys.length := by
    induction r.keys with
    | nil => rfl
    | cons key keys ih =>
      rw [List.flatMap_cons, List.length_append, length_encodeKey, ih, List.length_cons]; omega
  rw [Record.encode, List.length_append, this, length_slots_encode, recordLength]

end SymbolTables
