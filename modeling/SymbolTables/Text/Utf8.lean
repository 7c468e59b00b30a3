import SymbolTables.Bytes

/-!
# UTF-8

Text as bytes. `decode` accepts exactly the byte strings that `encode` writes and otherwise names
the first sequence that is wrong: where it starts, and how many of its bytes can be skipped before
reading on; a sequence that the end of the input cuts off has no such length.
-/
namespace SymbolTables.Text.Utf8

/-- The first wrong sequence of a byte string. -/
structure Fault where
  /-- Index of its first byte. -/
  start : Nat
  /-- Its length; `none` when the input ends inside it. -/
  length : Option Nat
deriving DecidableEq

def Fault.message (f : Fault) : String :=
  match f.length with
  | some n => s!"invalid utf-8 sequence of {n} bytes from index {f.start}"
  | none => s!"incomplete utf-8 byte sequence from index {f.start}"

def encode (s : String) : Bytes := s.toByteArray.data.toList

def isContinuation (b : UInt8) : Bool := 0x80 ≤ b && b ≤ 0xBF

/-- The second bytes allowed after a lead byte, and the length of its sequence; `none` for a byte
that starts no sequence of several bytes. -/
def leadRange (lead : UInt8) : Option (UInt8 × UInt8 × Nat) :=
  if 0xC2 ≤ lead && lead ≤ 0xDF then some (0x80, 0xBF, 2)
  else if lead == 0xE0 then some (0xA0, 0xBF, 3)
  else if lead == 0xED then some (0x80, 0x9F, 3)
  else if 0xE1 ≤ lead && lead ≤ 0xEF then some (0x80, 0xBF, 3)
  else if lead == 0xF0 then some (0x90, 0xBF, 4)
  else if 0xF1 ≤ lead && lead ≤ 0xF3 then some (0x80, 0xBF, 4)
  else if lead == 0xF4 then some (0x80, 0x8F, 4)
  else none

/-- How the bytes after a lead byte go on: `ok n` for a whole sequence of `n` bytes, else the length
to report. -/
def sequenceAfter (lead : UInt8) (rest : Bytes) : Except (Option Nat) Nat :=
  match leadRange lead with
  | none => .error (some 1)
  | some (lowest, highest, length) =>
    match rest with
    | [] => .error none
    | second :: rest =>
      if !(lowest ≤ second && second ≤ highest) then .error (some 1)
      else if length = 2 then .ok 2
      else match rest with
        | [] => .error none
        | third :: rest =>
          if !isContinuation third then .error (some 2)
          else if length = 3 then .ok 3
          else match rest with
            | [] => .error none
            | fourth :: _ => if isContinuation fourth then .ok 4 else .error (some 3)

/-- The first wrong sequence at or after `index`; `skip` bytes belong to a sequence already seen. -/
def faultFrom (index skip : Nat) : Bytes → Option Fault
  | [] => none
  | b :: rest =>
    match skip with
    | skip + 1 => faultFrom (index + 1) skip rest
    | 0 =>
      if b < 0x80 then faultFrom (index + 1) 0 rest
      else match sequenceAfter b rest with
        | .ok length => faultFrom (index + 1) (length - 1) rest
        | .error length => some ⟨index, length⟩

def decode (bytes : Bytes) : Except Fault String :=
  match String.fromUTF8? bytes.toByteArray with
  | some s => .ok s
  | none => .error ((faultFrom 0 0 bytes).getD ⟨bytes.length, none⟩)

end SymbolTables.Text.Utf8
