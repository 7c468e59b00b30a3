import SymbolTables.Store.Basic

/-!
# Slot values

What the number in a slot means: an acronym of the store, a special value, or the number itself, in
this order.
-/
namespace SymbolTables

inductive SlotValue
  | number (x : Binary64)
  | special (v : SpecialValue)
  | acronym (name : String)
deriving DecidableEq

namespace SlotValue

def decode (store : Store) (x : Binary64) : SlotValue :=
  match store.acronymName x with
  | some name => .acronym name
  | none =>
    match store.mapValue x with
    | some v => .special v
    | none => .number x

def isSpecial : SlotValue → Bool
  | .number _ => false
  | .special _ | .acronym _ => true

/-- What goes into the number column. -/
def number? : SlotValue → Option Binary64
  | .number x => some x
  | .special _ | .acronym _ => none

/-- What goes into the text column. -/
def text? : SlotValue → Option String
  | .number _ => none
  | .special v => some v.label
  | .acronym name => some name

end SlotValue
end SymbolTables
