/-!
# Field references

A column is named either by its name or by its position, written `@N`. `FieldRef.ofToken` reads a
token and `FieldRef.token` writes it. Positions are 64-bit numbers: a token with a larger number is
a name.
-/
namespace SymbolTables

inductive FieldRef
  | name (text : String)
  | position (index : Nat)
deriving DecidableEq

namespace FieldRef

/-- Positions are below this bound. -/
def positionBound : Nat := UInt64.size

def isDigit (c : Char) : Bool := '0' ≤ c && c ≤ '9'

/-- The number that a row of digits stands for. -/
def numberOf (digits : List Char) : Nat :=
  digits.foldl (fun n c => 10 * n + (c.toNat - '0'.toNat)) 0

/-- `@` and at least one digit, below the bound. -/
def positionOf? : List Char → Option Nat
  | '@' :: digits =>
    if !digits.isEmpty && digits.all isDigit && numberOf digits < positionBound then
      some (numberOf digits)
    else none
  | _ => none

def ofToken (token : String) : FieldRef :=
  match positionOf? token.toList with
  | some index => .position index
  | none => .name token

def token : FieldRef → String
  | .name text => text
  | .position index => "@" ++ toString index

end FieldRef
end SymbolTables
