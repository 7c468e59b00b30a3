/-!
# JSON values

A value as it was written: numbers keep their digits, objects keep repeated keys and their order. A
string literal can name half of a surrogate pair; such a literal is well-formed and stands for no
text, which matters only where its value is used.
-/
namespace SymbolTables

inductive Json
  | null
  | bool (b : Bool)
  | number (literal : List Char)
  | string (text : Option String)
  | array (items : List Json)
  | object (members : List (Option String × Json))

namespace Json

def text? : Json → Option String
  | .string text => text
  | _ => none

def bool? : Json → Option Bool
  | .bool b => some b
  | _ => none

/-- A number written with digits alone that fits into 64 bits. -/
def natural? : Json → Option Nat
  | .number literal =>
    let value := literal.foldl (fun n c => 10 * n + (c.toNat - '0'.toNat)) 0
    if literal.all Char.isDigit && value < UInt64.size then some value else none
  | _ => none

def list? {α : Type} (item : Json → Option α) : Json → Option (List α)
  | .array items => items.mapM item
  | _ => none

/-- The value under a key; the key may be missing but not repeated. -/
def member? (members : List (Option String × Json)) (key : String) : Option (Option Json) :=
  match members.filter fun m => m.1 == some key with
  | [] => some none
  | [m] => some (some m.2)
  | _ => none

/-- The fields of a structure: an object with these keys and perhaps others, or an array that lists
the fields in order and may end early. -/
def fields? (keys : List String) : Json → Option (List (Option Json))
  | .object members =>
    if members.any fun m => m.1.isNone then none else keys.mapM (member? members)
  | .array items =>
    if keys.length < items.length then none
    else some ((List.range keys.length).map fun i => items[i]?)
  | _ => none

/-- A field that may be missing. -/
def field? {α : Type} (read : Json → Option α) (default : α) : Option Json → Option α
  | none => some default
  | some value => read value

end Json
end SymbolTables
