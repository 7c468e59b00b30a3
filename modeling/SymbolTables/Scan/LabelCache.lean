import SymbolTables.Store.Basic

/-!
# The label cache

Labels that a scan has already looked up, in a table for each dimension. It answers as the store
would and counts how often it had to ask.
-/
namespace SymbolTables

structure LabelCache where
  /-- Key and label of every label looked up so far, by dimension. -/
  tables : List (List (Int32 × String))
  hits : Nat
  misses : Nat

namespace LabelCache

/-- A cache for so many dimensions. -/
def ofDimensions (count : Nat) : LabelCache := ⟨List.replicate count [], 0, 0⟩

def empty : LabelCache := ofDimensions 0

/-- Labels in all tables. -/
def size (c : LabelCache) : Nat := c.tables.flatten.length

def find? (c : LabelCache) (dimension : Nat) (key : Int32) : Option String :=
  c.tables[dimension]?.bind (·.lookup key)

/-- The cache with a table for a dimension. Tables that were not there hold nothing. -/
def reaching (c : LabelCache) (dimension : Nat) : LabelCache :=
  { c with tables := c.tables ++ List.replicate (dimension + 1 - c.tables.length) [] }

/-- The cache after a label has been got from the store. -/
def remember (c : LabelCache) (dimension : Nat) (key : Int32) (label : String) : LabelCache :=
  { c with tables := c.tables.modify dimension ((key, label) :: ·), misses := c.misses + 1 }

def unknownKey (locator : String) (dimension : Nat) (key : Int32) : Failure :=
  .storageAt locator s!"unknown label key {key.toInt} in dimension {dimension}"

/-- The label of a key in a dimension, from the cache or else from the store. A key without a label
fails and leaves no label behind. -/
def resolve (c : LabelCache) (store : Store) (dimension : Nat) (key : Int32) :
    Except Failure String × LabelCache :=
  let c := c.reaching dimension
  match c.find? dimension key with
  | some label => (.ok label, { c with hits := c.hits + 1 })
  | none =>
    match store.label key with
    | some label => (.ok label, c.remember dimension key label)
    | none => (.error (unknownKey store.locator dimension key), c)

end LabelCache
end SymbolTables
