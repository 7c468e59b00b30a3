import SymbolTables.Files.Disk
import SymbolTables.Text.Split

/-!
# File trees

A file system as a value: directories, regular files and symbolic links, each under the names that
lead to it from the root, and a working directory. Paths are read from left to right; a link is
replaced by its target, at most 40 times in one path, and `..` leads to the directory above the one
reached.
-/
namespace SymbolTables

inductive Entry
  | directory
  | file (content : Bytes)
  | link (target : String)
deriving DecidableEq

structure FileTree where
  entries : List (List String × Entry)
  /-- Where relative paths start. -/
  working : List String

namespace FileTree

/-- Links that one path may go through. -/
def linkLimit : Nat := 40

/-- Bytes of the longest name. -/
def nameLimit : Nat := 255

/-- Bytes of the longest path. -/
def pathLimit : Nat := 4095

def entry? (t : FileTree) (place : List String) : Option Entry :=
  if place = [] then some .directory else t.entries.lookup place

def namesOf (path : String) : List String := Text.split (· == '/') path

def isAbsolute (path : String) : Bool := path.toList.head? == some '/'

/-- Where a path starts, seen from a directory. -/
def origin (path : String) (directory : List String) : List String :=
  if isAbsolute path then [] else directory

/-- What a path is read for. -/
inductive Purpose
  /-- To find what is there. -/
  | visit
  /-- To create or replace the file it names. -/
  | create
deriving DecidableEq

/-- Whether names go on with a separator and nothing behind it. -/
def endsInSeparator (rest : List String) : Bool := !rest.isEmpty && rest.all (· == "")

/-- Go on from a place along names; an empty name stays in its directory. The last name may be new
when it is to be created, and must not have a separator behind it then. -/
def walk (t : FileTree) (purpose : Purpose) (links : Nat) (here : List String) :
    List String → Except FileFault (List String)
  | [] => .ok here
  | name :: rest =>
    if t.entry? here ≠ some .directory then .error .notDirectory
    else if name = "" ∨ name = "." then walk t purpose links here rest
    else if name = ".." then walk t purpose links here.dropLast rest
    else if purpose = .create ∧ endsInSeparator rest then .error .isDirectory
    else if nameLimit < name.utf8ByteSize then .error .nameTooLong
    else match t.entry? (here ++ [name]) with
      | none =>
        if purpose = .create ∧ rest.isEmpty then .ok (here ++ [name]) else .error .notFound
      | some (.link target) =>
        match links with
        | 0 => .error .tooManyLinks
        | links + 1 => walk t purpose links (origin target here) (namesOf target ++ rest)
      | some _ => walk t purpose links (here ++ [name]) rest
termination_by names => (links, names.length)

/-- The place a path leads to. -/
def resolve (t : FileTree) (path : String) : Except FileFault Place :=
  if path = "" then .error .notFound
  else (t.walk .visit linkLimit (origin path t.working) (namesOf path)).map Place.mk

/-- The place and the entry a path of allowed length leads to. -/
def find (t : FileTree) (path : String) : Except FileFault (Place × Entry) := do
  if pathLimit < path.utf8ByteSize then .error .nameTooLong
  let place ← t.resolve path
  match t.entry? place.names with
  | some entry => return (place, entry)
  | none => .error .notFound

def isFile (t : FileTree) (path : String) : Bool :=
  match t.find path with
  | .ok (_, .file _) => true
  | _ => false

def leads (t : FileTree) (path : String) : Bool := (t.find path).isOk

def read (t : FileTree) (path : String) : Except FileFault Bytes :=
  match t.find path with
  | .ok (_, .file content) => .ok content
  | .ok _ => .error .isDirectory
  | .error fault => .error fault

/-- A tree with an entry put at a place, in front of any that was there. -/
def put (t : FileTree) (place : List String) (entry : Entry) : FileTree :=
  { t with entries := (place, entry) :: t.entries }

/-- Create or replace the file that a path names. -/
def write (t : FileTree) (path : String) (content : Bytes) : Except FileFault FileTree :=
  if path = "" then .error .notFound
  else if pathLimit < path.utf8ByteSize then .error .nameTooLong
  else do
    let place ← t.walk .create linkLimit (origin path t.working) (namesOf path)
    if t.entry? place = some .directory then .error .isDirectory
    return t.put place (.file content)

/-- Access to a tree that is kept as state. -/
def disk : Disk (StateM FileTree) where
  resolve path := return (← get).resolve path
  isFile path := return (← get).isFile path
  leads path := return (← get).leads path
  read path := return (← get).read path
  write path content := do
    match (← get).write path content with
    | .ok t =>
      set t
      return .ok ()
    | .error fault => return .error fault

end FileTree
end SymbolTables
