import SymbolTables.Command.Basic

/-!
# Command line arguments

```text
symbol-tables [options] query TEXT [--format table|csv|json] [--limit N]
symbol-tables [options] tables FILE
symbol-tables [options] script REQUEST [--preceding-load]
symbol-tables [options] demo PATH
symbol-tables [options] help [COMMAND]

options: --config PATH, --source PATH, in front of the command's name or behind it
```

A value is given as `--name value` or `--name=value`, at most once in front of the command's name
and at most once behind it; the one behind it counts. After `--` nothing is an option. Arguments are
read from left to right, and the first that is wrong, or that asks for help, decides.
-/
namespace SymbolTables.Command

/-- What is shown to those who ask for help. -/
def help : String := "\n".intercalate [
  "Usage: symbol-tables [--config PATH] [--source PATH] COMMAND",
  "",
  "  query TEXT [--format table|csv|json] [--limit N]  print the rows of a query",
  "  tables FILE                                       list the tables of a store",
  "  script REQUEST [--preceding-load]                 print select scripts",
  "  demo PATH                                         write the transport store"]

/-- Why arguments are no invocation. -/
inductive Stop
  | help
  | misuse
deriving DecidableEq

/-- The options that take a value. -/
inductive Setting
  | config
  | source
  | format
  | limit
deriving DecidableEq

inductive Verb
  | query
  | tables
  | script
  | demo
deriving DecidableEq

def Verb.ofName? : String → Option Verb
  | "query" => some .query
  | "tables" => some .tables
  | "script" => some .script
  | "demo" => some .demo
  | _ => none

def Setting.ofName? : String → Option Setting
  | "config" => some .config
  | "source" => some .source
  | "format" => some .format
  | "limit" => some .limit
  | _ => none

/-- Whether a setting may be given here; `none` stands for the front of the command's name. -/
def Setting.isFor (verb : Option Verb) : Setting → Bool
  | .config | .source => true
  | .format | .limit => verb == some .query

/-- A count below `2^64`, perhaps behind a plus sign. -/
def count? (s : String) : Option Nat :=
  let digits := match s.toList with
    | '+' :: rest => rest
    | cs => cs
  let n := digits.foldl (fun n c => 10 * n + (c.toNat - '0'.toNat)) 0
  if !digits.isEmpty && digits.all Char.isDigit && n < UInt64.size then some n else none

/-- Whether a text is a value of a setting. -/
def Setting.accepts (value : String) : Setting → Bool
  | .config | .source => value != ""
  | .format => (Format.ofName? value).isSome
  | .limit => (count? value).isSome

/-- Whether a text is an argument of a command. -/
def Verb.accepts (word : String) : Verb → Bool
  | .query | .tables | .script => true
  | .demo => word != ""

inductive Argument
  /-- `--`. -/
  | separator
  /-- `--name` or `--name=value`. -/
  | long (name : String) (value : Option String)
  /-- `-letters`. -/
  | short (letters : List Char)
  | word (text : String)

def Argument.ofText (s : String) : Argument :=
  match s.toList with
  | ['-', '-'] => .separator
  | '-' :: '-' :: body =>
    let name := String.ofList (body.takeWhile (· != '='))
    match body.dropWhile (· != '=') with
    | [] => .long name none
    | _ :: value => .long name (some (String.ofList value))
  | '-' :: first :: rest => .short (first :: rest)
  | _ => .word s

def Argument.isWord : Argument → Bool
  | .word _ => true
  | _ => false

/-- What has been given in front of the command's name, or behind it. -/
structure Given where
  settings : List (Setting × String)
  precedingLoad : Bool
  /-- The argument of the command. -/
  word : Option String

namespace Given

def nothing : Given := ⟨[], false, none⟩

def set (g : Given) (setting : Setting) (value : String) : Except Stop Given :=
  if (g.settings.lookup setting).isSome || !setting.accepts value then .error .misuse
  else .ok { g with settings := (setting, value) :: g.settings }

/-- Take the words as arguments of a command; it has one. -/
def addWords (g : Given) (verb : Verb) : List String → Except Stop Given
  | [] => .ok g
  | word :: rest =>
    if g.word.isSome || !verb.accepts word then .error .misuse
    else { g with word := some word }.addWords verb rest

/-- Set the option `--preceding-load`. -/
def setPrecedingLoad (g : Given) (verb : Option Verb) (value : Option String) :
    Except Stop Given :=
  if verb == some .script && !g.precedingLoad && value.isNone then
    .ok { g with precedingLoad := true }
  else .error .misuse

end Given

/-- An option and what may be its value: the given settings and the arguments behind them. -/
def readLong (verb : Option Verb) (g : Given) (name : String) (value : Option String)
    (rest : List String) : Except Stop (Given × List String) :=
  if name = "help" then .error (if value.isNone then .help else .misuse)
  else if name = "preceding-load" then (g.setPrecedingLoad verb value).map (·, rest)
  else match Setting.ofName? name with
    | none => .error .misuse
    | some setting =>
      if !setting.isFor verb then .error .misuse
      else match value, rest with
        | some value, _ => (g.set setting value).map (·, rest)
        | none, value :: rest =>
          if (Argument.ofText value).isWord then (g.set setting value).map (·, rest)
          else .error .misuse
        | none, [] => .error .misuse

theorem eq_of_map_rest {e : Except Stop Given} {g : Given} {rest rest' : List String}
    (h : e.map (·, rest) = .ok (g, rest')) : rest' = rest := by
  cases e with
  | error => cases h
  | ok => cases h; rfl

theorem length_readLong {verb : Option Verb} {g g' : Given} {name : String}
    {value : Option String} {rest rest' : List String}
    (h : readLong verb g name value rest = .ok (g', rest')) : rest'.length ≤ rest.length := by
  unfold readLong at h
  split at h
  · cases h
  split at h
  · exact Nat.le_of_eq (congrArg List.length (eq_of_map_rest h))
  split at h
  · cases h
  split at h
  · cases h
  split at h
  · exact Nat.le_of_eq (congrArg List.length (eq_of_map_rest h))
  · split at h
    · rw [eq_of_map_rest h]; exact Nat.le_succ _
    · cases h
  · cases h

/-- The arguments behind the command's name. -/
def readBehind (verb : Verb) (g : Given) (args : List String) : Except Stop Given :=
  match args with
  | [] => .ok g
  | arg :: rest =>
    match Argument.ofText arg with
    | .separator => g.addWords verb rest
    | .short letters => .error (if letters.head? = some 'h' then .help else .misuse)
    | .word word =>
      match g.addWords verb [word] with
      | .ok g => readBehind verb g rest
      | .error stop => .error stop
    | .long name value =>
      match _ : readLong (some verb) g name value rest with
      | .ok (g, rest) => readBehind verb g rest
      | .error stop => .error stop
termination_by args.length
decreasing_by
  · simp
  · have := length_readLong ‹_›; simp only [List.length_cons]; omega

/-- The outcome of `help` with what stands behind it: nothing, or the one word that is explained. -/
def helpOn : List String → Stop
  | [] => .help
  | [word] => if (Verb.ofName? word).isSome || word == "help" then .help else .misuse
  | _ => .misuse

/-- The arguments up to the command's name, the command, and what stands behind it. -/
def readFront (g : Given) (args : List String) : Except Stop (Given × Verb × List String) :=
  match args with
  | [] => .error .misuse
  | arg :: rest =>
    match Argument.ofText arg with
    | .separator => .error .misuse
    | .short letters => .error (if letters.head? = some 'h' then .help else .misuse)
    | .word word =>
      match Verb.ofName? word with
      | some verb => .ok (g, verb, rest)
      | none => .error (if word = "help" then helpOn rest else .misuse)
    | .long name value =>
      match _ : readLong none g name value rest with
      | .ok (g, rest) => readFront g rest
      | .error stop => .error stop
termination_by args.length
decreasing_by have := length_readLong ‹_›; simp only [List.length_cons]; omega

/-- The command from its argument and its settings. -/
def Verb.command (verb : Verb) (g : Given) (word : String) : Command :=
  match verb with
  | .query =>
    .query word (((g.settings.lookup .format).bind Format.ofName?).getD .table)
      ((g.settings.lookup .limit).bind count?)
  | .tables => .tables word
  | .script => .script word g.precedingLoad
  | .demo => .demo word

end SymbolTables.Command

namespace SymbolTables

open Command in
/-- Read the arguments of the program. -/
def Invocation.ofArguments (args : List String) : Except Stop Invocation := do
  let (front, verb, rest) ← readFront .nothing args
  let behind ← readBehind verb .nothing rest
  match behind.word with
  | none => .error .misuse
  | some word =>
    let setting (s : Setting) := behind.settings.lookup s <|> front.settings.lookup s
    return {
      configPath := setting .config
      source := setting .source
      command := verb.command behind word }

end SymbolTables
