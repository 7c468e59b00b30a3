import SymbolTables.Query.Basic
import SymbolTables.Query.Token

/-!
# Reading a query

```text
query      := SELECT field (',' field)* FROM '"' source '"' [WHERE condition (AND condition)*] [';']
source     := table '<' file '>'
condition  := field '=' quoted
```

One pass from left to right. The source is read a second time inside its quotes, where white space
around the names is dropped.
-/
namespace SymbolTables.Query

/-- The fields behind the first one. -/
def moreFields (s : List Char) : Except Fault (List FieldRef × List Char) :=
  match _ : mark? [','] s with
  | none => .ok ([], s)
  | some afterComma =>
    match _ : field .select afterComma with
    | .error fault => .error fault
    | .ok (word, rest) =>
      match moreFields rest with
      | .error fault => .error fault
      | .ok (fields, rest) => .ok (.ofToken (String.ofList word) :: fields, rest)
termination_by s.length
decreasing_by
  rename_i hm hf
  have := length_mark? hm
  have := length_field hf
  omega

def selectClause (s : List Char) : Except Fault (List FieldRef × List Char) :=
  match keyword? "select".toList s with
  | none => .error ⟨.select, .textNotFound "SELECT"⟩
  | some s => do
    let (word, s) ← field .select s
    let (fields, s) ← moreFields s
    return (.ofToken (String.ofList word) :: fields, s)

/-- The table and the file inside the quotes of the `FROM` clause. -/
def source (inner : List Char) : Except Fault (List Char × List Char) :=
  match splitAt? ['<'] (Text.trim inner) with
  | none => .error ⟨.source, .characterNotFound ['<']⟩
  | some (table, s) =>
    match splitAt? ['>'] s.tail with
    | none => .error ⟨.source, .characterNotFound ['>']⟩
    | some (file, s) =>
      let rest := skipBlanks s.tail
      if rest ≠ [] then .error ⟨.source, .textAfterFile rest⟩
      else if Text.trim table = [] then .error ⟨.source, .missingTable⟩
      else if Text.trim file = [] then .error ⟨.source, .missingFile⟩
      else .ok (Text.trim table, Text.trim file)

def fromClause (s : List Char) : Except Fault ((List Char × List Char) × List Char) :=
  match keyword? "from".toList s with
  | none => .error ⟨.source, .textNotFound "FROM"⟩
  | some s => do
    let (inner, s) ← quoted .source '"' s
    return (← source inner, s)

def condition (s : List Char) : Except Fault (Condition × List Char) :=
  match field .condition s with
  | .error fault => .error fault
  | .ok (word, s) =>
    match mark? ['='] s with
    | none => .error ⟨.condition, .textNotFound "="⟩
    | some s =>
      match (skipBlanks s).head? with
      | none => .error ⟨.condition, .unquotedValue⟩
      | some quote =>
        if quote = '"' ∨ quote = '\'' then
          match quoted .condition quote s with
          | .error fault => .error fault
          | .ok (value, s) => .ok (⟨.ofToken (String.ofList word), String.ofList value⟩, s)
        else .error ⟨.condition, .unquotedValue⟩

theorem length_condition {s rest : List Char} {c : Condition} (h : condition s = .ok (c, rest)) :
    rest.length < s.length := by
  simp only [condition] at h
  split at h
  · cases h
  rename_i word s1 hf
  split at h
  · cases h
  rename_i s2 hm
  split at h
  · cases h
  split at h
  · split at h
    · cases h
    rename_i value s3 hq
    cases h
    have := length_field hf
    have := length_mark? hm
    have := length_quoted hq
    omega
  · cases h

/-- The conditions behind the first one. -/
def moreConditions (s : List Char) : Except Fault (List Condition × List Char) :=
  match _ : keyword? "and".toList s with
  | none => .ok ([], s)
  | some afterAnd =>
    match _ : condition afterAnd with
    | .error fault => .error fault
    | .ok (first, rest) =>
      match moreConditions rest with
      | .error fault => .error fault
      | .ok (conditions, rest) => .ok (first :: conditions, rest)
termination_by s.length
decreasing_by
  rename_i hk hc
  have := length_keyword? hk
  have := length_condition hc
  omega

def whereClause (s : List Char) : Except Fault (List Condition × List Char) :=
  match keyword? "where".toList s with
  | none => .ok ([], s)
  | some s => do
    let (first, s) ← condition s
    let (conditions, s) ← moreConditions s
    return (first :: conditions, s)

/-- A semicolon may end the query; nothing but blanks may follow. -/
def queryEnd (s : List Char) : Except Fault Unit :=
  let rest := skipBlanks ((mark? [';'] s).getD s)
  if rest = [] then .ok () else .error ⟨.condition, .textAfterQuery rest⟩

def parse (text : String) : Except Fault Query := do
  let (fields, s) ← selectClause text.toList
  let ((table, file), s) ← fromClause s
  let (conditions, s) ← whereClause s
  queryEnd s
  return { fields, table := String.ofList table, file := String.ofList file, conditions }

end SymbolTables.Query
