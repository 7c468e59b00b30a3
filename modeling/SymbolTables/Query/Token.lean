import SymbolTables.Query.Fault
import SymbolTables.Text.Letter

/-!
# Tokens of a query

Marks, keywords, quoted texts and words, read off the front of a text. Blanks may stand before
every token; a quoted text and a word end within their line. Whatever is read, the rest is no
longer than the text, and shorter wherever a token was taken.
-/
namespace SymbolTables.Query

def isLineBreak (c : Char) : Bool := c == '\r' || c == '\n'

def isBlank (c : Char) : Bool := c == ' ' || c == '\t' || isLineBreak c

def skipBlanks (s : List Char) : List Char := s.dropWhile isBlank

/-- The text behind `expected`, if it starts with that up to the case of ASCII letters. -/
def after? : List Char → List Char → Option (List Char)
  | [], s => some s
  | _ :: _, [] => none
  | e :: es, c :: s => if e.toLower = c.toLower then after? es s else none

/-- The text behind blanks and a mark. -/
def mark? (expected s : List Char) : Option (List Char) := after? expected (skipBlanks s)

/-- A keyword does not run into one of these. -/
def joinsWord (c : Char) : Bool := Text.isLetterOrDigit c || c == '_' || c == '@'

/-- The text behind blanks and a keyword that stands alone. -/
def keyword? (word s : List Char) : Option (List Char) :=
  match mark? word s with
  | some rest => if rest.head?.any joinsWord then none else some rest
  | none => none

/-- Split a text before the first of `stops`, unless its line ends earlier. -/
def splitAt? (stops : List Char) : List Char → Option (List Char × List Char)
  | [] => none
  | c :: s =>
    if c ∈ stops then some ([], c :: s)
    else if isLineBreak c then none
    else (splitAt? stops s).map fun p => (c :: p.1, p.2)

/-- A text between two equal quotes, and what follows it. -/
def quoted (clause : Clause) (quote : Char) (s : List Char) : Except Fault (List Char × List Char) :=
  match mark? [quote] s with
  | none => .error ⟨clause, .textNotFound (String.singleton quote)⟩
  | some s =>
    match splitAt? [quote] s with
    | none => .error ⟨clause, .characterNotFound [quote]⟩
    | some (inner, rest) => .ok (inner, rest.tail)

/-- What ends a field that is not quoted. -/
def wordStops : List Char := [' ', '\t', '\r', '\n', ',', '=']

/-- A field, quoted or as a word, and what follows it. -/
def field (clause : Clause) (s : List Char) : Except Fault (List Char × List Char) :=
  match skipBlanks s with
  | [] => .error ⟨clause, .fieldExpected⟩
  | c :: rest =>
    if c = '"' then quoted clause '"' (c :: rest)
    else match splitAt? wordStops (c :: rest) with
      | none => .error ⟨clause, .characterNotFound wordStops⟩
      | some ([], _) => .error ⟨clause, .missingFieldName⟩
      | some (word, rest) => .ok (word, rest)

theorem length_skipBlanks (s : List Char) : (skipBlanks s).length ≤ s.length :=
  (List.dropWhile_suffix _).length_le

theorem length_after? {expected s rest : List Char} (h : after? expected s = some rest) :
    rest.length + expected.length = s.length := by
  induction expected generalizing s with
  | nil => simp only [after?, Option.some.injEq] at h; simp [h]
  | cons e es ih =>
    cases s with
    | nil => simp [after?] at h
    | cons c s =>
      simp only [after?, Option.ite_none_right_eq_some] at h
      have := ih h.2
      simp only [List.length_cons]; omega

theorem length_mark? {expected s rest : List Char} (h : mark? expected s = some rest) :
    rest.length + expected.length ≤ s.length := by
  have := length_after? h
  have := length_skipBlanks s
  omega

theorem length_keyword? {word s rest : List Char} (h : keyword? word s = some rest) :
    rest.length + word.length ≤ s.length := by
  simp only [keyword?] at h
  split at h
  · rename_i r hr
    split at h
    · cases h
    · cases h; exact length_mark? hr
  · cases h

theorem splitAt?_append {stops s word rest : List Char} (h : splitAt? stops s = some (word, rest)) :
    s = word ++ rest := by
  induction s generalizing word with
  | nil => simp [splitAt?] at h
  | cons c s ih =>
    simp only [splitAt?] at h
    split at h
    · cases h; rfl
    split at h
    · cases h
    obtain ⟨p, hp, he⟩ := Option.map_eq_some_iff.1 h
    simp only [Prod.mk.injEq] at he
    obtain ⟨rfl, rfl⟩ := he
    rw [ih hp]; rfl

theorem length_quoted {clause : Clause} {quote : Char} {s inner rest : List Char}
    (h : quoted clause quote s = .ok (inner, rest)) : rest.length < s.length := by
  simp only [quoted] at h
  split at h
  · cases h
  rename_i r hr
  split at h
  · cases h
  rename_i i t ht
  cases h
  have h1 := length_mark? hr
  have h2 := congrArg List.length (splitAt?_append ht)
  simp only [List.length_append, List.length_cons, List.length_tail] at h1 h2 ⊢
  omega

theorem length_field {clause : Clause} {s word rest : List Char}
    (h : field clause s = .ok (word, rest)) : rest.length < s.length := by
  have hb := length_skipBlanks s
  simp only [field] at h
  split at h
  · cases h
  rename_i c r hs
  rw [hs] at hb
  split at h
  · exact Nat.lt_of_lt_of_le (length_quoted h) hb
  split at h
  · cases h
  · cases h
  rename_i w t hne ht
  cases h
  have h2 := congrArg List.length (splitAt?_append ht)
  have := List.length_pos_iff.2 (show word ≠ [] from hne)
  simp only [List.length_append] at h2
  omega

end SymbolTables.Query
