import SymbolTables.Json.Basic

/-!
# Reading JSON

A text is one value between blanks. Everything is read with the rest of the text as the state; each
step of `value` and of the loops in it takes at least one character, so the length of the text
bounds their number.
-/
namespace SymbolTables.Json

def isBlank (c : Char) : Bool := c == ' ' || c == '\t' || c == '\n' || c == '\r'

def skipBlanks (s : List Char) : List Char := s.dropWhile isBlank

/-- A character of a string literal, or a 16-bit unit given by its number. -/
inductive StringPiece
  | character (c : Char)
  | unit (n : Nat)

def isHighSurrogate (n : Nat) : Bool := 0xD800 ≤ n && n < 0xDC00

def isLowSurrogate (n : Nat) : Bool := 0xDC00 ≤ n && n < 0xE000

/-- The text of a string literal; none when a unit is half of a pair. -/
def joinPieces : List StringPiece → Option (List Char)
  | [] => some []
  | .character c :: rest => (joinPieces rest).map (c :: ·)
  | .unit high :: .unit low :: rest =>
    if isHighSurrogate high then
      if isLowSurrogate low then
        (joinPieces rest).map (Char.ofNat (0x10000 + (high - 0xD800) * 0x400 + (low - 0xDC00)) :: ·)
      else none
    else if isLowSurrogate high then none
    else (joinPieces (.unit low :: rest)).map (Char.ofNat high :: ·)
  | .unit n :: rest =>
    if isHighSurrogate n || isLowSurrogate n then none
    else (joinPieces rest).map (Char.ofNat n :: ·)

def hexDigit? (c : Char) : Option Nat :=
  if '0' ≤ c && c ≤ '9' then some (c.toNat - '0'.toNat)
  else if 'a' ≤ c && c ≤ 'f' then some (c.toNat - 'a'.toNat + 10)
  else if 'A' ≤ c && c ≤ 'F' then some (c.toNat - 'A'.toNat + 10)
  else none

/-- What the character behind a backslash stands for. -/
def escape? (c : Char) : Option Char :=
  match c with
  | '"' | '\\' | '/' => some c
  | 'b' => some '\x08'
  | 'f' => some '\x0c'
  | 'n' => some '\n'
  | 'r' => some '\r'
  | 't' => some '\t'
  | _ => none

/-- The pieces of a string literal whose opening quote has been read. -/
def stringPieces : List Char → Option (List StringPiece × List Char)
  | [] => none
  | '"' :: rest => some ([], rest)
  | '\\' :: 'u' :: a :: b :: c :: d :: rest => do
    let n := ((← hexDigit? a) * 16 + (← hexDigit? b)) * 256 + (← hexDigit? c) * 16 + (← hexDigit? d)
    let (pieces, rest) ← stringPieces rest
    return (.unit n :: pieces, rest)
  | '\\' :: c :: rest => do
    let c ← escape? c
    let (pieces, rest) ← stringPieces rest
    return (.character c :: pieces, rest)
  | c :: rest =>
    if c.toNat < 0x20 || c == '\\' then none
    else do
      let (pieces, rest) ← stringPieces rest
      return (.character c :: pieces, rest)

def stringLiteral (s : List Char) : Option (Option String × List Char) := do
  let (pieces, rest) ← stringPieces s
  return ((joinPieces pieces).map String.ofList, rest)

/-- A run of digits, at least one. -/
def digits? (s : List Char) : Option (List Char × List Char) :=
  match s.takeWhile Char.isDigit with
  | [] => none
  | run => some (run, s.dropWhile Char.isDigit)

/-- The digits before the point: a zero stands alone. -/
def integerPart? (s : List Char) : Option (List Char × List Char) :=
  match s with
  | '0' :: rest => some (['0'], rest)
  | _ => digits? s

/-- A point and digits, if there is a point. -/
def fractionPart? (s : List Char) : Option (List Char × List Char) :=
  match s with
  | '.' :: rest => (digits? rest).map fun p => ('.' :: p.1, p.2)
  | _ => some ([], s)

/-- An exponent, if there is one. -/
def exponentPart? (s : List Char) : Option (List Char × List Char) :=
  match s with
  | e :: rest =>
    if e == 'e' || e == 'E' then
      match rest with
      | sign :: more =>
        if sign == '+' || sign == '-' then (digits? more).map fun p => (e :: sign :: p.1, p.2)
        else (digits? rest).map fun p => (e :: p.1, p.2)
      | [] => none
    else some ([], s)
  | [] => some ([], s)

def numberLiteral (s : List Char) : Option (Json × List Char) := do
  let (sign, s) := match s with
    | '-' :: rest => (['-'], rest)
    | _ => ([], s)
  let (whole, s) ← integerPart? s
  let (fraction, s) ← fractionPart? s
  let (exponent, s) ← exponentPart? s
  return (.number (sign ++ whole ++ fraction ++ exponent), s)

/-- The text behind a word. -/
def word? : List Char → List Char → Option (List Char)
  | [], s => some s
  | _ :: _, [] => none
  | w :: word, c :: s => if w == c then word? word s else none

mutual

/-- A value behind blanks, in at most `steps` steps. -/
def value : Nat → List Char → Option (Json × List Char)
  | 0, _ => none
  | steps + 1, s =>
    match skipBlanks s with
    | [] => none
    | '"' :: rest => (stringLiteral rest).map fun p => (.string p.1, p.2)
    | '[' :: rest =>
      match skipBlanks rest with
      | ']' :: rest => some (.array [], rest)
      | rest => (items steps rest).map fun p => (.array p.1, p.2)
    | '{' :: rest =>
      match skipBlanks rest with
      | '}' :: rest => some (.object [], rest)
      | rest => (members steps rest).map fun p => (.object p.1, p.2)
    | 't' :: rest => (word? "rue".toList rest).map fun rest => (.bool true, rest)
    | 'f' :: rest => (word? "alse".toList rest).map fun rest => (.bool false, rest)
    | 'n' :: rest => (word? "ull".toList rest).map fun rest => (.null, rest)
    | s => numberLiteral s

/-- The items of an array up to its bracket. -/
def items : Nat → List Char → Option (List Json × List Char)
  | 0, _ => none
  | steps + 1, s => do
    let (first, rest) ← value steps s
    match skipBlanks rest with
    | ']' :: rest => return ([first], rest)
    | ',' :: rest =>
      let (others, rest) ← items steps rest
      return (first :: others, rest)
    | _ => none

/-- The members of an object up to its brace. -/
def members : Nat → List Char → Option (List (Option String × Json) × List Char)
  | 0, _ => none
  | steps + 1, s => do
    match skipBlanks s with
    | '"' :: rest =>
      let (key, rest) ← stringLiteral rest
      match skipBlanks rest with
      | ':' :: rest =>
        let (first, rest) ← value steps rest
        match skipBlanks rest with
        | '}' :: rest => return ([(key, first)], rest)
        | ',' :: rest =>
          let (others, rest) ← members steps rest
          return ((key, first) :: others, rest)
        | _ => none
      | _ => none
    | _ => none

end

/-- The value a text stands for. -/
def parse? (text : String) : Option Json :=
  match value (2 * text.toList.length + 1) text.toList with
  | some (v, rest) => if skipBlanks rest = [] then some v else none
  | none => none

end SymbolTables.Json
