import SymbolTables.Query.Basic
import SymbolTables.Text.AsciiCase
import SymbolTables.Text.Letter

/-!
# The grammar of queries

What a query text looks like and what it means, said without a reader. Every part of the grammar is a
relation between a text, what the part says, and the rest of the text behind it; a part looks at the
rest only where it may not run into it.

```text
query      := SELECT field (',' field)* FROM '"' source '"' [WHERE condition (AND condition)*] [';']
source     := table '<' file '>'
condition  := field '=' quoted
```

* `Mark`, `Keyword`, `Quoted`, `Word`: the tokens, with blanks in front of them.
* `Spells`: the whole text of a query.
-/
namespace SymbolTables.Query.Grammar

/-- What may stand before every token and at the end. -/
def Blank (c : Char) : Prop := c = ' ' ∨ c = '\t' ∨ c = '\r' ∨ c = '\n'

instance : DecidablePred Blank := fun c =>
  inferInstanceAs (Decidable (c = ' ' ∨ c = '\t' ∨ c = '\r' ∨ c = '\n'))

def LineBreak (c : Char) : Prop := c = '\r' ∨ c = '\n'

instance : DecidablePred LineBreak := fun c => inferInstanceAs (Decidable (c = '\r' ∨ c = '\n'))

/-- A run of blanks, possibly of none. -/
def Blanks (s : List Char) : Prop := ∀ c ∈ s, Blank c

instance : DecidablePred Blanks := fun s => @List.decidableBAll Char Blank _ s

/-! ## Tokens -/

/-- Blanks, a mark, and the rest. -/
def Mark (mark : Char) (s rest : List Char) : Prop :=
  ∃ blanks, Blanks blanks ∧ s = blanks ++ mark :: rest

/-- What may not follow a keyword directly. -/
def Joins (c : Char) : Prop := Text.isLetterOrDigit c = true ∨ c = '_' ∨ c = '@'

instance : DecidablePred Joins := fun c =>
  inferInstanceAs (Decidable (Text.isLetterOrDigit c = true ∨ c = '_' ∨ c = '@'))

/-- Blanks, a keyword in letters of either case, and the rest, which does not run into it. -/
def Keyword (word s rest : List Char) : Prop :=
  ∃ blanks letters, Blanks blanks ∧ Text.sameLetters letters word = true ∧
    s = blanks ++ (letters ++ rest) ∧ ∀ c, rest.head? = some c → ¬ Joins c

/-- Blanks, a text on one line between two equal quotes, and the rest. -/
def Quoted (quote : Char) (s text rest : List Char) : Prop :=
  ∃ blanks, Blanks blanks ∧ s = blanks ++ quote :: (text ++ quote :: rest) ∧
    ∀ c ∈ text, c ≠ quote ∧ ¬ LineBreak c

/-- What no word contains. -/
def EndsWord (c : Char) : Prop := Blank c ∨ c = ',' ∨ c = '='

/-- Blanks, a word that goes as far as it can, and the rest. -/
def Word (s word rest : List Char) : Prop :=
  ∃ blanks, Blanks blanks ∧ s = blanks ++ (word ++ rest) ∧ word ≠ [] ∧ word.head? ≠ some '"' ∧
    (∀ c ∈ word, ¬ EndsWord c) ∧ ∀ c, rest.head? = some c → EndsWord c

/-! ## Clauses -/

/-- A name or position, in quotes or as a word. -/
inductive Field : List Char → FieldRef → List Char → Prop
  | quoted {s text rest} : Quoted '"' s text rest → Field s (.ofToken (String.ofList text)) rest
  | word {s word rest} : Word s word rest → Field s (.ofToken (String.ofList word)) rest

/-- One item or more, with a separator between any two. -/
inductive Separated {α : Type} (separator : List Char → List Char → Prop)
    (item : List Char → α → List Char → Prop) : List Char → List α → List Char → Prop
  | one {s a rest} : item s a rest → Separated separator item s [a] rest
  | more {s a s₁ s₂ items rest} : item s a s₁ → separator s₁ s₂ →
      Separated separator item s₂ items rest → Separated separator item s (a :: items) rest

/-- A field, the mark `=`, and a text between double or single quotes, which is kept as it is. -/
inductive Condition : List Char → SymbolTables.Condition → List Char → Prop
  | mk {s field s₁ s₂ quote value rest} : Field s field s₁ → Mark '=' s₁ s₂ →
      quote = '"' ∨ quote = '\'' → Quoted quote s₂ value rest →
      Condition s ⟨field, String.ofList value⟩ rest

/-- The names of table and file between the quotes of the `FROM` clause, without the white space
around them. -/
def Source (inner table file : List Char) : Prop :=
  ∃ t f, Text.trim inner = t ++ '<' :: (f ++ ['>']) ∧ '<' ∉ t ∧ '>' ∉ f ∧
    table = Text.trim t ∧ file = Text.trim f ∧ table ≠ [] ∧ file ≠ []

/-- No `WHERE` clause, or one with its conditions. -/
inductive Where : List Char → List SymbolTables.Condition → List Char → Prop
  | none {s} : Where s [] s
  | some {s s₁ conditions rest} : Keyword "where".toList s s₁ →
      Separated (Keyword "and".toList) Condition s₁ conditions rest → Where s conditions rest

/-- Blanks with a semicolon between them, or without. -/
inductive End : List Char → Prop
  | plain {s} : Blanks s → End s
  | semicolon {s rest} : Mark ';' s rest → Blanks rest → End s

/-- The text is a spelling of the query. -/
inductive Spells (text : String) : Query → Prop
  | mk {s₁ fields s₂ s₃ inner s₄ table file conditions s₅} :
      Keyword "select".toList text.toList s₁ → Separated (Mark ',') Field s₁ fields s₂ →
      Keyword "from".toList s₂ s₃ → Quoted '"' s₃ inner s₄ → Source inner table file →
      Where s₄ conditions s₅ → End s₅ →
      Spells text ⟨fields, String.ofList table, String.ofList file, conditions⟩

end SymbolTables.Query.Grammar
