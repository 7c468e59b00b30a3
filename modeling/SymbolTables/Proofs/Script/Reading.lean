import SymbolTables.Proofs.Query.Recognition
import SymbolTables.Proofs.Text.Trim
import SymbolTables.Script.Request

/-!
# Scripts are read back

The `SELECT` statement of a script is a spelling of the query that the request means, so reading it
gives that query: the display names in order, the table, and the file as folder and file name.

* `separated_selectItems`: the fields, each on a line of its own.
* `source_of_request`: table and file between the quotes of the `FROM` clause.
* `spells_selectStatement`: the whole statement.
* `parse_script`: what is read behind the `LOAD` statement of a script.
-/
namespace SymbolTables.Script

open Query.Grammar

/-- A request whose script is a query: it has a field and a table, and no name contains what would
end it early. -/
structure Request.Readable (r : Request) : Prop where
  fields : r.fields ≠ []
  names : ∀ f ∈ r.fields, ∀ c ∈ f.displayName.toList, c ≠ '"' ∧ ¬LineBreak c
  tableShown : ∃ c ∈ r.table.toList, Text.isWhiteSpace c = false
  table : ∀ c ∈ r.table.toList, c ≠ '"' ∧ c ≠ '<' ∧ ¬LineBreak c
  file : ∀ c ∈ r.database.toList ++ r.owner.toList, c ≠ '"' ∧ c ≠ '>' ∧ ¬LineBreak c

/-- The file of a request: its folder and the file in it. -/
def Request.file (r : Request) : String := r.database ++ "/" ++ r.owner

/-- The query that the script of a request is to be read as. -/
def Request.query (r : Request) : Query where
  fields := r.fields.map fun f => .ofToken f.displayName
  table := Text.strip r.table
  file := Text.strip r.file
  conditions := []

theorem toList_quote (s : String) : (quote s).toList = '"' :: (s.toList ++ ['"']) := by
  simp [quote]

/-! ## Fields -/

section
variable {f : Field} {blanks rest : List Char}

theorem field_selectItem (hf : ∀ c ∈ f.displayName.toList, c ≠ '"' ∧ ¬LineBreak c)
    (hb : Blanks blanks) :
    Query.Grammar.Field (blanks ++ (f.selectItem.toList ++ rest)) (.ofToken f.displayName) rest := by
  have hq : Quoted '"' (blanks ++ (f.selectItem.toList ++ rest)) f.displayName.toList rest :=
    ⟨blanks, hb, by simp [Field.selectItem, toList_quote], hf⟩
  have h := Query.Grammar.Field.quoted hq
  rwa [String.ofList_toList] at h

/-- The blanks in front of every field but the first. -/
def indentation : List Char := ['\r', '\n', ' ', ' ', ' ', ' ']

theorem blanks_indentation : Blanks indentation := by decide

/-- Fields on lines of their own, with a comma between any two. -/
theorem separated_selectItems (rest : List Char) :
    ∀ {fields : List Field} {blanks : List Char}, fields ≠ [] →
      (∀ f ∈ fields, ∀ c ∈ f.displayName.toList, c ≠ '"' ∧ ¬LineBreak c) → Blanks blanks →
      Separated (Mark ',') Query.Grammar.Field
        (blanks ++ ((fieldSeparator.intercalate (fields.map Field.selectItem)).toList ++ rest))
        (fields.map fun f => .ofToken f.displayName) rest
  | [], _, hne, _, _ => absurd rfl hne
  | [f], blanks, _, hnames, hb => by
    rw [List.map_singleton, String.intercalate_singleton]
    exact .one (field_selectItem (hnames f List.mem_cons_self) hb)
  | f :: g :: fields, blanks, _, hnames, hb => by
    obtain ⟨hf, hrest⟩ := List.forall_mem_cons.1 hnames
    have ih := separated_selectItems rest (List.cons_ne_nil g fields) hrest blanks_indentation
    have h := Separated.more (field_selectItem hf hb) ⟨[], by decide, rfl⟩ ih
    simpa [String.intercalate_cons_cons, fieldSeparator, lineEnd, indentation] using h

end

/-! ## Table and file -/

section
variable {r : Request}

/-- What stands between the quotes of the `FROM` clause. -/
def Request.sourceText (r : Request) : String := r.table ++ " <" ++ r.database ++ "/" ++ r.owner ++ ">"

theorem toList_sourceText (r : Request) :
    r.sourceText.toList = r.table.toList ++ ([' '] ++ '<' :: (r.file.toList ++ ['>'])) := by
  simp [Request.sourceText, Request.file]

theorem mem_file {c : Char} (h : c ∈ r.file.toList) :
    c = '/' ∨ c ∈ r.database.toList ++ r.owner.toList := by
  simp only [Request.file, String.toList_append, List.mem_append] at h ⊢
  rcases h with (h | h) | h
  · exact .inr (.inl h)
  · exact .inl (by simpa using h)
  · exact .inr (.inr h)

theorem not_mem_file (h : r.Readable) : '>' ∉ r.file.toList := by
  intro hc
  rcases mem_file hc with hslash | hc
  · cases hslash
  · exact (h.file _ hc).2.1 rfl

theorem sourceText_line (h : r.Readable) : ∀ c ∈ r.sourceText.toList, c ≠ '"' ∧ ¬LineBreak c := by
  intro c hc
  have hmarks : ∀ c ∈ [' ', '<', '/', '>'], c ≠ '"' ∧ ¬LineBreak c := by simp [LineBreak]
  have hfile : ∀ c ∈ r.file.toList, c ≠ '"' ∧ ¬LineBreak c := by
    intro c hc
    rcases mem_file hc with rfl | hc
    · exact hmarks _ (by simp)
    · exact ⟨(h.file c hc).1, (h.file c hc).2.2⟩
  rw [toList_sourceText] at hc
  simp only [List.mem_append, List.mem_cons, List.not_mem_nil, or_false] at hc
  rcases hc with hc | rfl | rfl | hc | rfl
  · exact ⟨(h.table c hc).1, (h.table c hc).2.2⟩
  · exact hmarks _ (by simp)
  · exact hmarks _ (by simp)
  · exact hfile c hc
  · exact hmarks _ (by simp)

theorem source_of_request (h : r.Readable) :
    Source r.sourceText.toList (Text.trim r.table.toList) (Text.trim r.file.toList) := by
  have hvisible : Text.EndsVisibly ([' '] ++ '<' :: (r.file.toList ++ ['>'])) :=
    ⟨[' '] ++ '<' :: r.file.toList, '>', by simp, by decide⟩
  refine ⟨r.table.toList.dropWhile Text.isWhiteSpace ++ [' '], r.file.toList, ?_, ?_, ?_, ?_, rfl, ?_,
    ?_⟩
  · rw [toList_sourceText, Text.trim_append (Text.dropWhile_ne_nil h.tableShown) hvisible]
    simp
  · intro hc
    rcases List.mem_append.1 hc with hc | hc
    · exact (h.table _ ((List.dropWhile_suffix _).subset hc)).2.1 rfl
    · exact absurd hc (by decide)
  · exact not_mem_file h
  · exact (Text.trim_dropWhile_concat (by decide)).symm
  · exact Text.trim_ne_nil h.tableShown
  · exact Text.trim_ne_nil ⟨'/', by simp [Request.file], by decide⟩

end

/-! ## The statement -/

theorem toList_selectStatement (r : Request) : r.selectStatement.toList =
    "SELECT".toList ++ (' ' :: ((fieldSeparator.intercalate (r.fields.map Field.selectItem)).toList ++
      (['\r', '\n'] ++ ("FROM".toList ++ (' ' :: '"' :: (r.sourceText.toList ++ ['"', ';'])))))) := by
  simp [Request.selectStatement, toList_quote, lineEnd, Request.sourceText]

theorem not_joins_space : ¬Joins ' ' := by decide +kernel

theorem spells_selectStatement {r : Request} (h : r.Readable) : Spells r.selectStatement r.query := by
  have hblank : Blanks [' '] := by decide
  have hselect : Keyword "select".toList r.selectStatement.toList _ :=
    ⟨[], "SELECT".toList, List.forall_mem_nil _, by decide, toList_selectStatement r, by
      rintro c ⟨⟩
      exact not_joins_space⟩
  have hfrom : Keyword "from".toList
      (['\r', '\n'] ++ ("FROM".toList ++ (' ' :: '"' :: (r.sourceText.toList ++ ['"', ';'])))) _ :=
    ⟨_, "FROM".toList, by decide, by decide, rfl, by
      rintro c ⟨⟩
      exact not_joins_space⟩
  have hquoted : Quoted '"' (' ' :: '"' :: (r.sourceText.toList ++ ['"', ';'])) r.sourceText.toList
      [';'] := ⟨[' '], hblank, rfl, sourceText_line h⟩
  have hend : End [';'] := .semicolon ⟨[], List.forall_mem_nil _, rfl⟩ (List.forall_mem_nil _)
  exact .mk hselect (separated_selectItems _ h.fields h.names hblank) hfrom hquoted
    (source_of_request h) .none hend

/-- **Scripts are read back.** The script of a request is a `LOAD` statement, if the request asks for
one, and behind the word `SQL` a text that is read as the query the request means. Neither that
statement nor another name of a field makes a difference to the query. -/
theorem parse_script {r : Request} (h : r.Readable) :
    ∃ load statement, r.script = load ++ "SQL " ++ statement ∧
      (load = "" ∨ ∃ items, load = "LOAD " ++ items ++ ";" ++ lineEnd) ∧
      (load = "" ↔ r.precedingLoad = false) ∧
      Query.parse statement = .ok r.query := by
  refine ⟨if r.precedingLoad then r.loadStatement ++ lineEnd else "", r.selectStatement, ?_, ?_, ?_,
    Query.parse_of_grammar (spells_selectStatement h)⟩
  · rfl
  · cases r.precedingLoad with
    | false => exact .inl rfl
    | true => exact .inr ⟨_, rfl⟩
  · cases r.precedingLoad with
    | false => simp
    | true => simp [lineEnd]

/-- Names that look like the rest of a query, and white space around the table. -/
def sampleRequest : Request where
  key := ""
  database := "models <old"
  owner := " d.sym "
  table := "\t d> "
  precedingLoad := true
  fields :=
    [⟨"a, b = 'c' FROM d;", "", "x\r\n\""⟩, ⟨"@07", "", ""⟩, ⟨"", "", ""⟩, ⟨"\tSELECT é", "", "y"⟩]

theorem parse_script_sample : sampleRequest.Readable ∧ ∃ load statement,
    sampleRequest.script = load ++ "SQL " ++ statement ∧ load ≠ "" ∧
      Query.parse statement = .ok
        ⟨[.name "a, b = 'c' FROM d;", .position 7, .name "", .name "\tSELECT é"], "d>",
          "models <old/ d.sym", []⟩ := by
  have h : sampleRequest.Readable := {
    fields := by decide
    names := by simp [sampleRequest, LineBreak]
    tableShown := ⟨'d', by decide, by decide⟩
    table := by simp [sampleRequest, LineBreak]
    file := by simp [sampleRequest, LineBreak] }
  obtain ⟨load, statement, hscript, -, hload, hparse⟩ := parse_script h
  refine ⟨h, load, statement, hscript, fun hnone => ?_, ?_⟩
  · cases hload.1 hnone
  · rw [hparse]
    rfl

end SymbolTables.Script
