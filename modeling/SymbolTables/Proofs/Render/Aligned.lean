import Mathlib.Algebra.GroupWithZero.Nat
import Mathlib.Data.List.Forall2
import Mathlib.Order.Bounds.Basic
import SymbolTables.Proofs.Text.Split
import SymbolTables.Render.Aligned

/-!
# Lines and columns of an aligned table

`InColumns` says where the texts of a line stand by counting characters: a column begins at the same
place in every line. `TableLines` says what the lines of a table are and how wide its columns.

* `column_line`: what a line has in a column and in the gap behind it.
* `greatest_widths`: a column is as wide as the longest of its cells, and no wider.
* `tableLines`: the lines that are put together are those of the table.
* `lines_of_aligned`: the table as a text is these lines.

A text is shown with the line breaks in it, so a line of the table is one line of the text only where
there are none (`notMem_lines`, `split_lines`).
-/
namespace SymbolTables.Render

/-! ## Texts in columns -/

/-- What a table shows of a text: all of it up to 40 characters, else the first 37 and three dots. -/
inductive Clipped (text : String) : String → Prop
  | whole (h : text.length ≤ 40) : Clipped text text
  | cut (h : 40 < text.length) : Clipped text (String.ofList (text.toList.take 37) ++ "...")

/-- Characters of a line with columns of these widths, which stand three characters apart. -/
def lineWidth (widths : List Nat) : Nat := widths.sum + 3 * (widths.length - 1)

/-- How many characters of a line stand before a column. -/
def columnStart (widths : List Nat) (column : Nat) : Nat := (widths.take column).sum + 3 * column

/-- The line shows the texts in columns of these widths: each at the right end of its column, behind
blanks, and a bar in the gap before the next one. -/
structure InColumns (widths : List Nat) (texts : List String) (line : String) : Prop where
  count : texts.length = widths.length
  cell : ∀ column width text, widths[column]? = some width → texts[column]? = some text →
    ∃ shown, Clipped text shown ∧ shown.length ≤ width ∧
      (line.toList.drop (columnStart widths column)).take width =
        List.replicate (width - shown.length) ' ' ++ shown.toList
  gap : ∀ column width, widths[column]? = some width → column + 1 < widths.length →
    (line.toList.drop (columnStart widths column + width)).take 3 = [' ', '|', ' ']

theorem length_clip_le (text : String) : (clip text).length ≤ 40 := by
  unfold clip
  split
  · assumption
  · rename_i h
    have hlen : 40 < text.toList.length := by
      rw [String.length_toList]
      exact Nat.lt_of_not_le h
    rw [String.length_append, String.length_ofList, List.length_take, cellLimit]
    have hdots : "...".length = 3 := rfl
    omega

theorem clipped_clip (text : String) : Clipped text (clip text) := by
  unfold clip
  split
  · exact .whole ‹_›
  · exact .cut (Nat.lt_of_not_le ‹_›)

theorem Clipped.eq_clip {text shown : String} (h : Clipped text shown) : shown = clip text := by
  cases h with
  | whole h => exact (if_pos h).symm
  | cut h => exact (if_neg (Nat.not_le_of_lt h)).symm

/-! ## Lines -/

section
variable {α : Type} (separator : List α)

theorem length_joined : ∀ pieces : List (List α), (separator.intercalate pieces).length =
    (pieces.map List.length).sum + separator.length * (pieces.length - 1)
  | [] => by simp
  | [piece] => by simp
  | piece :: next :: pieces => by
    rw [List.intercalate_cons_cons, List.length_append, List.length_append,
      length_joined (next :: pieces)]
    simp only [List.map_cons, List.sum_cons, List.length_cons, Nat.add_sub_cancel, Nat.mul_succ]
    omega

/-- A piece stands behind the pieces before it and as many separators. If there is another piece, a
separator comes next. -/
theorem drop_joined : ∀ {pieces : List (List α)} {i : Nat} {piece : List α},
    pieces[i]? = some piece → ∃ rest,
      (separator.intercalate pieces).drop
          (((pieces.take i).map List.length).sum + separator.length * i) = piece ++ rest ∧
        (i + 1 < pieces.length → separator <+: rest)
  | [first], 0, piece, h => by
    cases h
    exact ⟨[], by simp, fun hlt => absurd hlt (Nat.lt_irrefl 1)⟩
  | first :: next :: pieces, 0, piece, h => by
    cases h
    refine ⟨separator ++ separator.intercalate (next :: pieces), ?_, fun _ => ⟨_, rfl⟩⟩
    rw [List.intercalate_cons_cons, List.append_assoc]
    rfl
  | first :: next :: pieces, i + 1, piece, h => by
    obtain ⟨rest, hdrop, hnext⟩ := @drop_joined (next :: pieces) i piece h
    have hstart : ((List.take (i + 1) (first :: next :: pieces)).map List.length).sum +
        separator.length * (i + 1) = (first ++ separator).length +
          (((List.take i (next :: pieces)).map List.length).sum + separator.length * i) := by
      simp only [List.take_succ_cons, List.map_cons, List.sum_cons, List.length_append, Nat.mul_succ]
      omega
    refine ⟨rest, ?_, fun hlt => hnext (Nat.lt_of_succ_lt_succ hlt)⟩
    rw [hstart, ← List.drop_drop, List.intercalate_cons_cons, List.drop_left, hdrop]

end

/-- There is a column for every cell, and it is wide enough. -/
structure Fit (widths : List Nat) (cells : List String) : Prop where
  count : cells.length = widths.length
  le : ∀ {column width : Nat} {cell : String}, widths[column]? = some width →
    cells[column]? = some cell → cell.length ≤ width

/-- The cells of a line, each with blanks in front of it as its column asks for. -/
def blocks (widths : List Nat) (cells : List String) : List (List Char) :=
  (widths.zipWith padLeft cells).map String.toList

section
variable {widths : List Nat} {cells : List String}

theorem length_padded {width : Nat} {cell : String} (h : cell.length ≤ width) :
    (List.replicate (width - cell.length) ' ' ++ cell.toList).length = width := by
  rw [List.length_append, List.length_replicate, String.length_toList, Nat.sub_add_cancel h]

theorem toList_line : (line widths cells).toList = gap.toList.intercalate (blocks widths cells) :=
  String.toList_intercalate

theorem getElem?_blocks {column width : Nat} {cell : String} (hwidth : widths[column]? = some width)
    (hcell : cells[column]? = some cell) : (blocks widths cells)[column]? =
      some (List.replicate (width - cell.length) ' ' ++ cell.toList) := by
  rw [blocks, List.getElem?_map, List.getElem?_zipWith, hwidth, hcell, Option.map_some, padLeft,
    String.toList_append, String.toList_ofList]

theorem count_blocks (h : Fit widths cells) : (blocks widths cells).length = widths.length := by
  rw [blocks, List.length_map, List.length_zipWith, h.count, Nat.min_self]

theorem Fit.exists_cell (h : Fit widths cells) {column width : Nat}
    (hwidth : widths[column]? = some width) : ∃ cell, cells[column]? = some cell := by
  have hlt : column < cells.length := by
    rw [h.count]
    exact (List.getElem?_eq_some_iff.1 hwidth).1
  exact ⟨cells[column], List.getElem?_eq_getElem hlt⟩

theorem length_blocks (h : Fit widths cells) : (blocks widths cells).map List.length = widths := by
  refine List.ext_getElem? fun column => ?_
  cases hwidth : widths[column]? with
  | none =>
    rw [List.getElem?_eq_none_iff] at hwidth ⊢
    rwa [List.length_map, count_blocks h]
  | some width =>
    obtain ⟨cell, hcell⟩ := h.exists_cell hwidth
    rw [List.getElem?_map, getElem?_blocks hwidth hcell, Option.map_some,
      length_padded (h.le hwidth hcell)]

/-- Lines in the same columns have the same length. -/
theorem length_line (h : Fit widths cells) : (line widths cells).length = lineWidth widths := by
  rw [← String.length_toList, toList_line, length_joined, length_blocks h, count_blocks h]
  rfl

/-- A column has its cell at the right end, and before the next column there is a gap. -/
theorem column_line (h : Fit widths cells) {column width : Nat} {cell : String}
    (hwidth : widths[column]? = some width) (hcell : cells[column]? = some cell) :
    ((line widths cells).toList.drop (columnStart widths column)).take width =
        List.replicate (width - cell.length) ' ' ++ cell.toList ∧
      (column + 1 < widths.length →
        ((line widths cells).toList.drop (columnStart widths column + width)).take 3 =
          gap.toList) := by
  have hlength := length_padded (h.le hwidth hcell)
  obtain ⟨rest, hdrop, hnext⟩ := drop_joined gap.toList (getElem?_blocks hwidth hcell)
  rw [List.map_take, length_blocks h, ← toList_line] at hdrop
  have hline : (line widths cells).toList.drop (columnStart widths column) =
      List.replicate (width - cell.length) ' ' ++ cell.toList ++ rest := hdrop
  constructor
  · rw [hline, List.take_left' hlength]
  · intro hlt
    rw [← count_blocks h] at hlt
    obtain ⟨others, rfl⟩ := hnext hlt
    rw [← List.drop_drop, hline, List.drop_left' hlength]
    exact List.take_left' rfl

/-- A line shows its texts in its columns when what is shown of them fits. -/
theorem inColumns_line {texts : List String} (h : Fit widths (texts.map clip)) :
    InColumns widths texts (line widths (texts.map clip)) where
  count := by rw [← h.count, List.length_map]
  cell := by
    intro column width text hwidth htext
    have hcell : (texts.map clip)[column]? = some (clip text) := by
      rw [List.getElem?_map, htext, Option.map_some]
    exact ⟨clip text, clipped_clip text, h.le hwidth hcell, (column_line h hwidth hcell).1⟩
  gap := by
    intro column width hwidth hnext
    obtain ⟨cell, hcell⟩ := h.exists_cell hwidth
    exact (column_line h hwidth hcell).2 hnext

end

/-! ## Widths -/

/-- The widths after one more row. -/
def widen (widths : List Nat) (row : List String) : List Nat :=
  widths.zipWith max (row.map String.length)

theorem getElem?_widen {widths : List Nat} {row : List String} {column width : Nat} {cell : String}
    (hwidth : widths[column]? = some width) (hcell : row[column]? = some cell) :
    (widen widths row)[column]? = some (max width cell.length) := by
  rw [widen, List.getElem?_zipWith, hwidth, List.getElem?_map, hcell, Option.map_some]

theorem length_widen {widths : List Nat} {row : List String} (h : row.length = widths.length) :
    (widen widths row).length = widths.length := by
  rw [widen, List.length_zipWith, List.length_map, h, Nat.min_self]

theorem length_foldl_widen : ∀ {body : List (List String)} {widths : List Nat},
    (∀ row ∈ body, row.length = widths.length) → (body.foldl widen widths).length = widths.length
  | [], _, _ => rfl
  | row :: body, widths, h => by
    obtain ⟨hrow, hbody⟩ := List.forall_mem_cons.1 h
    have hlen := length_widen hrow
    rw [List.foldl_cons, length_foldl_widen (by rwa [hlen]), hlen]

/-- Row after row a width becomes the greatest length that its column has come to. -/
theorem greatest_foldl_widen {column : Nat} : ∀ {body : List (List String)} {widths : List Nat}
    {first : Nat}, (∀ row ∈ body, row.length = widths.length) → widths[column]? = some first →
    ∃ width, (body.foldl widen widths)[column]? = some width ∧
      IsGreatest {n | n = first ∨ ∃ row ∈ body, row[column]?.map String.length = some n} width
  | [], widths, first, _, hfirst => by
    refine ⟨first, hfirst, .inl rfl, ?_⟩
    rintro n (rfl | ⟨row, hrow, -⟩)
    · exact Nat.le_refl n
    · exact absurd hrow List.not_mem_nil
  | row :: body, widths, first, h, hfirst => by
    obtain ⟨hrow, hbody⟩ := List.forall_mem_cons.1 h
    have hlt : column < row.length := by
      rw [hrow]
      exact (List.getElem?_eq_some_iff.1 hfirst).1
    have hcell := List.getElem?_eq_getElem hlt
    obtain ⟨width, hwidth, hmem, hupper⟩ :=
      greatest_foldl_widen (by rwa [length_widen hrow]) (getElem?_widen hfirst hcell)
    have hle : max first row[column].length ≤ width := hupper (.inl rfl)
    refine ⟨width, hwidth, ?_, ?_⟩
    · rcases hmem with hmax | ⟨other, hother, hlen⟩
      · rcases Nat.le_total first row[column].length with hfirst' | hfirst'
        · rw [Nat.max_eq_right hfirst'] at hmax
          exact .inr ⟨row, List.mem_cons_self, by rw [hcell, hmax, Option.map_some]⟩
        · exact .inl (hmax.trans (Nat.max_eq_left hfirst'))
      · exact .inr ⟨other, List.mem_cons_of_mem row hother, hlen⟩
    · rintro n (rfl | ⟨other, hother, hlen⟩)
      · exact (Nat.le_max_left ..).trans hle
      · rcases List.mem_cons.1 hother with rfl | hother
        · rw [hcell, Option.map_some] at hlen
          exact Option.some.inj hlen ▸ (Nat.le_max_right ..).trans hle
        · exact hupper (.inr ⟨other, hother, hlen⟩)

section
variable {header : List String} {body : List (List String)}

theorem length_widths (h : ∀ row ∈ body, row.length = header.length) :
    (widths header body).length = header.length := by
  have hlen : (header.map String.length).length = header.length := List.length_map ..
  rw [← hlen] at h ⊢
  exact length_foldl_widen h

/-- A column is as wide as the longest of its cells, the header included. -/
theorem greatest_widths (h : ∀ row ∈ body, row.length = header.length) {column : Nat}
    (hlt : column < header.length) : ∃ width, (widths header body)[column]? = some width ∧
      IsGreatest {n | ∃ row ∈ header :: body, row[column]?.map String.length = some n} width := by
  have hfirst : (header.map String.length)[column]? = some header[column].length := by
    rw [List.getElem?_map, List.getElem?_eq_getElem hlt, Option.map_some]
  obtain ⟨width, hwidth, hgreatest⟩ :=
    greatest_foldl_widen (by rwa [List.length_map]) hfirst
  refine ⟨width, hwidth, ?_⟩
  have hset : {n | ∃ row ∈ header :: body, row[column]?.map String.length = some n} =
      {n | n = header[column].length ∨ ∃ row ∈ body, row[column]?.map String.length = some n} := by
    ext n
    simp [hlt, eq_comm]
  rw [hset]
  exact hgreatest

theorem fit_widths (h : ∀ row ∈ body, row.length = header.length) :
    ∀ row ∈ header :: body, Fit (widths header body) row := by
  intro row hmem
  have hlen : row.length = header.length := by
    rcases List.mem_cons.1 hmem with rfl | hmem
    · rfl
    · exact h row hmem
  refine ⟨by rw [hlen, length_widths h], fun {column width cell} hwidth hcell => ?_⟩
  have hlt := (List.getElem?_eq_some_iff.1 hcell).1
  obtain ⟨width', hwidth', -, hupper⟩ := greatest_widths h (hlen ▸ hlt)
  obtain rfl := Option.some.inj (hwidth.symm.trans hwidth')
  exact hupper ⟨row, hmem, by rw [hcell, Option.map_some]⟩

end

/-! ## Line breaks -/

theorem mem_joined {α : Type} {separator : List α} {a : α} : ∀ {pieces : List (List α)},
    a ∈ separator.intercalate pieces → a ∈ separator ∨ ∃ piece ∈ pieces, a ∈ piece
  | [], h => absurd h (by simp)
  | [piece], h => by
    rw [List.intercalate_singleton] at h
    exact .inr ⟨piece, List.mem_singleton_self piece, h⟩
  | piece :: next :: pieces, h => by
    rw [List.intercalate_cons_cons, List.mem_append, List.mem_append] at h
    rcases h with (h | h) | h
    · exact .inr ⟨piece, List.mem_cons_self, h⟩
    · exact .inl h
    · exact (mem_joined h).imp_right fun ⟨other, hother, hmem⟩ =>
        ⟨other, List.mem_cons_of_mem piece hother, hmem⟩

/-- A line breaks where one of its texts does. -/
theorem notMem_line {widths : List Nat} {texts : List String}
    (h : ∀ text ∈ texts, '\n' ∉ text.toList) : '\n' ∉ (line widths (texts.map clip)).toList := by
  have hclip : ∀ text ∈ texts, '\n' ∉ (clip text).toList := by
    intro text htext
    unfold clip
    split
    · exact h text htext
    · rw [String.toList_append, String.toList_ofList, List.mem_append]
      exact fun hmem => hmem.elim (fun hmem => h text htext (List.mem_of_mem_take hmem)) (by decide)
  intro hmem
  rw [toList_line] at hmem
  rcases mem_joined hmem with hgap | ⟨block, hblock, hmem⟩
  · exact absurd hgap (by decide)
  obtain ⟨padded, hpadded, rfl⟩ := List.mem_map.1 hblock
  obtain ⟨column, hcolumn⟩ := List.mem_iff_getElem?.1 hpadded
  obtain ⟨width, cell, -, hcell, rfl⟩ := List.getElem?_zipWith_eq_some.1 hcolumn
  obtain ⟨text, htext, rfl⟩ := List.mem_map.1 (List.mem_of_getElem? hcell)
  rw [padLeft, String.toList_append, String.toList_ofList, List.mem_append] at hmem
  rcases hmem with hblank | hmem
  · exact absurd (List.eq_of_mem_replicate hblank) (by decide)
  · exact hclip text htext hmem

theorem notMem_count (n : Nat) : '\n' ∉ s!"({n} rows)".toList := by
  change '\n' ∉ ("(" ++ n.repr ++ " rows)").toList
  rw [String.toList_append, String.toList_append, Nat.toList_repr, List.mem_append, List.mem_append]
  rintro ((h | h) | h)
  · exact absurd h (by decide)
  · exact absurd (Nat.isDigit_of_mem_toDigits (by decide) (by decide) h) (by decide)
  · exact absurd h (by decide)

theorem count_line (n : Nat) : s!"({n} rows)\n" = s!"({n} rows)" ++ "\n" := by
  have hend : " rows)\n" = " rows)" ++ "\n" := by decide
  change "(" ++ n.repr ++ " rows)\n" = "(" ++ n.repr ++ " rows)" ++ "\n"
  rw [hend, ← String.append_assoc]

/-- Lines that each end in a line break are joined by line breaks. -/
theorem join_lines {rest : List String} (hrest : rest ≠ []) : ∀ lines : List String,
    String.join (lines.map (· ++ "\n")) ++ "\n".intercalate rest = "\n".intercalate (lines ++ rest)
  | [] => by simp
  | line :: lines => by
    rw [List.map_cons, String.join_cons, String.append_assoc, join_lines hrest lines,
      List.cons_append, String.intercalate_cons_of_ne_nil (by simp [hrest])]

/-- A text of lines that hold no line break comes apart into them. -/
theorem split_lines {lines : List String} (h : ∀ line ∈ lines, '\n' ∉ line.toList) :
    Text.split (· == '\n') (String.join (lines.map (· ++ "\n"))) = lines ++ [""] := by
  have hjoined : String.join (lines.map (· ++ "\n")) = "\n".intercalate (lines ++ [""]) := by
    rw [← join_lines (List.cons_ne_nil "" []), String.intercalate_singleton, String.append_empty]
  rw [hjoined]
  refine @Text.split_intercalate (· == '\n') '\n' rfl _ (by simp) fun piece hpiece c hc => ?_
  rcases List.mem_append.1 hpiece with hpiece | hpiece
  · exact beq_false_of_ne fun heq => h piece hpiece (heq ▸ hc)
  · rw [List.mem_singleton.1 hpiece] at hc
    exact absurd hc List.not_mem_nil

/-! ## The table -/

/-- The lines of a table whose columns have these widths. -/
structure TableLines (schema : Schema) (rows : List Row) (widths : List Nat)
    (header rule : String) (body : List String) : Prop where
  columns : widths.length = schema.width
  /-- A column is as wide as the longest text that it shows, the header included. -/
  widest : ∀ column width name, widths[column]? = some width → schema.names[column]? = some name →
    width ≤ 40 ∧ IsGreatest {n | ∃ text ∈ name :: rows.map (·.display column), ∃ shown,
      Clipped text shown ∧ shown.length = n} width
  length : ∀ line ∈ header :: rule :: body, line.length = lineWidth widths
  header : InColumns widths schema.names header
  rule : rule = String.ofList (List.replicate (lineWidth widths) '-')
  body : List.Forall₂
    (fun row line => InColumns widths ((List.range schema.width).map row.display) line) rows body

section
variable (schema : Schema) (rows : List Row)

/-- The widths of the columns of a table. -/
def tableWidths : List Nat :=
  widths (schema.names.map clip) ((texts schema rows).map fun row => row.map clip)

/-- Every row has a text for every column, however wide it is itself. -/
theorem length_texts : ∀ cells ∈ (texts schema rows).map (fun row => row.map clip),
    cells.length = (schema.names.map clip).length := by
  simp [texts, Schema.names, Schema.width]

/-- What stands in a column, row by row: its name and then the cells. -/
theorem column_texts {column : Nat} {name : String} (hname : schema.names[column]? = some name) :
    (schema.names :: texts schema rows).map (·[column]?) =
      (name :: rows.map (·.display column)).map some := by
  have hlt : column < schema.width := by
    have hlt := (List.getElem?_eq_some_iff.1 hname).1
    rwa [Schema.names, List.length_map] at hlt
  simp [texts, hname, hlt]

theorem shown_lengths {column : Nat} {name : String} (hname : schema.names[column]? = some name) :
    {n | ∃ cells ∈ (schema.names :: texts schema rows).map (fun row => row.map clip),
        cells[column]?.map String.length = some n} =
      {n | ∃ text ∈ name :: rows.map (·.display column), ∃ shown,
        Clipped text shown ∧ shown.length = n} := by
  have hcolumn := column_texts schema rows hname
  ext n
  constructor
  · rintro ⟨_, hcells, hn⟩
    obtain ⟨row, hrow, rfl⟩ := List.mem_map.1 hcells
    rw [List.getElem?_map, Option.map_map, Option.map_eq_some_iff] at hn
    obtain ⟨text, htext, rfl⟩ := hn
    have hmem : row[column]? ∈ (name :: rows.map (·.display column)).map some :=
      hcolumn ▸ List.mem_map_of_mem hrow
    obtain ⟨text', hmem', htext'⟩ := List.mem_map.1 hmem
    obtain rfl := Option.some.inj (htext'.trans htext)
    exact ⟨text', hmem', clip text', clipped_clip text', rfl⟩
  · rintro ⟨text, htext, shown, hshown, rfl⟩
    have hmem : some text ∈ (schema.names :: texts schema rows).map (·[column]?) :=
      hcolumn ▸ List.mem_map_of_mem htext
    obtain ⟨row, hrow, hcell⟩ := List.mem_map.1 hmem
    refine ⟨row.map clip, List.mem_map_of_mem hrow, ?_⟩
    rw [List.getElem?_map, hcell, hshown.eq_clip]
    rfl

theorem widest_column {column width : Nat} {name : String}
    (hwidth : (tableWidths schema rows)[column]? = some width)
    (hname : schema.names[column]? = some name) :
    IsGreatest {n | ∃ text ∈ name :: rows.map (·.display column), ∃ shown,
      Clipped text shown ∧ shown.length = n} width := by
  have hlt : column < (schema.names.map clip).length := by
    rw [List.length_map]
    exact (List.getElem?_eq_some_iff.1 hname).1
  obtain ⟨width', hwidth', hgreatest⟩ := greatest_widths (length_texts schema rows) hlt
  obtain rfl := Option.some.inj (hwidth.symm.trans hwidth')
  rw [← shown_lengths schema rows hname]
  exact hgreatest

theorem fit_tableWidths {row : List String} (h : row ∈ schema.names :: texts schema rows) :
    Fit (tableWidths schema rows) (row.map clip) :=
  fit_widths (length_texts schema rows) _ (List.mem_map_of_mem h)

theorem tableLines : TableLines schema rows (tableWidths schema rows)
    (line (tableWidths schema rows) (schema.names.map clip))
    (String.ofList (List.replicate (lineWidth (tableWidths schema rows)) '-'))
    ((texts schema rows).map fun row => line (tableWidths schema rows) (row.map clip)) where
  columns := by
    rw [tableWidths, length_widths (length_texts schema rows), List.length_map, Schema.names,
      List.length_map, Schema.width]
  widest := by
    intro column width name hwidth hname
    have hgreatest := widest_column schema rows hwidth hname
    refine ⟨?_, hgreatest⟩
    obtain ⟨text, -, shown, hshown, rfl⟩ := hgreatest.1
    rw [hshown.eq_clip]
    exact length_clip_le text
  length := by
    intro l hl
    rcases List.mem_cons.1 hl with rfl | hl
    · exact length_line (fit_tableWidths schema rows List.mem_cons_self)
    rcases List.mem_cons.1 hl with rfl | hl
    · rw [String.length_ofList, List.length_replicate]
    · obtain ⟨row, hrow, rfl⟩ := List.mem_map.1 hl
      exact length_line (fit_tableWidths schema rows (List.mem_cons_of_mem _ hrow))
  header := inColumns_line (fit_tableWidths schema rows List.mem_cons_self)
  rule := rfl
  body := by
    rw [texts, List.map_map, List.forall₂_map_right_iff, List.forall₂_same]
    intro row hrow
    exact inColumns_line (fit_tableWidths schema rows
      (List.mem_cons_of_mem _ (List.mem_map_of_mem hrow)))

/-- No line of a table breaks when none of the texts does. -/
theorem notMem_lines (hnames : ∀ name ∈ schema.names, '\n' ∉ name.toList)
    (hcells : ∀ row ∈ rows, ∀ column < schema.width, '\n' ∉ (row.display column).toList) :
    ∀ l ∈ alignedLines schema rows, '\n' ∉ l.toList := by
  intro l hl
  rcases List.mem_cons.1 hl with rfl | hl
  · exact notMem_line hnames
  rcases List.mem_cons.1 hl with rfl | hl
  · rw [String.toList_ofList]
    exact fun hmem => absurd (List.eq_of_mem_replicate hmem) (by decide)
  · rw [List.map_map] at hl
    obtain ⟨_, htexts, rfl⟩ := List.mem_map.1 hl
    obtain ⟨row, hrow, rfl⟩ := List.mem_map.1 htexts
    refine notMem_line fun text htext => ?_
    obtain ⟨column, hcolumn, rfl⟩ := List.mem_map.1 htext
    exact hcells row hrow column (List.mem_range.1 hcolumn)

/-- **Aligned tables.** A table is a header, a rule, a line for every row in turn and one with the
number of rows. All but the last have the same length, and the texts stand in columns as wide as the
longest of them that is shown. A text is shown with the line breaks in it; where there are none, the
lines of the table are these. -/
theorem lines_of_aligned : ∃ widths header rule body,
    TableLines schema rows widths header rule body ∧
    aligned schema rows =
      String.join ((header :: rule :: body ++ [s!"({rows.length} rows)"]).map (· ++ "\n")) ∧
    ((∀ name ∈ schema.names, '\n' ∉ name.toList) →
      (∀ row ∈ rows, ∀ column < schema.width, '\n' ∉ (row.display column).toList) →
      Text.split (· == '\n') (aligned schema rows) =
        header :: rule :: body ++ [s!"({rows.length} rows)"] ++ [""]) := by
  have hlines : alignedLines schema rows =
      line (tableWidths schema rows) (schema.names.map clip) ::
        String.ofList (List.replicate (lineWidth (tableWidths schema rows)) '-') ::
        (texts schema rows).map fun row => line (tableWidths schema rows) (row.map clip) := by
    rw [alignedLines, List.map_map]
    rfl
  have haligned : aligned schema rows =
      String.join ((alignedLines schema rows ++ [s!"({rows.length} rows)"]).map (· ++ "\n")) := by
    rw [aligned, count_line, List.map_append, String.join_append, List.map_singleton,
      String.join_cons, String.join_nil, String.append_empty]
  refine ⟨_, _, _, _, tableLines schema rows, ?_, fun hnames hcells => ?_⟩
  · rw [haligned, hlines]
  · rw [haligned, split_lines, hlines]
    intro l hl
    rcases List.mem_append.1 hl with hl | hl
    · exact notMem_lines schema rows hnames hcells l hl
    · rw [List.mem_singleton.1 hl]
      exact notMem_count rows.length

end

/-- A cell that a row does not have is shown like an empty one. -/
example : aligned ⟨"d", .parameter, 1, [⟨"i", .text⟩, ⟨"Value", .number⟩]⟩
    [⟨[some (.text "seattle"), some (.text "2.5")]⟩, ⟨[some (.text "a,b")]⟩] =
      "      i | Value\n---------------\nseattle |   2.5\n    a,b |      \n(2 rows)\n" := by
  decide

end SymbolTables.Render
