import SymbolTables.Proofs.Query.Grammar
import SymbolTables.Query.Token

/-!
# The tokens a reader takes

A token that the reader takes off the front of a text is one of the grammar's, and the other way
round. A token shows in the first character that is not a blank (`BeginsWith`), which is how a reader
that asks for another token learns that it is not there.

* `mark?_iff`, `keyword?_iff`: marks and keywords.
* `quoted_iff`: texts between quotes.
* `field_ok`, `field_of_grammar`: fields; a word that the text ends with is no field to the reader,
  but then nothing follows it either.
-/
namespace SymbolTables.Query

open Grammar

/-! ## Blanks -/

theorem isBlank_iff {c : Char} : isBlank c = true ↔ Blank c := by
  simp [isBlank, isLineBreak, Blank, or_assoc]

theorem isLineBreak_iff {c : Char} : isLineBreak c = true ↔ LineBreak c := by
  simp [isLineBreak, LineBreak]

theorem mem_wordStops_iff {c : Char} : c ∈ wordStops ↔ EndsWord c := by
  simp [wordStops, EndsWord, Blank, or_assoc]

theorem Grammar.LineBreak.endsWord {c : Char} (h : LineBreak c) : EndsWord c :=
  .inl (.inr (.inr h))

theorem skipBlanks_append {blanks s : List Char} (hb : Blanks blanks)
    (hs : ∀ c, s.head? = some c → ¬ Blank c) : skipBlanks (blanks ++ s) = s := by
  have hskip : skipBlanks (blanks ++ s) = skipBlanks s :=
    List.dropWhile_append_of_pos fun c hc => isBlank_iff.2 (hb c hc)
  rw [hskip]
  cases s with
  | nil => rfl
  | cons c s =>
    have hc : isBlank c = false := by
      rw [Bool.eq_false_iff, Ne, isBlank_iff]
      exact hs c rfl
    rw [skipBlanks, List.dropWhile_cons_of_neg]
    simp [hc]

theorem skipBlanks_eq_nil {s : List Char} (h : Blanks s) : skipBlanks s = [] := by
  have := skipBlanks_append (s := []) h fun c hc => nomatch hc
  rwa [List.append_nil] at this

/-- What has been skipped. -/
theorem exists_blanks (s : List Char) : ∃ blanks, Blanks blanks ∧ s = blanks ++ skipBlanks s := by
  refine ⟨s.takeWhile isBlank, fun c hc => ?_, List.takeWhile_append_dropWhile.symm⟩
  exact isBlank_iff.1 (List.all_eq_true.1 List.all_takeWhile c hc)

/-! ## Marks and keywords -/

/-- A mark comes before all letters and has one spelling. -/
theorem eq_of_toLower_eq {c mark : Char} (hmark : mark < 'A') (h : c.toLower = mark.toLower) :
    c = mark := by
  have hval : mark.val < 65 := hmark
  unfold Char.toLower at h
  split at h <;> split at h
  · grind
  · grind
  · grind
  · exact h

theorem Grammar.Blank.before_letters {c : Char} (h : Blank c) : c < 'A' := by
  rcases h with rfl | rfl | rfl | rfl <;> decide

theorem sameLetters_cons {letters es : List Char} {e : Char} :
    Text.sameLetters letters (e :: es) = true ↔
      ∃ c cs, letters = c :: cs ∧ c.toLower = e.toLower ∧ Text.sameLetters cs es = true := by
  cases letters with
  | nil => simp [Text.sameLetters]
  | cons c cs =>
    simp only [Text.sameLetters, List.map_cons, beq_iff_eq, List.cons.injEq]
    constructor
    · rintro ⟨hc, hcs⟩
      exact ⟨c, cs, ⟨rfl, rfl⟩, hc, hcs⟩
    · rintro ⟨_, _, ⟨rfl, rfl⟩, hc, hcs⟩
      exact ⟨hc, hcs⟩

theorem after?_eq_some_iff : ∀ {expected s rest : List Char}, after? expected s = some rest ↔
    ∃ letters, Text.sameLetters letters expected = true ∧ s = letters ++ rest
  | [], s, rest => by simp [after?, Text.sameLetters]
  | e :: es, [], rest => by
    constructor
    · intro h
      cases h
    · rintro ⟨letters, hletters, hs⟩
      obtain ⟨c, cs, rfl, -, -⟩ := sameLetters_cons.1 hletters
      cases hs
  | e :: es, c :: s, rest => by
    rw [after?]
    constructor
    · intro h
      split at h
      · rename_i hc
        obtain ⟨letters, hletters, rfl⟩ := after?_eq_some_iff.1 h
        exact ⟨c :: letters, sameLetters_cons.2 ⟨c, letters, rfl, hc.symm, hletters⟩, rfl⟩
      · cases h
    · rintro ⟨letters, hletters, hs⟩
      obtain ⟨d, ds, rfl, hd, hds⟩ := sameLetters_cons.1 hletters
      obtain ⟨rfl, rfl⟩ := List.cons.inj hs
      rw [if_pos hd.symm]
      exact after?_eq_some_iff.2 ⟨ds, hds, rfl⟩

/-- Behind its blanks the text begins with `e`, up to the case of letters. -/
def BeginsWith (s : List Char) (e : Char) : Prop :=
  ∃ c, (skipBlanks s).head? = some c ∧ c.toLower = e.toLower

section
variable {e : Char} {es s rest : List Char}

/-- Letters behind blanks are found there. -/
theorem skipBlanks_letters (he : ¬ Blank e) {blanks letters : List Char} (hb : Blanks blanks)
    (hl : Text.sameLetters letters (e :: es) = true) :
    skipBlanks (blanks ++ (letters ++ rest)) = letters ++ rest := by
  obtain ⟨c, cs, rfl, hc, -⟩ := sameLetters_cons.1 hl
  refine skipBlanks_append hb fun d hd hblank => ?_
  obtain rfl : c = d := Option.some.inj hd
  exact he (eq_of_toLower_eq hblank.before_letters hc.symm ▸ hblank)

theorem mark?_eq_some_iff (he : ¬ Blank e) : mark? (e :: es) s = some rest ↔
    ∃ blanks letters, Blanks blanks ∧ Text.sameLetters letters (e :: es) = true ∧
      s = blanks ++ (letters ++ rest) := by
  rw [mark?, after?_eq_some_iff]
  constructor
  · rintro ⟨letters, hletters, hs⟩
    obtain ⟨blanks, hb, hsplit⟩ := exists_blanks s
    exact ⟨blanks, letters, hb, hletters, by rw [← hs]; exact hsplit⟩
  · rintro ⟨blanks, letters, hb, hletters, rfl⟩
    exact ⟨letters, hletters, skipBlanks_letters he hb hletters⟩

theorem mark?_eq_none (h : ¬ BeginsWith s e) : mark? (e :: es) s = none := by
  cases hm : mark? (e :: es) s with
  | none => rfl
  | some rest =>
    obtain ⟨letters, hletters, hs⟩ := after?_eq_some_iff.1 hm
    obtain ⟨c, cs, rfl, hc, -⟩ := sameLetters_cons.1 hletters
    exact absurd ⟨c, by rw [hs]; rfl, hc⟩ h

theorem keyword?_eq_none (h : ¬ BeginsWith s e) : keyword? (e :: es) s = none := by
  simp only [keyword?, mark?_eq_none h]

theorem mark?_iff (he : ¬ Blank e) (hmark : e < 'A') :
    mark? [e] s = some rest ↔ Mark e s rest := by
  rw [mark?_eq_some_iff he]
  constructor
  · rintro ⟨blanks, letters, hb, hletters, rfl⟩
    obtain ⟨c, cs, rfl, hc, hcs⟩ := sameLetters_cons.1 hletters
    obtain rfl := eq_of_toLower_eq hmark hc
    obtain rfl : cs = [] := by
      simpa [Text.sameLetters] using hcs
    exact ⟨blanks, hb, rfl⟩
  · rintro ⟨blanks, hb, rfl⟩
    exact ⟨blanks, [e], hb, Text.sameLetters_refl [e], rfl⟩

theorem joinsWord_iff {c : Char} : joinsWord c = true ↔ Joins c := by
  simp [joinsWord, Joins, or_assoc]

theorem keyword?_iff (he : ¬ Blank e) :
    keyword? (e :: es) s = some rest ↔ Keyword (e :: es) s rest := by
  have hjoins : ∀ r : List Char, r.head?.any joinsWord = true ↔ ∃ c, r.head? = some c ∧ Joins c := by
    intro r
    simp only [Option.any_eq_true, joinsWord_iff]
  unfold keyword?
  constructor
  · intro h
    split at h
    · rename_i r hr
      split at h
      · cases h
      · rename_i hj
        obtain rfl := Option.some.inj h
        obtain ⟨blanks, letters, hb, hletters, hs⟩ := (mark?_eq_some_iff he).1 hr
        exact ⟨blanks, letters, hb, hletters, hs, fun c hc hc' => hj ((hjoins r).2 ⟨c, hc, hc'⟩)⟩
    · cases h
  · rintro ⟨blanks, letters, hb, hletters, hs, hrest⟩
    rw [(mark?_eq_some_iff he).2 ⟨blanks, letters, hb, hletters, hs⟩]
    have hj : ¬ rest.head?.any joinsWord = true := by
      rw [hjoins]
      rintro ⟨c, hc, hc'⟩
      exact hrest c hc hc'
    simp only [hj]
    rfl

/-! ## What comes first -/

theorem Grammar.Mark.beginsWith (he : ¬ Blank e) (h : Mark e s rest) : BeginsWith s e := by
  obtain ⟨blanks, hb, rfl⟩ := h
  have hskip : skipBlanks (blanks ++ e :: rest) = e :: rest :=
    skipBlanks_letters he hb (Text.sameLetters_refl [e])
  exact ⟨e, by rw [hskip]; rfl, rfl⟩

theorem Grammar.Keyword.beginsWith (he : ¬ Blank e) (h : Keyword (e :: es) s rest) :
    BeginsWith s e := by
  obtain ⟨blanks, letters, hb, hletters, rfl, -⟩ := h
  have hskip : skipBlanks (blanks ++ (letters ++ rest)) = letters ++ rest :=
    skipBlanks_letters he hb hletters
  obtain ⟨c, cs, rfl, hc, -⟩ := sameLetters_cons.1 hletters
  exact ⟨c, by rw [hskip]; rfl, hc⟩

/-- A text begins with one character. -/
theorem BeginsWith.not {d : Char} (h : BeginsWith s d) (hne : d.toLower ≠ e.toLower) :
    ¬ BeginsWith s e := by
  rintro ⟨c, hc, hce⟩
  obtain ⟨c', hc', hcd⟩ := h
  obtain rfl := Option.some.inj (hc.symm.trans hc')
  exact hne (hcd.symm.trans hce)

theorem BeginsWith.ne_nil (h : BeginsWith s e) : s ≠ [] := by
  rintro rfl
  obtain ⟨c, hc, -⟩ := h
  cases hc

theorem Grammar.Blanks.not_beginsWith (h : Blanks s) : ¬ BeginsWith s e := by
  rintro ⟨c, hc, -⟩
  rw [skipBlanks_eq_nil h] at hc
  cases hc

/-- The end of a query begins with a semicolon, or with nothing. -/
theorem Grammar.End.not_beginsWith (h : End s) (he : ';'.toLower ≠ e.toLower) :
    ¬ BeginsWith s e := by
  cases h with
  | plain hb => exact hb.not_beginsWith
  | semicolon hm _ => exact (hm.beginsWith (by decide)).not he

end

/-! ## Texts up to a character -/

/-- What stands before a stop holds no stop and no line break. -/
theorem splitAt?_ok {stops rest : List Char} : ∀ {s word : List Char},
    splitAt? stops s = some (word, rest) →
      (∀ c ∈ word, c ∉ stops ∧ ¬ LineBreak c) ∧ ∃ c tail, rest = c :: tail ∧ c ∈ stops
  | [], word, h => by cases h
  | c :: s, word, h => by
    rw [splitAt?] at h
    by_cases hc : c ∈ stops
    · rw [if_pos hc] at h
      cases h
      exact ⟨List.forall_mem_nil _, c, s, rfl, hc⟩
    · rw [if_neg hc] at h
      by_cases hline : isLineBreak c = true
      · rw [if_pos hline] at h
        cases h
      · rw [if_neg hline, Option.map_eq_some_iff] at h
        obtain ⟨⟨first, rest'⟩, hsplit, he⟩ := h
        obtain ⟨rfl, rfl⟩ := Prod.mk.inj he
        obtain ⟨hword, hrest⟩ := splitAt?_ok hsplit
        have hfirst : c ∉ stops ∧ ¬ LineBreak c := ⟨hc, fun h => hline (isLineBreak_iff.2 h)⟩
        exact ⟨List.forall_mem_cons.2 ⟨hfirst, hword⟩, hrest⟩

theorem splitAt?_of_stop {stops : List Char} {stop : Char} (hstop : stop ∈ stops)
    (rest : List Char) : ∀ {word : List Char}, (∀ c ∈ word, c ∉ stops ∧ ¬ LineBreak c) →
      splitAt? stops (word ++ stop :: rest) = some (word, stop :: rest)
  | [], _ => by rw [List.nil_append, splitAt?, if_pos hstop]
  | c :: word, h => by
    obtain ⟨⟨hc, hline⟩, hword⟩ := List.forall_mem_cons.1 h
    have ih := splitAt?_of_stop hstop rest hword
    rw [List.cons_append, splitAt?, if_neg hc, if_neg (fun h => hline (isLineBreak_iff.1 h)), ih]
    rfl

/-! ## Quotes and words -/

section
variable {clause : Clause} {s text rest : List Char}

theorem Grammar.Quoted.skipBlanks {quote : Char} (hq : ¬ Blank quote)
    (h : Quoted quote s text rest) :
    skipBlanks s = quote :: (text ++ quote :: rest) ∧ ∀ c ∈ text, c ≠ quote ∧ ¬ LineBreak c := by
  obtain ⟨blanks, hb, rfl, htext⟩ := h
  refine ⟨skipBlanks_append hb ?_, htext⟩
  rintro c hc
  obtain rfl : quote = c := Option.some.inj hc
  exact hq

/-- A text between quotes that are no letters. -/
theorem quoted_iff {quote : Char} (hq : ¬ Blank quote) (hmark : quote < 'A') :
    quoted clause quote s = .ok (text, rest) ↔ Quoted quote s text rest := by
  have hmem : ∀ c, c ∉ [quote] ↔ c ≠ quote := by
    intro c
    rw [List.mem_singleton]
  unfold quoted
  constructor
  · intro h
    split at h
    · cases h
    · rename_i afterQuote hm
      split at h
      · cases h
      · rename_i inner behind hsplit
        cases h
        obtain ⟨blanks, hb, rfl⟩ := (mark?_iff hq hmark).1 hm
        obtain ⟨htext, c, tail, rfl, hc⟩ := splitAt?_ok hsplit
        obtain rfl := List.mem_singleton.1 hc
        refine ⟨blanks, hb, ?_, fun d hd => ⟨(hmem d).1 (htext d hd).1, (htext d hd).2⟩⟩
        rw [splitAt?_append hsplit]
        rfl
  · rintro ⟨blanks, hb, rfl, htext⟩
    have hm : mark? [quote] (blanks ++ quote :: (text ++ quote :: rest)) =
        some (text ++ quote :: rest) := (mark?_iff hq hmark).2 ⟨blanks, hb, rfl⟩
    have hsplit : splitAt? [quote] (text ++ quote :: rest) = some (text, quote :: rest) :=
      splitAt?_of_stop List.mem_cons_self rest
        fun c hc => ⟨(hmem c).2 (htext c hc).1, (htext c hc).2⟩
    simp only [hm, hsplit]
    rfl

/-- What is read as a field is one. -/
theorem field_ok (h : field clause s = .ok (text, rest)) :
    Field s (.ofToken (String.ofList text)) rest := by
  obtain ⟨blanks, hb, hs⟩ := exists_blanks s
  unfold field at h
  split at h
  · cases h
  · rename_i c tail hskip
    rw [hskip] at hs
    by_cases hc : c = '"'
    · rw [if_pos hc] at h
      obtain ⟨more, hmore, htail, htext⟩ := (quoted_iff (by decide) (by decide)).1 h
      refine .quoted ⟨blanks ++ more, ?_, ?_, htext⟩
      · intro d hd
        exact (List.mem_append.1 hd).elim (hb d) (hmore d)
      · rw [hs, htail, List.append_assoc]
    · rw [if_neg hc] at h
      split at h
      · cases h
      · cases h
      · rename_i word rest' hne hsplit
        cases h
        obtain ⟨hword, stop, behind, rfl, hstop⟩ := splitAt?_ok hsplit
        have happend := splitAt?_append hsplit
        refine .word ⟨blanks, hb, ?_, hne, ?_, ?_, ?_⟩
        · rw [hs, happend]
        · cases text with
          | nil => exact absurd rfl hne
          | cons d text =>
            obtain ⟨rfl, -⟩ := List.cons.inj happend
            exact fun hd => hc (Option.some.inj hd)
        · exact fun d hd hends => (hword d hd).1 (mem_wordStops_iff.2 hends)
        · rintro d hd
          obtain rfl : stop = d := Option.some.inj hd
          exact mem_wordStops_iff.1 hstop

/-- A field is read as it is, if anything follows it. -/
theorem field_of_grammar (clause : Clause) {r : FieldRef} (h : Field s r rest)
    (hrest : rest ≠ []) :
    ∃ token, field clause s = .ok (token, rest) ∧ r = .ofToken (String.ofList token) := by
  cases h with
  | quoted hq =>
    refine ⟨_, ?_, rfl⟩
    obtain ⟨hskip, htext⟩ := hq.skipBlanks (by decide)
    unfold field
    rw [hskip]
    simp only [if_true]
    exact (quoted_iff (by decide) (by decide)).2 ⟨[], List.forall_mem_nil _, rfl, htext⟩
  | word hw =>
    refine ⟨_, ?_, rfl⟩
    obtain ⟨blanks, hb, rfl, hne, hquote, hword, hends⟩ := hw
    obtain ⟨c, word, rfl⟩ := List.exists_cons_of_ne_nil hne
    obtain ⟨stop, behind, rfl⟩ := List.exists_cons_of_ne_nil hrest
    have hskip : skipBlanks (blanks ++ (c :: word ++ stop :: behind)) =
        c :: word ++ stop :: behind := by
      refine skipBlanks_append hb fun d hd hblank => ?_
      obtain rfl : c = d := Option.some.inj hd
      exact hword c List.mem_cons_self (.inl hblank)
    have hsplit : splitAt? wordStops (c :: word ++ stop :: behind) =
        some (c :: word, stop :: behind) := by
      refine splitAt?_of_stop (mem_wordStops_iff.2 (hends stop rfl)) behind fun d hd => ⟨?_, ?_⟩
      · exact fun hd' => hword d hd (mem_wordStops_iff.1 hd')
      · exact fun hline => hword d hd hline.endsWord
    have hc : c ≠ '"' := fun hc => hquote (by rw [hc]; rfl)
    unfold field
    rw [hskip]
    rw [List.cons_append] at hsplit
    simp only [List.cons_append, if_neg hc, hsplit]

end

end SymbolTables.Query
