import SymbolTables.Proofs.Except
import SymbolTables.Proofs.Query.Tokens
import SymbolTables.Query.Reader

/-!
# The reader recognises the grammar

Every function of the reader takes off the front of a text what one clause of the grammar describes,
and fails on any other text. The lists of fields and of conditions end where no separator follows,
and the grammar does not say so: it is what stands behind them that begins otherwise.

* `takeItems_ok`, `takeItems_of_separated`: lists with a separator between any two items.
* `source_ok`, `source_of_grammar`: table and file inside their quotes.
* `condition_iff`, `fromClause_iff`, `queryEnd_iff`: clauses that end by themselves.
* `parse_exact`: the texts that are read as a query are its spellings.
-/
namespace SymbolTables.Query

open Grammar

/-! ## Lists -/

/-- An item, and the items that another reader takes behind it. -/
def takeItems {α : Type} (item : List Char → Except Fault (α × List Char))
    (more : List Char → Except Fault (List α × List Char)) (s : List Char) :
    Except Fault (List α × List Char) := do
  let (first, s) ← item s
  let (others, s) ← more s
  return (first :: others, s)

section
variable {α : Type} {item : List Char → Except Fault (α × List Char)}
  {more : List Char → Except Fault (List α × List Char)}
  {separator? : List Char → Option (List Char)}
  {Separator : List Char → List Char → Prop} {Item : List Char → α → List Char → Prop}
  (hmore : ∀ s, more s =
    match separator? s with
    | none => .ok ([], s)
    | some t => takeItems item more t)
include hmore

/-- What a reader of lists takes is a list, if it takes items and separators. -/
theorem takeItems_ok
    (hseparator : ∀ {s t}, separator? s = some t → Separator s t ∧ t.length ≤ s.length)
    (hitem : ∀ {s a rest}, item s = .ok (a, rest) → Item s a rest ∧ rest.length < s.length)
    {s rest : List Char} {items : List α} (h : takeItems item more s = .ok (items, rest)) :
    Separated Separator Item s items rest := by
  obtain ⟨⟨first, s₁⟩, hfirst, h₁⟩ := bind_eq_ok_iff.1 h
  obtain ⟨⟨others, s₂⟩, hothers, h₂⟩ := bind_eq_ok_iff.1 h₁
  cases h₂
  obtain ⟨hgrammar, hlength⟩ := hitem hfirst
  rw [hmore] at hothers
  cases hs : separator? s₁ with
  | none =>
    rw [hs] at hothers
    cases hothers
    exact .one hgrammar
  | some t =>
    rw [hs] at hothers
    obtain ⟨hsep, hle⟩ := hseparator hs
    exact .more hgrammar hsep (takeItems_ok hseparator hitem hothers)
termination_by s.length

/-- A list is taken as a whole where no separator follows it. An item is only taken where something
can follow it: a separator, or what follows the list. -/
theorem takeItems_of_separated (hseparator : ∀ {s t}, Separator s t → separator? s = some t)
    (hitem : ∀ {s a s₁ s₂}, Item s a s₁ → Separator s₁ s₂ → item s = .ok (a, s₁))
    {s rest : List Char} {items : List α} (h : Separated Separator Item s items rest)
    (hlast : ∀ {s a}, Item s a rest → item s = .ok (a, rest)) (hrest : separator? rest = none) :
    takeItems item more s = .ok (items, rest) := by
  induction h with
  | one ha =>
    refine bind_eq_ok_iff.2 ⟨_, hlast ha, bind_eq_ok_iff.2 ⟨([], _), ?_, rfl⟩⟩
    rw [hmore, hrest]
  | @more _ _ _ _ others rest ha hs _ ih =>
    refine bind_eq_ok_iff.2 ⟨_, hitem ha hs, bind_eq_ok_iff.2 ⟨(others, rest), ?_, rfl⟩⟩
    rw [hmore, hseparator hs]
    exact ih hlast hrest

end

/-! ## The source -/

theorem Grammar.Blank.isWhiteSpace {c : Char} (h : Blank c) : Text.isWhiteSpace c = true := by
  rcases h with rfl | rfl | rfl | rfl <;> decide

theorem mem_of_mem_trim {c : Char} {s : List Char} (h : c ∈ Text.trim s) : c ∈ s := by
  have h := (List.dropWhile_suffix _).subset (List.mem_reverse.1 h)
  exact (List.dropWhile_suffix _).subset (List.mem_reverse.1 h)

/-- A trimmed text does not end with white space. -/
theorem not_isWhiteSpace_of_trim {s init : List Char} {c : Char}
    (h : Text.trim s = init ++ [c]) : Text.isWhiteSpace c = false := by
  have hrev := congrArg List.reverse h
  rw [Text.trim, List.reverse_reverse, List.reverse_append, List.reverse_singleton,
    List.singleton_append] at hrev
  have hhead := List.head?_dropWhile_not Text.isWhiteSpace (s.dropWhile Text.isWhiteSpace).reverse
  rw [hrev] at hhead
  exact hhead

/-- Nothing but blanks behind the file name means nothing at all, since the text is trimmed. -/
theorem eq_nil_of_trim {s init blanks : List Char} (h : Text.trim s = init ++ blanks)
    (hb : Blanks blanks) : blanks = [] := by
  rcases List.eq_nil_or_concat blanks with hnil | ⟨front, c, rfl⟩
  · exact hnil
  · rw [List.concat_eq_append, ← List.append_assoc] at h
    have hc := (hb c (by simp)).isWhiteSpace
    rw [not_isWhiteSpace_of_trim h] at hc
    cases hc

section
variable {inner table file : List Char}

theorem source_ok (h : source inner = .ok (table, file)) : Source inner table file := by
  unfold source at h
  split at h
  · cases h
  · rename_i t afterTable hopen
    split at h
    · cases h
    · rename_i f afterFile hclose
      have hrest : skipBlanks afterFile.tail = [] := by
        refine Decidable.byContradiction fun hrest => ?_
        simp only [ne_eq, hrest, not_false_eq_true, if_true] at h
        cases h
      simp only [hrest, ne_eq, not_true_eq_false, if_false] at h
      by_cases htable : Text.trim t = []
      · rw [if_pos htable] at h
        cases h
      · rw [if_neg htable] at h
        by_cases hfile : Text.trim f = []
        · rw [if_pos hfile] at h
          cases h
        · rw [if_neg hfile] at h
          cases h
          obtain ⟨ht, _, tail, rfl, hlt⟩ := splitAt?_ok hopen
          obtain ⟨hf, _, behind, rfl, hgt⟩ := splitAt?_ok hclose
          obtain rfl := List.mem_singleton.1 hlt
          obtain rfl := List.mem_singleton.1 hgt
          obtain ⟨blanks, hb, hbehind⟩ := exists_blanks behind
          rw [List.tail_cons] at hrest
          rw [hrest, List.append_nil] at hbehind
          have htrim : Text.trim inner = t ++ '<' :: (f ++ '>' :: blanks) := by
            rw [splitAt?_append hopen, ← hbehind]
            exact congrArg (t ++ '<' :: ·) (splitAt?_append hclose)
          have hnil : blanks = [] :=
            @eq_nil_of_trim inner (t ++ '<' :: (f ++ ['>'])) blanks (by simpa using htrim) hb
          rw [hnil] at htrim
          exact ⟨t, f, htrim, fun hm => (ht _ hm).1 hlt, fun hm => (hf _ hm).1 hgt, rfl, rfl,
            htable, hfile⟩

theorem source_of_grammar (hline : ∀ c ∈ inner, ¬ LineBreak c) (h : Source inner table file) :
    source inner = .ok (table, file) := by
  obtain ⟨t, f, htrim, ht, hf, rfl, rfl, htable, hfile⟩ := h
  have hmem : ∀ c ∈ t ++ '<' :: (f ++ ['>']), ¬ LineBreak c := by
    intro c hc
    rw [← htrim] at hc
    exact hline c (mem_of_mem_trim hc)
  have hopen : splitAt? ['<'] (t ++ '<' :: (f ++ ['>'])) = some (t, '<' :: (f ++ ['>'])) := by
    refine splitAt?_of_stop List.mem_cons_self _ fun c hc => ⟨fun hlt => ?_, ?_⟩
    · exact ht (List.mem_singleton.1 hlt ▸ hc)
    · exact hmem c (List.mem_append_left _ hc)
  have hclose : splitAt? ['>'] (f ++ ['>']) = some (f, ['>']) := by
    refine splitAt?_of_stop List.mem_cons_self _ fun c hc => ⟨fun hgt => ?_, ?_⟩
    · exact hf (List.mem_singleton.1 hgt ▸ hc)
    · exact hmem c (List.mem_append_right _ (List.mem_cons_of_mem _ (List.mem_append_left _ hc)))
  unfold source
  have hskip : skipBlanks [] = [] := rfl
  simp only [htrim, hopen, List.tail_cons, hclose, hskip, ne_eq, not_true_eq_false, if_false,
    if_neg htable, if_neg hfile]

end

/-! ## The first two clauses -/

/-- A field as a reference. -/
def selectedField (s : List Char) : Except Fault (FieldRef × List Char) := do
  let (word, s) ← field .select s
  return (.ofToken (String.ofList word), s)

theorem selectedField_ok {s rest : List Char} {r : FieldRef}
    (h : selectedField s = .ok (r, rest)) : Field s r rest ∧ rest.length < s.length := by
  obtain ⟨⟨word, s₁⟩, hf, h₁⟩ := bind_eq_ok_iff.1 h
  cases h₁
  exact ⟨field_ok hf, length_field hf⟩

theorem selectedField_of_grammar {s rest : List Char} {r : FieldRef} (h : Field s r rest)
    (hrest : rest ≠ []) : selectedField s = .ok (r, rest) := by
  obtain ⟨word, hf, rfl⟩ := field_of_grammar .select h hrest
  exact bind_eq_ok_iff.2 ⟨_, hf, rfl⟩

theorem moreFields_eq (s : List Char) : moreFields s =
    match mark? [','] s with
    | none => .ok ([], s)
    | some afterComma => takeItems selectedField moreFields afterComma := by
  rw [moreFields]
  split
  · rename_i hm
    rw [hm]
  · rename_i afterComma hm
    rw [hm]
    simp only [takeItems, selectedField]
    split
    · rename_i hf
      rw [hf]
      rfl
    · rename_i hf
      rw [hf]
      simp only [bind, Except.bind, pure, Except.pure]
      split <;> rename_i hmore <;> rw [hmore]

section
variable {s rest : List Char} {fields : List FieldRef} {table file : List Char}

theorem selectClause_eq (s : List Char) : selectClause s =
    match keyword? "select".toList s with
    | none => .error ⟨.select, .textNotFound "SELECT"⟩
    | some afterKeyword => takeItems selectedField moreFields afterKeyword := by
  unfold selectClause
  cases keyword? "select".toList s with
  | none => rfl
  | some afterKeyword =>
    simp only [takeItems, selectedField]
    cases field .select afterKeyword <;> rfl

theorem selectClause_ok (h : selectClause s = .ok (fields, rest)) :
    ∃ s₁, Keyword "select".toList s s₁ ∧ Separated (Mark ',') Field s₁ fields rest := by
  rw [selectClause_eq] at h
  split at h
  · cases h
  · rename_i s₁ hk
    refine ⟨s₁, (keyword?_iff (by decide)).1 hk, ?_⟩
    refine takeItems_ok moreFields_eq (fun hm => ⟨(mark?_iff (by decide) (by decide)).1 hm, ?_⟩)
      selectedField_ok h
    have := length_mark? hm
    omega

/-- The fields are read up to a text that begins with `FROM`. -/
theorem selectClause_of_grammar {s₁ : List Char} (hk : Keyword "select".toList s s₁)
    (hfields : Separated (Mark ',') Field s₁ fields rest) (hrest : BeginsWith rest 'f') :
    selectClause s = .ok (fields, rest) := by
  have hkeyword : keyword? "select".toList s = some s₁ := (keyword?_iff (by decide)).2 hk
  rw [selectClause_eq, hkeyword]
  exact takeItems_of_separated moreFields_eq (fun hm => (mark?_iff (by decide) (by decide)).2 hm)
    (fun hr hm => selectedField_of_grammar hr (hm.beginsWith (by decide)).ne_nil) hfields
    (fun hr => selectedField_of_grammar hr hrest.ne_nil) (mark?_eq_none (hrest.not (by decide)))

theorem fromClause_iff : fromClause s = .ok ((table, file), rest) ↔
    ∃ s₁ inner, Keyword "from".toList s s₁ ∧ Quoted '"' s₁ inner rest ∧
      Source inner table file := by
  unfold fromClause
  constructor
  · intro h
    split at h
    · cases h
    · rename_i s₁ hk
      obtain ⟨⟨inner, s₂⟩, hq, h₂⟩ := bind_eq_ok_iff.1 h
      obtain ⟨names, hsource, h₃⟩ := bind_eq_ok_iff.1 h₂
      cases h₃
      exact ⟨s₁, inner, (keyword?_iff (by decide)).1 hk,
        (quoted_iff (by decide) (by decide)).1 hq, source_ok hsource⟩
  · rintro ⟨s₁, inner, hk, hq, hsource⟩
    have hkeyword : keyword? "from".toList s = some s₁ := (keyword?_iff (by decide)).2 hk
    have hquoted : quoted .source '"' s₁ = .ok (inner, rest) :=
      (quoted_iff (by decide) (by decide)).2 hq
    have hline : ∀ c ∈ inner, ¬ LineBreak c := by
      intro c hc
      obtain ⟨_, _, _, htext⟩ := hq
      exact (htext c hc).2
    simp only [hkeyword, hquoted, source_of_grammar hline hsource, bind, Except.bind, pure,
      Except.pure]

end

/-! ## Conditions -/

theorem not_blank_of_quote {quote : Char} (h : quote = '"' ∨ quote = '\'') :
    ¬ Blank quote ∧ quote < 'A' := by
  rcases h with rfl | rfl <;> decide

theorem condition_iff {s rest : List Char} {c : SymbolTables.Condition} :
    condition s = .ok (c, rest) ↔ Grammar.Condition s c rest := by
  unfold condition
  constructor
  · intro h
    split at h
    · cases h
    · rename_i word s₁ hf
      split at h
      · cases h
      · rename_i s₂ hm
        split at h
        · cases h
        · rename_i quote hhead
          split at h
          · rename_i hquote
            split at h
            · cases h
            · rename_i value s₃ hq
              cases h
              obtain ⟨hblank, hbefore⟩ := not_blank_of_quote hquote
              exact .mk (field_ok hf) ((mark?_iff (by decide) (by decide)).1 hm) hquote
                ((quoted_iff hblank hbefore).1 hq)
          · cases h
  · rintro ⟨hr, hm, hquote, hq⟩
    obtain ⟨hblank, hbefore⟩ := not_blank_of_quote hquote
    obtain ⟨word, hf, rfl⟩ := field_of_grammar .condition hr (hm.beginsWith (by decide)).ne_nil
    obtain ⟨hskip, -⟩ := hq.skipBlanks hblank
    have hmark := (mark?_iff (by decide) (by decide)).2 hm
    have hquoted : quoted .condition _ _ = _ := (quoted_iff hblank hbefore).2 hq
    simp only [hf, hmark, hskip, List.head?_cons, if_pos hquote, hquoted]

theorem moreConditions_eq (s : List Char) : moreConditions s =
    match keyword? "and".toList s with
    | none => .ok ([], s)
    | some afterAnd => takeItems condition moreConditions afterAnd := by
  rw [moreConditions]
  split
  · rename_i hk
    rw [hk]
  · rename_i afterAnd hk
    rw [hk]
    simp only [takeItems]
    split
    · rename_i hc
      rw [hc]
      rfl
    · rename_i hc
      rw [hc]
      simp only [bind, Except.bind, pure, Except.pure]
      split <;> rename_i hmore <;> rw [hmore]

section
variable {s rest : List Char} {conditions : List SymbolTables.Condition}

theorem whereClause_ok (h : whereClause s = .ok (conditions, rest)) : Where s conditions rest := by
  unfold whereClause at h
  split at h
  · cases h
    exact .none
  · rename_i s₁ hk
    refine .some ((keyword?_iff (by decide)).1 hk) ?_
    refine takeItems_ok moreConditions_eq
      (fun hand => ⟨(keyword?_iff (by decide)).1 hand, ?_⟩)
      (fun hc => ⟨condition_iff.1 hc, length_condition hc⟩) h
    have := length_keyword? hand
    omega

/-- The conditions are read up to the end of the query. -/
theorem whereClause_of_grammar (h : Where s conditions rest) (hend : End rest) :
    whereClause s = .ok (conditions, rest) := by
  unfold whereClause
  cases h with
  | none =>
    have hkeyword : keyword? "where".toList s = none :=
      keyword?_eq_none (hend.not_beginsWith (by decide))
    rw [hkeyword]
  | some hk hconditions =>
    rename_i s₁
    have hkeyword : keyword? "where".toList s = some s₁ := (keyword?_iff (by decide)).2 hk
    have hand : keyword? "and".toList rest = none :=
      keyword?_eq_none (hend.not_beginsWith (by decide))
    rw [hkeyword]
    exact takeItems_of_separated moreConditions_eq (fun hand => (keyword?_iff (by decide)).2 hand)
      (fun hc _ => condition_iff.2 hc) hconditions (fun hc => condition_iff.2 hc) hand

end

/-! ## The whole query -/

theorem queryEnd_iff {s : List Char} : queryEnd s = .ok () ↔ End s := by
  have hok : queryEnd s = .ok () ↔ skipBlanks ((mark? [';'] s).getD s) = [] := by
    unfold queryEnd
    simp only
    split
    · rename_i hnil
      exact ⟨fun _ => hnil, fun _ => rfl⟩
    · rename_i hnil
      constructor
      · intro h
        cases h
      · intro h
        exact absurd h hnil
  have hblanks : ∀ {t : List Char}, skipBlanks t = [] ↔ Blanks t := by
    intro t
    constructor
    · intro h
      obtain ⟨blanks, hb, ht⟩ := exists_blanks t
      rw [ht, h, List.append_nil]
      exact hb
    · exact skipBlanks_eq_nil
  rw [hok, hblanks]
  constructor
  · intro h
    cases hm : mark? [';'] s with
    | none =>
      rw [hm] at h
      exact .plain h
    | some rest =>
      rw [hm] at h
      exact .semicolon ((mark?_iff (by decide) (by decide)).1 hm) h
  · intro h
    cases h with
    | plain hb =>
      rw [mark?_eq_none hb.not_beginsWith]
      exact hb
    | semicolon hm hb =>
      rw [(mark?_iff (by decide) (by decide)).2 hm]
      exact hb

section
variable {text : String} {q : Query}

theorem parse_ok (h : parse text = .ok q) : Spells text q := by
  unfold parse at h
  obtain ⟨⟨fields, s₁⟩, hselect, h₁⟩ := bind_eq_ok_iff.1 h
  obtain ⟨⟨⟨table, file⟩, s₂⟩, hfrom, h₂⟩ := bind_eq_ok_iff.1 h₁
  obtain ⟨⟨conditions, s₃⟩, hwhere, h₃⟩ := bind_eq_ok_iff.1 h₂
  obtain ⟨_, hend, h₄⟩ := bind_eq_ok_iff.1 h₃
  cases h₄
  obtain ⟨s₀, hk, hfields⟩ := selectClause_ok hselect
  obtain ⟨s₄, inner, hk', hq, hsource⟩ := fromClause_iff.1 hfrom
  exact .mk hk hfields hk' hq hsource (whereClause_ok hwhere) (queryEnd_iff.1 hend)

theorem parse_of_grammar (h : Spells text q) : parse text = .ok q := by
  obtain ⟨hk, hfields, hk', hq, hsource, hwhere, hend⟩ := h
  have hselect := selectClause_of_grammar hk hfields (hk'.beginsWith (by decide))
  have hfrom := fromClause_iff.2 ⟨_, _, hk', hq, hsource⟩
  have hconditions := whereClause_of_grammar hwhere hend
  simp only [parse, hselect, hfrom, hconditions, queryEnd_iff.2 hend, bind, Except.bind, pure,
    Except.pure]

/-- A text is a spelling of one query at most. -/
theorem eq_of_spells {q' : Query} (h : Spells text q) (h' : Spells text q') : q = q' := by
  have heq := (parse_of_grammar h).symm.trans (parse_of_grammar h')
  cases heq
  rfl

end

/-- **The reader accepts exactly the grammar, with the right meaning.** A text is read as a query if
and only if it is a spelling of it, and a text that spells no query is refused as malformed. -/
theorem parse_exact (text : String) :
    (∀ q, parse text = .ok q ↔ Spells text q) ∧
      ((¬ ∃ q, Spells text q) ↔
        ∃ fault, parse text = .error fault ∧ fault.toFailure.kind = .malformedQuery) := by
  refine ⟨fun q => ⟨parse_ok, parse_of_grammar⟩, ?_⟩
  constructor
  · intro h
    cases hp : parse text with
    | error fault => exact ⟨fault, rfl, fault.kind_toFailure⟩
    | ok q => exact absurd ⟨q, parse_ok hp⟩ h
  · rintro ⟨fault, hfault, -⟩ ⟨q, hq⟩
    rw [parse_of_grammar hq] at hfault
    cases hfault

/-- Keywords of either case, blanks of all kinds or none, and single quotes. -/
example : (parse "Select\ti, @1 from\"p <f>\" where j = '' ; ").toOption =
    some ⟨[.name "i", .position 1], "p", "f", [⟨.name "j", ""⟩]⟩ := by
  decide +kernel

end SymbolTables.Query
