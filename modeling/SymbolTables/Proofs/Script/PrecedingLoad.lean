import SymbolTables.Proofs.Script.History

/-!
# Where a `LOAD` statement precedes

Only a `LOAD` statement can give a field another name. The script of a request has one when the
request asks for it, and looks at no field; a composer puts its own decision in the place of what
the request asks for, and looks at the fields and at the call. So a request with another name for a
field loses it when it does not ask for a `LOAD` itself, and a request that asks for a `LOAD` loses
it in a call that does not, when no field has another name.

* `carriesLoad_scriptWith`: whether there is a `LOAD` can be read off the text.
* `loadItem_infix`: a `LOAD` statement has every field with its other name.
* `effective_script`: the script of a table in a composer.
* `load_of_history`: where there is a `LOAD`, and when that is where one is needed.
-/
namespace SymbolTables.Script

/-- A text that begins with a `LOAD` statement. -/
def CarriesLoad (script : String) : Prop := "LOAD ".toList <+: script.toList

instance (script : String) : Decidable (CarriesLoad script) :=
  inferInstanceAs (Decidable (_ <+: _))

theorem infix_intercalate (separator : String) {s : String} :
    ∀ {items : List String}, s ∈ items → s.toList <:+: (separator.intercalate items).toList
  | [], h => nomatch h
  | [item], h => by
    have hone : s = separator.intercalate [item] := by simpa using h
    exact hone ▸ List.infix_refl _
  | item :: next :: items, h => by
    rw [String.intercalate_cons_cons, String.toList_append, String.toList_append]
    rcases List.mem_cons.1 h with rfl | h
    · exact ((List.prefix_append _ _).trans (List.prefix_append _ _)).isInfix
    · exact (infix_intercalate separator h).trans (List.suffix_append _ _).isInfix

namespace Request

/-- The script of a request with a `LOAD` statement or without one. -/
def scriptWith (r : Request) (load : Bool) : String :=
  (if load then r.loadStatement ++ lineEnd else "") ++ "SQL " ++ r.selectStatement

/-- Whether a `LOAD` is needed: the call or the request asks for it, or a field has another name. -/
def needsLoad (r : Request) (precedingLoad : Bool) : Bool :=
  precedingLoad || r.precedingLoad || r.anyAlias

section
variable {r : Request} {f : Field}

theorem script_eq (r : Request) : r.script = r.scriptWith r.precedingLoad := rfl

/-- A call overrides what the request asks for. -/
theorem effective_script (precedingLoad : Bool) (r : Request) :
    (Composer.effective precedingLoad r).script = r.scriptWith (precedingLoad || r.anyAlias) := rfl

theorem carriesLoad_scriptWith (r : Request) (load : Bool) :
    CarriesLoad (r.scriptWith load) ↔ load = true := by
  unfold CarriesLoad scriptWith
  cases load with
  | true =>
    simp only [if_true, loadStatement, String.toList_append, List.append_assoc, iff_true]
    exact List.prefix_append ..
  | false =>
    have hfirst : ¬"LOAD ".toList <+: 'S' :: ("QL ".toList ++ r.selectStatement.toList) := by
      intro h
      exact absurd (List.cons_prefix_cons.1 h).1 (by decide)
    simp only [Bool.false_eq_true, if_false, iff_false, String.empty_append, String.toList_append]
    exact hfirst

/-- A field with another name stands in the `LOAD` statement under both names. -/
theorem loadItem_infix (hmem : f ∈ r.fields) (halias : f.hasAlias = true) :
    (quote f.displayName ++ " AS " ++ quote f.aliasName).toList <:+:
      (r.scriptWith true).toList := by
  have hitem : f.loadItem = quote f.displayName ++ " AS " ++ quote f.aliasName := if_pos halias
  have hstatement : f.loadItem.toList <:+: r.loadStatement.toList := by
    refine (infix_intercalate fieldSeparator (List.mem_map_of_mem hmem)).trans ?_
    exact ⟨"LOAD ".toList, ";".toList, by simp [loadStatement]⟩
  rw [← hitem]
  refine hstatement.trans (List.IsPrefix.isInfix ?_)
  simp only [scriptWith, if_true, String.toList_append, List.append_assoc]
  exact List.prefix_append _ _

end

end Request

/-! ## The scripts of a call -/

/-- What a call makes of a table: its script with a `LOAD` statement or without one, as the call and
the fields need it. That is what is needed, but for a table that asks for a `LOAD` alone. -/
structure Call.Renders (c : Call) (table : Request) (script : String) : Prop where
  made : ∃ load, script = table.scriptWith load
  load : CarriesLoad script ↔ c.precedingLoad = true ∨ table.anyAlias = true
  needed : (CarriesLoad script ↔ table.needsLoad c.precedingLoad = true) ↔
    (table.precedingLoad = true → c.precedingLoad = true ∨ table.anyAlias = true)
  aliases : ∀ f ∈ table.fields, f.hasAlias = true →
    (quote f.displayName ++ " AS " ++ quote f.aliasName).toList <:+: script.toList

namespace Composer

theorem renders_effective (c : Call) (table : Request) :
    c.Renders table (effective c.precedingLoad table).script := by
  rw [Request.effective_script]
  have hload : CarriesLoad (table.scriptWith (c.precedingLoad || table.anyAlias)) ↔
      c.precedingLoad = true ∨ table.anyAlias = true := by
    rw [Request.carriesLoad_scriptWith, Bool.or_eq_true]
  refine { made := ⟨_, rfl⟩, load := hload, needed := ?_, aliases := fun f hf halias => ?_ }
  · simp only [hload, Request.needsLoad, Bool.or_eq_true]
    tauto
  · have hany : table.anyAlias = true := List.any_eq_true.2 ⟨f, hf, halias⟩
    rw [hany, Bool.or_true]
    exact Request.loadItem_infix hf halias

/-- The text of a call is made of the scripts of its tables. -/
theorem text_of_call (earlier : List Call) (c : Call) :
    ((after earlier).generate c.tables c.precedingLoad).1 =
      scriptSeparator.intercalate ((c.composed earlier).tables.map fun table =>
        (effective c.precedingLoad table).script) := by
  obtain ⟨hkeeps, -, htext⟩ := (keeps_after earlier).generate c
  rw [htext, hkeeps.current, held, Call.requests, (c.composed_spec earlier).1, List.map_map]
  rfl

/-- **Where a `LOAD` precedes.** The script of a request has a `LOAD` exactly when the request asks
for it, which is where one is needed unless a field has another name and the request does not ask.
After any calls, the text of a call is made of the scripts of its tables, and the script of a table
has a `LOAD` exactly when the call asks for it or a field has another name, whatever the table asks
for. -/
theorem load_of_history (earlier : List Call) (c : Call) :
    (∀ r : Request, (CarriesLoad r.script ↔ r.precedingLoad = true) ∧
      ((CarriesLoad r.script ↔ r.needsLoad false = true) ↔
        (r.anyAlias = true → r.precedingLoad = true))) ∧
    (c.composed earlier).tables.Perm c.tables ∧
    ∃ scripts : List String,
      List.Forall₂ c.Renders (c.composed earlier).tables scripts ∧
      ((after earlier).generate c.tables c.precedingLoad).1 =
        scriptSeparator.intercalate scripts := by
  refine ⟨fun r => ?_, (c.composed_spec earlier).2, _, ?_, text_of_call earlier c⟩
  · have hload : CarriesLoad r.script ↔ r.precedingLoad = true := by
      rw [Request.script_eq, Request.carriesLoad_scriptWith]
    refine ⟨hload, ?_⟩
    simp only [hload, Request.needsLoad, Bool.false_or, Bool.or_eq_true]
    tauto
  · rw [List.forall₂_map_right_iff, List.forall₂_same]
    exact fun table _ => renders_effective c table

/-- A field that is to have another name, and a table that asks for a `LOAD`: neither gets it. -/
example : (¬CarriesLoad (Request.script ⟨"", "", "", "t", false, [⟨"i", "", "x"⟩]⟩)) ∧
    ¬CarriesLoad (empty.generate [⟨"", "", "", "t", true, [⟨"i", "", ""⟩]⟩] false).1 := by
  decide +kernel

end Composer
end SymbolTables.Script
