import Mathlib.Algebra.Order.Sub.Basic
import Mathlib.Data.Multiset.OrderedMonoid
import SymbolTables.Proofs.Text.Trim
import SymbolTables.Script.Composer

/-!
# Composers after any calls

A composer answers as if it kept nothing: its text is made of the scripts of the tables it has been
asked for. What it keeps shows in two places only: a call that repeats the one before it leaves the
tables in the order they had, and no more scripts are made than the call before has left to make.

* `perm_without`, `take?_some`, `take?_none`: an entry that is taken out.
* `compose_eq`: the entries for requests, whatever the old entries are and in whatever order.
* `held_after`: what a composer keeps after any calls.
* `text_of_history`: the text of a call and the number of scripts made for it.
-/
namespace SymbolTables.Script

/-! ## Scripts that begin and end visibly -/

theorem Request.script_visible (r : Request) :
    Text.BeginsVisibly r.script.toList ∧ Text.EndsVisibly r.script.toList := by
  constructor
  · have hsql : Text.BeginsVisibly ("SQL " ++ r.selectStatement).toList :=
      ⟨'S', _, by rw [String.toList_append]; rfl, by decide⟩
    unfold Request.script
    cases r.precedingLoad with
    | false => simpa using hsql
    | true =>
      have hload : Text.BeginsVisibly r.loadStatement.toList :=
        ⟨'L', _, by rw [Request.loadStatement, String.append_assoc, String.toList_append]; rfl,
          by decide⟩
      simp only [if_true, String.toList_append]
      exact ((hload.append _).append _).append _
  · have hselect : Text.EndsVisibly r.selectStatement.toList :=
      ⟨_, ';', by rw [Request.selectStatement, String.toList_append]; rfl, by decide⟩
    unfold Request.script
    rw [String.toList_append]
    exact hselect.append _

namespace Composer

theorem visible_intercalate (separator : String) : ∀ {scripts : List String}, scripts ≠ [] →
    (∀ s ∈ scripts, Text.BeginsVisibly s.toList ∧ Text.EndsVisibly s.toList) →
    Text.BeginsVisibly (separator.intercalate scripts).toList ∧
      Text.EndsVisibly (separator.intercalate scripts).toList
  | [], hne, _ => absurd rfl hne
  | [s], _, h => by
    rw [String.intercalate_singleton]
    exact h s List.mem_cons_self
  | s :: t :: scripts, _, h => by
    obtain ⟨hs, hrest⟩ := List.forall_mem_cons.1 h
    obtain ⟨-, hend⟩ := visible_intercalate separator (List.cons_ne_nil t scripts) hrest
    rw [String.intercalate_cons_cons, String.toList_append, String.toList_append]
    exact ⟨(hs.1.append _).append _, hend.append _⟩

/-- Between scripts there is nothing to cut off. -/
theorem joinScripts_scripts (requests : List Request) :
    joinScripts (requests.map Request.script) =
      scriptSeparator.intercalate (requests.map Request.script) := by
  unfold joinScripts Text.strip
  cases requests with
  | nil => rfl
  | cons r rest =>
    obtain ⟨hbegin, hend⟩ := @visible_intercalate scriptSeparator ((r :: rest).map Request.script)
      (by simp) (by
        intro s hs
        obtain ⟨r, -, rfl⟩ := List.mem_map.1 hs
        exact r.script_visible)
    rw [Text.trim_eq_self hbegin hend, String.ofList_toList]

/-! ## Taking entries out -/

/-- What is taken out and what stays are the entries, in some order. -/
theorem perm_without {entries : List Entry} {index : Nat} {e : Entry}
    (h : entries[index]? = some e) : entries.Perm (e :: without entries index) := by
  obtain ⟨front, back, rfl, rfl⟩ :
      ∃ front back, entries = front ++ e :: back ∧ front.length = index := by
    obtain ⟨hlt, he⟩ := List.getElem?_eq_some_iff.1 h
    refine ⟨entries.take index, entries.drop (index + 1), ?_, by simp; omega⟩
    rw [← he, List.getElem_cons_drop, List.take_append_drop]
  rcases List.eq_nil_or_concat back with rfl | ⟨back, last, rfl⟩
  · have hout : without (front ++ [e]) front.length = front := by simp [without]
    rw [hout]
    exact List.perm_append_singleton e front
  · rw [List.concat_eq_append]
    have hlast : (front ++ e :: (back ++ [last])).getLast? = some last := by
      rw [← List.cons_append, ← List.append_assoc, List.getLast?_concat]
    have hset : (front ++ e :: (back ++ [last])).set front.length last =
        (front ++ last :: back) ++ [last] := by simp
    have hout : without (front ++ e :: (back ++ [last])) front.length = front ++ last :: back := by
      simp only [without, hlast, hset, List.dropLast_concat]
    have hback : (back ++ [last]).Perm (last :: back) := List.perm_append_singleton last back
    rw [hout]
    exact List.perm_middle.trans ((hback.append_left front).cons e)

section
variable {r : Request} {entries : List Entry}

theorem take?_some {e : Entry} {rest : List Entry} (h : take? r entries = some (e, rest)) :
    e.request = r ∧ entries.Perm (e :: rest) := by
  obtain ⟨index, hindex, h⟩ := Option.bind_eq_some_iff.1 h
  obtain ⟨e', he, h⟩ := Option.bind_eq_some_iff.1 h
  cases h
  refine ⟨?_, perm_without he⟩
  obtain ⟨hlt, hr, -⟩ := List.findIdx?_eq_some_iff_getElem.1 hindex
  rw [List.getElem?_eq_getElem hlt] at he
  cases he
  exact of_decide_eq_true hr

theorem take?_none (h : take? r entries = none) : ∀ e ∈ entries, e.request ≠ r := by
  cases hindex : entries.findIdx? fun e => e.request = r with
  | none => simpa using List.findIdx?_eq_none_iff.1 hindex
  | some index =>
    obtain ⟨hlt, -⟩ := List.findIdx?_eq_some_iff_getElem.1 hindex
    simp [take?, hindex, hlt] at h

end

/-! ## Composing -/

/-- How many of the requests have no counterpart among `held`, each of which counts once. -/
def unmatched (requests held : List Request) : Nat :=
  Multiset.card ((requests : Multiset Request) - (held : Multiset Request))

section
variable {r : Request} {requests requests' held held' : List Request}

theorem unmatched_perm (h : requests.Perm requests') (h' : held.Perm held') :
    unmatched requests held = unmatched requests' held' := by
  unfold unmatched
  rw [Multiset.coe_eq_coe.2 h, Multiset.coe_eq_coe.2 h']

theorem unmatched_nil : unmatched [] held = 0 := by
  exact congrArg Multiset.card (zero_tsub (held : Multiset Request))

theorem unmatched_self : unmatched requests requests = 0 := by
  exact congrArg Multiset.card (tsub_self (requests : Multiset Request))

theorem unmatched_cons_cons : unmatched (r :: requests) (r :: held) = unmatched requests held := by
  unfold unmatched
  rw [← Multiset.cons_coe, ← Multiset.cons_coe, Multiset.sub_cons, Multiset.erase_cons_head]

theorem unmatched_cons (h : r ∉ held) :
    unmatched (r :: requests) held = unmatched requests held + 1 := by
  unfold unmatched
  rw [← Multiset.cons_coe, ← Multiset.card_cons r]
  congr 1
  ext s
  simp only [Multiset.count_sub, Multiset.count_cons]
  split
  · rename_i hs
    have hzero : Multiset.count s (held : Multiset Request) = 0 :=
      Multiset.count_eq_zero_of_notMem (by simpa [hs] using h)
    rw [hzero]
    rfl
  · rfl

end

/-- The entry of a request, made anew. -/
def fresh (r : Request) : Entry := ⟨r, r.script⟩

/-- What the old entries are decides how many scripts are made, not which. -/
theorem compose_eq : ∀ (requests : List Request) {old : List Entry},
    (∀ e ∈ old, e = fresh e.request) →
      compose old requests = (requests.map fresh, unmatched requests (old.map (·.request)))
  | [], _, _ => by simp [compose, unmatched_nil]
  | r :: rest, old, hold => by
    unfold compose
    cases htake : take? r old with
    | none =>
      have hr : r ∉ old.map (·.request) := by
        simpa using take?_none htake
      simp only [compose_eq rest hold, unmatched_cons hr]
      rfl
    | some p =>
      obtain ⟨e, others⟩ := p
      obtain ⟨hreq, hperm⟩ := take?_some htake
      have hothers : ∀ e ∈ others, e = fresh e.request := fun e' he' =>
        hold e' (hperm.symm.subset (List.mem_cons_of_mem _ he'))
      have he : e = fresh r := hreq ▸ hold e (hperm.symm.subset List.mem_cons_self)
      have hheld : (old.map (·.request)).Perm (r :: others.map (·.request)) := by
        rw [← hreq]
        exact hperm.map _
      simp only [compose_eq rest hothers, unmatched_perm (.refl _) hheld, unmatched_cons_cons, he]
      rfl

end Composer

/-! ## Calls -/

namespace Call

/-- The requests of a call as it understands them. -/
def requests (c : Call) : List Request := c.tables.map (Composer.effective c.precedingLoad)

/-- A call with the flag and, sorted by key, the tables of another. -/
def Repeats (c previous : Call) : Prop :=
  c.precedingLoad = previous.precedingLoad ∧
    Composer.sortByKey c.tables = Composer.sortByKey previous.tables

instance (c previous : Call) : Decidable (c.Repeats previous) :=
  inferInstanceAs (Decidable (_ ∧ _))

/-- The call that has put the text together: this one, unless it repeats the one before it. The
earlier calls are given the last one first. -/
def composed (c : Call) : List Call → Call
  | [] => c
  | previous :: earlier => if c.Repeats previous then previous.composed earlier else c

theorem sortByKey_perm (tables : List Request) : (Composer.sortByKey tables).Perm tables :=
  List.mergeSort_perm _ _

theorem Repeats.tables_perm {c previous : Call} (h : c.Repeats previous) :
    previous.tables.Perm c.tables := by
  have hsort := (sortByKey_perm previous.tables).symm
  rw [← h.2] at hsort
  exact hsort.trans (sortByKey_perm c.tables)

/-- The text is put together for the same flag and the same tables, in some order. -/
theorem composed_spec (c : Call) : ∀ earlier : List Call,
    (c.composed earlier).precedingLoad = c.precedingLoad ∧ (c.composed earlier).tables.Perm c.tables
  | [] => ⟨rfl, .refl _⟩
  | previous :: earlier => by
    unfold composed
    split
    · rename_i h
      obtain ⟨hflag, hperm⟩ := composed_spec previous earlier
      exact ⟨hflag.trans h.1.symm, hperm.trans h.tables_perm⟩
    · exact ⟨rfl, .refl _⟩

theorem composed_requests_perm (c : Call) (earlier : List Call) :
    (c.composed earlier).requests.Perm c.requests := by
  obtain ⟨hflag, hperm⟩ := c.composed_spec earlier
  unfold requests
  rw [hflag]
  exact hperm.map _

end Call

namespace Composer

/-- A composer after some calls, the last one first. -/
def after : List Call → Composer
  | [] => empty
  | c :: earlier => ((after earlier).generate c.tables c.precedingLoad).2

/-- The requests that the last of the calls has left scripts for. -/
def held : List Call → List Request
  | [] => []
  | c :: earlier => (c.composed earlier).requests

/-- What a composer keeps after some calls. -/
structure Keeps (c : Composer) (calls : List Call) : Prop where
  last : c.last = calls.head?.map fun call => ⟨sortByKey call.tables, call.precedingLoad⟩
  entries : c.entries = (held calls).map fresh

section
variable {composer : Composer} {earlier : List Call} {c : Call}

/-- A call finds the last one in the composer exactly when it repeats it. -/
theorem Keeps.last_eq_iff (h : composer.Keeps earlier) :
    composer.last = some ⟨sortByKey c.tables, c.precedingLoad⟩ ↔
      ∃ previous ∈ earlier.head?, c.Repeats previous := by
  rw [h.last]
  cases earlier with
  | nil => simp
  | cons previous earlier =>
    simp only [List.head?_cons, Option.map_some, Option.some.injEq, Call.mk.injEq,
      Option.mem_def, exists_eq_left', Call.Repeats]
    constructor
    · rintro ⟨htables, hflag⟩
      exact ⟨hflag.symm, htables.symm⟩
    · rintro ⟨hflag, htables⟩
      exact ⟨htables.symm, hflag.symm⟩

theorem generate_of_last {tables : List Request} {flag : Bool}
    (h : composer.last = some ⟨sortByKey tables, flag⟩) :
    composer.generate tables flag = (composer.current, composer) := if_pos h

theorem generate_of_ne {tables : List Request} {flag : Bool}
    (h : composer.last ≠ some ⟨sortByKey tables, flag⟩) {entries : List Entry} {made : Nat}
    (hcompose : compose composer.entries (tables.map (effective flag)) = (entries, made)) :
    composer.generate tables flag =
      (current ⟨some ⟨sortByKey tables, flag⟩, entries, composer.generated + made⟩,
        ⟨some ⟨sortByKey tables, flag⟩, entries, composer.generated + made⟩) := by
  simp only [generate, if_neg h, hcompose]

/-- **One call.** It leaves the entries for its own requests behind, and makes the scripts for which
the call before has left none. -/
theorem Keeps.generate (h : composer.Keeps earlier) (c : Call) :
    (composer.generate c.tables c.precedingLoad).2.Keeps (c :: earlier) ∧
      (composer.generate c.tables c.precedingLoad).2.generated =
        composer.generated + unmatched c.requests (held earlier) ∧
      (composer.generate c.tables c.precedingLoad).1 =
        (composer.generate c.tables c.precedingLoad).2.current := by
  by_cases hlast : composer.last = some ⟨sortByKey c.tables, c.precedingLoad⟩
  · rw [generate_of_last hlast]
    obtain ⟨previous, hprevious, hrepeats⟩ := h.last_eq_iff.1 hlast
    obtain ⟨rest, rfl⟩ : ∃ rest, earlier = previous :: rest := by
      cases earlier with
      | nil => cases hprevious
      | cons first rest =>
        cases hprevious
        exact ⟨rest, rfl⟩
    have hheld : held (c :: previous :: rest) = held (previous :: rest) := by
      simp only [held, Call.composed, if_pos hrepeats]
    have hmatched : (held (previous :: rest)).Perm c.requests := by
      rw [← hheld]
      exact c.composed_requests_perm _
    refine ⟨⟨hlast, ?_⟩, ?_, rfl⟩
    · rw [hheld]
      exact h.entries
    · rw [unmatched_perm (.refl _) hmatched, unmatched_self]
      rfl
  · have hnew : c.composed earlier = c := by
      cases earlier with
      | nil => rfl
      | cons previous rest =>
        exact if_neg fun hrepeats => hlast (h.last_eq_iff.2 ⟨previous, rfl, hrepeats⟩)
    have hold : ∀ e ∈ composer.entries, e = fresh e.request := by
      intro e he
      rw [h.entries] at he
      obtain ⟨r, -, rfl⟩ := List.mem_map.1 he
      rfl
    have hrequests : composer.entries.map (·.request) = held earlier := by
      rw [h.entries, List.map_map]
      exact List.map_id _
    have hcompose := compose_eq c.requests hold
    rw [hrequests] at hcompose
    rw [generate_of_ne hlast hcompose]
    refine ⟨{ last := rfl, entries := ?_ }, rfl, rfl⟩
    rw [held, hnew]

theorem keeps_after : ∀ calls : List Call, (after calls).Keeps calls
  | [] => { last := rfl, entries := rfl }
  | c :: earlier => ((keeps_after earlier).generate c).1

/-- The text of a composer is made of the scripts of what it keeps, and of nothing else. -/
theorem Keeps.current {calls : List Call} (h : composer.Keeps calls) :
    composer.current = scriptSeparator.intercalate ((held calls).map Request.script) := by
  have hscripts : (composer.entries.map (·.script)) = (held calls).map Request.script := by
    rw [h.entries, List.map_map]
    rfl
  rw [Composer.current, hscripts, joinScripts_scripts]

end

end Composer
end SymbolTables.Script
