import SymbolTables.Proofs.Table.Columns

/-!
# How dimensions get their names

A domain that cannot keep its name tries numbers behind it, 0 first, for as long as what comes out
is taken. Nothing in this rule bounds the search. `Naming` is the search step by step, for one domain
after the other, and `Named` says which name it has to find. `columnNames`, which tries one number
more than there are names before a domain, is compared with both.

* `named_freeName`, `Named.unique`: the name of a domain, which the names before it determine.
* `run_domain`: a domain is named after three steps more than there are names before it, or sooner.
* `run_columnNamesFrom`: the search comes to an end, with the names that are listed.
* `names_of_domains`: all of it together.
-/
namespace SymbolTables

/-! ## The name of a domain -/

/-- The name that a domain has to have when these are taken: its own, or, when that is `*` or taken,
the one with the least number behind it that is free. -/
inductive Named (taken : List String) (domain : String) : String → Prop
  | own (hw : domain ≠ wildcard) (hfree : domain ∉ taken) : Named taken domain domain
  | numbered (n : Nat) (hclash : domain = wildcard ∨ domain ∈ taken)
      (hfree : domain ++ toString n ∉ taken)
      (hleast : ∀ m < n, domain ++ toString m ∈ taken) : Named taken domain (domain ++ toString n)

/-- The name is determined by those that are taken. -/
theorem Named.unique {taken : List String} {domain name other : String}
    (h : Named taken domain name) (h' : Named taken domain other) : name = other := by
  cases h with
  | own hw hfree =>
    cases h' with
    | own => rfl
    | numbered n hclash => exact absurd hclash (not_or.2 ⟨hw, hfree⟩)
  | numbered n hclash hfree hleast =>
    cases h' with
    | own hw hfree' => exact absurd hclash (not_or.2 ⟨hw, hfree'⟩)
    | numbered n' _ hfree' hleast' =>
      have hle : n ≤ n' := Nat.le_of_not_lt fun hlt => hfree' (hleast n' hlt)
      have hge : n' ≤ n := Nat.le_of_not_lt fun hlt => hfree (hleast' n hlt)
      rw [Nat.le_antisymm hle hge]

theorem named_freeName (taken : List String) (domain : String) :
    Named taken domain (freeName taken domain) := by
  unfold freeName
  split
  · rename_i hclash
    obtain ⟨name, hname⟩ := Option.ne_none_iff_exists'.1 (firstFree?_ne_none taken domain 0)
    obtain ⟨n, rfl, hfree, hleast⟩ := firstFree?_some hname
    rw [hname]
    simp only [Nat.zero_add] at hfree hleast ⊢
    exact .numbered n hclash hfree hleast
  · rename_i hkeep
    obtain ⟨hw, hfree⟩ := not_or.1 hkeep
    exact .own hw hfree

/-- Every name is the one that its domain has to have behind the names before it. -/
theorem named_columnNamesFrom : ∀ {taken domains : List String} {i : Nat} {domain name : String},
    domains[i]? = some domain → (columnNamesFrom taken domains)[i]? = some name →
      Named (taken ++ (columnNamesFrom taken domains).take i) domain name
  | taken, first :: rest, 0, domain, name, hdomain, hname => by
    cases hdomain
    cases hname
    rw [List.take_zero, List.append_nil]
    exact named_freeName taken first
  | taken, first :: rest, i + 1, domain, name, hdomain, hname => by
    have h := @named_columnNamesFrom (taken ++ [freeName taken first]) rest i domain name
      hdomain hname
    rw [List.append_assoc, List.singleton_append] at h
    exact h

/-! ## The search, step by step -/

/-- How far the naming has come: the names so far and the domains still to come, and in between a
domain with the candidate for its name and the number that it tries next. -/
inductive Naming
  | between (names rest : List String)
  | trying (names : List String) (domain candidate : String) (counter : Nat) (rest : List String)

namespace Naming

/-- One step; none when every domain has its name. -/
def step : Naming → Option Naming
  | between _ [] => none
  | between names (domain :: rest) => some (trying names domain domain 0 rest)
  | trying names domain candidate counter rest =>
    if candidate = wildcard ∨ candidate ∈ names then
      some (trying names domain (domain ++ toString counter) (counter + 1) rest)
    else some (between (names ++ [candidate]) rest)

/-- So many steps, or all of them where there are fewer. -/
def run : Nat → Naming → Naming
  | 0, s => s
  | n + 1, s =>
    match s.step with
    | none => s
    | some t => run n t

theorem run_succ {s t : Naming} (h : s.step = some t) (n : Nat) : run (n + 1) s = run n t := by
  rw [run, h]

theorem run_of_halted {s : Naming} (h : s.step = none) : ∀ n, run n s = s
  | 0 => rfl
  | n + 1 => by rw [run, h]

theorem run_add (m : Nat) : ∀ (n : Nat) (s : Naming), run (n + m) s = run m (run n s)
  | 0, s => by rw [Nat.zero_add, run]
  | n + 1, s => by
    rw [Nat.add_right_comm]
    cases h : s.step with
    | none => rw [run_of_halted h, run_of_halted h, run_of_halted h]
    | some t => rw [run_succ h, run_succ h, run_add m n t]

section
variable {names rest : List String} {domain candidate : String} {counter : Nat}

theorem step_of_clash (h : candidate = wildcard ∨ candidate ∈ names) :
    (trying names domain candidate counter rest).step =
      some (trying names domain (domain ++ toString counter) (counter + 1) rest) := if_pos h

theorem step_of_free (hw : candidate ≠ wildcard) (hfree : candidate ∉ names) :
    (trying names domain candidate counter rest).step = some (between (names ++ [candidate]) rest) :=
  if_neg (not_or.2 ⟨hw, hfree⟩)

/-- Number after number is tried while the names are taken. -/
theorem run_tries (rest : List String) : ∀ (n counter : Nat),
    (∀ m < n, domain ++ toString (counter + m) ∈ names) →
      run n (trying names domain (domain ++ toString counter) (counter + 1) rest) =
        trying names domain (domain ++ toString (counter + n)) (counter + n + 1) rest
  | 0, _, _ => rfl
  | n + 1, counter, h => by
    have hfirst : domain ++ toString counter ∈ names := h 0 (Nat.succ_pos n)
    have hrest : ∀ m < n, domain ++ toString (counter + 1 + m) ∈ names := by
      intro m hm
      rw [Nat.add_right_comm]
      exact h (m + 1) (Nat.succ_lt_succ hm)
    rw [run_succ (step_of_clash (.inr hfirst)), run_tries rest n (counter + 1) hrest,
      Nat.add_right_comm counter 1 n]
    rfl

/-- One domain gets the name it has to have. The first step takes the domain up, the last one keeps
the candidate, and each of those between puts a number behind the domain. -/
theorem run_domain {name : String} (h : Named names domain name) (rest : List String) :
    ∃ steps ≤ names.length + 3,
      run steps (between names (domain :: rest)) = between (names ++ [name]) rest := by
  have hbegin : (between names (domain :: rest)).step =
      some (trying names domain domain 0 rest) := rfl
  cases h with
  | own hw hfree =>
    refine ⟨2, by omega, ?_⟩
    rw [run_succ hbegin, run_succ (step_of_free hw hfree), run]
  | numbered n hclash hfree hleast =>
    have htaken : ∀ m < n, domain ++ toString (0 + m) ∈ names := by simpa using hleast
    have hle := tries_le htaken
    have htries := run_tries rest n 0 htaken
    rw [Nat.zero_add, Nat.zero_add] at htries
    have hkeep : (trying names domain (domain ++ toString n) (n + 1) rest).step =
        some (between (names ++ [domain ++ toString n]) rest) :=
      step_of_free (endsInDigit_numbered domain n).ne_wildcard hfree
    refine ⟨n + 1 + 1 + 1, by omega, ?_⟩
    rw [run_succ hbegin, run_succ (step_of_clash hclash), run_add 1 n, htries, run_succ hkeep, run]

/-- The search comes to an end for any domains, with the names that are listed for them. -/
theorem run_columnNamesFrom : ∀ names domains : List String,
    ∃ steps ≤ domains.length * (names.length + domains.length + 2),
      run steps (between names domains) = between (names ++ columnNamesFrom names domains) []
  | names, [] => ⟨0, Nat.zero_le _, by rw [columnNamesFrom, List.append_nil, run]⟩
  | names, domain :: rest => by
    obtain ⟨first, hfirst, hrun⟩ := run_domain (named_freeName names domain) rest
    obtain ⟨others, hothers, hruns⟩ := run_columnNamesFrom (names ++ [freeName names domain]) rest
    refine ⟨first + others, ?_, ?_⟩
    · have hwidth : names.length + 1 + rest.length + 2 = names.length + (rest.length + 1) + 2 := by
        omega
      rw [List.length_append, List.length_singleton, hwidth] at hothers
      rw [List.length_cons, Nat.succ_mul]
      omega
    · rw [run_add, hrun, hruns, columnNamesFrom, List.append_assoc, List.singleton_append]

end
end Naming

/-- **Names for the dimensions.** The search for names comes to an end for all domains, after a
number of steps that is quadratic in their number at most. It ends with a name for every domain; none
is `*`, all are different, and each is the one that its domain has to have behind the names before
it. -/
theorem names_of_domains (domains : List String) :
    (∃ steps ≤ domains.length * (domains.length + 2),
      Naming.run steps (.between [] domains) = .between (columnNames domains) []) ∧
    (columnNames domains).length = domains.length ∧
    wildcard ∉ columnNames domains ∧
    (columnNames domains).Nodup ∧
    ∀ i domain, domains[i]? = some domain → ∀ name,
      (columnNames domains)[i]? = some name ↔ Named ((columnNames domains).take i) domain name := by
  obtain ⟨steps, hle, hrun⟩ := Naming.run_columnNamesFrom [] domains
  rw [List.length_nil, Nat.zero_add] at hle
  refine ⟨⟨steps, hle, hrun⟩, length_columnNames domains, ?_, nodup_columnNames domains, ?_⟩
  · exact fun hmem => ne_wildcard_of_mem_columnNames hmem rfl
  · intro i domain hdomain name
    have hnamed : ∀ name, (columnNames domains)[i]? = some name →
        Named ((columnNames domains).take i) domain name :=
      fun name hname => @named_columnNamesFrom [] domains i domain name hdomain hname
    refine ⟨hnamed name, fun h => ?_⟩
    have hlt : i < (columnNames domains).length := by
      rw [length_columnNames]
      exact (List.getElem?_eq_some_iff.1 hdomain).1
    have hname := List.getElem?_eq_getElem hlt
    rw [hname, (hnamed _ hname).unique h]

/-- A number is passed over when the name it makes is that of an earlier domain, and a domain is
numbered when its name has been made before. -/
example : columnNames ["a0", "a", "a", "a1", "*"] = ["a0", "a", "a1", "a10", "*0"] := by decide

end SymbolTables
