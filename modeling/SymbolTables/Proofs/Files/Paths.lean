import SymbolTables.Files.Tree
import SymbolTables.Proofs.Text.Split

/-!
# Where paths lead

`FileTree.Leads` says where names lead from a place and through how many links, one rule for each
kind of name. A walk arrives there as long as the links do not run out (`walk_ok_iff`), and nothing
about the place it arrives at depends on them any more: it is settled, below directories only, under
names that are no steps (`settled_of_leads`). The path of a settled place leads back to it
(`resolve_path`), and names behind that path lead where they lead from the place (`resolve_joined`).
-/
namespace SymbolTables.FileTree

/-! ## Places -/

/-- What an entry of a directory can be called. -/
structure IsName (name : String) : Prop where
  nonempty : name ≠ ""
  notHere : name ≠ "."
  notUp : name ≠ ".."
  whole : '/' ∉ name.toList
  short : name.utf8ByteSize ≤ nameLimit

instance (name : String) : Decidable (IsName name) :=
  decidable_of_iff (name ≠ "" ∧ name ≠ "." ∧ name ≠ ".." ∧ '/' ∉ name.toList ∧
      name.utf8ByteSize ≤ nameLimit)
    ⟨fun ⟨hne, hhere, hup, hwhole, hshort⟩ => ⟨hne, hhere, hup, hwhole, hshort⟩,
      fun ⟨hne, hhere, hup, hwhole, hshort⟩ => ⟨hne, hhere, hup, hwhole, hshort⟩⟩

/-- A place that is reached from the root without steps upwards and without links. -/
inductive Settled (t : FileTree) : List String → Prop
  | root : t.Settled []
  | inside {here : List String} {name : String} {entry : Entry} (h : t.Settled here)
      (hdirectory : t.entry? here = some .directory) (hname : IsName name)
      (hentry : t.entry? (here ++ [name]) = some entry) (hlink : ∀ target, entry ≠ .link target) :
      t.Settled (here ++ [name])

/-- Names lead from a place to another one, through so many links. -/
inductive Leads (t : FileTree) : Nat → List String → List String → List String → Prop
  | arrived {here : List String} : t.Leads 0 here [] here
  | stay {links : Nat} {here rest place : List String} {name : String}
      (hdirectory : t.entry? here = some .directory) (hname : name = "" ∨ name = ".")
      (h : t.Leads links here rest place) : t.Leads links here (name :: rest) place
  | up {links : Nat} {here rest place : List String}
      (hdirectory : t.entry? here = some .directory)
      (h : t.Leads links here.dropLast rest place) : t.Leads links here (".." :: rest) place
  | down {links : Nat} {here rest place : List String} {name : String} {entry : Entry}
      (hdirectory : t.entry? here = some .directory) (hname : IsName name)
      (hentry : t.entry? (here ++ [name]) = some entry) (hlink : ∀ target, entry ≠ .link target)
      (h : t.Leads links (here ++ [name]) rest place) : t.Leads links here (name :: rest) place
  | follow {links : Nat} {here rest place : List String} {name target : String}
      (hdirectory : t.entry? here = some .directory) (hname : IsName name)
      (hentry : t.entry? (here ++ [name]) = some (.link target))
      (h : t.Leads links (origin target here) (namesOf target ++ rest) place) :
      t.Leads (links + 1) here (name :: rest) place

section
variable {t : FileTree} {links : Nat} {here rest place : List String} {name : String}

theorem entry?_root (t : FileTree) : t.entry? [] = some .directory := if_pos rfl

theorem Settled.dropLast (h : t.Settled place) : t.Settled place.dropLast := by
  cases h with
  | root => exact .root
  | inside h => rwa [List.dropLast_concat]

theorem Settled.isName (h : t.Settled place) : ∀ name ∈ place, IsName name := by
  induction h with
  | root => exact List.forall_mem_nil _
  | inside _ _ hname _ _ ih =>
    intro name hmem
    rcases List.mem_append.1 hmem with hmem | hmem
    · exact ih name hmem
    · exact List.mem_singleton.1 hmem ▸ hname

/-- **Links are behind one on arrival**, and so are steps upwards. -/
theorem settled_of_leads (h : t.Leads links here rest place) :
    t.Settled here → t.Settled place := by
  induction h with
  | arrived => exact id
  | stay _ _ _ ih => exact ih
  | up _ _ ih => exact fun hhere => ih hhere.dropLast
  | down hdirectory hname hentry hlink _ ih =>
    exact fun hhere => ih (.inside hhere hdirectory hname hentry hlink)
  | follow _ _ _ _ ih =>
    intro hhere
    refine ih ?_
    unfold origin
    split
    · exact .root
    · exact hhere

/-! ## Walks -/

theorem not_creating (p : Prop) : ¬(Purpose.visit = .create ∧ p) := by
  rintro ⟨h, -⟩
  cases h

theorem walk_stay (hdirectory : t.entry? here = some .directory) (hname : name = "" ∨ name = ".") :
    t.walk .visit links here (name :: rest) = t.walk .visit links here rest := by
  rw [walk, if_neg (not_not_intro hdirectory), if_pos hname]

theorem walk_up (hdirectory : t.entry? here = some .directory) :
    t.walk .visit links here (".." :: rest) = t.walk .visit links here.dropLast rest := by
  rw [walk, if_neg (not_not_intro hdirectory), if_neg (by decide), if_pos rfl]

theorem walk_down {entry : Entry} (hdirectory : t.entry? here = some .directory)
    (hname : IsName name) (hentry : t.entry? (here ++ [name]) = some entry)
    (hlink : ∀ target, entry ≠ .link target) :
    t.walk .visit links here (name :: rest) = t.walk .visit links (here ++ [name]) rest := by
  rw [walk, if_neg (not_not_intro hdirectory), if_neg (not_or.2 ⟨hname.nonempty, hname.notHere⟩),
    if_neg hname.notUp, if_neg (not_creating _), if_neg (Nat.not_lt.2 hname.short), hentry]
  cases entry with
  | link target => exact absurd rfl (hlink target)
  | directory | file content => rfl

theorem walk_follow {target : String} (hdirectory : t.entry? here = some .directory)
    (hname : IsName name) (hentry : t.entry? (here ++ [name]) = some (.link target)) :
    t.walk .visit (links + 1) here (name :: rest) =
      t.walk .visit links (origin target here) (namesOf target ++ rest) := by
  rw [walk, if_neg (not_not_intro hdirectory), if_neg (not_or.2 ⟨hname.nonempty, hname.notHere⟩),
    if_neg hname.notUp, if_neg (not_creating _), if_neg (Nat.not_lt.2 hname.short), hentry]

theorem walk_of_leads {used : Nat} (h : t.Leads used here rest place) :
    ∀ {links : Nat}, used ≤ links → t.walk .visit links here rest = .ok place := by
  induction h with
  | arrived =>
    intro links _
    rw [walk]
  | stay hdirectory hname _ ih =>
    intro links hle
    rw [walk_stay hdirectory hname, ih hle]
  | up hdirectory _ ih =>
    intro links hle
    rw [walk_up hdirectory, ih hle]
  | down hdirectory hname hentry hlink _ ih =>
    intro links hle
    rw [walk_down hdirectory hname hentry hlink, ih hle]
  | follow hdirectory hname hentry _ ih =>
    intro links hle
    obtain ⟨links, rfl⟩ := Nat.exists_eq_add_of_le' (Nat.le_of_add_left_le hle)
    rw [walk_follow hdirectory hname hentry, ih (Nat.le_of_succ_le_succ hle)]

/-- The names of a path, and those of the links in it. -/
theorem isWhole_namesOf (path : String) : ∀ name ∈ namesOf path, '/' ∉ name.toList := by
  intro name hname
  exact @Text.notMem_of_mem_split (· == '/') '/' rfl path name hname

theorem leads_of_walk (hnames : ∀ name ∈ rest, '/' ∉ name.toList)
    (h : t.walk .visit links here rest = .ok place) :
    ∃ used ≤ links, t.Leads used here rest place := by
  fun_induction walk t .visit links here rest with
  | case1 links here =>
    cases h
    exact ⟨0, Nat.zero_le _, .arrived⟩
  | case3 links here name rest hdirectory hname ih =>
    obtain ⟨used, hle, hleads⟩ := ih (List.forall_mem_cons.1 hnames).2 h
    exact ⟨used, hle, .stay (Decidable.not_not.1 hdirectory) hname hleads⟩
  | case4 links here rest hdirectory _ ih =>
    obtain ⟨used, hle, hleads⟩ := ih (List.forall_mem_cons.1 hnames).2 h
    exact ⟨used, hle, .up (Decidable.not_not.1 hdirectory) hleads⟩
  | case10 here name rest hdirectory hstay hup _ hshort target hentry links ih =>
    obtain ⟨hwhole, hrest⟩ := List.forall_mem_cons.1 hnames
    obtain ⟨hne, hhere⟩ := not_or.1 hstay
    obtain ⟨used, hle, hleads⟩ :=
      ih (List.forall_mem_append.2 ⟨isWhole_namesOf target, hrest⟩) h
    exact ⟨used + 1, Nat.succ_le_succ hle, .follow (Decidable.not_not.1 hdirectory)
      ⟨hne, hhere, hup, hwhole, Nat.not_lt.1 hshort⟩ hentry hleads⟩
  | case11 links here name rest hdirectory hstay hup _ hshort entry hlink hentry ih =>
    obtain ⟨hwhole, hrest⟩ := List.forall_mem_cons.1 hnames
    obtain ⟨hne, hhere⟩ := not_or.1 hstay
    obtain ⟨used, hle, hleads⟩ := ih hrest h
    exact ⟨used, hle, .down (Decidable.not_not.1 hdirectory)
      ⟨hne, hhere, hup, hwhole, Nat.not_lt.1 hshort⟩ hentry (fun target => hlink target) hleads⟩
  | case7 _ _ _ _ _ _ _ _ _ _ hcreate => exact nomatch hcreate.1
  | case2 | case5 | case6 | case8 | case9 => cases h

/-- **Walks arrive** where names lead, unless there are too many links. -/
theorem walk_ok_iff (hnames : ∀ name ∈ rest, '/' ∉ name.toList) :
    t.walk .visit links here rest = .ok place ↔ ∃ used ≤ links, t.Leads used here rest place :=
  ⟨leads_of_walk hnames, fun ⟨_, hle, h⟩ => walk_of_leads h hle⟩

/-- From the root to a settled place it is a walk along its names. -/
theorem walk_settled (h : t.Settled place) :
    ∀ rest, t.walk .visit links [] (place ++ rest) = t.walk .visit links place rest := by
  induction h with
  | root => exact fun rest => rfl
  | inside _ hdirectory hname hentry hlink ih =>
    intro rest
    rw [List.append_assoc, List.singleton_append, ih, walk_down hdirectory hname hentry hlink]

end

/-! ## Paths -/

section
variable {t : FileTree} {links : Nat} {here place parts rest : List String}

theorem namesOf_append (s u : String) : namesOf (s ++ "/" ++ u) = namesOf s ++ namesOf u :=
  @Text.split_append (· == '/') '/' rfl s u

theorem namesOf_ne_nil (path : String) : namesOf path ≠ [] := Text.split_ne_nil path

theorem namesOf_intercalate (hne : parts ≠ []) (hparts : ∀ name ∈ parts, '/' ∉ name.toList) :
    namesOf ("/".intercalate parts) = parts := by
  refine @Text.split_intercalate (· == '/') '/' rfl parts hne fun name hname c hc => ?_
  exact beq_false_of_ne fun heq => hparts name hname (heq ▸ hc)

/-- Where names stand one behind the other, it is the same to walk along their path. -/
theorem walk_intercalate (hdirectory : t.entry? here = some .directory)
    (hparts : ∀ name ∈ parts, '/' ∉ name.toList) :
    t.walk .visit links here (namesOf ("/".intercalate parts) ++ rest) =
      t.walk .visit links here (parts ++ rest) := by
  cases parts with
  | nil => exact walk_stay hdirectory (.inl rfl)
  | cons name others => rw [namesOf_intercalate (List.cons_ne_nil _ _) hparts]

theorem isAbsolute_slash (s : String) : isAbsolute ("/" ++ s) = true := by
  simp [isAbsolute]

/-- A path with a separator in front starts at the root. -/
theorem resolve_slash (t : FileTree) (s : String) :
    t.resolve ("/" ++ s) = (t.walk .visit linkLimit [] (namesOf s)).map Place.mk := by
  have hne : "/" ++ s ≠ "" := by
    intro h
    have := isAbsolute_slash s
    rw [h] at this
    cases this
  have hnames : namesOf ("/" ++ s) = "" :: namesOf s := by
    have := namesOf_append "" s
    rwa [String.empty_append] at this
  rw [resolve, if_neg hne, origin, if_pos (isAbsolute_slash s), hnames,
    walk_stay t.entry?_root (.inl rfl)]

theorem resolve_joined (hplace : t.Settled place) (s : String) :
    t.resolve (Place.path ⟨place⟩ ++ "/" ++ s) =
      (t.walk .visit linkLimit place (namesOf s)).map Place.mk := by
  have hwhole : ∀ name ∈ place, '/' ∉ name.toList := fun name h => (hplace.isName name h).whole
  have hassoc : Place.path ⟨place⟩ ++ "/" ++ s = "/" ++ ("/".intercalate place ++ "/" ++ s) := by
    simp [Place.path, String.append_assoc]
  rw [hassoc, resolve_slash, namesOf_append, walk_intercalate t.entry?_root hwhole,
    walk_settled hplace]

/-- The path of a settled place leads to it. -/
theorem resolve_path (hplace : t.Settled place) : t.resolve (Place.path ⟨place⟩) = .ok ⟨place⟩ := by
  have hwhole : ∀ name ∈ place, '/' ∉ name.toList := fun name h => (hplace.isName name h).whole
  have hwalk := @walk_intercalate t linkLimit [] place [] t.entry?_root hwhole
  rw [List.append_nil, walk_settled hplace, walk] at hwalk
  rw [Place.path, resolve_slash, hwalk]
  rfl

end

end SymbolTables.FileTree
