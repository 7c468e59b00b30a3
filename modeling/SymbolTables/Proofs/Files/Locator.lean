import SymbolTables.Files.Locator
import SymbolTables.Proofs.Files.Paths

/-!
# Locators stay inside

A locator is put behind the resolved path of the source directory as text, and the whole is resolved
from the root. That leads where the names of the locator lead from the directory
(`resolve_relativePath`), so the answer depends on these names alone, and as it is compared with the
directory only after all links and steps upwards are gone, no locator leads to a file outside.

* `resolve_ok_iff`, `isFile_iff`: what the file tree says of paths.
* `run_resolve`: the answer to a locator, which leaves the tree as it is.
* `accepted_iff`: which places pass the checks below a directory.
* `answer_ok_iff`: when there is an answer.
* `file_of_locator`: where its file lies, and when two locators are answered alike.
-/
namespace SymbolTables

namespace FileTree

/-- Names lead from a place to another one, through no more links than one path may go through. -/
def LeadsTo (t : FileTree) (here names place : List String) : Prop :=
  ∃ links ≤ linkLimit, t.Leads links here names place

/-- A path leads to a place. -/
def PathLeadsTo (t : FileTree) (path : String) (place : List String) : Prop :=
  path ≠ "" ∧ t.LeadsTo (origin path t.working) (namesOf path) place

/-- There is a regular file, under a path that is not too long for the system. -/
def HoldsFile (t : FileTree) (place : List String) : Prop :=
  (∃ content, t.entry? place = some (.file content)) ∧
    (Place.path ⟨place⟩).utf8ByteSize ≤ pathLimit

/-- A regular file properly below a directory, with no link and no step upwards on the way. -/
structure LiesBelow (t : FileTree) (root place : List String) : Prop where
  settled : t.Settled place
  below : ∃ names, names ≠ [] ∧ place = root ++ names
  file : ∃ content, t.entry? place = some (.file content)

section
variable {t : FileTree} {links : Nat} {here names place : List String} {path : String}

theorem leadsTo_nil (h : t.LeadsTo here [] place) : place = here := by
  obtain ⟨_, _, h⟩ := h
  cases h
  rfl

/-- Names lead nowhere from anything else than a directory. -/
theorem LeadsTo.directory (h : t.LeadsTo here names place) (hne : names ≠ []) :
    t.entry? here = some .directory := by
  obtain ⟨_, _, h⟩ := h
  cases h with
  | arrived => exact absurd rfl hne
  | stay hdirectory | up hdirectory | down hdirectory | follow hdirectory => exact hdirectory

theorem LeadsTo.settled (h : t.LeadsTo here names place) (hhere : t.Settled here) :
    t.Settled place := by
  obtain ⟨_, _, h⟩ := h
  exact settled_of_leads h hhere

theorem PathLeadsTo.settled (h : t.PathLeadsTo path place) (hworking : t.Settled t.working) :
    t.Settled place := by
  refine h.2.settled ?_
  unfold origin
  split
  · exact .root
  · exact hworking

theorem resolve_ok_iff : t.resolve path = .ok ⟨place⟩ ↔ t.PathLeadsTo path place := by
  unfold resolve PathLeadsTo LeadsTo
  split
  · rename_i hempty
    simp [hempty]
  · rename_i hne
    rw [← walk_ok_iff (isWhole_namesOf path)]
    cases t.walk .visit linkLimit (origin path t.working) (namesOf path) <;>
      simp [Except.map, hne]

theorem isFile_iff (h : t.Settled place) :
    t.isFile (Place.path ⟨place⟩) = true ↔ t.HoldsFile place := by
  unfold isFile find HoldsFile
  rw [resolve_path h]
  by_cases hlong : pathLimit < (Place.path ⟨place⟩).utf8ByteSize
  · simp [hlong, bind, Except.bind]
  · simp only [hlong, if_false, bind, Except.bind, pure, Except.pure]
    cases hentry : t.entry? place with
    | none => simp
    | some entry => cases entry <;> simp [Nat.not_lt.1 hlong]

/-! ## Running on a tree -/

theorem run_bind {α β : Type} (x : StateM FileTree α) (f : α → StateM FileTree β) (t : FileTree) :
    (x >>= f).run t = (f (x.run t).1).run (x.run t).2 := rfl

theorem run_disk_resolve (t : FileTree) (path : String) :
    (disk.resolve path).run t = (t.resolve path, t) := rfl

theorem run_disk_isFile (t : FileTree) (path : String) :
    (disk.isFile path).run t = (t.isFile path, t) := rfl

end

end FileTree

namespace Locator

open FileTree (disk)

section
variable {t : FileTree} {source file : String} {root place : List String}

/-- The file that names stand for below a source directory. -/
def StandsFor (t : FileTree) (source : String) (names place : List String) : Prop :=
  ∃ root, t.PathLeadsTo source root ∧ t.LeadsTo root names place ∧ root <+: place ∧ root ≠ place ∧
    t.HoldsFile place

theorem isWhole_names (file : String) : ∀ name ∈ names file, '/' ∉ name.toList := by
  intro name hname
  exact @Text.notMem_of_mem_split separates '/' rfl file name (List.mem_filter.1 hname).1

/-- **The path of a locator** leads where its names lead from the directory. -/
theorem resolve_relativePath (hroot : t.Settled root) :
    t.resolve (Place.path ⟨root⟩ ++ "/" ++ relativePath file) = .ok ⟨place⟩ ↔
      t.entry? root = some .directory ∧ t.LeadsTo root (names file) place := by
  rw [FileTree.resolve_joined hroot]
  by_cases hdirectory : t.entry? root = some .directory
  · have hwalk := @FileTree.walk_intercalate t FileTree.linkLimit root (names file) [] hdirectory
      (isWhole_names file)
    rw [List.append_nil, List.append_nil] at hwalk
    rw [relativePath, hwalk, FileTree.LeadsTo, ← FileTree.walk_ok_iff (isWhole_names file)]
    cases t.walk .visit FileTree.linkLimit root (names file) <;> simp [Except.map, hdirectory]
  · obtain ⟨name, rest, hnames⟩ :=
      List.exists_cons_of_ne_nil (FileTree.namesOf_ne_nil (relativePath file))
    rw [hnames, FileTree.walk, if_pos hdirectory]
    simp [Except.map, hdirectory]

/-- The answer to a locator, in a tree that stays as it is. -/
theorem run_resolve (t : FileTree) (source file : String) :
    (resolve disk (some source) file).run t =
      (if Text.strip file = "" then .error (inaccessible (Text.strip file))
        else match t.resolve source with
        | .error _ => .error (inaccessible source)
        | .ok root =>
          match t.resolve (root.path ++ "/" ++ relativePath (Text.strip file)) with
          | .error _ => .error (inaccessible (Text.strip file))
          | .ok place =>
            if place.isWithin root && t.isFile place.path then .ok place.path
            else .error (inaccessible (Text.strip file)), t) := by
  unfold resolve
  dsimp only
  split
  · rfl
  rw [FileTree.run_bind, FileTree.run_disk_resolve]
  cases t.resolve source with
  | error fault => rfl
  | ok root =>
    dsimp only
    rw [FileTree.run_bind, FileTree.run_disk_resolve]
    cases t.resolve (root.path ++ "/" ++ relativePath (Text.strip file)) with
    | error fault => rfl
    | ok place =>
      dsimp only
      rw [FileTree.run_bind, FileTree.run_disk_isFile]
      dsimp only
      split <;> rfl

theorem kind_of_error {f : Failure} (h : ((resolve disk (some source) file).run t).1 = .error f) :
    f.kind = .connect := by
  rw [run_resolve] at h
  dsimp only at h
  split at h
  · cases h
    rfl
  split at h
  · cases h
    rfl
  split at h
  · cases h
    rfl
  split at h
  · cases h
  · cases h
    rfl

/-- What stands for a file below a directory has names. -/
theorem names_ne {names : List String} (hleads : t.LeadsTo root names place) (hne : root ≠ place) :
    names ≠ [] := by
  rintro rfl
  exact hne (FileTree.leadsTo_nil hleads).symm

/-- What becomes of a locator below a settled directory: the checks are passed exactly when its
names lead to a file properly inside. -/
theorem accepted_iff (hroot : t.Settled root) :
    (t.resolve (Place.path ⟨root⟩ ++ "/" ++ relativePath file) = .ok ⟨place⟩ ∧
      (Place.isWithin ⟨place⟩ ⟨root⟩ && t.isFile (Place.path ⟨place⟩)) = true) ↔
    t.LeadsTo root (names file) place ∧ root <+: place ∧ root ≠ place ∧ t.HoldsFile place := by
  have hinside : Place.isWithin ⟨place⟩ ⟨root⟩ = true ↔ root <+: place :=
    List.isPrefixOf_iff_prefix
  rw [resolve_relativePath hroot, Bool.and_eq_true, hinside]
  constructor
  · rintro ⟨⟨hdirectory, hleads⟩, hunder, hfile⟩
    have hholds := (FileTree.isFile_iff (hleads.settled hroot)).1 hfile
    refine ⟨hleads, hunder, ?_, hholds⟩
    -- the directory itself is no file
    rintro rfl
    obtain ⟨⟨content, hentry⟩, -⟩ := hholds
    rw [hdirectory] at hentry
    cases hentry
  · rintro ⟨hleads, hunder, hne, hholds⟩
    have hdirectory := hleads.directory (names_ne hleads hne)
    exact ⟨⟨hdirectory, hleads⟩, hunder, (FileTree.isFile_iff (hleads.settled hroot)).2 hholds⟩

/-- **When a locator is answered.** -/
theorem answer_ok_iff (hworking : t.Settled t.working) {path : String} :
    ((resolve disk (some source) file).run t).1 = .ok path ↔
      ∃ place, StandsFor t source (names (Text.strip file)) place ∧ path = Place.path ⟨place⟩ := by
  rw [run_resolve]
  constructor
  · intro h
    dsimp only at h
    split at h
    · cases h
    split at h
    · cases h
    rename_i root hsource
    split at h
    · cases h
    rename_i place hplace
    split at h
    · rename_i hchecked
      cases h
      have hpath := FileTree.resolve_ok_iff.1 hsource
      have hstands := (accepted_iff (hpath.settled hworking)).1 ⟨hplace, hchecked⟩
      exact ⟨place.names, ⟨root.names, hpath, hstands⟩, rfl⟩
    · cases h
  · rintro ⟨place, ⟨root, hpath, hstands⟩, rfl⟩
    obtain ⟨hplace, hchecked⟩ := (accepted_iff (hpath.settled hworking)).2 hstands
    have hempty : Text.strip file ≠ "" := fun h => names_ne hstands.1 hstands.2.2.1 (h ▸ rfl)
    simp only [hempty, if_false, FileTree.resolve_ok_iff.2 hpath, hplace, hchecked, if_true]

/-- A file that a locator stands for lies below the source directory. -/
theorem StandsFor.liesBelow (hworking : t.Settled t.working) {names : List String}
    (h : StandsFor t source names place) : ∃ root, t.resolve source = .ok ⟨root⟩ ∧
      t.resolve (Place.path ⟨place⟩) = .ok ⟨place⟩ ∧ t.LiesBelow root place := by
  obtain ⟨root, hpath, hleads, ⟨below, rfl⟩, hne, hfile, -⟩ := h
  have hsettled := hleads.settled (hpath.settled hworking)
  refine ⟨root, FileTree.resolve_ok_iff.2 hpath, FileTree.resolve_path hsettled,
    { settled := hsettled, below := ⟨below, ?_, rfl⟩, file := hfile }⟩
  rintro rfl
  exact hne (List.append_nil root).symm

/-- **No locator leads outside.** Resolving a locator below a source directory leaves the file tree
as it is. It gives a path exactly when the names of the locator, walked along from the resolved
directory through all links, arrive at a regular file properly below that directory; the path is
that of the file, with nothing left in it to resolve. All else is a connect failure. Locators with
the same names are answered alike. -/
theorem file_of_locator (hworking : t.Settled t.working) (source file : String) :
    ((resolve disk (some source) file).run t).2 = t ∧
    (∀ path, ((resolve disk (some source) file).run t).1 = .ok path ↔
      ∃ place, StandsFor t source (names (Text.strip file)) place ∧ path = Place.path ⟨place⟩) ∧
    (∀ path, ((resolve disk (some source) file).run t).1 = .ok path → ∃ root place,
      t.resolve source = .ok root ∧ t.resolve path = .ok place ∧ path = place.path ∧
        t.isFile path = true ∧ t.LiesBelow root.names place.names) ∧
    (∀ f, ((resolve disk (some source) file).run t).1 = .error f → f.kind = .connect) ∧
    ∀ other, names (Text.strip other) = names (Text.strip file) →
      ((resolve disk (some source) other).run t).1.toOption =
        ((resolve disk (some source) file).run t).1.toOption := by
  refine ⟨?_, fun path => answer_ok_iff hworking, fun path h => ?_, fun f => kind_of_error,
    fun other hnames => ?_⟩
  · rw [run_resolve]
  · obtain ⟨place, hstands, rfl⟩ := (answer_ok_iff hworking).1 h
    obtain ⟨root, hroot, hplace, hbelow⟩ := hstands.liesBelow hworking
    obtain ⟨-, -, -, -, -, hholds⟩ := hstands
    have hfile := (FileTree.isFile_iff hbelow.settled).2 hholds
    exact ⟨⟨root⟩, ⟨place⟩, hroot, hplace, rfl, hfile, hbelow⟩
  · have hsame : ∀ path, ((resolve disk (some source) other).run t).1 = .ok path ↔
        ((resolve disk (some source) file).run t).1 = .ok path := by
      intro path
      rw [answer_ok_iff hworking, answer_ok_iff hworking, hnames]
    cases hother : ((resolve disk (some source) other).run t).1 with
    | ok path => rw [(hsame path).1 hother]
    | error f =>
      cases hfile : ((resolve disk (some source) file).run t).1 with
      | ok path =>
        rw [(hsame path).2 hfile] at hother
        cases hother
      | error f => rfl

end

/-- A source directory that is itself behind a link. In it a link leads to a directory outside, and
a link in that one back to a file inside. -/
def sampleTree : FileTree where
  entries := [
    (["home"], .directory),
    (["home", "source"], .directory),
    (["home", "source", "x.sym"], .file []),
    (["home", "source", "models"], .link "../data/./new/"),
    (["home", "data"], .directory),
    (["home", "data", "new"], .directory),
    (["home", "data", "new", "back"], .link "/home/source/x.sym"),
    (["home", "src"], .link "source")]
  working := ["home"]

/-- The source directory is reached through one link. -/
theorem pathLeadsTo_sample : sampleTree.PathLeadsTo "src" ["home", "source"] := by
  have hlink : sampleTree.entry? (["home"] ++ ["src"]) = some (.link "source") := by decide
  have hsource : sampleTree.entry? (["home"] ++ ["source"]) = some .directory := by decide
  have hstart : FileTree.origin "src" sampleTree.working = ["home"] := by decide +kernel
  have hnames : FileTree.namesOf "src" = ["src"] := by decide +kernel
  have hhere : FileTree.origin "source" ["home"] = ["home"] := by decide +kernel
  have htarget : FileTree.namesOf "source" ++ [] = ["source"] := by decide +kernel
  refine ⟨by decide, 1, by decide, ?_⟩
  rw [hstart, hnames]
  refine .follow (by decide) (by decide +kernel) hlink ?_
  rw [hhere, htarget]
  exact .down (by decide) (by decide +kernel) hsource (fun _ h => nomatch h) .arrived

/-- The file is reached through two links more, first out of the directory and then back into it. -/
theorem leadsTo_sample :
    sampleTree.LeadsTo ["home", "source"] ["models", "back"] ["home", "source", "x.sym"] := by
  have hmodels : sampleTree.entry? (["home", "source"] ++ ["models"]) =
      some (.link "../data/./new/") := by decide
  have hdata : sampleTree.entry? (["home"] ++ ["data"]) = some .directory := by decide
  have hnew : sampleTree.entry? (["home", "data"] ++ ["new"]) = some .directory := by decide
  have hback : sampleTree.entry? (["home", "data", "new"] ++ ["back"]) =
      some (.link "/home/source/x.sym") := by decide
  have hhome : sampleTree.entry? ([] ++ ["home"]) = some .directory := by decide
  have hsource : sampleTree.entry? (["home"] ++ ["source"]) = some .directory := by decide
  have hfile : sampleTree.entry? (["home", "source"] ++ ["x.sym"]) = some (.file []) := by decide
  have hout : FileTree.origin "../data/./new/" ["home", "source"] = ["home", "source"] ∧
      FileTree.namesOf "../data/./new/" = ["..", "data", ".", "new", ""] := by decide +kernel
  have hin (here : List String) : FileTree.origin "/home/source/x.sym" here = [] :=
    if_pos (by decide +kernel)
  have hnames : FileTree.namesOf "/home/source/x.sym" ++ [] = ["", "home", "source", "x.sym"] := by
    decide +kernel
  refine ⟨2, by decide, .follow (by decide) (by decide +kernel) hmodels ?_⟩
  rw [hout.1, hout.2]
  refine .up (by decide) (.down (by decide) (by decide +kernel) hdata (fun _ h => nomatch h) ?_)
  refine .stay (by decide) (.inr rfl) ?_
  refine .down (by decide) (by decide +kernel) hnew (fun _ h => nomatch h) ?_
  refine .stay (by decide) (.inl rfl) (.follow (by decide) (by decide +kernel) hback ?_)
  rw [hin, hnames]
  refine .stay (by decide) (.inl rfl) ?_
  refine .down (by decide) (by decide +kernel) hhome (fun _ h => nomatch h) ?_
  refine .down (by decide) (by decide +kernel) hsource (fun _ h => nomatch h) ?_
  exact .down (by decide) (by decide +kernel) hfile (fun _ h => nomatch h) .arrived

theorem file_of_locator_sample : sampleTree.Settled sampleTree.working ∧
    ((resolve disk (some "src") " \\models/.//back\t").run sampleTree).1 =
      .ok "/home/source/x.sym" ∧
    ((resolve disk (some "src") "models\\./back\\").run sampleTree).1.toOption =
      some "/home/source/x.sym" := by
  have hhome : sampleTree.entry? ([] ++ ["home"]) = some .directory := by decide
  have hworking : sampleTree.Settled sampleTree.working :=
    .inside .root (by decide) (by decide +kernel) hhome (fun _ h => nomatch h)
  have hnames : names (Text.strip " \\models/.//back\t") = ["models", "back"] := by decide +kernel
  have hother : names (Text.strip "models\\./back\\") =
      names (Text.strip " \\models/.//back\t") := by decide +kernel
  obtain ⟨-, hok, -, -, halike⟩ := file_of_locator hworking "src" " \\models/.//back\t"
  have hfile : sampleTree.HoldsFile ["home", "source", "x.sym"] :=
    ⟨⟨[], by decide⟩, by decide +kernel⟩
  have hanswer := (hok "/home/source/x.sym").2 ⟨["home", "source", "x.sym"],
    ⟨["home", "source"], pathLeadsTo_sample, hnames ▸ leadsTo_sample, ⟨["x.sym"], rfl⟩, by decide,
      hfile⟩, by decide +kernel⟩
  refine ⟨hworking, hanswer, ?_⟩
  rw [halike _ hother, hanswer]
  rfl

end Locator
end SymbolTables
