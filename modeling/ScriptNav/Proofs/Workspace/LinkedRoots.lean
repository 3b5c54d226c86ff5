import Mathlib.Tactic.SplitIfs
import ScriptNav.Proofs.Workspace.Files

/-! Roots that are given through links. A root is looked at without following its last name, so that a
path through links names the same scripts as the directory that it leads to, as long as its last name
is not a link itself. A root that is a link has no scripts at all, whatever it leads to. -/
namespace ScriptNav

open Text

namespace Disk
variable {root e : Entry} {last : Bool}

/-- Names lead to the same place if a last link is not followed, or end at that link. -/
def Unfollowed (follow follow' : List Text → List Text → Except Fault (List Text × Option Entry)) :
    Prop :=
  ∀ {place todo place' : List Text} {e : Entry}, follow place todo = .ok (place', some e) →
    follow' place todo = .ok (place', some e) ∨
      ∃ place'' target, follow' place todo = .ok (place'', some (.link target))

/-- That the last link is not followed matters to the names behind a link just as it does to those in
front of it. -/
theorem Unfollowed.followNames
    {more more' : List Text → List Text → Except Fault (List Text × Option Entry)}
    (hmore : Unfollowed more more') :
    Unfollowed (followNames root last more) (followNames root false more') := by
  intro place todo place' e h
  fun_induction Disk.followNames root last more place todo with
  | case1 =>
    rw [Disk.followNames]
    exact .inl h
  | case2 place name rest hskip ih =>
    rw [Disk.followNames, if_pos hskip]
    exact ih h
  | case3 place name rest hskip hup ih =>
    rw [Disk.followNames, if_neg hskip, if_pos hup]
    exact ih h
  | case4 | case5 | case6 => cases h
  | case7 place name rest hskip hup entries hentry ih =>
    rw [Disk.followNames, if_neg hskip, if_neg hup, hentry]
    exact ih h
  | case8 place name rest hskip hup content hentry hrest =>
    rw [Disk.followNames, if_neg hskip, if_neg hup, hentry]
    exact .inl ((if_pos hrest).trans h)
  | case9 => cases h
  | case10 place name rest hskip hup target hentry hlast =>
    have hrest := (Bool.and_eq_true_iff.1 hlast).1
    rw [Disk.followNames, if_neg hskip, if_neg hup, hentry]
    exact .inr ⟨_, target, if_pos (by rw [hrest]; rfl)⟩
  | case11 place name rest hskip hup target hentry hlast =>
    rw [Disk.followNames, if_neg hskip, if_neg hup, hentry]
    dsimp only
    by_cases hrest : rest.isEmpty = true
    · exact .inr ⟨_, target, if_pos (by rw [hrest]; rfl)⟩
    · rw [if_neg (by simpa using hrest)]
      exact hmore h

/-- Names that lead somewhere lead to the same place if a last link is not followed, or they end at
that link. -/
theorem follow_unfollowed (root : Entry) (last : Bool) (links : Nat) :
    Unfollowed (follow root last links) (follow root false links) := by
  induction links with
  | zero => exact Unfollowed.followNames fun h => by cases h
  | succ links ih => exact ih.followNames

theorem lookup_unfollowed {disk : Disk} {path : Text} (h : disk.lookup last path = .ok e) :
    disk.lookup false path = .ok e ∨ ∃ target, disk.lookup false path = .ok (.link target) := by
  obtain ⟨place, hlocate⟩ := lookup_eq_ok_iff_locate.1 h
  simp only [lookup_eq_ok_iff_locate, locate] at hlocate ⊢
  split_ifs at hlocate ⊢ with hzero hempty hrooted
  all_goals
    obtain hsame | ⟨place', target, hlink⟩ := follow_unfollowed _ _ _ hlocate
    · exact .inl ⟨place, hsame⟩
    · exact .inr ⟨target, place', hlink⟩

/-- What a path leads to stands at it, or a link does. -/
theorem lstat_of_stat {disk : Disk} {path : Text} (h : disk.stat path = .ok e) :
    disk.lstat path = .ok e ∨ ∃ target, disk.lstat path = .ok (.link target) := by
  simp only [lstat_eq_ok_iff]
  exact lookup_unfollowed (stat_eq_ok_iff.1 h)

end Disk

namespace Workspace
variable {w : Workspace} {disk : Disk} {git : Git} {languages : List Text} {link root : Text}

/-- A workspace with one root alone. -/
def rootedAt (w : Workspace) (root : Text) : Workspace := { w with roots := [root] }

/-- A script by what it is called from its root. -/
def File.fromRoot (f : File) : Text × Script.Dialect := (f.path, f.dialect)

theorem files_rootedAt (w : Workspace) (disk : Disk) (git : Git) (languages : List Text)
    (root : Text) : (w.rootedAt root).files disk git languages = w.scripts disk git languages root :=
  List.flatMap_singleton _ _

/-- A root that is a link has no scripts. -/
theorem scripts_of_link {target : Text} (h : disk.lstat link = .ok (.link target)) :
    w.scripts disk git languages link = [] := by
  have hunder : under disk link = [] := by rw [under, h]
  rw [scripts, hunder, List.filterMap_nil, List.mergeSort_nil]

/-- Directories with the same entries have the same scripts, by what they are called from there. -/
theorem scripts_eq_map {entries : List (Text × Entry)}
    (hlink : disk.lstat link = .ok (.directory entries))
    (hroot : disk.lstat root = .ok (.directory entries))
    (htracking : w.tracking disk git link = w.tracking disk git root) :
    w.scripts disk git languages link =
      (w.scripts disk git languages root).map fun f => { f with root := link } := by
  have hunder : under disk link = under disk root := by rw [under, under, hlink, hroot]
  have hscript (file : Text × Text × Nat) :
      w.script? languages (w.tracking disk git root) link file =
        (w.script? languages (w.tracking disk git root) root file).map
          fun f => { f with root := link } := by
    simp only [script?]
    split
    · rfl
    · split_ifs <;> rfl
  rw [scripts, scripts, hunder, htracking,
    List.map_mergeSort (s := fun a b : File => decide (a.path ≤ b.path)) (fun _ _ _ _ => rfl),
    List.map_filterMap]
  congr 1
  exact List.filterMap_congr fun file _ => hscript file

theorem map_fromRoot_scripts {entries : List (Text × Entry)}
    (hlink : disk.lstat link = .ok (.directory entries))
    (hroot : disk.lstat root = .ok (.directory entries))
    (htracking : w.tracking disk git link = w.tracking disk git root) :
    (w.scripts disk git languages link).map File.fromRoot =
      (w.scripts disk git languages root).map File.fromRoot := by
  rw [scripts_eq_map hlink hroot htracking, List.map_map]
  rfl

/-- Scripts of some dialects are among those of all. -/
theorem scripts_eq_nil (h : w.scripts disk git [] root = []) :
    w.scripts disk git languages root = [] := by
  refine List.eq_nil_iff_forall_not_mem.2 fun f hf => ?_
  obtain ⟨file, hfile, hscript⟩ := mem_scripts_iff.1 hf
  obtain ⟨hnamed, hhidden, -, hrest⟩ := script?_eq_some_iff.1 hscript
  have hall : f ∈ w.scripts disk git [] root :=
    mem_scripts_iff.2 ⟨file, hfile, script?_eq_some_iff.2 ⟨hnamed, hhidden, .inl rfl, hrest⟩⟩
  rw [h] at hall
  cases hall

section Found
variable (hdisk : disk.root.IsTree) (hroot : Path.IsAbsolute root)
include hdisk hroot

theorem relative_absolute {f : File} (hf : f ∈ w.scripts disk git languages root) :
    Path.relative root f.absolute = f.path := by
  obtain ⟨more, hstands, -⟩ := standsAt_of_mem_scripts hdisk hroot hf
  obtain ⟨⟨_, front⟩, rfl, hfront, rfl⟩ := hroot
  rw [hfront.parts_toText] at hstands
  rw [hstands.absolute_eq, hstands.path_eq, Path.relative_toText hfront hstands.isPlain_more]

/-- What is found is told by the paths of the scripts from their root. -/
theorem map_relative_find (pattern : Text) :
    ((w.rootedAt root).find disk git pattern).map (Path.relative root) =
      let pattern := (after? [slash] pattern).getD pattern
      if pattern.isEmpty then []
      else (((w.scripts disk git [] root).map File.fromRoot).filter fun f =>
        Script.namesFile f.1 pattern).map Prod.fst := by
  simp only [find, files_rootedAt]
  split_ifs
  · rfl
  · rw [List.map_map, List.filter_map, List.map_map]
    refine List.map_congr_left fun f hf => ?_
    exact relative_absolute hdisk hroot (List.mem_filter.1 hf).1

end Found

/-- Where the same files are ignored, a root through links has the same scripts as the directory that
it leads to, and the same ones are found there, just if its last name is not a link or the directory
has none: a root that is a link has no scripts and finds none. -/
theorem files_linkedRoot_iff (hdisk : disk.root.IsTree) (hlink : Path.IsAbsolute link)
    (hroot : Path.IsAbsolute root) {entries : List (Text × Entry)}
    (hstat : disk.stat link = .ok (.directory entries))
    (hlstat : disk.lstat root = .ok (.directory entries))
    (htracking : w.tracking disk git link = w.tracking disk git root) :
    ((∃ target, disk.lstat link = .ok (.link target)) →
      (∀ languages, (w.rootedAt link).files disk git languages = []) ∧
      ∀ pattern, (w.rootedAt link).find disk git pattern = []) ∧
    (((∀ languages, ((w.rootedAt link).files disk git languages).map File.fromRoot =
          ((w.rootedAt root).files disk git languages).map File.fromRoot) ∧
        ∀ pattern, ((w.rootedAt link).find disk git pattern).map (Path.relative link) =
          ((w.rootedAt root).find disk git pattern).map (Path.relative root)) ↔
      disk.lstat link = .ok (.directory entries) ∨ (w.rootedAt root).files disk git [] = []) := by
  have hcases := Disk.lstat_of_stat hstat
  refine ⟨?_, ?_, ?_⟩
  · rintro ⟨target, h⟩
    refine ⟨fun languages => ?_, fun pattern => ?_⟩
    · rw [files_rootedAt, scripts_of_link h]
    · simp [find, files_rootedAt, scripts_of_link h]
  · rintro ⟨hfiles, -⟩
    obtain hsame | ⟨target, h⟩ := hcases
    · exact .inl hsame
    · have hnone := hfiles []
      rw [files_rootedAt, scripts_of_link h] at hnone
      exact .inr (List.map_eq_nil_iff.1 hnone.symm)
  · intro h
    have hscripts (languages : List Text) : (w.scripts disk git languages link).map File.fromRoot =
        (w.scripts disk git languages root).map File.fromRoot := by
      obtain hsame | ⟨target, hlink⟩ := hcases
      · exact map_fromRoot_scripts hsame hlstat htracking
      · have hnone : (w.rootedAt root).files disk git [] = [] := by
          refine h.resolve_left fun hsame => ?_
          cases hsame.symm.trans hlink
        rw [files_rootedAt] at hnone
        rw [scripts_of_link hlink, scripts_eq_nil hnone]
    refine ⟨fun languages => ?_, fun pattern => ?_⟩
    · rw [files_rootedAt, files_rootedAt, hscripts]
    · rw [map_relative_find hdisk hlink, map_relative_find hdisk hroot, hscripts]

/-- A directory with a script in it, and a link to the directory. -/
def linkedDisk : Disk :=
  ⟨.directory [("real", .directory [("sub", .directory [("a.gsc", .file [])])]),
    ("alias", .link "real")], "/"⟩

theorem isTree_linkedDisk : linkedDisk.root.IsTree := by
  have hsub : (Entry.directory [("a.gsc", .file [])]).IsTree :=
    .directory (by decide) (by decide) (List.forall_mem_singleton.2 (.file _))
  have hreal : (Entry.directory [("sub", .directory [("a.gsc", .file [])])]).IsTree :=
    .directory (by decide) (by decide) (List.forall_mem_singleton.2 hsub)
  refine .directory (by decide) (by decide) (List.forall_mem_cons.2 ⟨hreal, ?_⟩)
  exact List.forall_mem_singleton.2 (.link _)

/-- A link on the way to the root does no harm. -/
theorem files_linkedRoot_iff_onTheWay :
    let w : Workspace := { roots := [] }
    linkedDisk.root.IsTree ∧ Path.IsAbsolute "/alias/sub" ∧ Path.IsAbsolute "/real/sub" ∧
    linkedDisk.stat "/alias/sub" = .ok (.directory [("a.gsc", .file [])]) ∧
    linkedDisk.lstat "/real/sub" = .ok (.directory [("a.gsc", .file [])]) ∧
    w.tracking linkedDisk Git.absent "/alias/sub" = w.tracking linkedDisk Git.absent "/real/sub" ∧
    ((w.rootedAt "/alias/sub").files linkedDisk Git.absent []).map File.fromRoot =
      ((w.rootedAt "/real/sub").files linkedDisk Git.absent []).map File.fromRoot := by
  intro w
  have hlink : Path.IsAbsolute "/alias/sub" := by decide
  have hroot : Path.IsAbsolute "/real/sub" := by decide
  have hstat : linkedDisk.stat "/alias/sub" = .ok (.directory [("a.gsc", .file [])]) := rfl
  have hlstat : linkedDisk.lstat "/real/sub" = .ok (.directory [("a.gsc", .file [])]) := rfl
  have hplain : linkedDisk.lstat "/alias/sub" = .ok (.directory [("a.gsc", .file [])]) := rfl
  have htracking : w.tracking linkedDisk Git.absent "/alias/sub" =
      w.tracking linkedDisk Git.absent "/real/sub" := rfl
  obtain ⟨-, hsame⟩ := files_linkedRoot_iff isTree_linkedDisk hlink hroot hstat hlstat htracking
  exact ⟨isTree_linkedDisk, hlink, hroot, hstat, hlstat, htracking, (hsame.2 (.inl hplain)).1 []⟩

/-- The link is a directory to whoever follows it, and has no scripts as a root. -/
theorem files_linkedRoot_empty :
    let w : Workspace := { roots := [] }
    let real : List (Text × Entry) := [("sub", .directory [("a.gsc", .file [])])]
    linkedDisk.stat "/alias" = .ok (.directory real) ∧
    linkedDisk.lstat "/real" = .ok (.directory real) ∧
    w.tracking linkedDisk Git.absent "/alias" = w.tracking linkedDisk Git.absent "/real" ∧
    (w.rootedAt "/alias").files linkedDisk Git.absent [] = [] ∧
    ⟨"/real", "sub/a.gsc", .server⟩ ∈ (w.rootedAt "/real").files linkedDisk Git.absent [] := by
  intro w real
  have hlink : linkedDisk.lstat "/alias" = .ok (.link "real") := rfl
  have hunder : under linkedDisk "/real" = [(ofString "a.gsc", ofString "sub/a.gsc", 0)] := rfl
  refine ⟨rfl, rfl, rfl, by rw [files_rootedAt, scripts_of_link hlink], ?_⟩
  rw [files_rootedAt, mem_scripts_iff, hunder]
  exact ⟨_, List.mem_singleton_self _, by decide +kernel⟩

end Workspace
end ScriptNav
