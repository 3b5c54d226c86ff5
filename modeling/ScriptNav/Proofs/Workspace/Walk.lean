import Mathlib.Data.List.Basic
import ScriptNav.Proofs.Script.Dialect
import ScriptNav.Proofs.Workspace.Files

/-! The scripts under a directory, without the walk that finds them. On the way directories are left
out by their names, and then files by one test after another; all in all a file is listed just if the
names that lead to it, its path and its size fit one flat description. -/
namespace ScriptNav.Workspace

open Text

/-- Version control is used in a directory and answers with lines. -/
def Lists (disk : Disk) (git : Git) (root : Text) (lines : List Text) : Prop :=
  ∃ entries output, disk.stat (Path.append root ".git") = .ok (.directory entries) ∧
    git root = some ⟨0, output⟩ ∧ lines = output.split newline

/-- A path is a line of what version control lists, if it lists anything, and otherwise the list of
ignored files, if there is one, does not ignore it. -/
structure IsKept (disk : Disk) (git : Git) (root path : Text) : Prop where
  listed : ∀ lines, Lists disk git root lines → path ∈ lines
  not_ignored : (¬ ∃ lines, Lists disk git root lines) → ∀ content,
    disk.read (Path.append root ".gitignore") = .ok content →
      Ignore.isIgnored (Ignore.rules (content.split newline)) path = false

/-- What is asked of a file that names lead to, from a root. -/
structure IsWanted (w : Workspace) (disk : Disk) (git : Git) (languages : List Text) (root : Text)
    (names : List Text) (content : Text) (dialect : Script.Dialect) : Prop where
  named : dialect.Names (names.getLastD [])
  selected : languages = [] ∨ dialect.name ∈ languages
  visible : ∀ name ∈ names, name.head? ≠ some dot
  no_nodeModules : ("node_modules" : Text) ∉ names.dropLast
  kept : w.respectGitignore = true → IsKept disk git root (join [slash] names)
  not_excluded : Ignore.isIgnored w.exclude (join [slash] names) = false
  fits : 0 < w.maxFileSize → content.length ≤ w.maxFileSize

section Tests
variable {w : Workspace} {disk : Disk} {git : Git} {root path : Text}

theorem isHidden_eq_false_iff {name : Text} : isHidden name = false ↔ name.head? ≠ some dot := by
  rw [isHidden, beq_eq_false_iff_ne]

theorem isSkipped_eq_false_iff {name : Text} :
    isSkipped name = false ↔ name.head? ≠ some dot ∧ name ≠ "node_modules" := by
  rw [isSkipped, Bool.or_eq_false_iff, isHidden_eq_false_iff, beq_eq_false_iff_ne]

theorem fitsSize_iff {size : Nat} :
    w.fitsSize size = true ↔ (0 < w.maxFileSize → size ≤ w.maxFileSize) := by
  rw [fitsSize, Bool.or_eq_true, decide_eq_true_eq, decide_eq_true_eq]
  omega

theorem Lists.eq {lines lines' : List Text} (h : Lists disk git root lines)
    (h' : Lists disk git root lines') : lines = lines' := by
  obtain ⟨_, output, -, hanswer, rfl⟩ := h
  obtain ⟨_, output', -, hanswer', rfl⟩ := h'
  cases hanswer.symm.trans hanswer'
  rfl

theorem listing?_eq_some_iff {paths : List Text} :
    listing? disk git root = some paths ↔
      ∃ lines, Lists disk git root lines ∧ paths = lines.filter (!·.isEmpty) := by
  rw [listing?]
  constructor
  · intro h
    split at h
    · next entries answer hstat hanswer =>
      split at h
      · next hstatus =>
        obtain ⟨status, output⟩ := answer
        obtain rfl : status = 0 := eq_of_beq hstatus
        exact ⟨_, ⟨entries, output, hstat, hanswer, rfl⟩, (Option.some.inj h).symm⟩
      · cases h
    · cases h
  · rintro ⟨_, ⟨entries, output, hstat, hanswer, rfl⟩, rfl⟩
    rw [hstat, hanswer]
    rfl

theorem listing?_eq_none_iff :
    listing? disk git root = none ↔ ¬ ∃ lines, Lists disk git root lines := by
  rw [← not_iff_not, not_not, ← ne_eq, Option.ne_none_iff_exists']
  simp only [listing?_eq_some_iff]
  exact ⟨fun ⟨_, lines, h, _⟩ => ⟨lines, h⟩, fun ⟨lines, h⟩ => ⟨_, lines, h, rfl⟩⟩

theorem Lists.isKept_iff {lines : List Text} (h : Lists disk git root lines) :
    IsKept disk git root path ↔ path ∈ lines := by
  refine ⟨fun hkept => hkept.listed lines h, fun hmem => ⟨fun lines' h' => h'.eq h ▸ hmem, ?_⟩⟩
  intro hnone
  exact absurd ⟨lines, h⟩ hnone

/-- The source of ignored files that is in force keeps a path just if it is one to be kept. -/
theorem keeps_tracking_iff (hpath : path ≠ []) :
    (w.tracking disk git root).keeps path = true ↔
      (w.respectGitignore = true → IsKept disk git root path) := by
  rw [tracking]
  cases w.respectGitignore with
  | false => simp [Tracking.keeps]
  | true =>
    simp only [Bool.not_true, Bool.false_eq_true, if_false, true_imp_iff]
    cases hlisting : listing? disk git root with
    | some paths =>
      obtain ⟨lines, hlines, rfl⟩ := listing?_eq_some_iff.1 hlisting
      rw [hlines.isKept_iff, Tracking.keeps, List.contains_iff_mem, List.mem_filter]
      exact and_iff_left (by simpa using hpath)
    | none =>
      have hnone := listing?_eq_none_iff.1 hlisting
      cases hread : disk.read (Path.append root ".gitignore") with
      | error e =>
        refine iff_of_true rfl ⟨fun lines h => absurd ⟨lines, h⟩ hnone, fun _ content hcontent => ?_⟩
        cases hread.symm.trans hcontent
      | ok content =>
        rw [Tracking.keeps, Bool.not_eq_true']
        refine ⟨fun h => ⟨fun lines h' => absurd ⟨lines, h'⟩ hnone, fun _ content' h' => ?_⟩,
          fun h => h.not_ignored hnone content hread⟩
        cases hread.symm.trans h'
        exact h

end Tests

section Flat
variable {w : Workspace} {disk : Disk} {git : Git} {languages : List Text} {root : Text}
  {entries : List (Text × Entry)} {f : File}

theorem join_ne_nil {names : List Text} {d : Script.Dialect} (h : d.Names (names.getLastD [])) :
    join [slash] names ≠ [] := by
  obtain ⟨stem, ext, hname, hext⟩ := h
  intro hjoin
  have hsuffix : _ <:+ join [slash] names := getLastD_suffix_join names
  rw [hjoin, List.suffix_nil, hname, List.append_eq_nil_iff] at hsuffix
  rw [hsuffix.2] at hext
  cases hext

/-- The names on the way to a file are tested when directories are entered, and its own name when it
is found. -/
theorem visible_iff {names : List Text} (hne : names ≠ []) :
    ((∀ name ∈ names.dropLast, isSkipped name = false) ∧ isHidden (names.getLastD []) = false) ↔
      (∀ name ∈ names, name.head? ≠ some dot) ∧ ("node_modules" : Text) ∉ names.dropLast := by
  obtain ⟨front, last, rfl⟩ := (List.eq_nil_or_concat' names).resolve_left hne
  simp only [List.dropLast_concat, List.getLastD_concat, isSkipped_eq_false_iff,
    isHidden_eq_false_iff, List.mem_append, List.mem_singleton]
  grind

/-- A script is a file that names lead to, of which all that is asked holds. -/
theorem mem_scripts_directory_iff (hdisk : disk.root.IsTree)
    (hlstat : disk.lstat root = .ok (.directory entries)) :
    f ∈ w.scripts disk git languages root ↔
      ∃ names content, (Entry.directory entries).descend? names = some (.file content) ∧
        w.IsWanted disk git languages root names content f.dialect ∧
        f.root = root ∧ f.path = join [slash] names := by
  have hunder : under disk root = (filesOf [] (.directory entries)).map fun file =>
      (file.1.getLastD [], join [slash] file.1, file.2) := by
    rw [under, hlstat, filesOf]
  have htree := Disk.isTree_of_lstat hdisk hlstat
  have hne {names : List Text} {content : Text}
      (hfound : (Entry.directory entries).descend? names = some (.file content)) : names ≠ [] := by
    rintro rfl
    cases hfound
  rw [mem_scripts_iff, hunder]
  constructor
  · rintro ⟨_, hfile, hscript⟩
    obtain ⟨_, hmem, rfl⟩ := List.mem_map.1 hfile
    obtain ⟨names, content, rfl, hfound, hentered⟩ := (mem_filesOf_iff htree).1 hmem
    obtain ⟨⟨hroot, hpath, hdialect⟩, hhidden, hselected, hkept, hexclude, hfits⟩ :=
      script?_eq_some_iff.1 hscript
    have hnamed := Script.Dialect.ofExtension?_extension_iff.1 hdialect
    obtain ⟨hvisible, hnone⟩ := (visible_iff (hne hfound)).1 ⟨hentered, hhidden⟩
    exact ⟨names, content, hfound, ⟨hnamed, hselected, hvisible, hnone,
      (keeps_tracking_iff (join_ne_nil hnamed)).1 hkept, hexclude, fitsSize_iff.1 hfits⟩, hroot,
      hpath⟩
  · rintro ⟨names, content, hfound, h, hroot, hpath⟩
    obtain ⟨hentered, hhidden⟩ := (visible_iff (hne hfound)).2 ⟨h.visible, h.no_nodeModules⟩
    refine ⟨_, List.mem_map_of_mem ((mem_filesOf_iff htree).2
      ⟨names, content, rfl, hfound, hentered⟩), script?_eq_some_iff.2 ?_⟩
    exact ⟨⟨hroot, hpath, Script.Dialect.ofExtension?_extension_iff.2 h.named⟩, hhidden,
      h.selected, (keeps_tracking_iff (join_ne_nil h.named)).2 h.kept, h.not_excluded,
      fitsSize_iff.2 h.fits⟩

/-- Scripts are listed in the order of their paths, each once. -/
theorem pairwise_path_scripts (hdisk : disk.root.IsTree) (root : Text) :
    (w.scripts disk git languages root).Pairwise fun f g => f.path < g.path := by
  have hne : (w.scripts disk git languages root).Pairwise fun f g => f.path ≠ g.path :=
    List.pairwise_map.1 (nodup_path_scripts hdisk root)
  exact pairwise_path_le_scripts.imp₂ (fun _ _ => Std.lt_of_le_of_ne) hne

/-- The path of a file follows that of its root behind a slash. -/
theorem File.StandsAt.absolute_eq_append {front more : List Text} (h : f.StandsAt front more)
    (hne : more ≠ []) :
    f.absolute = (if f.root = [slash] then [] else f.root) ++ slash :: f.path := by
  obtain ⟨name, more, rfl⟩ := List.exists_cons_of_ne_nil hne
  rw [h.absolute_eq, h.path_eq, h.root_eq, Path.Parts.toText_relative, Path.Parts.toText,
    Path.Parts.toText, if_pos rfl, if_pos rfl]
  by_cases hfront : front = []
  · subst hfront
    rfl
  · obtain ⟨b, rest, hjoin, -⟩ := Path.join_eq_cons_of_names hfront h.isPlain_front
    rw [if_neg (by simp [hjoin]), join_append hfront hne]
    rfl

/-- The scripts under a directory are the files of the tree of which all that is asked holds, in the
strict order of their paths; and their paths on the disk are those behind that of the root. -/
theorem scripts_eq_flatFilter (hdisk : disk.root.IsTree) (hroot : Path.IsAbsolute root)
    (hlstat : disk.lstat root = .ok (.directory entries)) :
    (∀ f, f ∈ w.scripts disk git languages root ↔
      ∃ names content, (Entry.directory entries).descend? names = some (.file content) ∧
        w.IsWanted disk git languages root names content f.dialect ∧
        f.root = root ∧ f.path = join [slash] names) ∧
    (w.scripts disk git languages root).Pairwise (fun f g => f.path < g.path) ∧
    ∀ f ∈ w.scripts disk git languages root,
      f.absolute = (if root = [slash] then [] else root) ++ slash :: f.path := by
  refine ⟨fun f => mem_scripts_directory_iff hdisk hlstat, pairwise_path_scripts hdisk root,
    fun f hf => ?_⟩
  obtain ⟨names, content, hfound, -, hroot', hpath⟩ := (mem_scripts_directory_iff hdisk hlstat).1 hf
  have hplain := (Disk.isTree_of_lstat hdisk hlstat).isName_of_descend? hfound
  cases names with
  | nil => cases hfound
  | cons name names =>
    obtain ⟨⟨_, front⟩, rfl, hfront, rfl⟩ := hroot
    have hstands : f.StandsAt front (name :: names) := ⟨hfront, hplain, hroot', hpath⟩
    rw [hstands.absolute_eq_append (List.cons_ne_nil _ _), hroot']

end Flat

/-- A tree with a script in a directory, and others that are hidden, ignored, linked or in a directory
that is not entered. -/
def mixedTree : List (Text × Entry) :=
  [(".gitignore", .file "old/\n"), ("lib", .directory [("A.GSC", .file "f();\n")]),
    ("old", .directory [("b.gsc", .file [])]), (".c", .directory [("c.gsc", .file [])]),
    ("node_modules", .directory [("d.gsc", .file [])]), ("e.gsc", .link "lib/A.GSC")]

def mixedDisk : Disk := ⟨.directory [("w", .directory mixedTree)], "/"⟩

theorem isTree_mixedDisk : mixedDisk.root.IsTree := by
  have hfolder (name content : Text) (h : Path.IsName name) :
      (Entry.directory [(name, .file content)]).IsTree :=
    .directory (List.forall_mem_singleton.2 h) (List.nodup_singleton _)
      (List.forall_mem_singleton.2 (.file content))
  refine .directory (by decide) (by decide) (List.forall_mem_singleton.2 ?_)
  refine .directory (by decide) (by decide) ?_
  simp only [mixedTree, List.forall_mem_cons]
  exact ⟨.file _, hfolder _ _ (by decide), hfolder _ _ (by decide), hfolder _ _ (by decide),
    hfolder _ _ (by decide), .link _, List.forall_mem_nil _⟩

/-- The script in the directory is listed. -/
theorem scripts_eq_flatFilter_mixed :
    let w : Workspace :=
      { roots := ["/w"], exclude := Ignore.rules ["*.csc"], maxFileSize := 5,
        respectGitignore := true }
    mixedDisk.root.IsTree ∧ Path.IsAbsolute "/w" ∧
    mixedDisk.lstat "/w" = .ok (.directory mixedTree) ∧
    ⟨"/w", "lib/A.GSC", .server⟩ ∈ w.scripts mixedDisk Git.absent ["gsc"] "/w" := by
  intro w
  have hroot : Path.IsAbsolute "/w" := by decide
  have hlstat : mixedDisk.lstat "/w" = .ok (.directory mixedTree) := rfl
  have hread : mixedDisk.read (Path.append "/w" ".gitignore") = .ok "old/\n" := rfl
  obtain ⟨hmem, -, -⟩ := scripts_eq_flatFilter (w := w) isTree_mixedDisk hroot hlstat
  refine ⟨isTree_mixedDisk, hroot, hlstat, (hmem _).2 ⟨["lib", "A.GSC"], "f();\n", ?_, ?_, rfl, ?_⟩⟩
  · rfl
  · have hignored :
        Ignore.isIgnored (Ignore.rules (Text.split newline "old/\n")) "lib/A.GSC" = false := by
      decide +kernel
    refine ⟨⟨"A", ".GSC", by decide, by decide⟩, by decide, by decide, by decide, fun _ => ?_,
      by decide +kernel, by decide⟩
    refine ⟨?_, ?_⟩
    · rintro lines ⟨_, _, _, hanswer, _⟩
      cases hanswer
    · intro _ content hcontent
      cases hread.symm.trans hcontent
      exact hignored
  · decide

end ScriptNav.Workspace
