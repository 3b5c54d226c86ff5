import Mathlib.Data.List.Nodup
import ScriptNav.Proofs.Disk
import ScriptNav.Workspace.Basic

/-! The files of a workspace. Each stands under one root, by names that lead to it there, so that
files of separate roots never share a path. -/
namespace ScriptNav

open Text

namespace Entry

/-- What a disk can hold: in each directory, names that can stand there and that are all
different. -/
inductive IsTree : Entry → Prop
  | file (content : Text) : IsTree (.file content)
  | link (target : Text) : IsTree (.link target)
  | directory {entries : List (Text × Entry)} (names : ∀ e ∈ entries, Path.IsName e.1)
      (nodup : (entries.map Prod.fst).Nodup) (trees : ∀ e ∈ entries, IsTree e.2) :
      IsTree (.directory entries)

theorem lookup_of_mem {entries : List (Text × Entry)} (hnodup : (entries.map Prod.fst).Nodup)
    {item : Text × Entry} (h : item ∈ entries) : entries.lookup item.1 = some item.2 := by
  cases hlookup : entries.lookup item.1 with
  | none => simpa using List.lookup_eq_none_iff.1 hlookup item h
  | some found =>
    obtain ⟨front, back, hsplit, -⟩ := List.lookup_eq_some_iff.1 hlookup
    have hfound : (item.1, found) ∈ entries := hsplit ▸ List.mem_append_right _ List.mem_cons_self
    rw [← List.inj_on_of_nodup_map hnodup hfound h rfl]

theorem IsTree.child? {e child : Entry} {name : Text} (h : e.IsTree)
    (hchild : e.child? name = some child) : child.IsTree := by
  cases h with
  | file _ | link _ => cases hchild
  | directory _ _ trees =>
    obtain ⟨front, back, hsplit, -⟩ := List.lookup_eq_some_iff.1 hchild
    exact trees (name, child) (hsplit ▸ List.mem_append_right _ List.mem_cons_self)

theorem IsTree.descend? {e found : Entry} {names : List Text} (h : e.IsTree)
    (hfound : e.descend? names = some found) : found.IsTree := by
  induction names generalizing e with
  | nil => exact Option.some.inj hfound ▸ h
  | cons name names ih =>
    obtain ⟨child, hchild, hrest⟩ := Option.bind_eq_some_iff.1 hfound
    exact ih (h.child? hchild) hrest

theorem IsTree.isName_of_descend? {e found : Entry} {names : List Text} (h : e.IsTree)
    (hfound : e.descend? names = some found) : ∀ name ∈ names, Path.IsName name := by
  induction names generalizing e with
  | nil => exact nofun
  | cons name names ih =>
    obtain ⟨entries, child, rfl, hmem, -, hrest⟩ := exists_of_descend?_cons hfound
    cases h with
    | directory hnames _ htrees =>
      exact List.forall_mem_cons.2 ⟨hnames _ hmem, ih (htrees _ hmem) hrest⟩

end Entry

namespace Disk

/-- What names lead to is part of the tree, if that holds for what they lead to behind links. -/
theorem isTree_of_followNames {root found : Entry} (h : root.IsTree) {last : Bool}
    {more : List Text → List Text → Except Fault (List Text × Option Entry)}
    {place place' todo : List Text}
    (hmore : ∀ place todo, more place todo = .ok (place', some found) → found.IsTree)
    (hfollow : followNames root last more place todo = .ok (place', some found)) :
    found.IsTree := by
  fun_induction followNames root last more place todo with
  | case1 => exact h.descend? (congrArg Prod.snd (Except.ok.inj hfollow))
  | case2 _ _ _ _ ih | case3 _ _ _ _ _ ih | case7 _ _ _ _ _ _ _ ih => exact ih hfollow
  | case11 => exact hmore _ _ hfollow
  | case8 _ _ _ _ _ content hentry =>
    cases hfollow
    exact .file content
  | case10 _ _ _ _ _ target hentry =>
    cases hfollow
    exact .link target
  | case4 | case5 | case6 | case9 => cases hfollow

/-- Whatever a path leads to is part of the tree. -/
theorem isTree_of_follow {root found : Entry} (h : root.IsTree) {last : Bool} {links : Nat}
    {place place' todo : List Text}
    (hfollow : follow root last links place todo = .ok (place', some found)) : found.IsTree := by
  induction links generalizing place todo with
  | zero => exact isTree_of_followNames h (fun _ _ h => by cases h) hfollow
  | succ links ih => exact isTree_of_followNames h (fun _ _ => ih) hfollow

theorem isTree_of_lookup {disk : Disk} (h : disk.root.IsTree) {last : Bool} {path : Text}
    {found : Entry} (hfound : disk.lookup last path = .ok found) : found.IsTree := by
  obtain ⟨place, hlocate⟩ := lookup_eq_ok_iff_locate.1 hfound
  rw [locate] at hlocate
  split at hlocate
  · cases hlocate
  · split at hlocate
    · cases hlocate
    · exact isTree_of_follow h hlocate

theorem isTree_of_lstat {disk : Disk} (h : disk.root.IsTree) {path : Text} {found : Entry}
    (hfound : disk.lstat path = .ok found) : found.IsTree :=
  isTree_of_lookup h (lstat_eq_ok_iff.1 hfound)

end Disk

namespace Workspace

section Walk

theorem mem_filesIn_iff {names : List Text} {entries : List (Text × Entry)} {f : List Text × Nat} :
    f ∈ filesIn names entries ↔ ∃ e ∈ entries, (e.2.isDirectory && isSkipped e.1) = false ∧
      f ∈ filesOf (names ++ [e.1]) e.2 := by
  induction entries with
  | nil => simp [filesIn]
  | cons e entries ih =>
    rw [filesIn, List.mem_append, ih, List.exists_mem_cons_iff]
    refine or_congr_left ?_
    cases e.2.isDirectory && isSkipped e.1 <;> simp

/-- The files that are listed in a tree are those that names lead to, through directories that are
entered. -/
theorem mem_filesOf_iff {e : Entry} (h : e.IsTree) {front : List Text} {f : List Text × Nat} :
    f ∈ filesOf front e ↔ ∃ more content, f = (front ++ more, content.length) ∧
      e.descend? more = some (.file content) ∧ ∀ name ∈ more.dropLast, isSkipped name = false := by
  induction h generalizing front f with
  | file content =>
    rw [filesOf, List.mem_singleton]
    constructor
    · rintro rfl
      exact ⟨[], content, by rw [List.append_nil], rfl, List.forall_mem_nil _⟩
    · rintro ⟨_ | ⟨name, more⟩, content, rfl, hfound, -⟩
      · cases hfound
        rw [List.append_nil]
      · cases hfound
  | link target =>
    rw [filesOf]
    refine iff_of_false List.not_mem_nil ?_
    rintro ⟨_ | ⟨name, more⟩, content, -, hfound, -⟩ <;> cases hfound
  | @directory entries hnames hnodup htrees ih =>
    have hdescend (item : Text × Entry) (hitem : item ∈ entries) (more : List Text) :
        (Entry.directory entries).descend? (item.1 :: more) = item.2.descend? more := by
      rw [Entry.descend?, Entry.child?, Entry.lookup_of_mem hnodup hitem, Option.bind_some]
    rw [filesOf, mem_filesIn_iff]
    constructor
    · rintro ⟨item, hitem, hentered, hf⟩
      obtain ⟨more, content, rfl, hfound, hrest⟩ := (ih item hitem).1 hf
      refine ⟨item.1 :: more, content, by simp, (hdescend item hitem more).trans hfound, ?_⟩
      cases more with
      | nil => exact List.forall_mem_nil _
      | cons next more =>
        obtain ⟨_, _, hitem', -⟩ := Entry.exists_of_descend?_cons hfound
        rw [hitem', Entry.isDirectory, Bool.true_and] at hentered
        exact List.forall_mem_cons.2 ⟨hentered, hrest⟩
    · rintro ⟨_ | ⟨name, more⟩, content, rfl, hfound, hentered⟩
      · cases hfound
      · obtain ⟨_, child, heq, hmem, -, hrest⟩ := Entry.exists_of_descend?_cons hfound
        cases heq
        refine ⟨(name, child), hmem, ?_, (ih _ hmem).2 ⟨more, content, by simp, hrest, ?_⟩⟩
        · cases more with
          | nil =>
            cases hrest
            rfl
          | cons next more => rw [hentered name List.mem_cons_self, Bool.and_false]
        · cases more with
          | nil => exact List.forall_mem_nil _
          | cons next more => exact (List.forall_mem_cons.1 hentered).2

/-- Files are found by names that can stand in directories. -/
theorem names_of_mem_filesOf {e : Entry} (h : e.IsTree) {names : List Text} {f : List Text × Nat}
    (hf : f ∈ filesOf names e) : ∃ more, f.1 = names ++ more ∧ ∀ name ∈ more, Path.IsName name := by
  induction h generalizing names f with
  | file content =>
    rw [filesOf, List.mem_singleton] at hf
    exact ⟨[], by simp [hf], by simp⟩
  | link target => simp [filesOf] at hf
  | directory hnames _ _ ih =>
    rw [filesOf, mem_filesIn_iff] at hf
    obtain ⟨e, he, -, hf⟩ := hf
    obtain ⟨more, hmore, hplain⟩ := ih e he hf
    refine ⟨e.1 :: more, by simpa using hmore, fun name hn => ?_⟩
    obtain rfl | hn := List.mem_cons.1 hn
    · exact hnames e he
    · exact hplain name hn

variable {entries : List (Text × Entry)}

theorem names_of_mem_filesIn (hnames : ∀ e ∈ entries, Path.IsName e.1)
    (htrees : ∀ e ∈ entries, e.2.IsTree) {names : List Text} {f : List Text × Nat}
    (hf : f ∈ filesIn names entries) :
    ∃ e ∈ entries, ∃ more, f.1 = names ++ e.1 :: more ∧ ∀ name ∈ e.1 :: more, Path.IsName name := by
  obtain ⟨e, he, -, hf⟩ := mem_filesIn_iff.1 hf
  obtain ⟨more, hmore, hplain⟩ := names_of_mem_filesOf (htrees e he) hf
  refine ⟨e, he, more, by simpa using hmore, fun name hn => ?_⟩
  obtain rfl | hn := List.mem_cons.1 hn
  · exact hnames e he
  · exact hplain name hn

/-- Files in different entries of a directory differ in the name of the entry. -/
theorem nodup_filesIn (hnames : ∀ e ∈ entries, Path.IsName e.1)
    (hnodup : (entries.map Prod.fst).Nodup) (htrees : ∀ e ∈ entries, e.2.IsTree) (names : List Text)
    (h : ∀ e ∈ entries, ((filesOf (names ++ [e.1]) e.2).map Prod.fst).Nodup) :
    ((filesIn names entries).map Prod.fst).Nodup := by
  induction entries with
  | nil => simp [filesIn]
  | cons e entries ih =>
    obtain ⟨hne, hnodup⟩ := List.nodup_cons.1 hnodup
    have htail := ih (fun e he => hnames e (List.mem_cons_of_mem _ he)) hnodup
      (fun e he => htrees e (List.mem_cons_of_mem _ he))
      (fun e he => h e (List.mem_cons_of_mem _ he))
    rw [filesIn, List.map_append, List.nodup_append]
    refine ⟨?_, htail, ?_⟩
    · split
      · exact List.nodup_nil
      · exact h e List.mem_cons_self
    · intro a ha b hb hab
      subst hab
      obtain ⟨f, hf, rfl⟩ := List.mem_map.1 ha
      obtain ⟨g, hg, hfg⟩ := List.mem_map.1 hb
      obtain ⟨e', he', more', hmore', -⟩ := names_of_mem_filesIn
        (fun e he => hnames e (List.mem_cons_of_mem _ he))
        (fun e he => htrees e (List.mem_cons_of_mem _ he)) hg
      have hf : f ∈ filesOf (names ++ [e.1]) e.2 := by
        split at hf
        · cases hf
        · exact hf
      obtain ⟨more, hmore, -⟩ := names_of_mem_filesOf (htrees e List.mem_cons_self) hf
      rw [hmore', hmore, List.append_assoc, List.append_cancel_left_eq] at hfg
      exact hne (List.mem_map.2 ⟨e', he', (List.cons.inj hfg).1⟩)

theorem nodup_filesOf {e : Entry} (h : e.IsTree) (names : List Text) :
    ((filesOf names e).map Prod.fst).Nodup := by
  induction h generalizing names with
  | file _ | link _ => simp [filesOf]
  | directory hnames hnodup htrees ih =>
    rw [filesOf]
    exact nodup_filesIn hnames hnodup htrees names fun e he => ih e he _

end Walk

section Under
variable {disk : Disk} (hdisk : disk.root.IsTree) {root : Path.Parts}
include hdisk

/-- A file under a root has its path from there in names, and the last of all names is its own. -/
theorem exists_of_mem_under (hroot : root.IsPlain) {f : Text × Text × Nat}
    (hf : f ∈ under disk root.toText) :
    ∃ more, (Path.Parts.mk false more).IsPlain ∧ f.2.1 = (Path.Parts.mk false more).toText ∧
      f.1 = (root.names ++ more).getLastD [] := by
  rw [under] at hf
  cases hentry : disk.lstat root.toText with
  | error _ => simp [hentry] at hf
  | ok entry =>
    rw [hentry] at hf
    cases Disk.isTree_of_lstat hdisk hentry with
    | link target => cases hf
    | file content =>
      rw [List.mem_singleton] at hf
      refine ⟨[], by simp [Path.Parts.IsPlain], by rw [hf]; rfl, ?_⟩
      rw [hf, List.append_nil, Path.baseName, hroot.parts_toText]
    | directory hnames _ htrees =>
      obtain ⟨⟨names, size⟩, hnames', rfl⟩ := List.mem_map.1 hf
      obtain ⟨e, -, more, hmore, hplain⟩ := names_of_mem_filesIn hnames htrees hnames'
      rw [List.nil_append] at hmore
      subst hmore
      exact ⟨e.1 :: more, hplain, rfl, by simp [List.getLast?_cons]⟩

theorem nodup_under (path : Text) : ((under disk path).map (·.2.1)).Nodup := by
  rw [under]
  cases hentry : disk.lstat path with
  | error _ => exact List.nodup_nil
  | ok entry =>
    cases Disk.isTree_of_lstat hdisk hentry with
    | link _ => exact List.nodup_nil
    | file _ => exact List.nodup_singleton _
    | directory hnames hnodup htrees =>
      have hfiles := nodup_filesIn hnames hnodup htrees [] fun e he =>
        nodup_filesOf (htrees e he) _
      -- The names can be read off a path again, so that different names make different paths.
      have hparts : ((filesIn [] _).map fun f => (Path.parts (join [slash] f.1)).names) =
          (filesIn [] _).map Prod.fst := List.map_congr_left fun f hf => by
        obtain ⟨e, -, more, hmore, hplain⟩ := names_of_mem_filesIn hnames htrees hf
        rw [hmore, List.nil_append, ← Path.Parts.toText_relative]
        rw [Path.Parts.IsPlain.parts_toText (p := ⟨false, e.1 :: more⟩) hplain]
      rw [List.map_map]
      refine List.Nodup.of_map (fun t => (Path.parts t).names) ?_
      rw [List.map_map]
      exact hparts ▸ hfiles

end Under

/-- A file by the names of its root and by those that lead to it from there. -/
structure File.StandsAt (f : File) (front more : List Text) : Prop where
  isPlain_front : (Path.Parts.mk true front).IsPlain
  isPlain_more : (Path.Parts.mk false more).IsPlain
  root_eq : f.root = (Path.Parts.mk true front).toText
  path_eq : f.path = (Path.Parts.mk false more).toText

namespace File.StandsAt
variable {f : File} {front more : List Text} (h : f.StandsAt front more)
include h

theorem isPlain : (Path.Parts.mk true (front ++ more)).IsPlain := fun name hn =>
  (List.mem_append.1 hn).elim (h.isPlain_front name) (h.isPlain_more name)

theorem absolute_eq : f.absolute = (Path.Parts.mk true (front ++ more)).toText := by
  rw [File.absolute, h.root_eq, h.path_eq, h.isPlain_front.append_toText h.isPlain_more]

theorem isAbsolute : Path.IsAbsolute f.absolute := ⟨_, rfl, h.isPlain, h.absolute_eq⟩

theorem extension_absolute :
    Path.extension f.absolute = Path.extension ((front ++ more).getLastD []) := by
  rw [h.absolute_eq, Path.extension_toText _ (.inl rfl)]

/-- The path of a file from its root has the extension of the file, unless the root is the file. -/
theorem extension_path (hne : f.path ≠ Path.here) :
    Path.extension f.path = Path.extension f.absolute := by
  have hmore : more ≠ [] := by
    rintro rfl
    exact hne h.path_eq
  obtain ⟨name, more, rfl⟩ := List.exists_cons_of_ne_nil hmore
  rw [h.extension_absolute, h.path_eq, Path.extension_toText _ (.inr hmore)]
  simp [List.getLast?_cons]

end File.StandsAt

/-- Roots that are rooted paths, none of which is another one or lies beneath it. -/
structure AreSeparate (roots : List Text) : Prop where
  isAbsolute : ∀ root ∈ roots, Path.IsAbsolute root
  apart : roots.Pairwise fun a b =>
    ¬ (Path.parts a).names <+: (Path.parts b).names ∧
      ¬ (Path.parts b).names <+: (Path.parts a).names

/-- The roots of a workspace are rooted paths, whichever way they are given. -/
theorem isAbsolute_of_mem_roots {cwd root : Text} (hcwd : Path.isRooted cwd = true)
    {roots exclude : List Text} {maxFileSize : Int} {respectGitignore : Bool}
    (h : root ∈ (make cwd roots exclude maxFileSize respectGitignore).roots) :
    Path.IsAbsolute root := by
  obtain ⟨path, -, rfl⟩ := List.mem_map.1 h
  exact Path.isAbsolute_absolute hcwd path

section Files
variable {w : Workspace} {disk : Disk} {git : Git} {languages : List Text} {f : File}

theorem mem_scripts_iff {root : Text} :
    f ∈ w.scripts disk git languages root ↔
      ∃ file ∈ under disk root,
        w.script? languages (w.tracking disk git root) root file = some f := by
  rw [scripts, List.mem_mergeSort, List.mem_filterMap]

theorem pairwise_path_le_scripts {root : Text} :
    (w.scripts disk git languages root).Pairwise fun f g => f.path ≤ g.path := by
  have hsorted : (w.scripts disk git languages root).Pairwise fun f g =>
      decide (f.path ≤ g.path) = true :=
    List.pairwise_mergeSort (fun a b c => by simpa using List.le_trans)
      (fun a b => by simpa using List.le_total a.path b.path) _
  exact hsorted.imp of_decide_eq_true

/-- Whatever the order in which scripts are found, they are listed in that of their paths. -/
theorem scripts_eq_of_perm {root : Text} {found : List File}
    (hperm : found.Perm
      ((under disk root).filterMap (w.script? languages (w.tracking disk git root) root)))
    (hsorted : found.Pairwise fun f g => f.path < g.path) :
    w.scripts disk git languages root = found := by
  have hnodup : (found.map File.path).Nodup :=
    List.pairwise_map.2 (hsorted.imp Std.ne_of_lt)
  have hscripts : (w.scripts disk git languages root).Perm found :=
    (List.mergeSort_perm _ _).trans hperm.symm
  refine hscripts.eq_of_pairwise (fun f g hf hg hle hge => ?_) pairwise_path_le_scripts
    (hsorted.imp Std.le_of_lt)
  exact List.inj_on_of_nodup_map hnodup (hscripts.mem_iff.1 hf) hg (List.le_antisymm hle hge)

theorem files_eq_append {a b : Text} {found found' : List File} (hroots : w.roots = [a, b])
    (ha : w.scripts disk git languages a = found) (hb : w.scripts disk git languages b = found') :
    w.files disk git languages = found ++ found' := by
  rw [files, hroots, List.flatMap_cons, List.flatMap_singleton, ha, hb]

/-- All that is asked of a file under a root. -/
theorem script?_eq_some_iff {tracking : Tracking} {root : Text} {file : Text × Text × Nat} :
    w.script? languages tracking root file = some f ↔
      (f.root = root ∧ f.path = file.2.1 ∧
        Script.Dialect.ofExtension? (Path.extension file.1) = some f.dialect) ∧
      isHidden file.1 = false ∧ (languages = [] ∨ f.dialect.name ∈ languages) ∧
      tracking.keeps file.2.1 = true ∧ Ignore.isIgnored w.exclude file.2.1 = false ∧
      w.fitsSize file.2.2 = true := by
  obtain ⟨name, path, size⟩ := file
  obtain ⟨root', path', dialect'⟩ := f
  rw [script?]
  cases Script.Dialect.ofExtension? (Path.extension name) with
  | none => simp
  | some dialect =>
    simp only [Option.ite_none_right_eq_some, Option.some.injEq, File.mk.injEq, Bool.and_eq_true,
      Bool.not_eq_true', Bool.or_eq_true, List.isEmpty_iff, List.contains_iff_mem]
    constructor
    · rintro ⟨⟨⟨⟨⟨hhidden, hwanted⟩, hkept⟩, hexclude⟩, hsize⟩, rfl, rfl, rfl⟩
      exact ⟨⟨rfl, rfl, rfl⟩, hhidden, hwanted, hkept, hexclude, hsize⟩
    · rintro ⟨⟨rfl, rfl, rfl⟩, hhidden, hwanted, hkept, hexclude, hsize⟩
      exact ⟨⟨⟨⟨⟨hhidden, hwanted⟩, hkept⟩, hexclude⟩, hsize⟩, rfl, rfl, rfl⟩

theorem isAbsolute_of_mem_files (hroots : ∀ root ∈ w.roots, Path.IsAbsolute root)
    (hf : f ∈ w.files disk git languages) : Path.IsAbsolute f.absolute := by
  obtain ⟨root, hroot, hf⟩ := List.mem_flatMap.1 hf
  obtain ⟨file, -, hscript⟩ := mem_scripts_iff.1 hf
  rw [File.absolute, (script?_eq_some_iff.1 hscript).1.1]
  exact Path.isAbsolute_append (hroots root hroot).isRooted f.path

/-- What is found under rooted paths are rooted paths. -/
theorem isAbsolute_of_mem_find (hroots : ∀ root ∈ w.roots, Path.IsAbsolute root)
    {pattern path : Text} (h : path ∈ w.find disk git pattern) : Path.IsAbsolute path := by
  have hfile : ∃ f ∈ w.files disk git [], f.absolute = path := by
    rw [find] at h
    split at h
    · cases h
    · obtain ⟨f, hf, hpath⟩ := List.mem_map.1 h
      exact ⟨f, (List.mem_filter.1 hf).1, hpath⟩
  obtain ⟨f, hf, rfl⟩ := hfile
  exact isAbsolute_of_mem_files hroots hf

/-- The scripts of a root stand under it, and their extensions tell their dialects. -/
theorem standsAt_of_mem_scripts (hdisk : disk.root.IsTree) {root : Text}
    (hroot : Path.IsAbsolute root) (hf : f ∈ w.scripts disk git languages root) :
    ∃ more, f.StandsAt (Path.parts root).names more ∧
      Script.Dialect.ofExtension? (Path.extension f.absolute) = some f.dialect := by
  obtain ⟨⟨rooted, front⟩, rfl, hfront, rfl⟩ := hroot
  obtain ⟨file, hfile, hscript⟩ := mem_scripts_iff.1 hf
  obtain ⟨more, hmore, hpath, hname⟩ := exists_of_mem_under hdisk hfront hfile
  obtain ⟨⟨hroot, hpath', hdialect⟩, -⟩ := script?_eq_some_iff.1 hscript
  have hstands : f.StandsAt front more := ⟨hfront, hmore, hroot, hpath'.trans hpath⟩
  rw [hfront.parts_toText]
  exact ⟨more, hstands, by rw [hstands.extension_absolute, ← hname, hdialect]⟩

theorem standsAt_of_mem_files (hdisk : disk.root.IsTree) (hroots : AreSeparate w.roots)
    (hf : f ∈ w.files disk git languages) :
    ∃ front more, f.StandsAt front more ∧
      Script.Dialect.ofExtension? (Path.extension f.absolute) = some f.dialect := by
  obtain ⟨root, hroot, hf⟩ := List.mem_flatMap.1 hf
  exact ⟨_, standsAt_of_mem_scripts hdisk (hroots.isAbsolute root hroot) hf⟩

/-- No two scripts of a root have one path from it. -/
theorem nodup_path_scripts (hdisk : disk.root.IsTree) (root : Text) :
    ((w.scripts disk git languages root).map File.path).Nodup := by
  rw [scripts, ((List.mergeSort_perm _ _).map File.path).nodup_iff, List.Nodup, List.pairwise_map]
  refine List.Pairwise.filterMap _ (fun file file' hne f hf g hg => ?_)
    (List.pairwise_map.1 (nodup_under hdisk root))
  rw [(script?_eq_some_iff.1 hf).1.2.1, (script?_eq_some_iff.1 hg).1.2.1]
  exact hne

/-- No two scripts of a root have one path. -/
theorem nodup_absolute_scripts (hdisk : disk.root.IsTree) {root : Text}
    (hroot : Path.IsAbsolute root) :
    ((w.scripts disk git languages root).map File.absolute).Nodup := by
  have hpaths : (w.scripts disk git languages root).Pairwise fun f g => f.path ≠ g.path :=
    List.pairwise_map.1 (nodup_path_scripts hdisk root)
  refine List.pairwise_map.2 (hpaths.imp_of_mem ?_)
  intro f g hf hg hne heq
  obtain ⟨more, hstands, -⟩ := standsAt_of_mem_scripts hdisk hroot hf
  obtain ⟨more', hstands', -⟩ := standsAt_of_mem_scripts hdisk hroot hg
  rw [hstands.absolute_eq, hstands'.absolute_eq] at heq
  have hnames := (Path.Parts.mk.inj (hstands.isPlain.toText_inj hstands'.isPlain heq)).2
  rw [hstands.path_eq, hstands'.path_eq, List.append_cancel_left hnames] at hne
  exact hne rfl

/-- No script is found under two roots. -/
def SharesNone (w : Workspace) (disk : Disk) (git : Git) (languages : List Text) : Prop :=
  w.roots.Pairwise fun a b => ((w.scripts disk git languages a).map File.absolute).Disjoint
    ((w.scripts disk git languages b).map File.absolute)

theorem nodup_absolute_files_iff (hdisk : disk.root.IsTree)
    (hroots : ∀ root ∈ w.roots, Path.IsAbsolute root) :
    ((w.files disk git languages).map File.absolute).Nodup ↔ w.SharesNone disk git languages := by
  rw [files, List.map_flatMap, List.nodup_flatMap]
  exact and_iff_right fun root hroot => nodup_absolute_scripts hdisk (hroots root hroot)

/-- Separate roots have no script in common. -/
theorem sharesNone_of_areSeparate (hdisk : disk.root.IsTree) (hroots : AreSeparate w.roots) :
    w.SharesNone disk git languages := by
  refine hroots.apart.imp_of_mem ?_
  intro a b ha hb hapart path hpa hpb
  obtain ⟨f, hf, rfl⟩ := List.mem_map.1 hpa
  obtain ⟨g, hg, hfg⟩ := List.mem_map.1 hpb
  obtain ⟨more, hstands, -⟩ := standsAt_of_mem_scripts hdisk (hroots.isAbsolute a ha) hf
  obtain ⟨more', hstands', -⟩ := standsAt_of_mem_scripts hdisk (hroots.isAbsolute b hb) hg
  rw [hstands.absolute_eq, hstands'.absolute_eq] at hfg
  have hnames := (Path.Parts.mk.inj (hstands'.isPlain.toText_inj hstands.isPlain hfg)).2
  -- The names of both roots begin the names of the file, so one root lies beneath the other.
  have ha : (Path.parts a).names <+: (Path.parts a).names ++ more := List.prefix_append ..
  have hb : (Path.parts b).names <+: (Path.parts a).names ++ more := hnames ▸ List.prefix_append ..
  exact (List.prefix_or_prefix_of_prefix ha hb).elim hapart.1 hapart.2

/-- No two files of separate roots have one path. -/
theorem nodup_absolute_files (hdisk : disk.root.IsTree) (hroots : AreSeparate w.roots) :
    ((w.files disk git languages).map File.absolute).Nodup :=
  (nodup_absolute_files_iff hdisk hroots.isAbsolute).2 (sharesNone_of_areSeparate hdisk hroots)

/-- A path is found as often as there are roots with a script of that path. -/
theorem count_absolute_files (hdisk : disk.root.IsTree)
    (hroots : ∀ root ∈ w.roots, Path.IsAbsolute root) (path : Text) :
    ((w.files disk git languages).map File.absolute).count path =
      w.roots.countP fun root =>
        ((w.scripts disk git languages root).map File.absolute).contains path := by
  rw [files]
  generalize w.roots = roots at hroots ⊢
  induction roots with
  | nil => rfl
  | cons root roots ih =>
    obtain ⟨hroot, hroots⟩ := List.forall_mem_cons.1 hroots
    rw [List.flatMap_cons, List.map_append, List.count_append, ih hroots, List.countP_cons,
      (nodup_absolute_scripts hdisk hroot).count, Nat.add_comm]
    simp

end Files
end Workspace
end ScriptNav
