import ScriptNav.Proofs.Disk
import ScriptNav.Proofs.Workspace.Files

/-! The scripts of a workspace on a disk without links, before and after one of them is written over.
As long as its size stays within the limit, the same scripts are listed, and the same ones are found
for a module. -/
namespace ScriptNav

open Text

namespace Entry

theorem IsLinkless.isTree {e : Entry} (h : e.IsLinkless) : e.IsTree := by
  induction h with
  | file content => exact .file content
  | directory names nodup _ ih => exact .directory (fun e he => (names e he).1) nodup ih

end Entry

namespace Workspace

section Walk
variable {front names : List Text} {content new : Text} {e : Entry}

/-- A file, with what is made of its size. -/
def sized (fits : Nat → Bool) (f : List Text × Nat) : List Text × Bool := (f.1, fits f.2)

theorem filesIn_assign {fits : Nat → Bool} {entries : List (Text × Entry)} {name : Text}
    {old entry : Entry} (hlookup : entries.lookup name = some old)
    (hdirectory : entry.isDirectory = old.isDirectory)
    (hfiles : (filesOf (front ++ [name]) entry).map (sized fits) =
      (filesOf (front ++ [name]) old).map (sized fits)) :
    (filesIn front (Entry.assign name entry entries)).map (sized fits) =
      (filesIn front entries).map (sized fits) := by
  induction entries with
  | nil => cases hlookup
  | cons first entries ih =>
    obtain ⟨n, other⟩ := first
    rw [Entry.assign]
    by_cases hname : n = name
    · subst hname
      rw [List.lookup_cons_self] at hlookup
      cases hlookup
      rw [if_pos (by simp), filesIn, filesIn, List.map_append, List.map_append, hdirectory]
      split_ifs
      · rfl
      · rw [hfiles]
    · have hne : (name == n) = false := beq_false_of_ne (Ne.symm hname)
      rw [List.lookup_cons, hne] at hlookup
      rw [if_neg (by simpa using hname), filesIn, filesIn, List.map_append, List.map_append,
        ih hlookup]

/-- Writing over a file changes nothing in the list of files but its size. -/
theorem filesOf_insert {fits : Nat → Bool} (hfits : fits new.length = fits content.length)
    (h : e.descend? names = some (.file content)) :
    (filesOf front (e.insert names (.file new))).map (sized fits) =
      (filesOf front e).map (sized fits) := by
  induction names generalizing e front with
  | nil =>
    obtain rfl := Option.some.inj h
    simp only [Entry.insert, filesOf, List.map_singleton, sized, hfits]
  | cons name names ih =>
    obtain ⟨entries, _, rfl, -, hlookup, hrest⟩ := Entry.exists_of_descend?_cons h
    rw [Entry.insert_cons hlookup]
    exact filesIn_assign hlookup (Entry.isDirectory_insert hrest new) (ih hrest)

end Walk

/-- The files under a root, by what stands there. -/
def filesUnder (root : Text) : Option Entry → List (Text × Text × Nat)
  | some (.directory entries) =>
    (filesIn [] entries).map fun (names, size) => (names.getLastD [], join [slash] names, size)
  | some (.file content) => [(Path.baseName root, Path.here, content.length)]
  | _ => []

/-- What is looked at to tell whether a file is a script. -/
def seen (w : Workspace) (f : Text × Text × Nat) : Text × Text × Bool :=
  (f.1, f.2.1, w.fitsSize f.2.2)

section Scripts
variable {w : Workspace} {languages : List Text} {root : Text}

theorem under_eq {d : Disk} (hlinkless : d.root.IsLinkless) (hroot : Path.IsAbsolute root) :
    under d root = filesUnder root (d.root.descend? (Path.parts root).names) := by
  rw [← Disk.toOption_lstat hlinkless hroot, under]
  cases d.lstat root with
  | error error => rfl
  | ok e => cases e <;> rfl

theorem map_seen_directory (entries : List (Text × Entry)) :
    (filesUnder root (some (.directory entries))).map w.seen =
      ((filesIn [] entries).map (sized w.fitsSize)).map fun f =>
        (f.1.getLastD [], join [slash] f.1, f.2) := by
  rw [filesUnder, List.map_map, List.map_map]
  rfl

theorem filterMap_script?_congr {fs gs : List (Text × Text × Nat)}
    (h : fs.map w.seen = gs.map w.seen) (tracking : Tracking) :
    fs.filterMap (w.script? languages tracking root) =
      gs.filterMap (w.script? languages tracking root) := by
  have hfactor : w.script? languages tracking root = (fun f : Text × Text × Bool =>
      (Script.Dialect.ofExtension? (Path.extension f.1)).bind fun dialect =>
        let isWanted := languages.isEmpty || languages.contains dialect.name
        if !isHidden f.1 && isWanted && tracking.keeps f.2.1 && !Ignore.isIgnored w.exclude f.2.1 &&
            f.2.2 then
          some ⟨root, f.2.1, dialect⟩
        else none) ∘ w.seen := by
    funext f
    rw [script?, Function.comp_apply, seen]
    cases Script.Dialect.ofExtension? (Path.extension f.1) <;> rfl
  rw [hfactor, ← List.filterMap_map, ← List.filterMap_map, h]

theorem listing?_eq (d : Disk) (git : Git) (root : Text) :
    listing? d git root =
      if (d.stat (Path.append root ".git")).toOption.any Entry.isDirectory then
        (git root).bind fun answer =>
          if answer.status == 0 then some ((answer.output.split newline).filter (!·.isEmpty))
          else none
      else none := by
  rw [listing?]
  cases d.stat (Path.append root ".git") with
  | error error => rfl
  | ok e => cases e <;> cases git root <;> rfl

theorem tracking_eq (d : Disk) (git : Git) (root : Text) :
    w.tracking d git root =
      if !w.respectGitignore then .untracked
      else match listing? d git root, (d.read (Path.append root ".gitignore")).toOption with
        | some paths, _ => .listed paths
        | none, some content => .ignoring (Ignore.rules (content.split newline))
        | none, none => .untracked := by
  rw [tracking]
  cases listing? d git root <;> cases d.read (Path.append root ".gitignore") <;> rfl

/-- A file under a root is what its names lead to. -/
theorem descend?_of_mem_filesUnder {e : Entry} (h : e.IsLinkless) {front : List Text}
    (hfront : (Path.Parts.mk true front).IsPlain) {file : Text × Text × Nat}
    (hf : file ∈ filesUnder (Path.Parts.mk true front).toText (e.descend? front)) :
    ∃ more content, (Path.Parts.mk false more).IsPlain ∧
      file = ((front ++ more).getLastD [], (Path.Parts.mk false more).toText, content.length) ∧
      e.descend? (front ++ more) = some (.file content) := by
  cases hentry : e.descend? front with
  | none => simp [hentry, filesUnder] at hf
  | some inner =>
    have hinner := (h.descend? hentry).1
    rw [hentry] at hf
    cases hinner with
    | file content =>
      refine ⟨[], content, nofun, ?_, by rw [List.append_nil, hentry]⟩
      rw [filesUnder, List.mem_singleton, Path.baseName, hfront.parts_toText] at hf
      rw [hf, List.append_nil]
      rfl
    | @directory entries hnames hnodup hlinkless =>
      obtain ⟨⟨names, size⟩, hmem, rfl⟩ := List.mem_map.1 hf
      have hdirectory : (Entry.directory entries).IsLinkless := .directory hnames hnodup hlinkless
      rw [← filesOf] at hmem
      obtain ⟨_, content, hfile, hmore, -⟩ := (mem_filesOf_iff hdirectory.isTree).1 hmem
      obtain ⟨rfl, rfl⟩ := Prod.mk.inj hfile
      cases names with
      | nil => cases hmore
      | cons name more =>
        refine ⟨name :: more, content, fun n hn => ((hdirectory.descend? hmore).2 n hn).1, ?_, ?_⟩
        · simp [List.getLast?_cons, Path.Parts.toText]
        · rw [Entry.descend?_append, hentry, Option.bind_some]
          exact hmore

/-- A script stands where its path leads, has the extension of a dialect, and fits the limit. -/
theorem descend?_of_mem_files {d : Disk} (hlinkless : d.root.IsLinkless)
    (hroots : ∀ root ∈ w.roots, Path.IsAbsolute root) {git : Git} {f : File}
    (hf : f ∈ w.files d git languages) :
    Path.IsAbsolute f.absolute ∧
      (Script.Dialect.ofExtension? (Path.extension f.absolute)).isSome = true ∧
      ∃ content, d.root.descend? (Path.parts f.absolute).names = some (.file content) ∧
        w.fitsSize content.length = true := by
  obtain ⟨root, hroot, hf⟩ := List.mem_flatMap.1 hf
  have hroot := hroots root hroot
  obtain ⟨file, hfile, hscript⟩ := mem_scripts_iff.1 hf
  rw [under_eq hlinkless hroot] at hfile
  obtain ⟨⟨_, front⟩, rfl, hfront, rfl⟩ := hroot
  rw [hfront.parts_toText] at hfile
  obtain ⟨more, content, hmore, rfl, hdescend⟩ := descend?_of_mem_filesUnder hlinkless hfront hfile
  obtain ⟨⟨hroot, hpath, hdialect⟩, -, -, -, -, hfits⟩ := script?_eq_some_iff.1 hscript
  have hstands : f.StandsAt front more := ⟨hfront, hmore, hroot, hpath⟩
  refine ⟨hstands.isAbsolute, ?_, content, ?_, hfits⟩
  · rw [hstands.extension_absolute, hdialect]
    rfl
  · rw [hstands.absolute_eq, hstands.isPlain.parts_toText]
    exact hdescend

variable {d : Disk} (hlinkless : d.root.IsLinkless) {path content new : Text}
  (hfile : d.root.descend? (Path.parts path).names = some (.file content))
include hlinkless hfile

theorem isLinkless_rewritten (new : Text) :
    (d.rewritten (Path.parts path).names new).root.IsLinkless := hlinkless.insert hfile new

theorem under_rewritten (hroot : Path.IsAbsolute root)
    (hfits : w.fitsSize new.length = w.fitsSize content.length) :
    (under (d.rewritten (Path.parts path).names new) root).map w.seen =
      (under d root).map w.seen := by
  rw [under_eq hlinkless hroot, under_eq (isLinkless_rewritten hlinkless hfile new) hroot,
    Disk.rewritten]
  obtain ⟨more, inner, -, hway, hinner, hnew⟩ | ⟨-, hway⟩ :=
    Entry.descend?_insert hfile new (Path.parts root).names
  · dsimp only
    rw [hway, hnew]
    cases more with
    | nil =>
      obtain rfl := Option.some.inj hinner
      simp only [Entry.insert, filesUnder, List.map_singleton, seen, hfits]
    | cons name more =>
      have hfiles : (filesOf [] (inner.insert (name :: more) (.file new))).map (sized w.fitsSize) =
          (filesOf [] inner).map (sized w.fitsSize) := filesOf_insert hfits hinner
      obtain ⟨entries, _, rfl, -, hlookup, -⟩ := Entry.exists_of_descend?_cons hinner
      rw [Entry.insert_cons hlookup] at hfiles ⊢
      rw [map_seen_directory, map_seen_directory]
      exact congrArg _ hfiles
  · dsimp only
    rw [hway]

theorem listing?_rewritten (hroot : Path.IsAbsolute root) (git : Git) :
    listing? (d.rewritten (Path.parts path).names new) git root = listing? d git root := by
  have hgit := Path.isAbsolute_append hroot.isRooted ".git"
  rw [listing?_eq, listing?_eq, Disk.toOption_stat hlinkless hgit,
    Disk.toOption_stat (isLinkless_rewritten hlinkless hfile new) hgit, Disk.rewritten]
  dsimp only
  rw [Entry.any_isDirectory_insert hfile]

omit hlinkless hfile in
/-- A script is not the top of the disk. -/
theorem names_ne_nil (hpath : Path.IsAbsolute path)
    (hscript : (Script.Dialect.ofExtension? (Path.extension path)).isSome = true) :
    (Path.parts path).names ≠ [] := by
  obtain ⟨⟨_, names⟩, rfl, hplain, rfl⟩ := hpath
  rw [hplain.parts_toText]
  rintro rfl
  exact absurd hscript (by decide)

omit hlinkless hfile in
/-- No script is a list of files to ignore. -/
theorem ne_gitignore (hroot : Path.IsAbsolute root)
    (hscript : (Script.Dialect.ofExtension? (Path.extension path)).isSome = true) :
    Path.append root ".gitignore" ≠ path := by
  rintro rfl
  obtain ⟨⟨_, names⟩, rfl, hplain, rfl⟩ := hroot
  let ignored : Path.Parts := ⟨false, [".gitignore"]⟩
  have hignored : ignored.IsPlain := by decide
  have htext : ignored.toText = ".gitignore" := by decide
  have happend := hplain.append_toText hignored
  rw [htext] at happend
  rw [happend, Path.extension_toText _ (.inl rfl)] at hscript
  have hlast : (names ++ ignored.names).getLastD [] = ".gitignore" := by simp [ignored]
  rw [hlast] at hscript
  exact absurd hscript (by decide)

theorem tracking_rewritten (hroot : Path.IsAbsolute root) (hpath : Path.IsAbsolute path)
    (hscript : (Script.Dialect.ofExtension? (Path.extension path)).isSome = true) (git : Git) :
    w.tracking (d.rewritten (Path.parts path).names new) git root = w.tracking d git root := by
  have hignore := Path.isAbsolute_append hroot.isRooted ".gitignore"
  have hne := mt (hignore.names_inj hpath) (ne_gitignore hroot hscript)
  have hread : ((d.rewritten (Path.parts path).names new).read
      (Path.append root ".gitignore")).toOption =
        (d.read (Path.append root ".gitignore")).toOption := by
    rw [Disk.toOption_read hlinkless hignore,
      Disk.toOption_read (isLinkless_rewritten hlinkless hfile new) hignore, Disk.rewritten]
    dsimp only
    rw [Entry.content?_insert hfile, if_neg hne]
  rw [tracking_eq, tracking_eq, listing?_rewritten hlinkless hfile hroot, hread]

variable (hpath : Path.IsAbsolute path)
  (hscript : (Script.Dialect.ofExtension? (Path.extension path)).isSome = true)
  (hroots : ∀ root ∈ w.roots, Path.IsAbsolute root)
  (hfits : w.fitsSize new.length = w.fitsSize content.length)
include hpath hscript hroots hfits

/-- The same scripts are listed after one of them is written over. -/
theorem files_rewritten (git : Git) :
    w.files (d.rewritten (Path.parts path).names new) git languages =
      w.files d git languages := by
  refine List.flatMap_congr fun root hroot => ?_
  have hroot := hroots root hroot
  rw [scripts, scripts, tracking_rewritten hlinkless hfile hroot hpath hscript,
    filterMap_script?_congr (under_rewritten hlinkless hfile hroot hfits)]

theorem find_rewritten (git : Git) (pattern : Text) :
    w.find (d.rewritten (Path.parts path).names new) git pattern = w.find d git pattern := by
  rw [find, find, files_rewritten hlinkless hfile hpath hscript hroots hfits]

end Scripts
end Workspace
end ScriptNav
