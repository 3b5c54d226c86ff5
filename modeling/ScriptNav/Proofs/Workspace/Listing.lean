import ScriptNav.Proofs.Workspace.Walk
import ScriptNav.Text.Quoted

/-! The scripts that version control lists. It prints one path a line, and a path with an odd byte
between quotes with that byte escaped, while the lines are taken for paths as they stand. So a listed
script is found just if its path has no odd byte; and since a quoted path ends with a quote, no script
is found that is not listed. -/
namespace ScriptNav

open Text

namespace Git

/-- The bytes that are not printed as they are: control characters, all outside ASCII, the quote and
the backslash. -/
def isOdd (b : UInt8) : Bool := b < 32 || 127 ≤ b || b == quote || b == backslash

/-- A byte of a path between quotes; an odd one without a letter is written with three octal
digits. -/
def escapeByte (b : UInt8) : Text :=
  if !isOdd b then [b]
  else if b == quote || b == backslash then [backslash, b]
  else
    match controlName? b.toNat with
    | some letter => [backslash, letter]
    | none => backslash :: [b.toNat / 64, b.toNat / 8 % 8, b.toNat % 8].map fun n => (48 + n).toUInt8

/-- A path as it is printed. -/
def printed (path : Text) : Text :=
  if path.any isOdd then quote :: path.flatMap escapeByte ++ [quote] else path

/-- The output that lists paths. -/
def listing (paths : List Text) : Text := paths.flatMap fun path => printed path ++ [newline]

theorem newline_notMem_escapeByte (b : UInt8) : newline ∉ escapeByte b := by
  have hall : ∀ n < 256, newline ∉ escapeByte n.toUInt8 := by decide +kernel
  rw [← Utf8.toUInt8_eq (b := b) rfl]
  exact hall _ b.toNat_lt

theorem newline_notMem_printed (path : Text) : newline ∉ printed path := by
  rw [printed]
  split_ifs with hodd
  · have hquote : newline ≠ quote := by decide
    simp [newline_notMem_escapeByte, hquote]
  · intro hmem
    exact hodd (List.any_eq_true.2 ⟨newline, hmem, by decide⟩)

theorem split_listing (paths : List Text) :
    (listing paths).split newline = paths.map printed ++ [[]] := by
  induction paths with
  | nil => rfl
  | cons path paths ih =>
    rw [listing, List.flatMap_cons, ← listing, List.append_assoc, List.singleton_append,
      split_append, split_of_notMem (newline_notMem_printed path), ih]
    rfl

/-- Only a path without odd bytes is printed as a path that does not end with a quote. -/
theorem printed_eq_iff {path other : Text} (hlast : path.getLast? ≠ some quote) :
    printed other = path ↔ other = path ∧ ∀ b ∈ path, isOdd b = false := by
  rw [printed]
  split_ifs with hodd
  · refine iff_of_false ?_ ?_
    · rintro rfl
      exact hlast List.getLast?_concat
    · rintro ⟨rfl, hplain⟩
      obtain ⟨b, hb, hodd⟩ := List.any_eq_true.1 hodd
      rw [hplain b hb] at hodd
      cases hodd
  · refine ⟨?_, And.left⟩
    rintro rfl
    exact ⟨rfl, fun b hb => by simpa using fun h => hodd (List.any_eq_true.2 ⟨b, hb, h⟩)⟩

theorem mem_split_listing_iff {paths : List Text} {path : Text} (hne : path ≠ [])
    (hlast : path.getLast? ≠ some quote) :
    path ∈ (listing paths).split newline ↔ path ∈ paths ∧ ∀ b ∈ path, isOdd b = false := by
  rw [split_listing, List.mem_append, List.mem_singleton, or_iff_left hne, List.mem_map]
  simp only [printed_eq_iff hlast]
  constructor
  · rintro ⟨_, hmem, rfl, hplain⟩
    exact ⟨hmem, hplain⟩
  · rintro ⟨hmem, hplain⟩
    exact ⟨path, hmem, rfl, hplain⟩

end Git

namespace Workspace
variable {w : Workspace} {disk : Disk} {git : Git} {languages : List Text} {root : Text} {f : File}

theorem mem_files_iff : f ∈ w.files disk git languages ↔
    f.root ∈ w.roots ∧ f ∈ w.scripts disk git languages f.root := by
  rw [files, List.mem_flatMap]
  constructor
  · rintro ⟨root, hroot, hf⟩
    obtain ⟨_, -, hscript⟩ := mem_scripts_iff.1 hf
    obtain rfl := (script?_eq_some_iff.1 hscript).1.1
    exact ⟨hroot, hf⟩
  · rintro ⟨hroot, hf⟩
    exact ⟨f.root, hroot, hf⟩

/-- The same workspace, with nothing left out on the word of version control. -/
def ungated (w : Workspace) : Workspace := { w with respectGitignore := false }

/-- Version control is one test among the others. -/
theorem mem_scripts_iff_ungated : f ∈ w.scripts disk git languages root ↔
    f ∈ w.ungated.scripts disk git languages root ∧
      (w.tracking disk git root).keeps f.path = true := by
  have hungated : w.ungated.tracking disk git root = .untracked := rfl
  rw [mem_scripts_iff, mem_scripts_iff, hungated]
  simp only [script?_eq_some_iff]
  constructor
  · rintro ⟨file, hfile, hnamed, hhidden, hselected, hkept, hexclude, hfits⟩
    exact ⟨⟨file, hfile, hnamed, hhidden, hselected, rfl, hexclude, hfits⟩, hnamed.2.1 ▸ hkept⟩
  · rintro ⟨⟨file, hfile, hnamed, hhidden, hselected, -, hexclude, hfits⟩, hkept⟩
    exact ⟨file, hfile, hnamed, hhidden, hselected, hnamed.2.1 ▸ hkept, hexclude, hfits⟩

/-- The path of a file ends with its name, unless the file is the root. -/
theorem suffix_of_mem_under {file : Text × Text × Nat} (h : file ∈ under disk root) :
    file.2.1 = Path.here ∨ file.1 <:+ file.2.1 := by
  rw [under] at h
  split at h
  · obtain ⟨⟨names, size⟩, -, rfl⟩ := List.mem_map.1 h
    exact .inr (getLastD_suffix_join names)
  · obtain rfl := List.mem_singleton.1 h
    exact .inl rfl
  · cases h

/-- The path of a script ends with a letter of its extension or is a dot. -/
theorem getLast?_path_of_mem_scripts (hf : f ∈ w.scripts disk git languages root) :
    f.path ≠ [] ∧ f.path.getLast? ≠ some quote := by
  obtain ⟨file, hfile, hscript⟩ := mem_scripts_iff.1 hf
  obtain ⟨⟨-, hpath, hdialect⟩, -⟩ := script?_eq_some_iff.1 hscript
  rw [hpath]
  obtain hhere | ⟨front, hfront⟩ := suffix_of_mem_under hfile
  · rw [hhere]
    decide
  · obtain ⟨stem, ext, hname, hext⟩ := Script.Dialect.ofExtension?_extension_iff.1 hdialect
    have hend : f.dialect.extension.getLast? = some 99 := by cases f.dialect <;> decide
    rw [← hext, List.getLast?_map, Option.map_eq_some_iff] at hend
    obtain ⟨b, hb, hlower⟩ := hend
    have hlast : file.2.1.getLast? = some b := by
      rw [← hfront, hname, List.getLast?_append, List.getLast?_append, hb]
      rfl
    rw [hlast]
    refine ⟨fun hnil => ?_, fun hquote => ?_⟩
    · rw [hnil] at hlast
      cases hlast
    · rw [Option.some.inj hquote] at hlower
      exact absurd hlower (by decide)

/-- Where version control lists paths, a script is found just if its path is listed and has no odd
byte. -/
theorem mem_files_listing_iff (hrespect : w.respectGitignore = true)
    {entries : List (Text × Entry)}
    (hstat : disk.stat (Path.append root ".git") = .ok (.directory entries)) {paths : List Text}
    (hgit : git root = some ⟨0, Git.listing paths⟩) (hroot : f.root = root) :
    f ∈ w.files disk git languages ↔ f ∈ w.ungated.files disk git languages ∧
      f.path ∈ paths ∧ ∀ b ∈ f.path, Git.isOdd b = false := by
  subst hroot
  have hlists : Lists disk git f.root ((Git.listing paths).split newline) :=
    ⟨entries, _, hstat, hgit, rfl⟩
  rw [mem_files_iff, mem_files_iff, mem_scripts_iff_ungated, ← and_assoc]
  refine and_congr_right fun ⟨_, hf⟩ => ?_
  obtain ⟨hne, hlast⟩ := getLast?_path_of_mem_scripts hf
  rw [keeps_tracking_iff hne, hlists.isKept_iff, Git.mem_split_listing_iff hne hlast]
  exact forall_prop_of_true hrespect

/-- A listed script that passes all other tests is found just if its path has no odd byte; so all of
them are found just if no such path has one. -/
theorem files_listing_complete_iff (hrespect : w.respectGitignore = true)
    {entries : List (Text × Entry)}
    (hstat : disk.stat (Path.append root ".git") = .ok (.directory entries)) {paths : List Text}
    (hgit : git root = some ⟨0, Git.listing paths⟩) :
    (∀ f : File, f.root = root →
      (f ∈ w.files disk git languages ↔ f ∈ w.ungated.files disk git languages ∧
        f.path ∈ paths ∧ ∀ b ∈ f.path, Git.isOdd b = false)) ∧
    ((∀ f : File, f.root = root →
        (f ∈ w.files disk git languages ↔
          f ∈ w.ungated.files disk git languages ∧ f.path ∈ paths)) ↔
      ∀ f ∈ w.ungated.files disk git languages, f.root = root → f.path ∈ paths →
        ∀ b ∈ f.path, Git.isOdd b = false) := by
  have hlisted {f : File} (hroot : f.root = root) : f ∈ w.files disk git languages ↔ _ :=
    mem_files_listing_iff hrespect hstat hgit hroot
  refine ⟨fun f => hlisted, fun hall f hf hroot hpath => ?_, fun hplain f hroot => ?_⟩
  · exact ((hlisted hroot).1 ((hall f hroot).2 ⟨hf, hpath⟩)).2.2
  · rw [hlisted hroot]
    refine and_congr_right fun hf => and_iff_left_of_imp (hplain f hf hroot)

/-- A repository with a plain and an accented name. -/
def accentedTree : List (Text × Entry) :=
  [(".git", .directory []), ("a.gsc", .file []), ("é.gsc", .file [])]

def accentedDisk : Disk := ⟨.directory [("r", .directory accentedTree)], "/"⟩

/-- Both scripts are listed. -/
def accentedGit : Git := fun _ => some ⟨0, Git.listing ["a.gsc", "é.gsc"]⟩

def accentedWorkspace : Workspace := { roots := ["/r"], respectGitignore := true }

theorem mem_ungated_accented {name : Text} (h : name = "a.gsc" ∨ name = "é.gsc") :
    ⟨"/r", name, .server⟩ ∈ accentedWorkspace.ungated.files accentedDisk accentedGit [] := by
  have htree : accentedDisk.root.IsTree := by
    refine .directory (by decide) (by decide) (List.forall_mem_singleton.2 ?_)
    refine .directory (by decide) (by decide) ?_
    simp only [accentedTree, List.forall_mem_cons]
    refine ⟨?_, .file _, .file _, List.forall_mem_nil _⟩
    exact .directory (List.forall_mem_nil _) List.nodup_nil (List.forall_mem_nil _)
  have hlstat : accentedDisk.lstat "/r" = .ok (.directory accentedTree) := rfl
  refine mem_files_iff.2 ⟨List.mem_singleton.2 rfl, (mem_scripts_directory_iff htree hlstat).2 ?_⟩
  refine ⟨[name], [], ?_, ⟨?_, .inl rfl, ?_, List.not_mem_nil, ?_, rfl, ?_⟩, rfl, ?_⟩
  · obtain rfl | rfl := h <;> rfl
  · obtain rfl | rfl := h
    · exact ⟨"a", ".gsc", by decide, by decide⟩
    · exact ⟨"é", ".gsc", by decide, by decide⟩
  · obtain rfl | rfl := h <;> decide
  · exact fun hrespect => absurd hrespect Bool.false_ne_true
  · exact fun hlimit => absurd hlimit (Int.lt_irrefl 0)
  · obtain rfl | rfl := h <;> decide

theorem stat_accentedDisk :
    accentedDisk.stat (Path.append "/r" ".git") = .ok (.directory []) := rfl

/-- The script with the plain name is found. -/
theorem files_listing_complete_iff_plainName :
    accentedWorkspace.respectGitignore = true ∧
    accentedDisk.stat (Path.append "/r" ".git") = .ok (.directory []) ∧
    accentedGit "/r" = some ⟨0, Git.listing ["a.gsc", "é.gsc"]⟩ ∧
    ⟨"/r", "a.gsc", .server⟩ ∈ accentedWorkspace.files accentedDisk accentedGit [] := by
  have hgit : accentedGit "/r" = some ⟨0, Git.listing ["a.gsc", "é.gsc"]⟩ := rfl
  have hrespect : accentedWorkspace.respectGitignore = true := rfl
  refine ⟨hrespect, stat_accentedDisk, hgit, ?_⟩
  obtain ⟨hlisted, -⟩ := files_listing_complete_iff hrespect stat_accentedDisk hgit
  exact (hlisted _ rfl).2 ⟨mem_ungated_accented (.inl rfl), by decide +kernel, by decide +kernel⟩

/-- The script with the accented name is listed and passes all other tests, and is not found. -/
theorem files_listing_misses_accented :
    accentedWorkspace.respectGitignore = true ∧
    accentedDisk.stat (Path.append "/r" ".git") = .ok (.directory []) ∧
    accentedGit "/r" = some ⟨0, Git.listing ["a.gsc", "é.gsc"]⟩ ∧
    Git.listing ["a.gsc", "é.gsc"] = "a.gsc\n\"\\303\\251.gsc\"\n" ∧
    ⟨"/r", "é.gsc", .server⟩ ∈ accentedWorkspace.ungated.files accentedDisk accentedGit [] ∧
    ⟨"/r", "é.gsc", .server⟩ ∉ accentedWorkspace.files accentedDisk accentedGit [] := by
  have hgit : accentedGit "/r" = some ⟨0, Git.listing ["a.gsc", "é.gsc"]⟩ := rfl
  refine ⟨rfl, stat_accentedDisk, hgit, by decide +kernel, mem_ungated_accented (.inr rfl), ?_⟩
  intro hf
  have hlisted := (mem_files_listing_iff rfl stat_accentedDisk hgit rfl).1 hf
  exact absurd hlisted.2.2 (by decide +kernel)

end Workspace
end ScriptNav
