import Mathlib.Data.Set.Insert
import ScriptNav.Command.Run
import ScriptNav.Proofs.IncludeGraph
import ScriptNav.Proofs.Resolver.Lookup
import ScriptNav.Proofs.Script.Includes
import ScriptNav.Proofs.Workspace.Files

/-! Three views of what a script includes: the edges of the include graph, the scope of a plain
reference, and the list that is printed for one file. They are made in three ways, and agree. -/
namespace ScriptNav

open Text

namespace Resolver
variable (cwd : Text) {current : Text}

/-- Candidates are left out for another one of their key only. -/
theorem mem_map_fileKey_dedupe (current : Text) (files : List Text) {k : Option Text} :
    k ∈ (dedupe cwd current files).map (fileKey cwd current) ↔
      k ∈ files.map (fileKey cwd current) := by
  induction files using List.reverseRec with
  | nil => rfl
  | append_singleton files last ih =>
    rw [dedupe_concat, List.map_append, List.mem_append, ← ih]
    split_ifs with h
    · refine ⟨.inl, Or.rec id fun hk => ih.2 ?_⟩
      rwa [List.mem_singleton.1 hk]
    · simp

/-- Rooted paths in their shortest spelling are one file only if they are one path. -/
theorem mem_dedupe_of_isAbsolute {files : List Text} {path : Text}
    (hcurrent : Path.IsAbsolute current) (hfiles : ∀ file ∈ files, Path.IsAbsolute file) :
    path ∈ dedupe cwd current files ↔ path ∈ files := by
  have hsubset : ∀ file ∈ dedupe cwd current files, file ∈ files := by
    intro file hfile
    obtain ⟨i, hi⟩ := (mem_dedupe_iff cwd current).1 hfile
    exact List.mem_of_getElem? hi.1
  refine ⟨hsubset path, fun hpath => ?_⟩
  have hkey := (mem_map_fileKey_dedupe cwd current files).2 (List.mem_map_of_mem hpath)
  obtain ⟨other, hother, heq⟩ := List.mem_map.1 hkey
  have hpath' := hfiles path hpath
  have hother' := hfiles other (hsubset other hother)
  have hsame := (fileKey_eq_iff hcurrent.ne_nil hother'.ne_nil hpath'.ne_nil).1 heq
  rw [Source.key, Source.key, hother'.absolute_eq, hpath'.absolute_eq] at hsame
  exact hsame ▸ hother

end Resolver

namespace Workspace
variable {w : Workspace} {disk : Disk} {git : Git} {pattern : Text}

/-- A pattern that begins with a word is taken as it is. -/
theorem find_moduleFile {module : Text} (h : Script.ModulePath module) (extension : Text) :
    w.find disk git (Script.moduleFile module extension) =
      ((w.files disk git []).filter
        (Script.namesFile ·.path (Script.moduleFile module extension))).map File.absolute := by
  obtain ⟨b, rest, hpattern, hb⟩ := h.moduleFile_eq_cons extension
  have hslash : after? [slash] (b :: rest) = none := by
    cases hafter : after? [slash] (b :: rest) with
    | none => rfl
    | some t =>
      obtain ⟨rfl, -⟩ := List.cons.inj (after?_eq_some_iff.1 hafter)
      cases hb
  rw [find, hpattern, hslash]
  rfl

end Workspace

namespace Script

/-- Module paths in a script have the extension of its dialect, whatever the usual one is. -/
theorem moduleExtension_of_dialect {path : Text} {d : Dialect}
    (h : Dialect.ofExtension? (Path.extension path) = some d) (usual : Text) :
    moduleExtension path usual = d.extension := by
  have hlower : d.extension = (Path.extension path).toLower := by
    rw [Dialect.ofExtension?] at h
    simpa using List.find?_some h
  rw [moduleExtension, h, hlower]

end Script

namespace Command.Setup

/-- The scripts of the workspace. -/
def scripts (s : Setup) : List Workspace.File := s.workspace.files s.disk s.git []

/-- The scripts that a module names in a document of a dialect. -/
def named (s : Setup) (dialect : Script.Dialect) (module : Text) : List Workspace.File :=
  s.scripts.filter (Script.namesFile ·.path (Script.moduleFile module dialect.extension))

/-- A script in the include graph. -/
def nodeOf (f : Workspace.File) : IncludeGraph.Node := ⟨f.root, f.path⟩

/-- The include graph of the workspace, for any reader of its scripts. -/
def graphOf (s : Setup) (reader : Source.Reader) : IncludeGraph :=
  IncludeGraph.build (s.scripts.map nodeOf) reader s.root s.config.extension

/-- The graph of a workspace with a script is the one of its own reader. -/
theorem graph_of_mem {s : Setup} {doc : Workspace.File} (hdoc : doc ∈ s.scripts) :
    s.graph = .ok (s.graphOf s.reader) := by
  have hne : ¬ s.scripts.isEmpty = true := by simpa using List.ne_nil_of_mem hdoc
  exact if_neg hne

section Views
variable {s : Setup} {doc : Workspace.File} {text : Text} {reader : Source.Reader}

section Lists
variable (hdialect : Script.Dialect.ofExtension? (Path.extension doc.absolute) = some doc.dialect)
include hdialect

/-- What is listed for a document are its modules with the scripts that they name. -/
theorem includes_eq :
    s.includes ⟨doc.absolute, text⟩ = (Script.includes text).eraseDups.map fun module =>
      (module, (s.named doc.dialect module).map Workspace.File.absolute) := by
  rw [includes, Script.moduleExtension_of_dialect hdialect]
  refine List.map_congr_left fun module hmodule => ?_
  have hpath := Script.modulePath_of_mem_includes (List.mem_eraseDups.1 hmodule)
  rw [Workspace.find_moduleFile hpath]
  rfl

theorem candidates_eq {reference : Script.Reference} (hplain : reference.namespacePath = []) :
    s.resolver.candidates ⟨doc.absolute, text⟩ reference =
      doc.absolute :: (Script.includes text).flatMap fun module =>
        (s.named doc.dialect module).map Workspace.File.absolute := by
  rw [Resolver.candidates, if_neg (by simp [hplain]), Script.moduleExtension_of_dialect hdialect]
  refine congrArg _ (List.flatMap_congr fun module hmodule => ?_)
  exact Workspace.find_moduleFile (Script.modulePath_of_mem_includes hmodule) _

end Lists

section Graph
variable (hdisk : s.disk.root.IsTree) (hroots : Workspace.AreSeparate s.workspace.roots)
include hdisk hroots

theorem isAbsolute_of_mem_scripts {f : Workspace.File} (hf : f ∈ s.scripts) :
    Path.IsAbsolute f.absolute := by
  obtain ⟨_, _, hstands, -⟩ := Workspace.standsAt_of_mem_files hdisk hroots hf
  exact hstands.isAbsolute

/-- Scripts are told apart by how they are shown. -/
theorem nodup_shown (root : Text) :
    ((s.scripts.map nodeOf).map (IncludeGraph.Node.shown root)).Nodup := by
  refine IncludeGraph.nodup_shown ?_ ?_ root
  · intro node hnode
    obtain ⟨f, hf, rfl⟩ := List.mem_map.1 hnode
    exact isAbsolute_of_mem_scripts hdisk hroots hf
  · rw [List.map_map]
    exact Workspace.nodup_absolute_files hdisk hroots

/-- The graph asks for the same files as the other views do, unless the script is a root itself and
its dialect is not the usual one. -/
theorem pattern_eq (hdoc : doc ∈ s.scripts)
    (husual : doc.path = Path.here → s.resolver.extension = doc.dialect.extension) (module : Text) :
    (nodeOf doc).pattern s.config.extension module =
      Script.moduleFile module doc.dialect.extension := by
  obtain ⟨_, _, hstands, hdialect⟩ := Workspace.standsAt_of_mem_files hdisk hroots hdoc
  rw [IncludeGraph.Node.pattern, nodeOf]
  -- The graph goes by the path from the root, which is bare if the root is the script.
  by_cases hpath : doc.path = Path.here
  · rw [← husual hpath, hpath]
    rfl
  · rw [← hstands.extension_path hpath] at hdialect
    rw [Script.moduleExtension_of_dialect hdialect]

variable (hdoc : doc ∈ s.scripts) (htext : reader doc.absolute = .ok text)
  (husual : doc.path = Path.here → s.resolver.extension = doc.dialect.extension)

omit hdisk hroots in
include htext in
theorem modules_nodeOf : (nodeOf doc).modules reader = Script.includes text := by
  rw [IncludeGraph.Node.modules, show (nodeOf doc).absolute = doc.absolute from rfl, htext]

include hdoc htext husual

/-- The targets of a script in the graph are the scripts that its modules name, apart from
itself. -/
theorem exists_dependency_graphOf_iff {target : Text} :
    (∃ d ∈ (s.graphOf reader).dependencies,
        d.source = Path.relative s.root doc.absolute ∧ d.target = target) ↔
      target ≠ Path.relative s.root doc.absolute ∧ ∃ module ∈ Script.includes text,
        ∃ f ∈ s.named doc.dialect module, Path.relative s.root f.absolute = target := by
  refine (IncludeGraph.exists_dependency_iff_of_nodup (nodup_shown hdisk hroots s.root)
    (List.mem_map_of_mem hdoc)).trans (and_congr_right fun _ => ?_)
  simp only [modules_nodeOf htext, pattern_eq hdisk hroots hdoc husual]
  constructor
  · rintro ⟨b, hb, rfl, module, hmodule, hnames⟩
    obtain ⟨f, hf, rfl⟩ := List.mem_map.1 hb
    exact ⟨module, hmodule, f, List.mem_filter.2 ⟨hf, hnames⟩, rfl⟩
  · rintro ⟨module, hmodule, f, hf, rfl⟩
    obtain ⟨hf, hnames⟩ := List.mem_filter.1 hf
    exact ⟨nodeOf f, List.mem_map_of_mem hf, rfl, module, hmodule, hnames⟩

/-- The unresolved modules of a script in the graph are those that name no script. -/
theorem unresolved_graphOf :
    IncludeGraph.itemsOf (Path.relative s.root doc.absolute) (s.graphOf reader).unresolved =
      (Script.includes text).eraseDups.filter fun module =>
        (s.named doc.dialect module).isEmpty := by
  refine (IncludeGraph.unresolved_build_of_nodup (nodup_shown hdisk hroots s.root)
    (List.mem_map_of_mem hdoc)).trans ?_
  simp only [modules_nodeOf htext, pattern_eq hdisk hroots hdoc husual]
  rw [IncludeGraph.filter_eraseDups]
  refine congrArg (fun p => List.filter p _) (funext fun module => ?_)
  rw [Bool.eq_iff_iff, List.all_map, named, List.isEmpty_iff, List.filter_eq_nil_iff,
    List.all_eq_true]
  simp [nodeOf]

end Graph

/-- The scope of a plain reference are the script itself and the scripts that its modules name. -/
theorem mem_scope_iff {reference : Script.Reference} (hdisk : s.disk.root.IsTree)
    (hroots : Workspace.AreSeparate s.workspace.roots) (hdoc : doc ∈ s.scripts)
    (hplain : reference.namespacePath = []) {path : Text} :
    path ∈ Resolver.dedupe s.resolver.cwd doc.absolute
        (s.resolver.candidates ⟨doc.absolute, text⟩ reference) ↔
      path = doc.absolute ∨ ∃ module ∈ Script.includes text, ∃ f ∈ s.named doc.dialect module,
        f.absolute = path := by
  obtain ⟨_, _, hstands, hdialect⟩ := Workspace.standsAt_of_mem_files hdisk hroots hdoc
  have hmem : path ∈ s.resolver.candidates ⟨doc.absolute, text⟩ reference ↔
      path = doc.absolute ∨ ∃ module ∈ Script.includes text, ∃ f ∈ s.named doc.dialect module,
        f.absolute = path := by
    rw [candidates_eq hdialect hplain]
    simp only [List.mem_cons, List.mem_flatMap, List.mem_map]
  rw [← hmem]
  refine Resolver.mem_dedupe_of_isAbsolute _ hstands.isAbsolute fun file hfile => ?_
  rw [candidates_eq hdialect hplain] at hfile
  simp only [List.mem_cons, List.mem_flatMap, List.mem_map] at hfile
  obtain rfl | ⟨module, -, f, hf, rfl⟩ := hfile
  · exact hstands.isAbsolute
  · exact isAbsolute_of_mem_scripts hdisk hroots (List.mem_of_mem_filter hf)

/-- The three views of what a script includes agree: as seen from the root, the targets of the
script in the include graph, the scope of a plain reference in it and the files that are listed for
it are the same apart from the script itself; and the graph has those modules unresolved for which
no file is listed, in the same order. -/
theorem includeViews_agree (reader : Source.Reader) (reference : Script.Reference)
    (hdisk : s.disk.root.IsTree) (hroots : Workspace.AreSeparate s.workspace.roots)
    (hdoc : doc ∈ s.workspace.files s.disk s.git []) (htext : reader doc.absolute = .ok text)
    (hplain : reference.namespacePath = [])
    (husual : doc.path = Path.here → s.resolver.extension = doc.dialect.extension) :
    let document : Document := ⟨doc.absolute, text⟩
    let shown := Path.relative s.root
    let self := shown doc.absolute
    let targets := {t | ∃ d ∈ (s.graphOf reader).dependencies, d.source = self ∧ d.target = t}
    ∃ scope, s.resolver.scope false document reference = some scope ∧
      targets = {t | ∃ path ∈ scope, shown path = t} \ {self} ∧
      targets = {t | ∃ entry ∈ s.includes document, ∃ path ∈ entry.2, shown path = t} \ {self} ∧
      ((s.graphOf reader).unresolved.lookup self).getD [] =
        ((s.includes document).filter (·.2.isEmpty)).map Prod.fst := by
  intro document shown self targets
  obtain ⟨_, _, hstands, hdialect⟩ := Workspace.standsAt_of_mem_files hdisk hroots hdoc
  have htargets (t : Text) : t ∈ targets ↔ t ≠ self ∧ ∃ module ∈ Script.includes text,
      ∃ f ∈ s.named doc.dialect module, shown f.absolute = t :=
    exists_dependency_graphOf_iff hdisk hroots hdoc htext husual
  have hscope (path : Text) : path ∈ Resolver.dedupe s.resolver.cwd document.path
      (s.resolver.candidates document reference) ↔ _ := mem_scope_iff hdisk hroots hdoc hplain
  refine ⟨_, Resolver.scope_live _ _ _, ?_, ?_, ?_⟩
  · ext t
    rw [htargets, Set.mem_sdiff, Set.mem_singleton_iff, and_comm]
    refine and_congr_left fun hne => ?_
    simp only [Set.mem_ofPred_eq, hscope]
    constructor
    · rintro ⟨module, hmodule, f, hf, rfl⟩
      exact ⟨f.absolute, .inr ⟨module, hmodule, f, hf, rfl⟩, rfl⟩
    · rintro ⟨path, rfl | ⟨module, hmodule, f, hf, rfl⟩, rfl⟩
      · exact absurd rfl hne
      · exact ⟨module, hmodule, f, hf, rfl⟩
  · ext t
    rw [htargets, Set.mem_sdiff, Set.mem_singleton_iff, and_comm]
    refine and_congr_left fun _ => ?_
    simp only [document, includes_eq hdialect, Set.mem_ofPred_eq, List.mem_map, List.mem_eraseDups]
    constructor
    · rintro ⟨module, hmodule, f, hf, rfl⟩
      exact ⟨_, ⟨module, hmodule, rfl⟩, f.absolute, List.mem_map_of_mem hf, rfl⟩
    · rintro ⟨_, ⟨module, hmodule, rfl⟩, path, hpath, rfl⟩
      obtain ⟨f, hf, rfl⟩ := List.mem_map.1 hpath
      exact ⟨module, hmodule, f, hf, rfl⟩
  · refine (unresolved_graphOf hdisk hroots hdoc htext husual).trans ?_
    rw [includes_eq hdialect, List.filter_map, List.map_map]
    simp [Function.comp_def]

end Views

/-- A setup with the usual settings, for roots that are given from the top of a disk. -/
def usual (entries : List (Text × Entry)) (roots : List Text) : Setup :=
  { disk := ⟨.directory entries, "/"⟩, git := Git.absent, environment := []
    config := Config.default "/", root := "/"
    workspace := Workspace.make "/" roots [] 0 false
    catalog := [], printer := ⟨.text, false, "/"⟩ }

/-- A script that includes two others, itself and a module that is not there. -/
def libraryText : Text := "#include B;\n#include sub\\c;\n#include a;\n#include z;\n"

def library : Setup :=
  usual [
    ("lib", .directory [("a.gsc", .file libraryText), ("sub", .directory [("C.GSC", .file [])])]),
    ("ext", .directory [("b.gsc", .file [])])] ["lib", "ext"]

theorem scripts_library :
    library.scripts = [⟨"/lib", "a.gsc", .server⟩, ⟨"/lib", "sub/C.GSC", .server⟩,
      ⟨"/ext", "b.gsc", .server⟩] := by
  have hlib : library.workspace.scripts library.disk library.git [] "/lib" =
      [⟨"/lib", "a.gsc", .server⟩, ⟨"/lib", "sub/C.GSC", .server⟩] :=
    Workspace.scripts_eq_of_perm (by decide +kernel) (by decide)
  have hext : library.workspace.scripts library.disk library.git [] "/ext" =
      [⟨"/ext", "b.gsc", .server⟩] :=
    Workspace.scripts_eq_of_perm (by decide +kernel) (by decide)
  exact Workspace.files_eq_append (by decide) hlib hext

/-- Modules in any letter case and with either separator, from two roots. -/
theorem includeViews_agree_library :
    let doc : Workspace.File := ⟨"/lib", "a.gsc", .server⟩
    let graph := library.graphOf library.reader
    library.disk.root.IsTree ∧ Workspace.AreSeparate library.workspace.roots ∧
      doc ∈ library.scripts ∧ library.reader doc.absolute = .ok libraryText ∧
      library.graph = .ok graph ∧
      {t | ∃ d ∈ graph.dependencies, d.source = ofString "lib/a.gsc" ∧ d.target = t} =
        {ofString "ext/b.gsc", ofString "lib/sub/C.GSC"} ∧
      (graph.unresolved.lookup (ofString "lib/a.gsc")).getD [] = [ofString "z"] := by
  intro doc graph
  have hdisk : library.disk.root.IsTree := by
    refine .directory (by decide) (by decide) (List.forall_mem_cons.2 ⟨?_, ?_⟩)
    · refine .directory (by decide) (by decide) (List.forall_mem_cons.2 ⟨.file _, ?_⟩)
      refine List.forall_mem_singleton.2 (.directory (by decide) (by decide) ?_)
      exact List.forall_mem_singleton.2 (.file _)
    · refine List.forall_mem_singleton.2 (.directory (by decide) (by decide) ?_)
      exact List.forall_mem_singleton.2 (.file _)
  have hroots : Workspace.AreSeparate library.workspace.roots :=
    ⟨fun root hroot => Workspace.isAbsolute_of_mem_roots (by decide) hroot, by decide⟩
  have hdoc : doc ∈ library.scripts := scripts_library ▸ List.mem_cons_self
  have htext : library.reader doc.absolute = .ok libraryText := rfl
  obtain ⟨-, -, -, hlisted, hunresolved⟩ := includeViews_agree library.reader
    ⟨"f", [], .call, 0, 0⟩ hdisk hroots hdoc htext rfl (by decide)
  have hincludes : library.includes ⟨doc.absolute, libraryText⟩ =
      ([("B", ["/ext/b.gsc"]), ("sub\\c", ["/lib/sub/C.GSC"]), ("a", ["/lib/a.gsc"]),
        ("z", [])] : List (Text × List Text)) := by
    have hfiles : library.workspace.files library.disk library.git [] = _ := scripts_library
    simp only [includes, Workspace.find, hfiles]
    decide +kernel
  have hself : Path.relative library.root doc.absolute = ofString "lib/a.gsc" := by decide
  rw [hincludes, hself] at hlisted hunresolved
  refine ⟨hdisk, hroots, hdoc, htext, graph_of_mem hdoc, hlisted.trans (Set.ext fun t => ?_),
    hunresolved⟩
  have hb : Path.relative library.root "/ext/b.gsc" = ofString "ext/b.gsc" := by decide
  have hc : Path.relative library.root "/lib/sub/C.GSC" = ofString "lib/sub/C.GSC" := by decide
  have ha : Path.relative library.root "/lib/a.gsc" = ofString "lib/a.gsc" := by decide
  have hmem : t ∈ {t | ∃ entry ∈ ([("B", ["/ext/b.gsc"]), ("sub\\c", ["/lib/sub/C.GSC"]),
      ("a", ["/lib/a.gsc"]), ("z", [])] : List (Text × List Text)),
        ∃ path ∈ entry.2, Path.relative library.root path = t} ↔
      t = ofString "ext/b.gsc" ∨ t = ofString "lib/sub/C.GSC" ∨ t = ofString "lib/a.gsc" := by
    simp [hb, hc, ha, eq_comm]
  rw [Set.mem_sdiff, hmem]
  constructor
  · rintro ⟨h | h | h, hne⟩
    · exact .inl h
    · exact .inr h
    · exact absurd h hne
  · rintro (rfl | rfl)
    · exact ⟨.inl rfl, (by decide : ofString "ext/b.gsc" ≠ ofString "lib/a.gsc")⟩
    · exact ⟨.inr (.inl rfl), (by decide : ofString "lib/sub/C.GSC" ≠ ofString "lib/a.gsc")⟩

/-- A root that is a script itself, of a dialect that is not the usual one. -/
def fileRoot : Setup :=
  usual [("a.csc", .file "#include b;"), ("lib", .directory [("b.csc", .file [])])] ["a.csc", "lib"]

/-- A script that is a root has no name under it, so that the graph takes it for no script at all
and looks for modules of the usual dialect. -/
theorem includeViews_disagree_fileRoot :
    let doc : Workspace.File := ⟨"/a.csc", Path.here, .client⟩
    let text := ofString "#include b;"
    let graph := fileRoot.graphOf fileRoot.reader
    fileRoot.disk.root.IsTree ∧ Workspace.AreSeparate fileRoot.workspace.roots ∧
      doc ∈ fileRoot.scripts ∧ fileRoot.reader doc.absolute = .ok text ∧
      fileRoot.includes ⟨doc.absolute, text⟩ = [(ofString "b", [ofString "/lib/b.csc"])] ∧
      fileRoot.graph = .ok graph ∧ graph.dependencies = [] ∧
      graph.unresolved = [(ofString "a.csc", [ofString "b"])] := by
  intro doc text graph
  have hdoc : doc ∈ fileRoot.scripts := List.contains_iff_mem.1 (by decide +kernel)
  refine ⟨?_, ?_, hdoc, rfl, by decide +kernel, graph_of_mem hdoc, by decide +kernel,
    by decide +kernel⟩
  · refine .directory (by decide) (by decide) (List.forall_mem_cons.2 ⟨.file _, ?_⟩)
    refine List.forall_mem_singleton.2 (.directory (by decide) (by decide) ?_)
    exact List.forall_mem_singleton.2 (.file _)
  · exact ⟨fun root hroot => Workspace.isAbsolute_of_mem_roots (by decide) hroot, by decide⟩

end Command.Setup
end ScriptNav
