import ScriptNav.Proofs.Command.FrontEnds
import ScriptNav.Proofs.Command.IncludeViews
import ScriptNav.Proofs.IncludeGraph.Building

/-! The include graph of roots that overlap. Scripts are found root by root, and the graph tells them
apart by their places in what was found, but shows them by their paths. A script that is found under
several roots is listed as often, and has an edge to itself where one of its modules names it as it is
found from another root. -/
namespace ScriptNav.Command.Setup

open Text

/-- A graph that lists every script of the workspace once, and has no edge from a file to itself. -/
structure IsSimple (s : Setup) (g : IncludeGraph) : Prop where
  listed : ∀ f ∈ s.scripts, g.files.count (Path.relative s.root f.absolute) = 1
  irreflexive : ∀ d ∈ g.dependencies, d.source ≠ d.target

/-- How many roots have a script with this path. -/
def rootCount (s : Setup) (path : Text) : Nat :=
  s.workspace.roots.countP fun root =>
    ((s.workspace.scripts s.disk s.git [] root).map Workspace.File.absolute).contains path

/-- A script is found at two places, and a module of it at the one names it at the other. -/
def NamesItself (s : Setup) (f : Workspace.File) : Prop :=
  ∃ (i j : Nat) (a b : Workspace.File), s.scripts[i]? = some a ∧ s.scripts[j]? = some b ∧ i ≠ j ∧
    a.absolute = f.absolute ∧ b.absolute = f.absolute ∧ ∃ module ∈ (nodeOf a).modules s.reader,
      Script.namesFile b.path ((nodeOf a).pattern s.config.extension module) = true

theorem isAbsolute_of_mem_roots {call : Invocation} {options : Options} {usual : Text} {s : Setup}
    (hs : setUp call options usual = .ok s) (hcwd : Path.isRooted call.disk.cwd = true) :
    ∀ root ∈ s.workspace.roots, Path.IsAbsolute root := by
  obtain ⟨hdisk, -, hworkspace⟩ := setUp_eq_ok hs
  intro root hroot
  rw [hworkspace, workspaceOf] at hroot
  exact Workspace.isAbsolute_of_mem_roots (hdisk ▸ hcwd) hroot

section Roots
variable {s : Setup} (hroots : ∀ root ∈ s.workspace.roots, Path.IsAbsolute root)
  {f g : Workspace.File}
include hroots

theorem shown_eq_iff (hf : f ∈ s.scripts) (hg : g ∈ s.scripts) :
    (nodeOf f).shown s.root = (nodeOf g).shown s.root ↔ f.absolute = g.absolute :=
  ⟨Path.relative_inj (Workspace.isAbsolute_of_mem_files hroots hf)
    (Workspace.isAbsolute_of_mem_files hroots hg), congrArg (Path.relative s.root)⟩

/-- A script is listed as often as its path is found. -/
theorem count_files_graphOf (hf : f ∈ s.scripts) :
    (s.graphOf s.reader).files.count (Path.relative s.root f.absolute) =
      (s.scripts.map Workspace.File.absolute).count f.absolute := by
  rw [graphOf, IncludeGraph.files_build, List.map_map, List.count, List.count, List.countP_map,
    List.countP_map]
  refine List.countP_congr fun g hg => ?_
  simp only [Function.comp_apply, beq_iff_eq]
  exact shown_eq_iff hroots hg hf

/-- A file has an edge to itself just where it is found at two places and names itself. -/
theorem exists_selfEdge_iff (hf : f ∈ s.scripts) :
    (∃ d ∈ (s.graphOf s.reader).dependencies, d.source = Path.relative s.root f.absolute ∧
        d.target = Path.relative s.root f.absolute) ↔ s.NamesItself f := by
  rw [graphOf, IncludeGraph.exists_dependency_iff]
  constructor
  · rintro ⟨i, j, _, _, ha, hb, hne, hsource, htarget, hmodule⟩
    rw [List.getElem?_map, Option.map_eq_some_iff] at ha hb
    obtain ⟨a, ha, rfl⟩ := ha
    obtain ⟨b, hb, rfl⟩ := hb
    exact ⟨i, j, a, b, ha, hb, hne.symm, (shown_eq_iff hroots (List.mem_of_getElem? ha) hf).1 hsource,
      (shown_eq_iff hroots (List.mem_of_getElem? hb) hf).1 htarget, hmodule⟩
  · rintro ⟨i, j, a, b, ha, hb, hne, hsource, htarget, hmodule⟩
    exact ⟨i, j, nodeOf a, nodeOf b, by rw [List.getElem?_map, ha]; rfl,
      by rw [List.getElem?_map, hb]; rfl, hne.symm,
      (shown_eq_iff hroots (List.mem_of_getElem? ha) hf).2 hsource,
      (shown_eq_iff hroots (List.mem_of_getElem? hb) hf).2 htarget, hmodule⟩

/-- The graph is simple just where no script is found under two roots. -/
theorem isSimple_graphOf_iff (hdisk : s.disk.root.IsTree) :
    s.IsSimple (s.graphOf s.reader) ↔ s.workspace.SharesNone s.disk s.git [] := by
  rw [← Workspace.nodup_absolute_files_iff hdisk hroots]
  constructor
  · intro h
    refine List.nodup_iff_count_eq_one.2 fun path hpath => ?_
    obtain ⟨f, hf, rfl⟩ := List.mem_map.1 hpath
    exact (count_files_graphOf hroots hf).symm.trans (h.listed f hf)
  · intro h
    have hshown : ((s.scripts.map nodeOf).map (IncludeGraph.Node.shown s.root)).Nodup := by
      rw [List.map_map]
      refine List.pairwise_map.2 ((List.pairwise_map.1 h).imp_of_mem ?_)
      exact fun hf hg hne heq => hne ((shown_eq_iff hroots hf hg).1 heq)
    constructor
    · intro f hf
      rw [count_files_graphOf hroots hf]
      exact List.count_eq_one_of_mem h (List.mem_map_of_mem hf)
    · -- Both ends of such an edge would be one place in the list of scripts.
      intro d hd heq
      obtain ⟨i, j, a, b, ha, hb, hne, hsource, htarget⟩ := IncludeGraph.exists_ends hd
      exact hne (IncludeGraph.index_eq_of_shown hshown ha hb (hsource.symm.trans (heq.trans htarget)))

end Roots

/-- The include graph of a workspace, whatever its roots are. Without scripts there is none. Otherwise
every script is listed once for each root that has it, and has an edge to itself just where it names
itself from one of its places at another; the graph is simple just where no script is found under two
roots, as it is for separate roots. -/
theorem graph_isSimple_iff {call : Invocation} {options : Options} {usual : Text} {s : Setup}
    (hs : setUp call options usual = .ok s) (hcwd : Path.isRooted call.disk.cwd = true)
    (hdisk : call.disk.root.IsTree) :
    s.scripts = [] ∧ s.graph = .error .noScripts ∨
      ∃ g, s.graph = .ok g ∧
        (∀ f ∈ s.scripts, g.files.count (Path.relative s.root f.absolute) = s.rootCount f.absolute) ∧
        (∀ f ∈ s.scripts, (∃ d ∈ g.dependencies, d.source = Path.relative s.root f.absolute ∧
          d.target = Path.relative s.root f.absolute) ↔ s.NamesItself f) ∧
        (s.IsSimple g ↔ s.workspace.SharesNone s.disk s.git []) ∧
        (Workspace.AreSeparate s.workspace.roots → s.IsSimple g) := by
  have hroots := isAbsolute_of_mem_roots hs hcwd
  rw [← (setUp_eq_ok hs).1] at hdisk
  by_cases hscripts : s.scripts = []
  · exact .inl ⟨hscripts, if_pos (List.isEmpty_iff.2 hscripts)⟩
  · obtain ⟨doc, hdoc⟩ := List.exists_mem_of_ne_nil _ hscripts
    have hsimple := isSimple_graphOf_iff hroots hdisk
    refine .inr ⟨s.graphOf s.reader, graph_of_mem hdoc, fun f hf => ?_,
      fun f hf => exists_selfEdge_iff hroots hf, hsimple,
      fun hseparate => hsimple.2 (Workspace.sharesNone_of_areSeparate hdisk hseparate)⟩
    exact (count_files_graphOf hroots hf).trans (Workspace.count_absolute_files hdisk hroots _)

/-- A disk with a script that includes itself and one that includes it, and a configuration with
roots. -/
def pairCall (roots : Text) : Invocation :=
  { arguments := ["deps"], disk :=
      ⟨.directory [("gscnav.toml", .file ("workspace.roots=" ++ roots)),
        ("lib", .directory [("a.gsc", .file "#include a;")]),
        ("ext", .directory [("b.gsc", .file "#include a;")])], "/"⟩ }

def pairConfig (roots : List Text) : Config :=
  { Config.default "/" with path := "/gscnav.toml", roots := roots }

def pairSetup (catalog : List Catalog.Entry) (roots : Text) (paths : List Text) : Setup :=
  { disk := (pairCall roots).disk, git := Git.absent, environment := [], config := pairConfig paths
    root := "/", workspace := workspaceOf "/" (pairConfig paths), catalog := catalog
    printer := ⟨.toon, false, "/"⟩ }

theorem isTree_pairCall (roots : Text) : (pairCall roots).disk.root.IsTree := by
  have hnames : ∀ name ∈ (["gscnav.toml", "lib", "ext"] : List Text), Path.IsName name := by decide
  have hnodup : (["gscnav.toml", "lib", "ext"] : List Text).Nodup := by decide
  refine .directory (List.forall_mem_map.1 hnames) hnodup (List.forall_mem_cons.2 ⟨.file _, ?_⟩)
  refine List.forall_mem_cons.2 ⟨?_, List.forall_mem_singleton.2 ?_⟩
  · exact .directory (by decide) (by decide) (List.forall_mem_singleton.2 (.file _))
  · exact .directory (by decide) (by decide) (List.forall_mem_singleton.2 (.file _))

theorem setUp_pairCall {roots : Text} {paths : List Text}
    (hload : Config.load (pairCall roots).disk [] "/" [] = .ok (pairConfig paths)) :
    setUp (pairCall roots) {} "toon" = .ok (pairSetup Catalog.Builtin.entries roots paths) := by
  have hroot : Path.absolute (pairCall roots).disk.cwd ({} : Options).root = "/" :=
    (by decide : Path.absolute "/" Path.here = "/")
  obtain ⟨entries, hstat⟩ : ∃ entries, (pairCall roots).disk.stat "/" = .ok (.directory entries) :=
    ⟨_, rfl⟩
  have hload : Config.load (pairCall roots).disk (pairCall roots).environment "/"
      ({} : Options).config = .ok (pairConfig paths) := hload
  simp only [setUp, hroot, hstat, hload]
  rfl

/-- The catalog has no part in the graph, and is long. -/
theorem graph_pairSetup (catalog : List Catalog.Entry) (roots : Text) (paths : List Text) :
    (pairSetup catalog roots paths).graph = (pairSetup [] roots paths).graph := rfl

/-- Under separate roots the script that includes itself has no edge to itself. -/
theorem graph_isSimple_separate :
    let s := pairSetup Catalog.Builtin.entries "['lib','ext']" ["/lib", "/ext"]
    setUp (pairCall "['lib','ext']") {} "toon" = .ok s ∧
      Workspace.AreSeparate s.workspace.roots ∧
      s.graph = .ok ⟨"/", ["lib/a.gsc", "ext/b.gsc"], [⟨"ext/b.gsc", "lib/a.gsc", ["a"]⟩], []⟩ ∧
      ∀ g, s.graph = .ok g → s.IsSimple g := by
  intro s
  have hs : setUp (pairCall "['lib','ext']") {} "toon" = .ok s := setUp_pairCall rfl
  have hseparate : Workspace.AreSeparate s.workspace.roots :=
    ⟨isAbsolute_of_mem_roots hs (by decide), by decide⟩
  refine ⟨hs, hseparate, by rw [graph_pairSetup]; decide +kernel, fun g hg => ?_⟩
  obtain ⟨-, herror⟩ | ⟨g', hg', -, -, -, hsimple⟩ :=
    graph_isSimple_iff hs (by decide) (isTree_pairCall _)
  · cases hg.symm.trans herror
  · cases hg.symm.trans hg'
    exact hsimple hseparate

theorem scripts_nested :
    (pairSetup [] "['.','lib']" ["/", "/lib"]).scripts =
      [⟨"/", "ext/b.gsc", .server⟩, ⟨"/", "lib/a.gsc", .server⟩, ⟨"/lib", "a.gsc", .server⟩] := by
  let s := pairSetup [] "['.','lib']" ["/", "/lib"]
  have htop : s.workspace.scripts s.disk s.git [] "/" =
      [⟨"/", "ext/b.gsc", .server⟩, ⟨"/", "lib/a.gsc", .server⟩] :=
    Workspace.scripts_eq_of_perm (by decide +kernel) (by decide)
  have hlib : s.workspace.scripts s.disk s.git [] "/lib" = [⟨"/lib", "a.gsc", .server⟩] :=
    Workspace.scripts_eq_of_perm (by decide +kernel) (by decide)
  exact Workspace.files_eq_append (by decide) htop hlib

/-- Where one root lies beneath another, a script is listed twice and has an edge to itself. -/
theorem graph_not_isSimple_nested :
    let s := pairSetup Catalog.Builtin.entries "['.','lib']" ["/", "/lib"]
    let g : IncludeGraph := ⟨"/", ["ext/b.gsc", "lib/a.gsc", "lib/a.gsc"],
      [⟨"ext/b.gsc", "lib/a.gsc", ["a"]⟩, ⟨"lib/a.gsc", "lib/a.gsc", ["a"]⟩], []⟩
    setUp (pairCall "['.','lib']") {} "toon" = .ok s ∧
      (pairCall "['.','lib']").disk.root.IsTree ∧ s.graph = .ok g ∧ ¬ s.IsSimple g := by
  intro s g
  have hgraph : s.graph = .ok g := by
    rw [graph_pairSetup, graph_of_mem (scripts_nested ▸ List.mem_cons_self), graphOf, scripts_nested]
    exact congrArg Except.ok (IncludeGraph.build_eq_of_perm (by decide) (by decide +kernel)
      (by decide) (by decide +kernel))
  refine ⟨setUp_pairCall rfl, isTree_pairCall _, hgraph, fun h => ?_⟩
  exact h.irreflexive ⟨"lib/a.gsc", "lib/a.gsc", ["a"]⟩ (by simp [g]) rfl

end ScriptNav.Command.Setup
