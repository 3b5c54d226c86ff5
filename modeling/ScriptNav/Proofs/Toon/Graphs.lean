import ScriptNav.Proofs.Association
import ScriptNav.Proofs.IncludeGraph
import ScriptNav.Proofs.Script.Includes
import ScriptNav.Proofs.Toon.Tables

/-! Include graphs written as tables. The number in the header of a table tells where the next one
begins; module paths hold no blanks, so a cell gives back the modules of an edge; and a file with
unresolved modules has at least one row. Nothing of a graph is lost, therefore, but the order in
which files with unresolved modules were found. -/
namespace ScriptNav

open Text

namespace Script

theorem ModulePath.blank_notMem {path : Text} (h : ModulePath path) : blank ∉ path := fun hmem =>
  absurd (h.isWord_or_isSeparator _ hmem) (by decide)

end Script

namespace IncludeGraph

/-- What holds of the graph of any files: an edge has modules, and they hold no blank; and a file is
among those with unresolved modules once, if it has any, and else not at all. -/
structure IsProper (g : IncludeGraph) : Prop where
  modules : ∀ d ∈ g.dependencies, d.modules ≠ [] ∧ ∀ module ∈ d.modules, blank ∉ module
  nodup : (g.unresolved.map Prod.fst).Nodup
  unresolved : ∀ entry ∈ g.unresolved, entry.2 ≠ []

theorem modulePath_of_mem_modules {reader : Source.Reader} {n : Node} {module : Text}
    (h : module ∈ n.modules reader) : Script.ModulePath module := by
  unfold Node.modules at h
  split at h
  · exact Script.modulePath_of_mem_includes h
  · cases h

theorem isProper_build (nodes : List Node) (reader : Source.Reader) (root extension : Text) :
    (build nodes reader root extension).IsProper := by
  rw [build_eq]
  constructor
  · intro d hd
    dsimp only at hd
    rw [List.mem_mergeSort, edges_foldl_add] at hd
    obtain ⟨⟨⟨source, target⟩, modules⟩, hmem, rfl⟩ := List.mem_map.1 hd
    obtain ⟨hne, hmodules⟩ := mem_of_mem_collect hmem
    refine ⟨hne, fun module hmodule => ?_⟩
    obtain ⟨d, hd, hedge⟩ := List.mem_flatMap.1 (hmodules module hmodule)
    obtain ⟨_, _, -, -, -, -, rfl, -⟩ := Directive.mem_edges_iff.1 hedge
    exact (modulePath_of_mem_modules (mem_directives_iff.1 hd).2).blank_notMem
  · dsimp only
    rw [unresolved_foldl_add]
    exact nodup_keys_collect _
  · dsimp only
    rw [unresolved_foldl_add]
    exact fun entry hentry => (mem_of_mem_collect hentry).1

end IncludeGraph

namespace Toon

section Sections
variable {name : Text} {columns rest rest' : List Text} {rows rows' : List (List Text)}

theorem header_inj {m n : Nat} (h : header name columns m = header name columns n) : m = n := by
  unfold header at h
  have hfront := List.append_cancel_right (List.append_cancel_right (List.append_cancel_right h))
  have hcount := List.append_cancel_left hfront
  rw [← decimal_ofNat m, hcount, decimal_ofNat]

/-- The lines of a table are told apart from those after it. -/
theorem tableLines_append_inj (hrows : ∀ cells ∈ rows, cells ≠ [])
    (hrows' : ∀ cells ∈ rows', cells ≠ [])
    (h : tableLines name columns rows ++ rest = tableLines name columns rows' ++ rest') :
    rows = rows' ∧ rest = rest' := by
  obtain ⟨hheader, hlines⟩ := List.cons.inj h
  obtain ⟨hsame, hrest⟩ := List.append_inj hlines (by simpa using header_inj hheader)
  refine ⟨?_, hrest⟩
  have hread := congrArg (List.mapM readRow?) hsame
  rw [mapM_map_eq_some fun cells hcells => readRow?_rowLine (hrows cells hcells),
    mapM_map_eq_some fun cells hcells => readRow?_rowLine (hrows' cells hcells)] at hread
  exact Option.some.inj hread

end Sections

section Graph
variable {g g' : IncludeGraph}

def dependencyCells (d : Dependency) : List Text := [d.source, d.target, join [blank] d.modules]

/-- The files with unresolved modules in order, a row for each module. -/
def unresolvedRows (g : IncludeGraph) : List (List Text) :=
  (g.unresolved.mergeSort fun a b => decide (a.1 ≤ b.1)).flatMap fun (file, modules) =>
    modules.map fun module => [file, module]

/-- The lines of a graph. -/
def graphLines (g : IncludeGraph) : List Text :=
  entry "root" g.root :: (tableLines "files" ["path"] (g.files.map fun f => [f]) ++
    (tableLines "includes" ["source", "target", "modules"] (g.dependencies.map dependencyCells) ++
      if g.unresolved.isEmpty then [] else
        tableLines "unresolved" ["file", "module"] (unresolvedRows g)))

theorem split_graph (g : IncludeGraph) : (graph g).split newline = graphLines g := by
  have hroot : (entry "root" g.root).split newline = [entry "root" g.root] := by
    refine split_of_notMem fun hmem => ?_
    obtain hmem | hmem := List.mem_append.1 hmem
    · exact absurd hmem (by decide)
    · exact newline_notMem_value g.root hmem
  have hfiles (rows : List (List Text)) : (table "files" ["path"] rows).split newline =
      tableLines "files" ["path"] rows := split_table (by decide) (by decide) rows
  have hincludes (rows : List (List Text)) :
      (table "includes" ["source", "target", "modules"] rows).split newline =
        tableLines "includes" ["source", "target", "modules"] rows :=
    split_table (by decide) (by decide) rows
  have hunresolved (rows : List (List Text)) :
      (table "unresolved" ["file", "module"] rows).split newline =
        tableLines "unresolved" ["file", "module"] rows :=
    split_table (by decide) (by decide) rows
  unfold graph graphLines lines
  dsimp only
  rw [split_join_eq_flatMap (by simp), List.flatMap_append]
  split_ifs <;>
    simp only [List.flatMap_cons, List.flatMap_nil, hroot, hfiles, hincludes, hunresolved,
      List.append_nil, List.append_assoc, List.cons_append] <;>
    rfl

/-- The modules of a cell. -/
def readDependency? : List Text → Option Dependency
  | [source, target, modules] => some ⟨source, target, modules.split blank⟩
  | _ => none

theorem readDependency?_cells {d : Dependency} (hne : d.modules ≠ [])
    (h : ∀ module ∈ d.modules, blank ∉ module) : readDependency? (dependencyCells d) = some d := by
  rw [dependencyCells, readDependency?, split_join hne h]

/-- The modules of a file among rows. -/
def modulesIn (rows : List (List Text)) (file : Text) : List Text :=
  rows.filterMap fun
    | [f, module] => if f = file then some module else none
    | _ => none

theorem modulesIn_flatMap {entries : List (Text × List Text)} (h : (entries.map Prod.fst).Nodup)
    (file : Text) :
    modulesIn (entries.flatMap fun (file, modules) => modules.map fun module => [file, module])
      file = (entries.lookup file).getD [] := by
  induction entries with
  | nil => rfl
  | cons entry entries ih =>
    obtain ⟨key, modules⟩ := entry
    obtain ⟨hkey, hrest⟩ := List.nodup_cons.1 h
    have hsplit : modulesIn (((key, modules) :: entries).flatMap fun (file, modules) =>
        modules.map fun module => [file, module]) file =
          modulesIn (modules.map fun module => [key, module]) file ++
            (entries.lookup file).getD [] := by
      rw [← ih hrest]
      exact List.filterMap_append
    rw [hsplit, List.lookup_cons, modulesIn, List.filterMap_map]
    by_cases heq : key = file
    · subst heq
      have hnone : entries.lookup key = none := by
        rw [List.lookup_eq_none_iff]
        exact fun entry hentry => bne_iff_ne.2 fun he =>
          hkey (List.mem_map.2 ⟨entry, hentry, he.symm⟩)
      simp [hnone]
    · simp [heq, beq_false_of_ne (Ne.symm heq)]

theorem modulesIn_unresolvedRows (hg : g.IsProper) (file : Text) :
    modulesIn (unresolvedRows g) file = (g.unresolved.lookup file).getD [] := by
  have hperm := List.mergeSort_perm g.unresolved fun a b => decide (a.1 ≤ b.1)
  have hnodup := (hperm.map Prod.fst).symm.nodup hg.nodup
  rw [unresolvedRows, modulesIn_flatMap hnodup, Association.lookup_eq_of_perm hperm hnodup]

theorem ne_nil_of_mem_unresolvedRows : ∀ cells ∈ unresolvedRows g, cells ≠ [] := by
  intro cells hcells
  obtain ⟨⟨file, modules⟩, -, hcells⟩ := List.mem_flatMap.1 hcells
  obtain ⟨module, -, rfl⟩ := List.mem_map.1 hcells
  exact List.cons_ne_nil _ _

theorem lookup_unresolved_eq (hg : g.IsProper) (hg' : g'.IsProper)
    (h : unresolvedRows g = unresolvedRows g') (file : Text) :
    g.unresolved.lookup file = g'.unresolved.lookup file := by
  have hgetD : (g.unresolved.lookup file).getD [] = (g'.unresolved.lookup file).getD [] := by
    rw [← modulesIn_unresolvedRows hg, h, modulesIn_unresolvedRows hg']
  -- A file that is looked up has modules, so one without any is not there.
  have hne {g : IncludeGraph} (hg : g.IsProper) : g.unresolved.lookup file ≠ some [] := by
    rw [ne_eq, Association.lookup_eq_some_iff_mem hg.nodup]
    exact fun hmem => hg.unresolved _ hmem rfl
  have hhere := hne hg
  have hthere := hne hg'
  cases hl : g.unresolved.lookup file <;> cases hl' : g'.unresolved.lookup file <;>
    simp_all

/-- The lines of a graph determine it, apart from the order of its files with unresolved modules. -/
theorem eq_of_graphLines_eq (hg : g.IsProper) (hg' : g'.IsProper)
    (h : graphLines g = graphLines g') :
    g.root = g'.root ∧ g.files = g'.files ∧ g.dependencies = g'.dependencies ∧
      ∀ file, g.unresolved.lookup file = g'.unresolved.lookup file := by
  obtain ⟨hroot, htables⟩ := List.cons.inj h
  obtain ⟨hfiles, htables⟩ := tableLines_append_inj (by simp) (by simp) htables
  obtain ⟨hdependencies, hrest⟩ := tableLines_append_inj (by simp [dependencyCells])
    (by simp [dependencyCells]) htables
  refine ⟨value_injective (List.append_cancel_left hroot), ?_, ?_, ?_⟩
  · exact List.map_injective_iff.2 (fun a b hab => (List.cons.inj hab).1) hfiles
  · have hread {g : IncludeGraph} (hg : g.IsProper) :
        (g.dependencies.map dependencyCells).mapM readDependency? = some g.dependencies :=
      mapM_map_eq_some fun d hd => readDependency?_cells (hg.modules d hd).1 (hg.modules d hd).2
    have hsome := hread hg
    rw [hdependencies, hread hg'] at hsome
    exact (Option.some.inj hsome).symm
  · split_ifs at hrest with hempty hempty' hempty'
    · rw [List.isEmpty_iff.1 hempty, List.isEmpty_iff.1 hempty']
      exact fun _ => rfl
    · cases hrest
    · cases hrest
    · obtain ⟨hrows, -⟩ := tableLines_append_inj ne_nil_of_mem_unresolvedRows
        ne_nil_of_mem_unresolvedRows (congrArg (· ++ []) hrest)
      exact lookup_unresolved_eq hg hg' hrows

theorem graph_eq_of_lookup_eq (hg : g.IsProper) (hg' : g'.IsProper) (hroot : g.root = g'.root)
    (hfiles : g.files = g'.files) (hdependencies : g.dependencies = g'.dependencies)
    (hlookup : ∀ file, g.unresolved.lookup file = g'.unresolved.lookup file) :
    graph g = graph g' := by
  have hperm := Association.perm_of_lookup_eq hg.nodup hg'.nodup hlookup
  have hempty : g.unresolved.isEmpty = g'.unresolved.isEmpty := by
    rw [Bool.eq_iff_iff, List.isEmpty_iff_length_eq_zero, List.isEmpty_iff_length_eq_zero,
      hperm.length_eq]
  unfold graph
  rw [hroot, hfiles, hdependencies, Association.mergeSort_eq_of_perm hperm hg.nodup, hempty]

end Graph

/-- A graph is written without loss: two graphs of files have the same text just if they have the
same root, the same files and edges in the same order, and the same unresolved modules for each
file. -/
theorem graph_lossless (nodes nodes' : List IncludeGraph.Node) (reader reader' : Source.Reader)
    (root root' extension extension' : Text) :
    let g := IncludeGraph.build nodes reader root extension
    let g' := IncludeGraph.build nodes' reader' root' extension'
    graph g = graph g' ↔
      g.root = g'.root ∧ g.files = g'.files ∧ g.dependencies = g'.dependencies ∧
        ∀ file, g.unresolved.lookup file = g'.unresolved.lookup file := by
  intro g g'
  have hg : g.IsProper := IncludeGraph.isProper_build ..
  have hg' : g'.IsProper := IncludeGraph.isProper_build ..
  constructor
  · intro h
    have hlines := congrArg (split newline) h
    rw [split_graph, split_graph] at hlines
    exact eq_of_graphLines_eq hg hg' hlines
  · rintro ⟨hroot, hfiles, hdependencies, hlookup⟩
    exact graph_eq_of_lookup_eq hg hg' hroot hfiles hdependencies hlookup

end Toon
end ScriptNav
