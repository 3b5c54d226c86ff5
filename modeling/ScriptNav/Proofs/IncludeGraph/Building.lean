import Mathlib.Data.List.Nodup
import ScriptNav.Proofs.IncludeGraph
import ScriptNav.Proofs.Path
import ScriptNav.Proofs.Workers

/-! The include graph as it is built. The files are read by workers that finish in any order, and the
edges are gathered in a table that gives them back in any order before they are sorted. However that
goes, the graph is the same, and it holds exactly what the files say: an edge for each module of one
file that names another, and the modules of each file that name none. -/
namespace ScriptNav.IncludeGraph

open Text Workers

section Order
variable {a b : Dependency}

theorem before_iff : before a b = true ↔
    a.source < b.source ∨ a.source = b.source ∧ a.target ≤ b.target := by
  rw [before]
  by_cases h : a.source = b.source
  · simp [h, Std.lt_irrefl]
  · simp only [beq_iff_eq, h, if_false, decide_eq_true_eq, false_and, or_false]
    exact ⟨fun hle => Std.lt_of_le_of_ne hle h, Std.le_of_lt⟩

theorem before_trans (a b c : Dependency) (hab : before a b = true) (hbc : before b c = true) :
    before a c = true := by
  rw [before_iff] at hab hbc ⊢
  obtain hab | ⟨hab, hab'⟩ := hab <;> obtain hbc | ⟨hbc, hbc'⟩ := hbc
  · exact .inl (Std.lt_trans hab hbc)
  · exact .inl (hbc ▸ hab)
  · exact .inl (hab ▸ hbc)
  · exact .inr ⟨hab.trans hbc, Std.le_trans hab' hbc'⟩

theorem before_total (a b : Dependency) : (before a b || before b a) = true := by
  rw [Bool.or_eq_true, before_iff, before_iff]
  by_cases h : a.source = b.source
  · exact (Std.le_total (a := a.target) (b := b.target)).imp (fun hle => .inr ⟨h, hle⟩)
      fun hle => .inr ⟨h.symm, hle⟩
  · exact (Std.le_total (a := a.source) (b := b.source)).imp
      (fun hle => .inl (Std.lt_of_le_of_ne hle h))
      fun hle => .inl (Std.lt_of_le_of_ne hle (Ne.symm h))

/-- Edges that stand before one another have the same ends. -/
theorem ends_eq_of_before (hab : before a b = true) (hba : before b a = true) :
    a.source = b.source ∧ a.target = b.target := by
  rw [before_iff] at hab hba
  obtain hab | ⟨hsource, hab⟩ := hab <;> obtain hba | ⟨hsource', hba⟩ := hba
  · exact absurd (Std.lt_trans hab hba) Std.lt_irrefl
  · exact absurd (hsource' ▸ hab) Std.lt_irrefl
  · exact absurd (hsource ▸ hba) Std.lt_irrefl
  · exact ⟨hsource, Std.le_antisymm hab hba⟩

/-- The ends of edges in a strict order. -/
def Precedes (a b : Dependency) : Prop :=
  a.source < b.source ∨ a.source = b.source ∧ a.target < b.target

theorem precedes_of_before (hab : before a b = true)
    (hne : (a.source, a.target) ≠ (b.source, b.target)) : Precedes a b := by
  obtain h | ⟨hsource, htarget⟩ := before_iff.1 hab
  · exact .inl h
  · exact .inr ⟨hsource, Std.lt_of_le_of_ne htarget fun h => hne (by rw [hsource, h])⟩

end Order

section Collect
variable {κ : Type} [BEq κ] [LawfulBEq κ] {pairs : List (κ × Text)} {key : κ}

/-- What is collected for a key that is there. -/
theorem eq_of_mem_collect {items : List Text} (h : (key, items) ∈ collect pairs) :
    items = ((pairs.filter (·.1 == key)).map Prod.snd).eraseDups := by
  have hlookup := (Association.lookup_eq_some_iff_mem (nodup_keys_collect pairs)).2 h
  rw [← itemsOf_collect, itemsOf, hlookup, Option.getD_some]

theorem exists_mem_collect_iff {item : Text} :
    (∃ items, (key, items) ∈ collect pairs ∧ item ∈ items) ↔ (key, item) ∈ pairs := by
  constructor
  · rintro ⟨items, h, hitem⟩
    exact (mem_of_mem_collect h).2 item hitem
  · intro h
    obtain ⟨⟨_, items⟩, hmem, rfl⟩ :=
      List.mem_map.1 (mem_keys_collect.2 (List.mem_map_of_mem (f := Prod.fst) h))
    refine ⟨items, hmem, ?_⟩
    rw [eq_of_mem_collect hmem, List.mem_eraseDups]
    exact List.mem_map.2 ⟨_, List.mem_filter.2 ⟨h, by simp⟩, rfl⟩

/-- Without repetitions items stand in the order of their first occurrences. -/
theorem pairwise_eraseDups (items : List Text) :
    items.eraseDups.Pairwise fun m n => items.idxOf m < items.idxOf n := by
  induction items using List.reverseRec with
  | nil => exact .nil
  | append_singleton items item ih =>
    have hfront : items.eraseDups.Pairwise fun m n =>
        (items ++ [item]).idxOf m < (items ++ [item]).idxOf n := by
      refine ih.imp_of_mem fun {m n} hm hn hlt => ?_
      rwa [List.idxOf_append_of_mem (List.mem_eraseDups.1 hm),
        List.idxOf_append_of_mem (List.mem_eraseDups.1 hn)]
    rw [eraseDups_concat]
    split_ifs with hitem
    · exact hfront
    · have hnew : item ∉ items := by simpa using hitem
      refine List.pairwise_append.2 ⟨hfront, List.pairwise_singleton _ _, fun m hm n hn => ?_⟩
      rw [List.mem_eraseDups] at hm
      rw [List.mem_singleton.1 hn, List.idxOf_append_of_mem hm, List.idxOf_append_of_notMem hnew]
      exact Nat.lt_of_lt_of_le (List.idxOf_lt_length_of_mem hm) (Nat.le_add_right _ _)

end Collect

/-- The edge of an entry of the table. -/
def ofEntry (entry : (Text × Text) × List Text) : Dependency := ⟨entry.1.1, entry.1.2, entry.2⟩

/-- What is gathered from files, by the modules that were read from each of them. -/
def gather (nodes : List Node) (modules : List (List Text)) (extension root : Text) : Links :=
  ((nodes.zip modules).zipIdx.flatMap fun ((node, modules), index) =>
    modules.map (Directive.mk node index)).foldl (Links.add nodes extension root) {}

/-- How many workers there are: as many as are asked for, or one for each processor. -/
def workerCount (processors : Nat) (asked : Int) : Nat :=
  if asked ≤ 0 then processors else asked.toNat

theorem workerCount_pos {processors : Nat} (h : 0 < processors) (asked : Int) :
    0 < workerCount processors asked := by
  rw [workerCount]
  split <;> omega

/-- The files are read further. -/
abbrev Reads (nodes : List Node) (reader : Source.Reader) (workers : Nat) :
    Pool (List Text) → Pool (List Text) → Prop :=
  Pool.Runs (min workers nodes.length) (nodes.map (Node.modules reader))

/-- A graph that building can come to. Workers read the remaining files in any order, each into its
slot; what the slots hold is gathered; and the entries of both tables come out in any order, the edges
to be sorted. -/
inductive Builds (nodes : List Node) (reader : Source.Reader) (root extension : Text) (workers : Nat)
    (pool : Pool (List Text)) : IncludeGraph → Prop
  | intro {last : Pool (List Text)} {dependencies : List Dependency}
      {unresolved : List (Text × List Text)} (reads : Reads nodes reader workers pool last)
      (finished : last.IsFinished nodes.length)
      (edges : dependencies.Perm ((gather nodes last.slots extension root).edges.map ofEntry))
      (sorted : dependencies.Pairwise fun a b => before a b = true)
      (rest : unresolved.Perm (gather nodes last.slots extension root).unresolved) :
      Builds nodes reader root extension workers pool
        ⟨root, nodes.map (Node.shown root), dependencies, unresolved⟩

/-- Graphs that differ at most in the order in which the files with unresolved modules come. -/
structure Agrees (g g' : IncludeGraph) : Prop where
  root : g.root = g'.root
  files : g.files = g'.files
  dependencies : g.dependencies = g'.dependencies
  unresolved : ∀ file, g.unresolved.lookup file = g'.unresolved.lookup file

section Builds
variable {nodes : List Node} {reader : Source.Reader} {root extension : Text} {workers : Nat}
  {g : IncludeGraph}

theorem gather_modules :
    gather nodes (nodes.map (Node.modules reader)) extension root =
      (directives nodes reader).foldl (Links.add nodes extension root) {} := by
  rw [gather, ← List.map_prod_left_eq_zip, List.zipIdx_map, List.flatMap_map, directives]
  rfl

/-- The entries of the table of edges are told apart by their ends. -/
theorem nodup_ends (ds : List Directive) :
    (((ds.foldl (Links.add nodes extension root) {}).edges.map ofEntry).map fun d =>
      (d.source, d.target)).Nodup := by
  rw [List.map_map, edges_foldl_add]
  exact nodup_keys_collect _

theorem root_build : (build nodes reader root extension).root = root := by
  rw [build_eq]

theorem files_build :
    (build nodes reader root extension).files = nodes.map (Node.shown root) := by
  rw [build_eq]

theorem dependencies_build :
    (build nodes reader root extension).dependencies =
      (((directives nodes reader).foldl (Links.add nodes extension root) {}).edges.map
        ofEntry).mergeSort before := by
  rw [build_eq]
  rfl

theorem mem_dependencies_iff {source target : Text} {modules : List Text} :
    ⟨source, target, modules⟩ ∈ (build nodes reader root extension).dependencies ↔
      ((source, target), modules) ∈
        collect ((directives nodes reader).flatMap (Directive.edges nodes extension root)) := by
  rw [dependencies_build, List.mem_mergeSort, edges_foldl_add, List.mem_map]
  constructor
  · rintro ⟨⟨⟨_, _⟩, _⟩, hmem, heq⟩
    cases heq
    exact hmem
  · exact fun hmem => ⟨_, hmem, rfl⟩

theorem pairwise_before_dependencies :
    (build nodes reader root extension).dependencies.Pairwise fun a b => before a b = true := by
  rw [dependencies_build]
  exact List.pairwise_mergeSort before_trans before_total _

theorem nodup_ends_dependencies :
    ((build nodes reader root extension).dependencies.map fun d => (d.source, d.target)).Nodup := by
  rw [dependencies_build]
  exact ((List.mergeSort_perm _ _).map _).symm.nodup (nodup_ends _)

theorem unresolved_build_eq :
    (build nodes reader root extension).unresolved =
      ((directives nodes reader).foldl (Links.add nodes extension root) {}).unresolved := by
  rw [build_eq]

/-- Whatever the order in which edges are taken from their table, they are listed in one. -/
theorem dependencies_build_of_perm {edges : List Dependency}
    (hperm : edges.Perm
      (((directives nodes reader).foldl (Links.add nodes extension root) {}).edges.map ofEntry))
    (hsorted : edges.Pairwise fun a b => before a b = true) :
    (build nodes reader root extension).dependencies = edges := by
  have hdependencies : (build nodes reader root extension).dependencies.Perm edges := by
    rw [dependencies_build]
    exact (List.mergeSort_perm _ _).trans hperm.symm
  refine hdependencies.eq_of_pairwise (fun a b ha hb hab hba => ?_) pairwise_before_dependencies
    hsorted
  obtain ⟨hsource, htarget⟩ := ends_eq_of_before hab hba
  exact List.inj_on_of_nodup_map nodup_ends_dependencies ha (hdependencies.mem_iff.2 hb)
    (Prod.ext hsource htarget)

theorem build_eq_of_perm {files : List Text} {edges : List Dependency}
    {unresolved : List (Text × List Text)} (hfiles : nodes.map (Node.shown root) = files)
    (hperm : edges.Perm
      (((directives nodes reader).foldl (Links.add nodes extension root) {}).edges.map ofEntry))
    (hsorted : edges.Pairwise fun a b => before a b = true)
    (hunresolved :
      ((directives nodes reader).foldl (Links.add nodes extension root) {}).unresolved =
        unresolved) :
    build nodes reader root extension = ⟨root, files, edges, unresolved⟩ := by
  rw [← hfiles, ← dependencies_build_of_perm hperm hsorted, ← hunresolved, build_eq]

section Reads
variable {pool : Pool (List Text)}
  (hpool : Reads nodes reader workers (.start [] nodes.length) pool)
include hpool

theorem inv_of_reads : pool.Inv (nodes.map (Node.modules reader)) := by
  refine Pool.Runs.inv hpool ?_
  simpa using Pool.inv_start [] (nodes.map (Node.modules reader))

/-- However the files are read, the slots come to hold the modules of the files. -/
theorem slots_eq (hf : pool.IsFinished nodes.length) :
    pool.slots = nodes.map (Node.modules reader) := by
  refine (inv_of_reads hpool).slots_eq ?_
  simpa using hf

/-- Whatever the order in which files are read and tables are emptied, the graph is the same. -/
theorem Builds.agrees (h : Builds nodes reader root extension workers pool g) :
    Agrees g (build nodes reader root extension) := by
  obtain ⟨hreads, hf, hedges, hsorted, hrest⟩ := h
  rw [slots_eq (hpool.trans hreads) hf, gather_modules] at hedges hrest
  refine ⟨root_build.symm, files_build.symm, (dependencies_build_of_perm hedges hsorted).symm,
    fun file => ?_⟩
  rw [unresolved_build_eq]
  refine Association.lookup_eq_of_perm hrest ((hrest.map Prod.fst).symm.nodup ?_) file
  rw [unresolved_foldl_add]
  exact nodup_keys_collect _

/-- Whatever was read so far, building comes to its end, and to the graph. -/
theorem builds_build (hw : 0 < workers) :
    Builds nodes reader root extension workers pool (build nodes reader root extension) := by
  have hlimit : nodes.map (Node.modules reader) ≠ [] → 0 < min workers nodes.length := by
    intro hne
    exact Nat.lt_min.2 ⟨hw, by simpa using List.length_pos_iff.2 hne⟩
  obtain ⟨last, hreads, hf⟩ := (inv_of_reads hpool).exists_finished hlimit
  rw [List.length_map] at hf
  have hbuild : build nodes reader root extension =
      ⟨root, nodes.map (Node.shown root), (build nodes reader root extension).dependencies,
        (build nodes reader root extension).unresolved⟩ := by
    rw [build_eq]
  rw [hbuild]
  refine .intro hreads hf ?_ pairwise_before_dependencies ?_
  · rw [slots_eq (hpool.trans hreads) hf, gather_modules, dependencies_build]
    exact List.mergeSort_perm _ _
  · rw [slots_eq (hpool.trans hreads) hf, gather_modules, unresolved_build_eq]

end Reads
end Builds

section Edges
variable {nodes : List Node} {reader : Source.Reader} {root extension : Text}

section Between
variable (h : (nodes.map (Node.shown root)).Nodup)
include h

/-- A file with its place is found by how it is shown. -/
theorem filter_zipIdx_shown {j : Nat} {b : Node} (hb : nodes[j]? = some b) :
    (nodes.zipIdx.filter fun e => e.1.shown root == b.shown root) = [(b, j)] := by
  have hnodup : nodes.zipIdx.Nodup := by
    refine List.Nodup.of_map Prod.snd ?_
    rw [List.zipIdx_map_snd]
    exact List.nodup_range'
  rw [← List.perm_singleton, List.perm_ext_iff_of_nodup (hnodup.filter _) (List.nodup_singleton _)]
  rintro ⟨c, k⟩
  rw [List.mem_filter, List.mem_zipIdx_iff_getElem?, List.mem_singleton, beq_iff_eq, Prod.mk.injEq]
  constructor
  · rintro ⟨hc, heq⟩
    obtain rfl := index_eq_of_shown h hc hb heq
    exact ⟨Option.some.inj (hc.symm.trans hb), rfl⟩
  · rintro ⟨rfl, rfl⟩
    exact ⟨hb, rfl⟩

omit h in
theorem flatMap_ite_singleton (p : Directive → Bool) (ds : List Directive) :
    (ds.flatMap fun d => if p d = true then [d.module] else []) =
      (ds.filter p).map Directive.module := by
  induction ds with
  | nil => rfl
  | cons d ds ih =>
    rw [List.flatMap_cons, ih, List.filter_cons]
    split <;> rfl

variable {i j : Nat} {a b : Node} (ha : nodes[i]? = some a) (hb : nodes[j]? = some b) (hne : i ≠ j)
include ha hb hne

/-- The part of a directive in the edge from one file to another. -/
theorem Directive.edges_between {d : Directive} (hd : d ∈ directives nodes reader) :
    ((d.edges nodes extension root).filter (·.1 == (a.shown root, b.shown root))).map Prod.snd =
      if (d.node.shown root == a.shown root &&
        Script.namesFile b.path (d.node.pattern extension d.module)) = true then [d.module]
      else [] := by
  obtain ⟨hnode, -⟩ := mem_directives_iff.1 hd
  have hedges : (d.edges nodes extension root).filter (·.1 == (a.shown root, b.shown root)) =
      (((d.targets nodes extension).filter fun e => e.2 != d.index).filter fun e =>
        d.node.shown root == a.shown root && e.1.shown root == b.shown root).map fun e =>
          ((d.node.shown root, e.1.shown root), d.module) := by
    rw [Directive.edges, List.filter_map]
    rfl
  rw [hedges, List.map_map]
  by_cases hsource : d.node.shown root = a.shown root
  · have hindex : j ≠ d.index := fun hj =>
      hne ((index_eq_of_shown h hnode ha hsource).symm.trans hj.symm)
    have htarget : (((d.targets nodes extension).filter fun e => e.2 != d.index).filter fun e =>
        d.node.shown root == a.shown root && e.1.shown root == b.shown root) =
        [(b, j)].filter fun e =>
          Script.namesFile e.1.path (d.node.pattern extension d.module) && e.2 != d.index := by
      rw [← filter_zipIdx_shown h hb, Directive.targets, List.filter_filter, List.filter_filter,
        List.filter_filter]
      refine List.filter_congr fun e _ => ?_
      simp only [hsource, BEq.rfl, Bool.true_and]
      ac_rfl
    rw [htarget, List.filter_singleton]
    simp only [hsource, bne_iff_ne.2 hindex, BEq.rfl, Bool.true_and, Bool.and_true]
    cases Script.namesFile b.path (d.node.pattern extension d.module) <;> rfl
  · have hnone : ((d.targets nodes extension).filter fun e => e.2 != d.index).filter (fun e =>
        d.node.shown root == a.shown root && e.1.shown root == b.shown root) = [] := by
      simp [hsource]
    rw [hnone]
    simp [hsource]

/-- The edge from one file to another has the modules of the one that name the other, in the order in
which they come first. -/
theorem modules_between {modules : List Text}
    (hmem : ((a.shown root, b.shown root), modules) ∈
      collect ((directives nodes reader).flatMap (Directive.edges nodes extension root))) :
    modules = (a.modules reader).eraseDups.filter fun module =>
      Script.namesFile b.path (a.pattern extension module) := by
  have hdirectives : ((directives nodes reader).flatMap fun d =>
      ((d.edges nodes extension root).filter (·.1 == (a.shown root, b.shown root))).map Prod.snd) =
      ((directives nodes reader).filter fun d => d.node.shown root == a.shown root &&
        Script.namesFile b.path (d.node.pattern extension d.module)).map Directive.module := by
    rw [List.flatMap_congr fun d hd => Directive.edges_between h ha hb hne hd, flatMap_ite_singleton]
  rw [eq_of_mem_collect hmem, List.filter_flatMap, List.map_flatMap, hdirectives,
    map_module_directives fun node module => node.shown root == a.shown root &&
      Script.namesFile b.path (node.pattern extension module),
    flatMap_filter_and, filter_shown_eq h (List.mem_of_getElem? ha), List.flatMap_singleton,
    filter_eraseDups]

end Between

/-- A module is listed on an edge just where it is a module of one file and names another. -/
theorem exists_listed_iff {source target module : Text} :
    (∃ d ∈ (build nodes reader root extension).dependencies,
        d.source = source ∧ d.target = target ∧ module ∈ d.modules) ↔
      ∃ (i j : Nat) (a b : Node), nodes[i]? = some a ∧ nodes[j]? = some b ∧ i ≠ j ∧
        a.shown root = source ∧ b.shown root = target ∧ module ∈ a.modules reader ∧
          Script.namesFile b.path (a.pattern extension module) = true := by
  have hedge : (∃ d ∈ (build nodes reader root extension).dependencies,
      d.source = source ∧ d.target = target ∧ module ∈ d.modules) ↔
      ((source, target), module) ∈
        (directives nodes reader).flatMap (Directive.edges nodes extension root) := by
    rw [← exists_mem_collect_iff]
    constructor
    · rintro ⟨⟨_, _, modules⟩, hd, rfl, rfl, hmodule⟩
      exact ⟨modules, mem_dependencies_iff.1 hd, hmodule⟩
    · rintro ⟨modules, hmem, hmodule⟩
      exact ⟨⟨source, target, modules⟩, mem_dependencies_iff.2 hmem, rfl, rfl, hmodule⟩
  rw [hedge]
  simp only [List.mem_flatMap, mem_directives_iff, Directive.mem_edges_iff]
  constructor
  · rintro ⟨⟨a, i, _⟩, ⟨ha, hmodule⟩, j, b, hb, hne, hsource, htarget, rfl, hnames⟩
    exact ⟨i, j, a, b, ha, hb, hne.symm, hsource, htarget, hmodule, hnames⟩
  · rintro ⟨i, j, a, b, ha, hb, hne, hsource, htarget, hmodule, hnames⟩
    exact ⟨⟨a, i, module⟩, ⟨ha, hmodule⟩, j, b, hb, hne.symm, hsource, htarget, rfl, hnames⟩

/-- Every edge joins two files. -/
theorem exists_ends {d : Dependency} (hd : d ∈ (build nodes reader root extension).dependencies) :
    ∃ (i j : Nat) (a b : Node), nodes[i]? = some a ∧ nodes[j]? = some b ∧ i ≠ j ∧
      d.source = a.shown root ∧ d.target = b.shown root := by
  obtain ⟨i, j, a, b, ha, hb, hne, hsource, htarget, -⟩ :=
    exists_dependency_iff.1 ⟨d, hd, rfl, rfl⟩
  exact ⟨i, j, a, b, ha, hb, hne.symm, hsource.symm, htarget.symm⟩

end Edges

/-- What the graph of files is to be. -/
structure IsExact (nodes : List Node) (reader : Source.Reader) (root extension : Text)
    (g : IncludeGraph) : Prop where
  /-- The files are shown in their order. -/
  files : g.files = nodes.map (Node.shown root)
  increasing : g.dependencies.Pairwise Precedes
  /-- An edge joins two files, by modules of the one that come in the order of its directives. -/
  edges : ∀ d ∈ g.dependencies, ∃ (i j : Nat) (a b : Node), nodes[i]? = some a ∧
    nodes[j]? = some b ∧ i ≠ j ∧ d.source = a.shown root ∧ d.target = b.shown root ∧
      d.modules ≠ [] ∧ d.modules.Nodup ∧
        d.modules.Pairwise fun m n => (a.modules reader).idxOf m < (a.modules reader).idxOf n
  listed : ∀ {i j : Nat} {a b : Node}, nodes[i]? = some a → nodes[j]? = some b → ∀ module,
    (∃ d ∈ g.dependencies, d.source = a.shown root ∧ d.target = b.shown root ∧
        module ∈ d.modules) ↔
      i ≠ j ∧ ∃ text, reader a.absolute = .ok text ∧ module ∈ Script.includes text ∧
        Script.namesFile b.path (a.pattern extension module) = true
  unresolved : ∀ a ∈ nodes, ∀ module, module ∈ itemsOf (a.shown root) g.unresolved ↔
    ∃ text, reader a.absolute = .ok text ∧ module ∈ Script.includes text ∧
      ∀ b ∈ nodes, Script.namesFile b.path (a.pattern extension module) = false
  disjoint : ∀ d ∈ g.dependencies, ∀ module ∈ d.modules, module ∉ itemsOf d.source g.unresolved

theorem mem_modules_iff {reader : Source.Reader} {a : Node} {module : Text} :
    module ∈ a.modules reader ↔
      ∃ text, reader a.absolute = .ok text ∧ module ∈ Script.includes text := by
  rw [Node.modules]
  cases reader a.absolute with
  | ok text => simp
  | error e => simp

section Exact
variable {nodes : List Node} {reader : Source.Reader} {root extension : Text} {g g' : IncludeGraph}

theorem IsExact.of_agrees (h : IsExact nodes reader root extension g) (hg : Agrees g' g) :
    IsExact nodes reader root extension g' := by
  have hitems (file : Text) : itemsOf file g'.unresolved = itemsOf file g.unresolved := by
    rw [itemsOf, itemsOf, hg.unresolved]
  constructor
  · exact hg.files.trans h.files
  · exact hg.dependencies ▸ h.increasing
  · exact hg.dependencies ▸ h.edges
  · exact hg.dependencies ▸ h.listed
  · simpa only [hitems] using h.unresolved
  · simpa only [hg.dependencies, hitems] using h.disjoint

section Build
variable (h : (nodes.map (Node.shown root)).Nodup)
include h

theorem exists_listed_iff_of_nodup {i j : Nat} {a b : Node} (ha : nodes[i]? = some a)
    (hb : nodes[j]? = some b) (module : Text) :
    (∃ d ∈ (build nodes reader root extension).dependencies,
        d.source = a.shown root ∧ d.target = b.shown root ∧ module ∈ d.modules) ↔
      i ≠ j ∧ ∃ text, reader a.absolute = .ok text ∧ module ∈ Script.includes text ∧
        Script.namesFile b.path (a.pattern extension module) = true := by
  rw [exists_listed_iff]
  constructor
  · rintro ⟨i', j', a', b', ha', hb', hne, hsource, htarget, hmodule, hnames⟩
    obtain rfl := index_eq_of_shown h ha' ha hsource
    obtain rfl := index_eq_of_shown h hb' hb htarget
    obtain rfl := Option.some.inj (ha'.symm.trans ha)
    obtain rfl := Option.some.inj (hb'.symm.trans hb)
    obtain ⟨text, htext, hincludes⟩ := mem_modules_iff.1 hmodule
    exact ⟨hne, text, htext, hincludes, hnames⟩
  · rintro ⟨hne, text, htext, hincludes, hnames⟩
    exact ⟨i, j, a, b, ha, hb, hne, rfl, rfl, mem_modules_iff.2 ⟨text, htext, hincludes⟩, hnames⟩

theorem mem_unresolved_iff_of_nodup {a : Node} (ha : a ∈ nodes) (module : Text) :
    module ∈ itemsOf (a.shown root) (build nodes reader root extension).unresolved ↔
      ∃ text, reader a.absolute = .ok text ∧ module ∈ Script.includes text ∧
        ∀ b ∈ nodes, Script.namesFile b.path (a.pattern extension module) = false := by
  rw [unresolved_build_of_nodup h ha, List.mem_eraseDups, List.mem_filter, mem_modules_iff]
  simp only [List.all_eq_true, Bool.not_eq_true', ← and_assoc, exists_and_right]

theorem isExact_build : IsExact nodes reader root extension (build nodes reader root extension) := by
  refine ⟨files_build, ?_, ?_, exists_listed_iff_of_nodup h,
    fun a => mem_unresolved_iff_of_nodup h, ?_⟩
  · exact (pairwise_before_dependencies.and (List.pairwise_map.1 nodup_ends_dependencies)).imp
      fun ⟨hbefore, hne⟩ => precedes_of_before hbefore hne
  · rintro ⟨_, _, modules⟩ hd
    obtain ⟨i, j, a, b, ha, hb, hne, rfl, rfl⟩ := exists_ends hd
    have hmem := mem_dependencies_iff.1 hd
    have hordered : modules.Pairwise fun m n =>
        (a.modules reader).idxOf m < (a.modules reader).idxOf n := by
      rw [modules_between h ha hb hne hmem]
      exact (pairwise_eraseDups _).filter _
    have hnodup : modules.Nodup := hordered.imp fun hlt =>
      ne_of_apply_ne (fun m => (a.modules reader).idxOf m) hlt.ne
    exact ⟨i, j, a, b, ha, hb, hne, rfl, rfl, (mem_of_mem_collect hmem).1, hnodup, hordered⟩
  · intro d hd module hmodule hnone
    obtain ⟨i, j, a, b, ha, hb, -, hsource, htarget⟩ := exists_ends hd
    rw [hsource] at hnone
    obtain ⟨-, -, -, -, hnames⟩ :=
      (exists_listed_iff_of_nodup h ha hb module).1 ⟨d, hd, hsource, htarget, hmodule⟩
    obtain ⟨-, -, -, hall⟩ := (mem_unresolved_iff_of_nodup h (List.mem_of_getElem? ha) module).1 hnone
    exact Bool.noConfusion (hnames.symm.trans (hall b (List.mem_of_getElem? hb)))

end Build

/-- Building is sound, complete and canonical. However many workers there are, whatever was read so far
and in whatever order all is done from there, building comes to its end, every graph that it comes to
is the same one, and that graph is exact. -/
theorem builds_exact {processors : Nat} (hprocessors : 0 < processors) (asked : Int)
    (hroots : ∀ n ∈ nodes, Path.isRooted n.root = true)
    (hdistinct : (nodes.map Node.absolute).Nodup) {pool : Pool (List Text)}
    (hpool : Reads nodes reader (workerCount processors asked) (.start [] nodes.length) pool) :
    Builds nodes reader root extension (workerCount processors asked) pool
        (build nodes reader root extension) ∧
      ∀ g, Builds nodes reader root extension (workerCount processors asked) pool g →
        Agrees g (build nodes reader root extension) ∧ IsExact nodes reader root extension g := by
  have habsolute : ∀ n ∈ nodes, Path.IsAbsolute n.absolute := fun n hn =>
    Path.isAbsolute_append (hroots n hn) n.path
  have hexact : IsExact nodes reader root extension (build nodes reader root extension) :=
    isExact_build (nodup_shown habsolute hdistinct root)
  refine ⟨builds_build hpool (workerCount_pos hprocessors asked), fun g hg => ?_⟩
  exact ⟨hg.agrees hpool, hexact.of_agrees (hg.agrees hpool)⟩

end Exact

/-- Three files under two roots, the last of which is not there. -/
def tripleNodes : List Node := [⟨"/w", "a.gsc"⟩, ⟨"/ext", "b.gsc"⟩, ⟨"/w", "gone.gsc"⟩]

def tripleTexts : Source.Overlay :=
  [("/w/a.gsc", "#include z;#include gone;#include B;#include b;#include B;#include a;"),
    ("/ext/b.gsc", "#include a;")]

def tripleReader : Source.Reader := fun path =>
  match tripleTexts.get? path with
  | some text => .ok text
  | none => .error ⟨path, .unknown⟩

/-- Two workers, the second of which is done first. -/
theorem builds_exact_triple :
    let nodes := tripleNodes
    let graph := build nodes tripleReader "/w" []
    let pool : Pool (List Text) := ⟨2, [0], [[], [ofString "a"], []]⟩
    Reads nodes tripleReader (workerCount 8 2) (.start [] 3) pool ∧
      Builds nodes tripleReader "/w" [] (workerCount 8 2) pool graph ∧
      IsExact nodes tripleReader "/w" [] graph ∧
      graph = {
        root := "/w"
        files := ["a.gsc", "/ext/b.gsc", "gone.gsc"]
        dependencies := [⟨"/ext/b.gsc", "a.gsc", ["a"]⟩, ⟨"a.gsc", "/ext/b.gsc", ["B", "b"]⟩,
          ⟨"a.gsc", "gone.gsc", ["gone"]⟩]
        unresolved := [("a.gsc", ["z"])] } := by
  intro nodes graph pool
  have hpool : Reads nodes tripleReader (workerCount 8 2) (.start [] 3) pool := by
    have hresult : (nodes.map (Node.modules tripleReader))[1]? = some [ofString "a"] := by
      decide +kernel
    refine .head (.take (by decide) (by decide)) (.head (.take (by decide) (by decide)) ?_)
    exact .single (.finish (List.mem_cons_self ..) hresult)
  obtain ⟨hbuilds, hexact⟩ := builds_exact (by decide : 0 < 8) 2 (by decide : ∀ n ∈ nodes, _)
    (by decide : (nodes.map Node.absolute).Nodup) hpool
  refine ⟨hpool, hbuilds, (hexact graph hbuilds).2, ?_⟩
  exact build_eq_of_perm (by decide) (by decide +kernel) (by decide) (by decide +kernel)

end ScriptNav.IncludeGraph
