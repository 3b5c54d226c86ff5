import Mathlib.Data.List.Induction
import Mathlib.Data.List.Nodup
import ScriptNav.IncludeGraph
import ScriptNav.Proofs.Association
import ScriptNav.Proofs.Path

/-! The include graph as a whole. The graph is gathered module by module, in the order of the files
and of their directives; what is gathered is stated here for all files at once: an edge for every
module of one file that names another, and the modules that name no file at all. -/
namespace ScriptNav.IncludeGraph

open Text

section Collect
variable {κ : Type} [BEq κ] [LawfulBEq κ]

/-- Adds items to the lists of their keys, one after another. -/
def addAll (found : List (κ × List Text)) (pairs : List (κ × Text)) : List (κ × List Text) :=
  pairs.foldl (fun found pair => addTo pair.1 pair.2 found) found

/-- The items of each key, in the order of their first occurrences. -/
def collect (pairs : List (κ × Text)) : List (κ × List Text) := addAll [] pairs

/-- The items that are found for a key. -/
def itemsOf (key : κ) (found : List (κ × List Text)) : List Text := (found.lookup key).getD []

theorem mem_keys_addTo {key other : κ} {item : Text} {found : List (κ × List Text)} :
    other ∈ (addTo key item found).map Prod.fst ↔ other = key ∨ other ∈ found.map Prod.fst := by
  induction found with
  | nil => simp [addTo]
  | cons entry found ih =>
    rw [addTo]
    split
    · next h => simp [eq_of_beq h]
    · simp only [List.map_cons, List.mem_cons, ih]
      exact or_left_comm

omit [LawfulBEq κ] in
theorem collect_append (pairs more : List (κ × Text)) :
    collect (pairs ++ more) = addAll (collect pairs) more := List.foldl_append

omit [LawfulBEq κ] in
theorem collect_concat (pairs : List (κ × Text)) (pair : κ × Text) :
    collect (pairs ++ [pair]) = addTo pair.1 pair.2 (collect pairs) := collect_append pairs [pair]

theorem mem_keys_collect {key : κ} {pairs : List (κ × Text)} :
    key ∈ (collect pairs).map Prod.fst ↔ key ∈ pairs.map Prod.fst := by
  induction pairs using List.reverseRec with
  | nil => rfl
  | append_singleton pairs pair ih =>
    rw [collect_concat, mem_keys_addTo, ih]
    simp [or_comm]

theorem itemsOf_cons_self (key : κ) (items : List Text) (found : List (κ × List Text)) :
    itemsOf key ((key, items) :: found) = items := by
  simp [itemsOf]

theorem itemsOf_cons_of_ne {key other : κ} (hne : other ≠ key) (items : List Text)
    (found : List (κ × List Text)) :
    itemsOf other ((key, items) :: found) = itemsOf other found := by
  have hbeq : (other == key) = false := beq_eq_false_iff_ne.2 hne
  simp [itemsOf, List.lookup_cons, hbeq]

theorem itemsOf_addTo_self (key : κ) (item : Text) (found : List (κ × List Text)) :
    itemsOf key (addTo key item found) =
      if (itemsOf key found).contains item then itemsOf key found
      else itemsOf key found ++ [item] := by
  induction found with
  | nil => exact itemsOf_cons_self key [item] []
  | cons entry found ih =>
    obtain ⟨k, items⟩ := entry
    rw [addTo]
    split
    · next h =>
      obtain rfl := eq_of_beq h
      rw [itemsOf_cons_self, itemsOf_cons_self]
    · next h =>
      have hne : key ≠ k := fun heq => h (heq ▸ BEq.rfl)
      rw [itemsOf_cons_of_ne hne, itemsOf_cons_of_ne hne, ih]

theorem itemsOf_addTo_of_ne {key other : κ} (hne : other ≠ key) (item : Text)
    (found : List (κ × List Text)) :
    itemsOf other (addTo key item found) = itemsOf other found := by
  induction found with
  | nil => exact itemsOf_cons_of_ne hne [item] []
  | cons entry found ih =>
    obtain ⟨k, items⟩ := entry
    rw [addTo]
    split
    · next h =>
      obtain rfl := eq_of_beq h
      rw [itemsOf_cons_of_ne hne, itemsOf_cons_of_ne hne]
    · by_cases hk : other = k
      · subst hk
        rw [itemsOf_cons_self, itemsOf_cons_self]
      · rw [itemsOf_cons_of_ne hk, itemsOf_cons_of_ne hk, ih]

theorem eraseDups_concat (items : List Text) (item : Text) :
    (items ++ [item]).eraseDups =
      if items.eraseDups.contains item then items.eraseDups else items.eraseDups ++ [item] := by
  rw [List.eraseDups_append]
  by_cases h : item ∈ items <;> simp [List.removeAll, List.eraseDups_cons, h]

theorem filter_eraseDups (p : Text → Bool) (items : List Text) :
    (items.filter p).eraseDups = items.eraseDups.filter p := by
  induction items using List.reverseRec with
  | nil => rfl
  | append_singleton items item ih =>
    rw [List.filter_append, eraseDups_concat]
    cases hp : p item with
    | false =>
      rw [List.filter_cons_of_neg (by simp [hp]), List.filter_nil, List.append_nil, ih]
      split
      · rfl
      · simp [hp]
    | true =>
      rw [List.filter_cons_of_pos hp, List.filter_nil, eraseDups_concat, ih]
      by_cases hitem : item ∈ items <;> simp [hitem, hp]

/-- What is collected for a key are its items, each once. -/
theorem itemsOf_collect (key : κ) (pairs : List (κ × Text)) :
    itemsOf key (collect pairs) = ((pairs.filter (·.1 == key)).map Prod.snd).eraseDups := by
  induction pairs using List.reverseRec with
  | nil => rfl
  | append_singleton pairs pair ih =>
    rw [collect_concat, List.filter_append]
    by_cases hkey : key = pair.1
    · subst hkey
      rw [itemsOf_addTo_self, ih, List.filter_cons_of_pos (by simp), List.filter_nil,
        List.map_append, List.map_singleton, eraseDups_concat]
    · have hne : (pair.1 == key) = false := beq_eq_false_iff_ne.2 (Ne.symm hkey)
      rw [itemsOf_addTo_of_ne hkey, ih, List.filter_cons_of_neg (by simp [hne]), List.filter_nil,
        List.append_nil]

theorem nodup_keys_addTo {found : List (κ × List Text)} (h : (found.map Prod.fst).Nodup) (key : κ)
    (item : Text) : ((addTo key item found).map Prod.fst).Nodup := by
  induction found with
  | nil => exact List.nodup_singleton key
  | cons entry found ih =>
    obtain ⟨hentry, hfound⟩ := List.nodup_cons.1 h
    rw [addTo]
    split
    · exact h
    · next hne =>
      refine List.nodup_cons.2 ⟨fun hmem => ?_, ih hfound⟩
      obtain heq | hmem := mem_keys_addTo.1 hmem
      · exact hne (beq_iff_eq.2 heq)
      · exact hentry hmem

theorem nodup_keys_collect (pairs : List (κ × Text)) : ((collect pairs).map Prod.fst).Nodup := by
  induction pairs using List.reverseRec with
  | nil => exact List.nodup_nil
  | append_singleton pairs pair ih =>
    rw [collect_concat]
    exact nodup_keys_addTo ih pair.1 pair.2

/-- What is collected for a key is never empty, and consists of items of the key. -/
theorem mem_of_mem_collect {pairs : List (κ × Text)} {key : κ} {items : List Text}
    (h : (key, items) ∈ collect pairs) : items ≠ [] ∧ ∀ item ∈ items, (key, item) ∈ pairs := by
  have hlookup := (Association.lookup_eq_some_iff_mem (nodup_keys_collect pairs)).2 h
  have hitems := itemsOf_collect key pairs
  rw [itemsOf, hlookup, Option.getD_some] at hitems
  have hmem : ∀ item, item ∈ items ↔ (key, item) ∈ pairs := by
    intro item
    rw [hitems, List.mem_eraseDups]
    simp
  obtain ⟨⟨_, item⟩, hitem, rfl⟩ :=
    List.mem_map.1 (mem_keys_collect.1 (List.mem_map.2 ⟨_, h, rfl⟩))
  exact ⟨List.ne_nil_of_mem ((hmem item).2 hitem), fun item => (hmem item).1⟩

end Collect

section Directives

/-- How a file is shown from a root. -/
def Node.shown (root : Text) (n : Node) : Text := Path.relative root n.absolute

/-- The modules that a file includes; none if it cannot be read. -/
def Node.modules (reader : Source.Reader) (n : Node) : List Text :=
  match reader n.absolute with
  | .ok text => Script.includes text
  | .error _ => []

/-- The file name that a file asks for by a module path. -/
def Node.pattern (extension : Text) (n : Node) (module : Text) : Text :=
  let extension : Text := if extension.isEmpty then ".gsc" else extension
  Script.moduleFile module (Script.moduleExtension n.path extension)

/-- An include directive: the file in which it stands, the place of that file, and the module. -/
structure Directive where
  node : Node
  index : Nat
  module : Text

def directives (nodes : List Node) (reader : Source.Reader) : List Directive :=
  nodes.zipIdx.flatMap fun (node, index) => (node.modules reader).map (Directive.mk node index)

variable (nodes : List Node) (extension root : Text)

/-- The files that a directive names, with their places. -/
def Directive.targets (d : Directive) : List (Node × Nat) :=
  nodes.zipIdx.filter fun (node, _) =>
    Script.namesFile node.path (d.node.pattern extension d.module)

/-- The edges of a directive: to all files that it names, apart from its own. -/
def Directive.edges (d : Directive) : List ((Text × Text) × Text) :=
  ((d.targets nodes extension).filter fun (_, j) => j != d.index).map fun (node, _) =>
    ((d.node.shown root, node.shown root), d.module)

/-- What is gathered from one directive. -/
def Links.add (links : Links) (d : Directive) : Links :=
  links.addModule (nodes.map fun node => (node, node.shown root)) d.index (d.node.shown root)
    (Script.moduleExtension d.node.path (if extension.isEmpty then ".gsc" else extension)) d.module

theorem Links.add_eq (links : Links) (d : Directive) :
    links.add nodes extension root d =
      if (d.targets nodes extension).isEmpty then
        ⟨links.edges, addTo (d.node.shown root) d.module links.unresolved⟩
      else ⟨addAll links.edges (d.edges nodes extension root), links.unresolved⟩ := by
  have htargets :
      ((nodes.map fun node => (node, node.shown root)).zipIdx.filter fun entry =>
        Script.namesFile entry.1.1.path (d.node.pattern extension d.module)) =
      (d.targets nodes extension).map (Prod.map (fun node => (node, node.shown root)) id) := by
    rw [List.zipIdx_map, List.filter_map]
    rfl
  rw [Node.pattern] at htargets
  simp only [Links.add, Links.addModule]
  rw [htargets, List.isEmpty_map, List.filter_map, List.foldl_map, Directive.edges, addAll,
    List.foldl_map]
  rfl

/-- The graph gathers the directives of all files, one after another. -/
theorem build_eq (reader : Source.Reader) :
    let links := (directives nodes reader).foldl (Links.add nodes extension root) {}
    build nodes reader root extension =
      { root := root
        files := nodes.map (Node.shown root)
        dependencies := (links.edges.map fun ((source, target), modules) =>
          Dependency.mk source target modules).mergeSort before
        unresolved := links.unresolved } := by
  intro links
  have hlinks : (nodes.map fun node => (node, node.shown root)).zipIdx.foldl
      (fun (links : Links) entry =>
        (entry.1.1.modules reader).foldl (fun links module =>
          links.addModule (nodes.map fun node => (node, node.shown root)) entry.2 entry.1.2
            (Script.moduleExtension entry.1.1.path (if extension.isEmpty then ".gsc" else extension))
            module) links) {} = links := by
    rw [List.zipIdx_map, List.foldl_map]
    simp only [links, directives, List.foldl_flatMap, List.foldl_map]
    rfl
  rw [← hlinks]
  simp only [build, List.map_map]
  rfl

/-- The edges of the graph are those of its directives. -/
theorem edges_foldl_add (ds : List Directive) :
    (ds.foldl (Links.add nodes extension root) {}).edges =
      collect (ds.flatMap (Directive.edges nodes extension root)) := by
  induction ds using List.reverseRec with
  | nil => rfl
  | append_singleton ds d ih =>
    rw [List.foldl_append, List.foldl_cons, List.foldl_nil, Links.add_eq, List.flatMap_append,
      List.flatMap_singleton, collect_append, ← ih]
    split
    · next h =>
      have hedges : d.edges nodes extension root = [] := by
        rw [Directive.edges, List.isEmpty_iff.1 h]
        rfl
      rw [hedges]
      rfl
    · rfl

theorem unresolved_foldl_add (ds : List Directive) :
    (ds.foldl (Links.add nodes extension root) {}).unresolved =
      collect ((ds.filter fun d => (d.targets nodes extension).isEmpty).map fun d =>
        (d.node.shown root, d.module)) := by
  induction ds using List.reverseRec with
  | nil => rfl
  | append_singleton ds d ih =>
    rw [List.foldl_append, List.foldl_cons, List.foldl_nil, Links.add_eq, List.filter_append,
      List.map_append, collect_append, ← ih]
    split
    · next h =>
      rw [List.filter_cons, if_pos h]
      rfl
    · next h =>
      rw [List.filter_cons, if_neg h]
      rfl

end Directives

section Graph
variable {nodes : List Node} {reader : Source.Reader} {root extension source target : Text}

theorem mem_directives_iff {d : Directive} :
    d ∈ directives nodes reader ↔
      nodes[d.index]? = some d.node ∧ d.module ∈ d.node.modules reader := by
  obtain ⟨node, index, module⟩ := d
  simp [directives, List.mem_zipIdx_iff_getElem?]

theorem Directive.mem_edges_iff {d : Directive} {module : Text} :
    ((source, target), module) ∈ d.edges nodes extension root ↔
      ∃ (j : Nat) (b : Node), nodes[j]? = some b ∧ j ≠ d.index ∧ d.node.shown root = source ∧
        b.shown root = target ∧ d.module = module ∧
          Script.namesFile b.path (d.node.pattern extension d.module) = true := by
  simp only [edges, targets, List.mem_map, List.mem_filter, List.mem_zipIdx_iff_getElem?,
    Prod.exists, Prod.mk.injEq, bne_iff_ne]
  grind

/-- There is an edge just where a module of one file names another. -/
theorem exists_dependency_iff :
    (∃ d ∈ (build nodes reader root extension).dependencies,
        d.source = source ∧ d.target = target) ↔
      ∃ (i j : Nat) (a b : Node), nodes[i]? = some a ∧ nodes[j]? = some b ∧ j ≠ i ∧
        a.shown root = source ∧ b.shown root = target ∧ ∃ module ∈ a.modules reader,
          Script.namesFile b.path (a.pattern extension module) = true := by
  -- An edge is a key of what is collected, and a key comes from a directive.
  have hkey : (∃ d ∈ (build nodes reader root extension).dependencies,
      d.source = source ∧ d.target = target) ↔
      (source, target) ∈ ((directives nodes reader).flatMap
        (Directive.edges nodes extension root)).map Prod.fst := by
    rw [build_eq, ← mem_keys_collect, ← edges_foldl_add]
    simp only [List.mem_mergeSort, List.mem_map, Prod.exists]
    grind
  rw [hkey]
  simp only [List.mem_map, List.mem_flatMap, mem_directives_iff]
  constructor
  · rintro ⟨⟨_, module⟩, ⟨⟨a, i, _⟩, ⟨ha, hmodule⟩, hedge⟩, rfl⟩
    obtain ⟨j, b, hb, hne, hsource, htarget, rfl, hnames⟩ := Directive.mem_edges_iff.1 hedge
    exact ⟨i, j, a, b, ha, hb, hne, hsource, htarget, _, hmodule, hnames⟩
  · rintro ⟨i, j, a, b, ha, hb, hne, hsource, htarget, module, hmodule, hnames⟩
    exact ⟨((source, target), module), ⟨⟨a, i, module⟩, ⟨ha, hmodule⟩,
      Directive.mem_edges_iff.2 ⟨j, b, hb, hne, hsource, htarget, rfl, hnames⟩⟩, rfl⟩

theorem Directive.isEmpty_targets (d : Directive) :
    (d.targets nodes extension).isEmpty =
      nodes.all fun b => !Script.namesFile b.path (d.node.pattern extension d.module) := by
  rw [Bool.eq_iff_iff, List.isEmpty_iff, targets, List.filter_eq_nil_iff, List.all_eq_true]
  constructor
  · intro h b hb
    obtain ⟨j, hj⟩ := List.mem_iff_getElem?.1 hb
    simpa using h (b, j) (List.mem_zipIdx_iff_getElem?.2 hj)
  · rintro h ⟨b, j⟩ hb
    simpa using h b (List.mem_of_getElem? (List.mem_zipIdx_iff_getElem?.1 hb))

theorem map_module_directives (p : Node → Text → Bool) :
    ((directives nodes reader).filter fun d => p d.node d.module).map Directive.module =
      nodes.flatMap fun a => (a.modules reader).filter (p a) := by
  conv_rhs => rw [← List.zipIdx_map_fst 0 nodes]
  rw [directives, List.filter_flatMap, List.map_flatMap, List.flatMap_map]
  simp only [List.filter_map, List.map_map, Function.comp_def, List.map_id']

theorem flatMap_filter_and (shows : Node → Bool) (p : Node → Text → Bool) :
    (nodes.flatMap fun a => (a.modules reader).filter fun module => shows a && p a module) =
      (nodes.filter shows).flatMap fun a => (a.modules reader).filter (p a) := by
  induction nodes with
  | nil => rfl
  | cons a nodes ih =>
    rw [List.flatMap_cons, List.filter_cons, ih]
    cases shows a <;> simp

/-- The modules of a file that name no file at all, each once, in the order of the directives. -/
theorem unresolved_build (key : Text) :
    itemsOf key (build nodes reader root extension).unresolved =
      ((nodes.filter (·.shown root == key)).flatMap fun a => (a.modules reader).filter fun module =>
        nodes.all fun b => !Script.namesFile b.path (a.pattern extension module)).eraseDups := by
  rw [build_eq]
  dsimp only
  rw [unresolved_foldl_add, itemsOf_collect, List.filter_map, List.map_map, List.filter_filter]
  simp only [Directive.isEmpty_targets]
  rw [← flatMap_filter_and, ← map_module_directives]
  rfl

/-- Files are told apart by how they are shown. -/
theorem nodup_shown (habsolute : ∀ n ∈ nodes, Path.IsAbsolute n.absolute)
    (hdistinct : (nodes.map Node.absolute).Nodup) (root : Text) :
    (nodes.map (Node.shown root)).Nodup := by
  refine List.pairwise_map.2 ((List.pairwise_map.1 hdistinct).imp_of_mem ?_)
  intro a b ha hb hne heq
  exact hne (Path.relative_inj (habsolute a ha) (habsolute b hb) heq)

section Distinct
variable (h : (nodes.map (Node.shown root)).Nodup)
include h

/-- Where no two files are shown alike, what is shown tells the place of the file. -/
theorem index_eq_of_shown {i j : Nat} {a b : Node} (ha : nodes[i]? = some a)
    (hb : nodes[j]? = some b) (heq : a.shown root = b.shown root) : i = j := by
  have hi : i < (nodes.map (Node.shown root)).length := by
    simpa using (List.getElem?_eq_some_iff.1 ha).1
  exact (List.getElem?_inj hi h).1 (by simp [ha, hb, heq])

variable {a : Node} (ha : a ∈ nodes)
include ha

/-- Where no two files are shown alike, the targets of a file are the other files that it asks
for. -/
theorem exists_dependency_iff_of_nodup :
    (∃ d ∈ (build nodes reader root extension).dependencies,
        d.source = a.shown root ∧ d.target = target) ↔
      target ≠ a.shown root ∧ ∃ b ∈ nodes, b.shown root = target ∧ ∃ module ∈ a.modules reader,
        Script.namesFile b.path (a.pattern extension module) = true := by
  rw [exists_dependency_iff]
  constructor
  · rintro ⟨i, j, a', b, ha', hb, hne, hsource, rfl, hmodule⟩
    obtain rfl := List.inj_on_of_nodup_map h (List.mem_of_getElem? ha') ha hsource
    -- An edge leads to another place in the list; as shown, that is another file.
    exact ⟨fun heq => hne (index_eq_of_shown h hb ha' heq), b, List.mem_of_getElem? hb, rfl, hmodule⟩
  · rintro ⟨hne, b, hb, rfl, hmodule⟩
    obtain ⟨i, hi⟩ := List.getElem?_of_mem ha
    obtain ⟨j, hj⟩ := List.getElem?_of_mem hb
    refine ⟨i, j, a, b, hi, hj, ?_, rfl, rfl, hmodule⟩
    rintro rfl
    exact hne (by rw [Option.some.inj (hi.symm.trans hj)])

theorem filter_shown_eq : nodes.filter (·.shown root == a.shown root) = [a] := by
  obtain ⟨front, back, rfl⟩ := List.append_of_mem ha
  rw [List.map_append, List.map_cons, List.nodup_middle, List.nodup_cons, ← List.map_append] at h
  have hother : ∀ b ∈ front ++ back, ¬ (b.shown root == a.shown root) = true := by
    intro b hb heq
    exact h.1 (List.mem_map.2 ⟨b, hb, eq_of_beq heq⟩)
  rw [List.filter_append, List.filter_cons_of_pos (by simp),
    List.filter_eq_nil_iff.2 fun b hb => hother b (List.mem_append_left _ hb),
    List.filter_eq_nil_iff.2 fun b hb => hother b (List.mem_append_right _ hb)]
  rfl

/-- Where no two files are shown alike, the unresolved modules of a file are its own. -/
theorem unresolved_build_of_nodup :
    itemsOf (a.shown root) (build nodes reader root extension).unresolved =
      ((a.modules reader).filter fun module =>
        nodes.all fun b => !Script.namesFile b.path (a.pattern extension module)).eraseDups := by
  rw [unresolved_build, filter_shown_eq h ha, List.flatMap_singleton]

end Distinct
end Graph
end ScriptNav.IncludeGraph
