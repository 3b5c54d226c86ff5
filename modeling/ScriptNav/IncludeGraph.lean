import ScriptNav.Script.Dialect
import ScriptNav.Script.Include
import ScriptNav.Source
import ScriptNav.Workspace.Basic

/-! Which scripts include which. -/
namespace ScriptNav

open Text

/-- One script includes another by module paths. -/
structure Dependency where
  source : Text
  target : Text
  modules : List Text
deriving DecidableEq, Repr

structure IncludeGraph where
  root : Text
  files : List Text
  dependencies : List Dependency
  /-- The modules of a file that no file answers to. -/
  unresolved : List (Text × List Text)
deriving DecidableEq, Repr

namespace IncludeGraph

/-- A file that takes part: its root and its path from there. -/
structure Node where
  root : Text
  path : Text
deriving DecidableEq, Repr

def Node.absolute (n : Node) : Text := Path.append n.root n.path

/-- Adds an item to the list of a key, unless it is there. -/
def addTo {κ : Type} [BEq κ] (key : κ) (item : Text) : List (κ × List Text) → List (κ × List Text)
  | [] => [(key, [item])]
  | (k, items) :: rest =>
    if k == key then (k, if items.contains item then items else items ++ [item]) :: rest
    else (k, items) :: addTo key item rest

/-- Edges and unresolved modules found so far. -/
structure Links where
  edges : List ((Text × Text) × List Text) := []
  unresolved : List (Text × List Text) := []

/-- The links of one module path of the node at `index`, whose shown path is `source`. -/
def Links.addModule (links : Links) (nodes : List (Node × Text)) (index : Nat)
    (source extension module : Text) : Links :=
  let pattern := Script.moduleFile module extension
  let targets := nodes.zipIdx.filter fun ((node, _), _) => Script.namesFile node.path pattern
  if targets.isEmpty then { links with unresolved := addTo source module links.unresolved }
  else
    let others := targets.filter fun (_, j) => j != index
    { links with edges := others.foldl (fun edges ((_, target), _) =>
        addTo (source, target) module edges) links.edges }

def before (a b : Dependency) : Bool :=
  if a.source == b.source then decide (a.target ≤ b.target) else decide (a.source ≤ b.source)

/-- The graph of files. Files that cannot be read include nothing. -/
def build (nodes : List Node) (reader : Source.Reader) (root extension : Text) : IncludeGraph :=
  let extension : Text := if extension.isEmpty then (".gsc" : Text) else extension
  let shown := nodes.map fun node => (node, Path.relative root node.absolute)
  let modules := fun (node : Node) =>
    match reader node.absolute with
    | .ok text => Script.includes text
    | .error _ => []
  let links := shown.zipIdx.foldl (fun (links : Links) ((node, source), index) =>
    let extension := Script.moduleExtension node.path extension
    (modules node).foldl (fun links module =>
      links.addModule shown index source extension module) links) {}
  { root := root
    files := shown.map Prod.snd
    dependencies := (links.edges.map fun ((source, target), modules) =>
      Dependency.mk source target modules).mergeSort before
    unresolved := links.unresolved }

end IncludeGraph
end ScriptNav
