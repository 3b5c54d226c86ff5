import ScriptNav.Toml.Basic

/-! Documents in the making. Tables may be opened before they are defined, by a longer header or a
dotted key; such a table is implicit, and may be defined once. A key that holds an array may be
given a new value. -/
namespace ScriptNav.Toml

structure Draft where
  root : Table := []
  implicit : List Key := []
  arrays : List Key := []
  /-- The keys named so far, the last one first. -/
  keys : List Key := []
  context : Key := []

/-- Gives a key of a table a new value, in its old place if it has one. -/
def put (name : Text) (value : Value) : Table → Table
  | [] => [(name, value)]
  | (n, v) :: rest => if n == name then (n, value) :: rest else (n, v) :: put name value rest

/-- Changes the table at the end of a key, by the last one of an array of tables on the way. -/
def within (change : Table → Option Table) : Key → Table → Option Table
  | [], entries => change entries
  | name :: rest, entries =>
    match entries.lookup name with
    | some (.table inner) => (within change rest inner).map fun t => put name (.table t) entries
    | some (.tables items) =>
      match items.reverse with
      | last :: front =>
        (within change rest last).map fun t => put name (.tables (front.reverse ++ [t])) entries
      | [] => none
    | _ => none

/-- The table at the end of a key. -/
def tableAt? (key : Key) (root : Table) : Option Table :=
  match key with
  | [] => some root
  | name :: rest =>
    match root.lookup name with
    | some (.table inner) => tableAt? rest inner
    | some (.tables items) => items.getLast?.bind (tableAt? rest)
    | _ => none

namespace Draft

def addImplicit (d : Draft) (key : Key) : Draft := { d with implicit := key :: d.implicit }

def removeImplicit (d : Draft) (key : Key) : Draft :=
  { d with implicit := d.implicit.filter (· != key) }

def addKey (d : Draft) (key : Key) : Draft := { d with keys := key :: d.keys }

def markArray (d : Draft) (key : Key) (isArray : Bool) : Draft :=
  let others := d.arrays.filter (· != key)
  { d with arrays := if isArray then key :: others else others }

/-- Defines a name in the current context. -/
def define (d : Draft) (name : Text) (value : Value) : Option Draft := do
  let key := d.context ++ [name]
  let entries ← tableAt? d.context d.root
  if (entries.lookup name).isNone then
    let root ← within (fun entries => some (entries ++ [(name, value)])) d.context d.root
    return { d with root := root }
  else if d.arrays.contains key then
    let root ← within (fun entries => some (put name value entries)) d.context d.root
    return { d.removeImplicit key with root := root }
  else if d.implicit.contains key then return d.removeImplicit key
  else none

/-- Opens the tables of `parents` behind the key `done`, and makes the last one the context. -/
def openParents (d : Draft) (done : Key) (parents : Key) : Option Draft :=
  match parents with
  | [] => some { d with context := done }
  | name :: rest => do
    let key := done ++ [name]
    let entries ← tableAt? done d.root
    let d ←
      if (entries.lookup name).isNone then do
        let root ← within (fun entries => some (entries ++ [(name, .table [])])) done d.root
        pure { d.addImplicit key with root := root }
      else pure d
    let _ ← tableAt? key d.root
    d.openParents key rest

/-- Makes a key the context, as a table or as one more table of an array. -/
def openTable (d : Draft) (key : Key) (asArray : Bool) : Option Draft := do
  let name ← key.getLast?
  let d ← d.openParents [] key.dropLast
  let d ←
    if asArray then do
      let root ← within (fun entries =>
        match entries.lookup name with
        | none => some (entries ++ [(name, .tables [[]])])
        | some (.tables items) => some (put name (.tables (items ++ [[]])) entries)
        | some _ => none) d.context d.root
      pure { d with root := root }
    else d.define name (.table [])
  return { d with context := key }

/-- Opens the tables of a dotted key before its last part, each as an implicit one. -/
def openDotted (d : Draft) : Key → Option Draft
  | [] => some d
  | name :: rest => do
    let key := d.context ++ [name]
    let d ← (d.addImplicit key).openTable key false
    d.openDotted rest

def finish (d : Draft) : Document := ⟨d.root, d.keys.reverse⟩

end Draft
end ScriptNav.Toml
