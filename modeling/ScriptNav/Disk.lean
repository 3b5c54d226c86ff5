import ScriptNav.Path

/-! A file system as a value: a tree of directories, files and symbolic links, seen from a working
directory. Paths are followed name by name, so links and steps up work as the tree says and not as
the path is spelled. -/
namespace ScriptNav

open Text

inductive Entry where
  | file (content : Text)
  | link (target : Text)
  | directory (entries : List (Text × Entry))

/-- Why a path cannot be used. Nothing on a disk denies access; a system may. -/
inductive Fault where
  | missing
  | notDirectory
  | isDirectory
  | tooManyLinks
  | badName
  | tooLong
  | denied
deriving DecidableEq, Repr

namespace Fault

def message : Fault → Text
  | missing => "no such file or directory"
  | notDirectory => "not a directory"
  | isDirectory => "is a directory"
  | tooManyLinks => "too many levels of symbolic links"
  | badName => "invalid argument"
  | tooLong => "file name too long"
  | denied => "permission denied"

end Fault

/-- A fault, with what was tried on which path. -/
structure FileError where
  action : Text
  path : Text
  fault : Fault
deriving DecidableEq, Repr

namespace FileError

def message (e : FileError) : Text := e.action ++ blank :: e.path ++ ": " ++ e.fault.message

end FileError

namespace Entry

def isDirectory : Entry → Bool
  | directory _ => true
  | _ => false

def size : Entry → Nat
  | file content => content.length
  | link target => target.length
  | directory _ => 0

/-- The entry of a name in a directory. -/
def child? (e : Entry) (name : Text) : Option Entry :=
  match e with
  | directory entries => entries.lookup name
  | _ => none

/-- The entry reached by names, without following links. -/
def descend? : Entry → List Text → Option Entry
  | e, [] => some e
  | e, name :: names => (e.child? name).bind (·.descend? names)

/-- Gives a name of a directory a new entry, in the place of its old one if it has one. -/
def assign (name : Text) (entry : Entry) : List (Text × Entry) → List (Text × Entry)
  | [] => [(name, entry)]
  | (n, e) :: rest => if n == name then (n, entry) :: rest else (n, e) :: assign name entry rest

/-- Puts an entry at the end of names, making directories on the way where nothing stands. -/
def insert (e : Entry) (names : List Text) (entry : Entry) : Entry :=
  match names with
  | [] => entry
  | name :: names =>
    let entries := match e with
      | directory entries => entries
      | _ => []
    let old := (entries.lookup name).getD (directory [])
    directory (assign name (old.insert names entry) entries)

end Entry

structure Disk where
  root : Entry
  cwd : Text

namespace Disk

/-- How many links one path may lead through. -/
def linkLimit : Nat := 40

/-- How many bytes a name of a directory has at most. -/
def nameLimit : Nat := 255

/-- Follows the names `todo` from the directory `place`, whose names stand last first, and goes on by
`more` where a link leads. The result is the place reached and what is there; only the last name may
be absent, and no absent name may be too long to stand there. -/
def followNames (root : Entry) (last : Bool)
    (more : List Text → List Text → Except Fault (List Text × Option Entry)) (place : List Text)
    (todo : List Text) : Except Fault (List Text × Option Entry) :=
  match todo with
  | [] => .ok (place, root.descend? place.reverse)
  | name :: rest =>
    if name.isEmpty || name == Path.here then followNames root last more place rest
    else if name == Path.up then followNames root last more place.tail rest
    else
      match root.descend? (name :: place).reverse with
      | none =>
        if nameLimit < name.length then .error .tooLong
        else if rest.isEmpty then .ok (name :: place, none)
        else .error .missing
      | some (.directory _) => followNames root last more (name :: place) rest
      | some (.file content) =>
        if rest.isEmpty then .ok (name :: place, some (.file content)) else .error .notDirectory
      | some (.link target) =>
        if rest.isEmpty && !last then .ok (name :: place, some (.link target))
        else more (if Path.isRooted target then [] else place) (target.split slash ++ rest)

/-- Follows names through as many links at most. -/
def follow (root : Entry) (last : Bool) (links : Nat) :
    List Text → List Text → Except Fault (List Text × Option Entry) :=
  match links with
  | 0 => followNames root last fun _ _ => .error .tooManyLinks
  | links + 1 => followNames root last (follow root last links)

/-- Where a path leads and what is there, the last link followed or not. -/
def locate (d : Disk) (last : Bool) (path : Text) : Except Fault (List Text × Option Entry) :=
  if path.contains 0 then .error .badName
  else if path.isEmpty then .error .missing
  else
    let full := if Path.isRooted path then path else d.cwd ++ slash :: path
    follow d.root last linkLimit [] (full.split slash)

def lookup (d : Disk) (last : Bool) (path : Text) : Except Fault Entry := do
  match ← d.locate last path with
  | (_, some entry) => .ok entry
  | (_, none) => .error .missing

/-- What a path leads to. -/
def stat (d : Disk) (path : Text) : Except FileError Entry :=
  (d.lookup true path).mapError fun fault => ⟨"stat", path, fault⟩

/-- What stands at a path, which may be a link. -/
def lstat (d : Disk) (path : Text) : Except FileError Entry :=
  (d.lookup false path).mapError fun fault => ⟨"lstat", path, fault⟩

/-- The bytes of a file. -/
def read (d : Disk) (path : Text) : Except FileError Text :=
  match d.lookup true path with
  | .ok (.file content) => .ok content
  | .ok _ => .error ⟨"read", path, .isDirectory⟩
  | .error fault => .error ⟨"open", path, fault⟩

/-- Writes a file into a directory that exists. -/
def write (d : Disk) (path content : Text) : Except FileError Disk :=
  let refuse := fun fault => Except.error (FileError.mk "open" path fault)
  match d.locate true path with
  | .error fault => refuse fault
  | .ok (_, some (.directory _)) => refuse .isDirectory
  | .ok (place, _) =>
    if endsWith [slash] path then refuse .isDirectory
    else .ok { d with root := d.root.insert place.reverse (.file content) }

/-- Puts an entry at a path, whatever stands there, with the directories it needs. -/
def place (d : Disk) (path : Text) (entry : Entry) : Disk :=
  { d with root := d.root.insert (Path.parts (Path.absolute d.cwd path)).names entry }

end Disk
end ScriptNav
