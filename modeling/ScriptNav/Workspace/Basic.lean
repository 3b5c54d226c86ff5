import ScriptNav.Disk
import ScriptNav.Ignore.Rule
import ScriptNav.Script.Dialect
import ScriptNav.Script.ModulePath

/-! Workspaces: the script files under a list of root directories, and the files among them that a
module path names. Nothing is kept between two questions. -/
namespace ScriptNav

open Text

/-- What running the version control program gives: its exit status and its output. -/
structure GitAnswer where
  status : Int
  output : Text
deriving DecidableEq, Repr

/-- What the version control program answers when it is run in a directory, if it can be run. -/
abbrev Git := Text → Option GitAnswer

/-- There is no such program. -/
def Git.absent : Git := fun _ => none

structure Workspace where
  roots : List Text
  exclude : List Ignore.Rule := []
  /-- The size above which files are left out; no limit unless positive. -/
  maxFileSize : Int := 0
  respectGitignore : Bool := false

namespace Workspace

/-- A script file: its root, its path from there, and its dialect. -/
structure File where
  root : Text
  path : Text
  dialect : Script.Dialect
deriving DecidableEq, Repr

def File.absolute (f : File) : Text := Path.append f.root f.path

/-- A workspace over roots that are meant from `cwd`. -/
def make (cwd : Text) (roots exclude : List Text) (maxFileSize : Int) (respectGitignore : Bool) :
    Workspace :=
  { roots := roots.map (Path.absolute cwd), exclude := Ignore.rules exclude
    maxFileSize := maxFileSize, respectGitignore := respectGitignore }

def isHidden (name : Text) : Bool := name.head? == some dot

/-- Directories that are never entered. -/
def isSkipped (name : Text) : Bool := isHidden name || name == "node_modules"

mutual

/-- The regular files of an entry, in directories that are entered, by their names from it. Links
are not followed. -/
def filesOf (names : List Text) : Entry → List (List Text × Nat)
  | .file content => [(names, content.length)]
  | .link _ => []
  | .directory entries => filesIn names entries

def filesIn (names : List Text) : List (Text × Entry) → List (List Text × Nat)
  | [] => []
  | (name, entry) :: rest =>
    let found :=
      if entry.isDirectory && isSkipped name then [] else filesOf (names ++ [name]) entry
    found ++ filesIn names rest

end

/-- What decides which files are kept by version control. -/
inductive Tracking where
  | untracked
  | listed (paths : List Text)
  | ignoring (rules : List Ignore.Rule)

def Tracking.keeps : Tracking → Text → Bool
  | untracked, _ => true
  | listed paths, path => paths.contains path
  | ignoring rules, path => !Ignore.isIgnored rules path

/-- The files that version control lists under a root, if it is used there and answers. -/
def listing? (disk : Disk) (git : Git) (root : Text) : Option (List Text) :=
  match disk.stat (Path.append root ".git"), git root with
  | .ok (.directory _), some answer =>
    if answer.status == 0 then some ((answer.output.split newline).filter (!·.isEmpty)) else none
  | _, _ => none

def tracking (w : Workspace) (disk : Disk) (git : Git) (root : Text) : Tracking :=
  if !w.respectGitignore then .untracked
  else
    match listing? disk git root, disk.read (Path.append root ".gitignore") with
    | some paths, _ => .listed paths
    | none, .ok content => .ignoring (Ignore.rules (content.split newline))
    | none, .error _ => .untracked

/-- The files under a root, with the root itself if it is a file. -/
def under (disk : Disk) (root : Text) : List (Text × Text × Nat) :=
  match disk.lstat root with
  | .ok (.directory entries) =>
    (filesIn [] entries).map fun (names, size) => (names.getLastD [], join [slash] names, size)
  | .ok (.file content) => [(Path.baseName root, Path.here, content.length)]
  | _ => []

def fitsSize (w : Workspace) (size : Nat) : Bool := w.maxFileSize ≤ 0 || size ≤ w.maxFileSize

/-- The script of a file under a root, if it is one that is wanted and kept. -/
def script? (w : Workspace) (languages : List Text) (tracking : Tracking) (root : Text)
    (file : Text × Text × Nat) : Option File :=
  let (name, path, size) := file
  match Script.Dialect.ofExtension? (Path.extension name) with
  | none => none
  | some dialect =>
    let isWanted := languages.isEmpty || languages.contains dialect.name
    if !isHidden name && isWanted && tracking.keeps path && !Ignore.isIgnored w.exclude path &&
        w.fitsSize size then
      some ⟨root, path, dialect⟩
    else none

/-- The scripts under one root, in the order of their paths. -/
def scripts (w : Workspace) (disk : Disk) (git : Git) (languages : List Text)
    (root : Text) : List File :=
  let found := (under disk root).filterMap (w.script? languages (w.tracking disk git root) root)
  found.mergeSort fun a b => decide (a.path ≤ b.path)

/-- The scripts of all roots. Languages select dialects by name, and none selects all. -/
def files (w : Workspace) (disk : Disk) (git : Git) (languages : List Text) :
    List File :=
  w.roots.flatMap (w.scripts disk git languages)

/-- The files of the workspace that `pattern` names in some directory. -/
def find (w : Workspace) (disk : Disk) (git : Git) (pattern : Text) : List Text :=
  let pattern := (after? [slash] pattern).getD pattern
  if pattern.isEmpty then []
  else ((w.files disk git []).filter (Script.namesFile ·.path pattern)).map File.absolute

/-- Whether a search is given up when its request is cancelled: it is not, if there is nothing to
look at. -/
def yields (w : Workspace) (pattern : Text) : Bool :=
  !w.roots.isEmpty && !((after? [slash] pattern).getD pattern).isEmpty

end Workspace
end ScriptNav
