import ScriptNav.Config.Dotenv
import ScriptNav.Config.Level
import ScriptNav.Disk
import ScriptNav.Toml.Parser

/-! The configuration of a workspace: a file found from its directory upwards, and variables of the
environment over it. -/
namespace ScriptNav

open Text

structure Config where
  /-- The file that was read, or nothing. -/
  path : Text := []
  roots : List Text
  extension : Text := ".gsc"
  exclude : List Text := []
  maxFileSize : Int := 1000000
  respectGitignore : Bool := true
  workers : Int := 0
  logLevel : Text := "info"
deriving DecidableEq, Repr

namespace Config

def fileName : Text := "gscnav.toml"

inductive Error where
  | unsearchable (candidate : Text) (error : FileError)
  | unreadable (path : Text) (error : FileError)
  | malformed (path : Text)
  | unknownKey (path : Text) (key : Toml.Key)
  | badWorkers (error : IntegerError)
  | badExtension (extension : Text)
  | negativeWorkers (workers : Int)
  | negativeSize (size : Int)
  | badLevel (error : LevelError)
deriving DecidableEq, Repr

namespace Error

def message : Error → Text
  | unsearchable candidate error => "stat " ++ quoted candidate ++ ": " ++ error.message
  | unreadable path error => path ++ ": failed to parse TOML: " ++ error.message
  | malformed path => path ++ ": failed to parse TOML"
  | unknownKey path key => path ++ ": unknown key " ++ quoted key.toText
  | badWorkers error => "GSCNAV_WORKERS: " ++ error.message
  | badExtension extension => "workspace.extension " ++ quoted extension ++ " must start with a dot"
  | negativeWorkers workers => "resolve.workers must be >= 0, got " ++ ofInt workers
  | negativeSize size => "workspace.max_file_size must be >= 0, got " ++ ofInt size
  | badLevel error => "log.level: " ++ error.message

end Error

/-- The configuration where no file says anything. -/
def default (dir : Text) : Config := { roots := [dir] }

/-- The directories from a rooted path upwards, as many as it has names and one more. -/
def ancestors (dir : Text) : List Text :=
  let names := (Path.parts dir).names
  (List.range (names.length + 1)).map fun n =>
    (Path.Parts.mk true (names.take (names.length - n))).toText

/-- The first candidate among directories that is there. A candidate that the system fails to look
at, for another reason than that it is missing, ends the search. -/
def firstCandidate (stat : Text → Except FileError Entry) : List Text → Except Error (Option Text)
  | [] => .ok none
  | dir :: rest =>
    let candidate := Path.append dir fileName
    match stat candidate with
    | .ok _ => .ok (some candidate)
    | .error error =>
      if error.fault == .missing then firstCandidate stat rest
      else .error (.unsearchable candidate error)

/-- The configuration file nearest to a directory, in it or above it, to a system that looks at paths
by `stat`. -/
def search (stat : Text → Except FileError Entry) (cwd dir : Text) : Except Error (Option Text) :=
  firstCandidate stat (ancestors (Path.absolute cwd (if dir.isEmpty then Path.here else dir)))

/-- The nearest configuration file on a disk. -/
def find (disk : Disk) (dir : Text) : Except Error (Option Text) := search disk.stat disk.cwd dir

def workspaceFields : List Text :=
  ["roots", "extension", "exclude", "max_file_size", "respect_gitignore"]

def sections : List (Text × List Text) :=
  [("workspace", workspaceFields), ("resolve", ["workers"]), ("log", ["level"])]

/-- Whether a key of a document names a section or a field of one. -/
def isKnown (key : Toml.Key) : Bool :=
  match key with
  | [name] => (Toml.field? (sections.map Prod.fst) name).isSome
  | [name, inner] =>
    match (Toml.field? (sections.map Prod.fst) name).bind fun s => sections.lookup s with
    | some fields => (Toml.field? fields inner).isSome
    | none => false
  | _ => false

/-- The table of a section, put together from all spellings of its key; an absent one is empty. -/
def section? (root : Toml.Table) (name : Text) : Option Toml.Table :=
  ((root.values (sections.map Prod.fst) name).mapM Toml.Value.asTable?).map List.flatten

/-- The settings of a document over those of `base`; nothing if a value has the wrong type. -/
def ofDocument? (base : Config) (root : Toml.Table) : Option Config := do
  let workspace ← section? root "workspace"
  let resolve ← section? root "resolve"
  let log ← section? root "log"
  let roots ← workspace.getOr workspaceFields "roots" Toml.Value.asStrings? []
  let extension ← workspace.getOr workspaceFields "extension" Toml.Value.asString? base.extension
  let exclude ← workspace.getOr workspaceFields "exclude" Toml.Value.asStrings? base.exclude
  let size ← workspace.getOr workspaceFields "max_file_size" Toml.Value.asInteger? base.maxFileSize
  let respect ← workspace.getOr workspaceFields "respect_gitignore" Toml.Value.asBoolean?
    base.respectGitignore
  let workers ← resolve.getOr ["workers"] "workers" Toml.Value.asInteger? base.workers
  let level ← log.getOr ["level"] "level" Toml.Value.asString? base.logLevel
  return { base with
    roots := roots, extension := extension, exclude := exclude, maxFileSize := size
    respectGitignore := respect, workers := workers, logLevel := level }

/-- The roots of a file in the directory `base`. Roots count only if the key is spelled exactly. -/
def rootsFrom (base : Text) (root : Toml.Table) (roots : List Text) : List Text :=
  let isGiven := Toml.defines root ["workspace", "roots"] && !roots.isEmpty
  let roots := if isGiven then roots else [Path.here]
  roots.map fun r => if Path.isRooted r then r else Path.append base r

/-- The configuration of a file. -/
def loadFile (disk : Disk) (path : Text) : Except Error Config :=
  let path := Path.absolute disk.cwd path
  let base := Path.parent path
  match disk.read path with
  | .error error => .error (.unreadable path error)
  | .ok content =>
    match Toml.parse? content with
    | none => .error (.malformed path)
    | some document =>
      match ofDocument? (default base) document.root, document.keys.find? (!isKnown ·) with
      | none, _ => .error (.malformed path)
      | some _, some key => .error (.unknownKey path key)
      | some config, none =>
        .ok { config with path := path, roots := rootsFrom base document.root config.roots }

/-- The settings with those that the environment gives in their place. -/
def override (env : Environment) (config : Config) : Except Error Config := do
  let nonEmpty := fun (name : Text) => (env.get? name).filter (!·.isEmpty)
  let workers ← match nonEmpty "GSCNAV_WORKERS" with
    | none => .ok config.workers
    | some numeral => (parseInteger numeral).mapError .badWorkers
  return { config with
    extension := (nonEmpty "GSCNAV_EXTENSION").getD config.extension
    workers := workers
    logLevel := (nonEmpty "GSCNAV_LOG_LEVEL").getD config.logLevel }

def level (config : Config) : Except Error Int := (parseLevel config.logLevel).mapError .badLevel

/-- Checks the ranges of the settings. -/
def validate (config : Config) : Except Error Unit :=
  if config.extension.head? != some dot || config.extension.length < 2 then
    .error (.badExtension config.extension)
  else if config.workers < 0 then .error (.negativeWorkers config.workers)
  else if config.maxFileSize < 0 then .error (.negativeSize config.maxFileSize)
  else config.level.map fun _ => ()

def dotenvName : Text := ".env"

/-- The environment with the variables of the file `.env` in the working directory. -/
def environment (disk : Disk) (env : Environment) : Environment :=
  match disk.read dotenvName with
  | .ok content => Dotenv.load env content
  | .error _ => env

/-- The configuration of a workspace directory. Without a path the nearest file counts, and without
a file the defaults do. -/
def load (disk : Disk) (env : Environment) (dir path : Text) : Except Error Config := do
  let dir := Path.absolute disk.cwd dir
  let path ← if path.isEmpty then find disk dir else .ok (some path)
  let config ← match path with
    | none => .ok (default dir)
    | some path => loadFile disk path
  let config ← override (environment disk env) config
  config.validate
  return config

end Config
end ScriptNav
