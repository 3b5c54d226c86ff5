import ScriptNav.Catalog.Builtin
import ScriptNav.Command.Arguments
import ScriptNav.Command.Printer
import ScriptNav.Command.Section
import ScriptNav.Config.Basic
import ScriptNav.Server.Session

/-! One run of the program, from its arguments, its input, its environment and the disk to what it
writes. -/
namespace ScriptNav.Command

open Text

/-- What a run is given. -/
structure Invocation where
  arguments : List Text
  input : Text := []
  environment : Config.Environment := []
  git : Git := Git.absent
  disk : Disk

/-- Why a run fails. -/
inductive Failure where
  | arguments (error : ArgumentError)
  | rootUnusable (error : FileError)
  | rootNotDirectory (path : Text)
  | unknownFormat (format : Text)
  | unknownColor (color : Text)
  | config (error : Config.Error)
  | location (error : LocationError)
  | unreadable (file : Text) (error : Source.ReadError)
  | noScripts
  | exitedWithoutShutdown
  | brokenInput (error : Server.FrameError)
  | unwritable (path : Text) (error : FileError)
deriving DecidableEq, Repr

namespace Failure

def message : Failure → Text
  | arguments error => error.message
  | rootUnusable error => "root path: " ++ error.message
  | rootNotDirectory path => path ++ ": not a directory"
  | unknownFormat format =>
    "unsupported format " ++ quoted format ++ " (want text, json, or toon)"
  | unknownColor color => "unsupported color mode " ++ quoted color ++ " (want auto, on, or off)"
  | config error => "loading config: " ++ error.message
  | location error => error.message
  | unreadable file error => "reading " ++ file ++ ": " ++ error.message
  | noScripts =>
    "no script files found (languages: " ++ join ", " (Script.Dialect.all.map (·.name)) ++ ")"
  | exitedWithoutShutdown => "lsp exit without shutdown"
  | brokenInput error => error.message
  | unwritable path error => "writing " ++ path ++ ": " ++ error.message

end Failure

/-- What a run leaves: its output, its notes to the user, and the disk. -/
structure Outcome where
  output : Text := []
  notes : Text := []
  failure : Option Failure := none
  /-- The file that was written, with its content. -/
  written : Option (Text × Text) := none
  disk : Disk

/-- What the commands work with. -/
structure Setup where
  disk : Disk
  git : Git
  environment : Config.Environment
  config : Config
  root : Text
  workspace : Workspace
  catalog : List Catalog.Entry
  printer : Printer

def version : Text := "dev"

/-- The workspace that a configuration describes. -/
def workspaceOf (cwd : Text) (config : Config) : Workspace :=
  Workspace.make cwd config.roots config.exclude config.maxFileSize config.respectGitignore

/-- Checks the options and loads the configuration. -/
def setUp (call : Invocation) (options : Options) (usual : Text) : Except Failure Setup := do
  let disk := call.disk
  let root := Path.absolute disk.cwd options.root
  match disk.stat root with
  | .error error => .error (.rootUnusable error)
  | .ok (.directory _) => .ok ()
  | .ok _ => .error (.rootNotDirectory root)
  let format := if options.format.isEmpty then usual else options.format
  let format ← match Format.ofText? format with
    | some format => .ok format
    | none => .error (.unknownFormat format)
  let isColored ←
    if options.color == "on" then .ok true
    else if options.color == "off" || options.color == "auto" then .ok false
    else .error (.unknownColor options.color)
  let config ← (Config.load disk call.environment root options.config).mapError .config
  return {
    disk := disk, git := call.git, environment := call.environment, config := config, root := root
    workspace := workspaceOf disk.cwd config, catalog := Catalog.Builtin.entries
    printer := ⟨format, isColored, root⟩ }

namespace Setup

def reader (s : Setup) : Source.Reader := Source.fromDisk s.disk s.config.maxFileSize

def resolver (s : Setup) : Resolver :=
  Resolver.make s.disk.cwd (some s.reader) (some (s.workspace.locator s.disk s.git))
    s.config.extension

def read (s : Setup) (file : Text) : Except Failure Document :=
  let path := Path.absolute s.disk.cwd file
  match s.reader path with
  | .ok text => .ok ⟨path, text⟩
  | .error error => .error (.unreadable file error)

/-- What is at a location of a file. -/
def lookup (s : Setup) (file location : Text) : Except Failure (Option Resolution) := do
  let position ← (parseLocation location).mapError .location
  let doc ← s.read file
  match s.resolver.lookup false doc (doc.text.offsetAt position) with
  | .cancelled => return none
  | .resolved found => return found

/-- The modules that a document includes, each once, with the files that it names. -/
def includes (s : Setup) (doc : Document) : List (Text × List Text) :=
  let extension := Script.moduleExtension doc.path s.config.extension
  (Script.includes doc.text).eraseDups.map fun module =>
    (module, s.workspace.find s.disk s.git (Script.moduleFile module extension))

/-- The graph of the scripts of the workspace. -/
def graph (s : Setup) : Except Failure IncludeGraph :=
  let files := s.workspace.files s.disk s.git []
  if files.isEmpty then .error .noScripts
  else
    let nodes := files.map fun f => IncludeGraph.Node.mk f.root f.path
    .ok (IncludeGraph.build nodes s.reader s.root s.config.extension)

/-- What is printed about a position: its one definition, or what the catalog says. -/
def hover (s : Setup) (found : Option Resolution) : Text :=
  match found.bind Resolution.metadata? with
  | some m => s.printer.metadata m
  | none =>
    let builtin := do
      let r ← found
      if r.mayBeBuiltin then Catalog.lookup? s.catalog r.reference.name else none
    match builtin with
    | some e => s.printer.builtin e
    | none => s.printer.noMetadata found

/-- The workspace of an editor's root. It has a configuration of its own, unless one was named for
the run. -/
def editorWorkspace (s : Setup) (options : Options) (root : Text) : Workspace :=
  if !options.config.isEmpty then s.workspace
  else
    match Config.load s.disk s.environment root [] with
    | .ok config => workspaceOf s.disk.cwd config
    | .error _ => workspaceOf s.disk.cwd (Config.default root)

def settings (s : Setup) (options : Options) : Server.Settings :=
  { disk := s.disk
    git := s.git
    workspace := s.editorWorkspace options
    extension := s.config.extension
    maxFileSize := s.config.maxFileSize
    catalog := s.catalog
    version := version }

/-- Serves an editor. What was sent before a failure has been sent all the same. -/
def serve (s : Setup) (options : Options) (input : Text) : Text × Option Failure :=
  let (replies, ending) := Server.Session.serveStream (s.settings options) input
  let failure := match ending with
    | .inputEnded => none
    | .exited => none
    | .exitedWithoutShutdown => some .exitedWithoutShutdown
    | .broken error => some (.brokenInput error)
  (replies.flatMap fun r => Server.frame r.toText, failure)

end Setup

/-- Writes the section of default settings to a file, or shows what would be written. -/
def initialise (call : Invocation) (options : Options) (operands : List Text) : Outcome :=
  let disk := call.disk
  if options.isDryRun && operands.isEmpty then
    { output := Section.generated ++ [newline], disk := disk }
  else
    let path := operands.headD Config.fileName
    let existing := match disk.read path with
      | .ok content => content
      | .error _ => []
    let updated := Section.apply existing Section.generated
    if options.isDryRun then { output := updated, disk := disk }
    else
      match disk.write path updated with
      | .error error => { failure := some (.unwritable path error), disk := disk }
      | .ok disk =>
        { notes := "wrote gscnav settings to " ++ path ++ "\n"
          written := some (path, updated), disk := disk }

/-- The output of a command that only prints, or its failure. -/
def report (call : Invocation) (result : Except Failure Text) : Outcome :=
  match result with
  | .ok output => { output := output, disk := call.disk }
  | .error failure => { failure := some failure, disk := call.disk }

/-- Runs a command with its operands. -/
def execute (call : Invocation) (name : Name) (options : Options) (operands : List Text) :
    Outcome :=
  let first := operands.headD []
  let second := (operands.drop 1).headD []
  match name with
  | .definition => report call do
    let s ← setUp call options "text"
    return s.printer.definitions (← s.lookup first second)
  | .hover => report call do
    let s ← setUp call options "text"
    return s.hover (← s.lookup first second)
  | .includes => report call do
    let s ← setUp call options "text"
    let doc ← s.read first
    return s.printer.includes doc.path (s.includes doc)
  | .dependencies => report call do
    let s ← setUp call { options with root := operands.headD options.root } "toon"
    return s.printer.graph (← s.graph)
  | .server =>
    match setUp call options "text" with
    | .error failure => { failure := some failure, disk := call.disk }
    | .ok s =>
      let (output, failure) := s.serve options call.input
      { output := output, failure := failure, disk := call.disk }
  | .init => initialise call options operands

/-- Runs the program. -/
def run (call : Invocation) : Outcome :=
  match Call.parse call.arguments with
  | .error error => { failure := some (.arguments error), disk := call.disk }
  | .ok { command := command, options := options, operands := operands } =>
    if options.wantsHelp then { disk := call.disk }
    else
      match command with
      | none =>
        { output := if options.wantsVersion then "gscnav " ++ version ++ "\n" else []
          disk := call.disk }
      | some name =>
        match (Call.mk command options operands).check with
        | .error error => { failure := some (.arguments error), disk := call.disk }
        | .ok () => execute call name options operands

end ScriptNav.Command
