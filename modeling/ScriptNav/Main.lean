import ScriptNav.Command.Run

/-! The program. Its arguments are a command with flags and operands. The files that it sees are its
operands, the files of its settings, and those that a manifest lists, one path a line; a variable of
the environment says where the manifest is. A server answers messages as they come in: what it
writes for a longer input begins with what it writes for a shorter one. -/
namespace ScriptNav.Main

/-- The variables of the environment that settings are taken from. -/
def consulted : List String := ["GSCNAV_EXTENSION", "GSCNAV_WORKERS", "GSCNAV_LOG_LEVEL"]

def bytes (t : Text) : ByteArray := ⟨t.toArray⟩

/-- The lines of the manifest, if there is one. -/
def manifest : IO (List String) := do
  try
    return (← IO.FS.lines ((← IO.getEnv "GSCNAV_FILES").getD "gscnav.files")).toList
  catch _ => return []

/-- Adds a file to a disk, if it can be read. -/
def addFile (disk : Disk) (path : String) : IO Disk := do
  try
    let content ← IO.FS.readBinFile path
    return disk.place path (.file content.data.toList)
  catch _ => return disk

def loadDisk (arguments : List String) : IO Disk := do
  let cwd := Text.ofString ((← IO.getEnv "PWD").getD "/")
  let empty : Disk := ⟨.directory [], cwd⟩
  let paths := ["gscnav.toml", ".env", ".gitignore"] ++ arguments ++ (← manifest)
  (paths.filter (!·.isEmpty)).foldlM addFile (empty.place cwd (.directory []))

def loadEnvironment : IO Config.Environment :=
  consulted.filterMapM fun name => do
    return (← IO.getEnv name).map fun value => (Text.ofString name, Text.ofString value)

/-- Whether a command reads input. -/
def isServer (arguments : List Text) : Bool :=
  match Command.Call.parse arguments with
  | .ok call => call.command == some .server
  | .error _ => false

/-- Runs a command on what has come in so far, writes what is new of its output, and goes on until
the input ends. -/
partial def converse (call : Command.Invocation) (written : Nat) : IO Command.Outcome := do
  let outcome := Command.run call
  let output ← IO.getStdout
  output.write (bytes (outcome.output.drop written))
  output.flush
  let chunk ← (← IO.getStdin).read 65536
  if chunk.isEmpty then return outcome
  else converse { call with input := call.input ++ chunk.data.toList } outcome.output.length

/-- Writes the file that a run leaves. -/
def save (outcome : Command.Outcome) : IO Unit := do
  if let some (path, content) := outcome.written then
    if let some name := String.fromUTF8? (bytes path) then
      IO.FS.writeBinFile name (bytes content)

def perform (call : Command.Invocation) : IO Command.Outcome := do
  if isServer call.arguments then converse call 0
  else
    let outcome := Command.run call
    (← IO.getStdout).write (bytes outcome.output)
    save outcome
    return outcome

/-- Runs the program, and gives its exit status. -/
def runProgram (arguments : List String) : IO UInt32 := do
  let outcome ← perform {
    arguments := arguments.map Text.ofString
    environment := ← loadEnvironment
    disk := ← loadDisk arguments }
  let notes ← IO.getStderr
  notes.write (bytes outcome.notes)
  match outcome.failure with
  | none => return 0
  | some failure =>
    notes.write (bytes ("error: " ++ failure.message ++ "\n"))
    return 1

end ScriptNav.Main

def main (arguments : List String) : IO UInt32 := ScriptNav.Main.runProgram arguments
