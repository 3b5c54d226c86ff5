import ScriptNav.Disk
import ScriptNav.Text.Utf8

/-! Script texts, taken from the open buffers of an editor first and from the disk otherwise. -/
namespace ScriptNav

open Text

namespace Source

/-- The spelling under which buffers and files are compared. -/
def key (cwd path : Text) : Text := Path.absolute cwd path

/-- Why a text cannot be had. -/
inductive Absence where
  | unknown
  | fault (error : FileError)
  | isDirectory
  | tooLarge (limit : Int)
deriving DecidableEq, Repr

structure ReadError where
  path : Text
  absence : Absence
deriving DecidableEq, Repr

namespace ReadError

def message (e : ReadError) : Text :=
  let reason : Text := match e.absence with
    | .unknown => []
    | .fault error => ": " ++ error.message
    | .isDirectory => ": is a directory"
    | .tooLarge limit => ": exceeds " ++ ofInt limit ++ " bytes"
  e.path ++ ": source not found" ++ reason

end ReadError

/-- The texts of open documents by their keys. -/
abbrev Overlay := List (Text × Text)

namespace Overlay

def get? (o : Overlay) (key : Text) : Option Text := o.lookup key

def erase (o : Overlay) (key : Text) : Overlay := o.filter (·.1 != key)

def set (o : Overlay) (key text : Text) : Overlay := (key, text) :: o.erase key

end Overlay

/-- A source of texts by path. -/
abbrev Reader := Text → Except ReadError Text

/-- The text of a file on disk. A limit that is not positive is no limit. -/
def fromDisk (disk : Disk) (limit : Int) : Reader := fun path =>
  let refuse := fun absence => Except.error (ReadError.mk path absence)
  match disk.stat path with
  | .error ⟨_, _, .missing⟩ => refuse .unknown
  | .error error => refuse (.fault error)
  | .ok (.directory _) => refuse .isDirectory
  | .ok entry =>
    if 0 < limit && limit < entry.size then refuse (.tooLarge limit)
    else
      match disk.read path with
      | .ok content => .ok (Utf8.read content)
      | .error error => refuse (.fault error)

/-- The buffer of a path if there is one, and the text of its file otherwise. -/
def reader (disk : Disk) (buffers : Overlay) (limit : Int) : Reader := fun path =>
  match buffers.get? (key disk.cwd path) with
  | some text => .ok text
  | none => fromDisk disk limit path

end Source

/-- A document: its path and its current text. -/
structure Document where
  path : Text
  text : Text
deriving DecidableEq, Repr

end ScriptNav
