import ScriptNav.Path
import ScriptNav.Text.Letter

/-! The script dialects and their file extensions. -/
namespace ScriptNav.Script

open Text

inductive Dialect where
  | client
  | server
deriving DecidableEq, Repr

namespace Dialect

def all : List Dialect := [.client, .server]

def name : Dialect → Text
  | .client => "csc"
  | .server => "gsc"

def extension (d : Dialect) : Text := dot :: d.name

/-- The dialect of a file extension in any letter case. -/
def ofExtension? (ext : Text) : Option Dialect := all.find? fun d => d.extension == ext.toLower

end Dialect

/-- The extension that module paths take in the document at `path`: its own if it is a script, and
`fallback` otherwise. -/
def moduleExtension (path fallback : Text) : Text :=
  let ext := Path.extension path
  match Dialect.ofExtension? ext with
  | some _ => ext.toLower
  | none => fallback

end ScriptNav.Script
