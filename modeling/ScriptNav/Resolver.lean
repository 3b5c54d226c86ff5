import ScriptNav.Script.Definition
import ScriptNav.Script.Dialect
import ScriptNav.Script.Include
import ScriptNav.Script.Reference
import ScriptNav.Source
import ScriptNav.Workspace.Basic

/-! Where the function under a cursor is defined: in the document itself, in the modules it
includes, or in the module that the reference names. -/
namespace ScriptNav

open Text

/-- Finds the files that a pattern names, in a request that is cancelled or not; nothing when the
search fails. -/
abbrev Locator := Bool → Text → Option (List Text)

/-- The locator of a workspace. -/
def Workspace.locator (w : Workspace) (disk : Disk) (git : Git) : Locator :=
  fun isCancelled pattern =>
    if isCancelled && w.yields pattern then none else some (w.find disk git pattern)

structure Resolver where
  cwd : Text
  reader : Option Source.Reader
  locator : Option Locator
  /-- The extension of modules for documents that are no scripts. -/
  extension : Text := ".gsc"

/-- A definition in a file. -/
structure Definition where
  file : Text
  site : Script.Site
deriving DecidableEq, Repr

/-- What is known about a reference: the definitions in its scope. -/
structure Resolution where
  reference : Script.Reference
  definitions : List Definition
deriving DecidableEq, Repr

/-- A function with exactly one definition. -/
structure Metadata where
  name : Text
  params : Text
  file : Text
deriving DecidableEq, Repr

namespace Resolution

def metadata? (r : Resolution) : Option Metadata :=
  match r.definitions with
  | [d] => some ⟨r.reference.name, d.site.params, d.file⟩
  | _ => none

/-- Whether the reference is a plain call without a definition, so that the engine may provide it.
-/
def mayBeBuiltin (r : Resolution) : Bool :=
  r.definitions.isEmpty && !r.reference.isNamespaced && r.reference.shape == .call

end Resolution

namespace Resolver

/-- The resolver with the usual extension where none is given. -/
def make (cwd : Text) (reader : Option Source.Reader) (locator : Option Locator)
    (extension : Text) : Resolver :=
  { cwd := cwd, reader := reader, locator := locator
    extension := if extension.isEmpty then ".gsc" else extension }

/-- Whether two paths are one file. -/
def sameFile (cwd a b : Text) : Bool :=
  if a.isEmpty || b.isEmpty then a == b else Source.key cwd a == Source.key cwd b

/-- What a candidate is compared by: nothing for the document itself. -/
def fileKey (cwd current path : Text) : Option Text :=
  if path.isEmpty || sameFile cwd current path then none else some (Source.key cwd path)

/-- The first of those with one key. -/
def dedupe (cwd current : Text) (files : List Text) : List Text :=
  let step := fun (state : List (Option Text) × List Text) (path : Text) =>
    let key := fileKey cwd current path
    if state.1.contains key then state else (key :: state.1, path :: state.2)
  (files.foldl step ([], [])).2.reverse

/-- The patterns that a reference in a document asks for, in order. -/
def patterns (r : Resolver) (doc : Document) (reference : Script.Reference) : List Text :=
  let extension := Script.moduleExtension doc.path r.extension
  let modules :=
    if reference.namespacePath.isEmpty then Script.includes doc.text else [reference.namespacePath]
  if r.locator.isNone then [] else modules.map (Script.moduleFile · extension)

/-- The files of a pattern. A search that fails finds nothing, unless the request is cancelled. -/
def find (r : Resolver) (isCancelled : Bool) (pattern : Text) : Option (List Text) :=
  match r.locator with
  | none => some []
  | some locator =>
    match locator isCancelled pattern with
    | some files => some files
    | none => if isCancelled then none else some []

/-- The files in which a reference may be defined; nothing if the request is cancelled. -/
def scope (r : Resolver) (isCancelled : Bool) (doc : Document) (reference : Script.Reference) :
    Option (List Text) := do
  let found ← (r.patterns doc reference).mapM (r.find isCancelled)
  let own := if reference.namespacePath.isEmpty then [doc.path] else []
  return dedupe r.cwd doc.path (own ++ found.flatten)

/-- The text of a candidate: the document's own text for the document itself. -/
def text? (r : Resolver) (doc : Document) (path : Text) : Option Text :=
  if sameFile r.cwd doc.path path then some doc.text
  else r.reader.bind fun reader => (reader path).toOption

/-- The definitions of a name in files, one at most for each. -/
def scan (r : Resolver) (doc : Document) (files : List Text) (name : Text) : List Definition :=
  files.filterMap fun path => do
    let text ← r.text? doc path
    let site ← Script.definition? text name
    return ⟨path, site⟩

/-- What happens to a lookup: it is cancelled, or it gives what is at the offset. -/
inductive Outcome where
  | cancelled
  | resolved (resolution : Option Resolution)
deriving DecidableEq, Repr

/-- Looks up the reference at an offset of a document. A cancelled request may still find that there
is nothing to scan. -/
def lookup (r : Resolver) (isCancelled : Bool) (doc : Document) (offset : Int) : Outcome :=
  match Script.referenceAt doc.text offset with
  | none => .resolved none
  | some reference =>
    match r.scope isCancelled doc reference with
    | none => .cancelled
    | some files =>
      if isCancelled && !files.isEmpty then .cancelled
      else .resolved (some ⟨reference, r.scan doc files reference.name⟩)

end Resolver
end ScriptNav
