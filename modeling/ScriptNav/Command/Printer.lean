import ScriptNav.Command.Location
import ScriptNav.Json.Printer
import ScriptNav.Text.Width
import ScriptNav.Toon

/-! What the commands print: lines for people, with colours if they are wanted, JSON, or the compact
notation. Paths are shown from a root directory, lines and columns counted from one. -/
namespace ScriptNav.Command

open Text

inductive Format where
  | text
  | json
  | toon
deriving DecidableEq, Repr

namespace Format

def ofText? (t : Text) : Option Format :=
  if t == "text" then some .text
  else if t == "json" then some .json
  else if t == "toon" then some .toon
  else none

end Format

/-- The ways to set off a piece of a line. -/
inductive Style where
  | path
  | name
  | faint
  | error
deriving DecidableEq, Repr

structure Printer where
  format : Format
  isColored : Bool
  root : Text

namespace Printer

/-- The codes of a terminal around a piece of a line. -/
def codes : Style → Text × Text
  | .path => ("\x1b[36m", "\x1b[0m")
  | .name => ("\x1b[1m", "\x1b[22m")
  | .faint => ("\x1b[2m", "\x1b[22m")
  | .error => ("\x1b[31m", "\x1b[0m")

def paint (p : Printer) (style : Style) (t : Text) : Text :=
  if p.isColored then (codes style).1 ++ t ++ (codes style).2 else t

/-- A path as it is shown. -/
def shown (p : Printer) (path : Text) : Text := Path.relative p.root path

def line (t : Text) : Text := t ++ [newline]

def json (j : Json) : Text := line (j.indented 0)

/-- The greatest width of some texts. -/
def column (ts : List Text) : Nat := (ts.map width).foldl max 0

def noReference (p : Printer) : Text := line (p.paint .faint "no function reference at position")

def siteJson (p : Printer) (name : Text) (d : Definition) : Json :=
  .object [("file", .string (p.shown d.file)), ("line", .int (d.site.position.line + 1)),
    ("column", .int (d.site.position.column + 1)), ("params", .string d.site.params),
    ("signature", .string (Script.signature name d.site.params))]

def shapeText : Script.Shape → Text
  | .call => "call"
  | .pointer => "pointer"

def definitionsJson (p : Printer) (found : Option Resolution) : Json :=
  match found with
  | none => .object [("definitions", .array [])]
  | some r =>
    .object (Json.unlessEmpty "symbol" r.reference.name ++
      Json.unlessEmpty "namespace" r.reference.namespacePath ++
      Json.unlessEmpty "shape" (shapeText r.reference.shape) ++
      Json.member "definitions" (.array (r.definitions.map (p.siteJson r.reference.name))))

def definitionLines (p : Printer) (r : Resolution) : Text :=
  let place := fun (d : Definition) => p.shown d.file ++ ":" ++ showLocation d.site.position
  let columns := column (r.definitions.map place)
  r.definitions.flatMap fun d =>
    line (p.paint .path (place d) ++ padding columns (place d) ++ "  " ++
      p.paint .name (Script.signature r.reference.name d.site.params))

/-- The definitions of what is at a position. -/
def definitions (p : Printer) (found : Option Resolution) : Text :=
  match p.format, found with
  | .json, _ => json (p.definitionsJson found)
  | .toon, none => line (Toon.definitions [] [] p.root)
  | .toon, some r => line (Toon.definitions r.reference.name r.definitions p.root)
  | .text, none => p.noReference
  | .text, some r =>
    if r.definitions.isEmpty then
      line (p.paint .faint ("no definition of " ++ r.reference.name ++ " in scope"))
    else p.definitionLines r

/-- The one definition of a function. -/
def metadata (p : Printer) (m : Metadata) : Text :=
  match p.format with
  | .json => json (.object (("name", .string m.name) :: ("params", .string m.params) ::
      Json.unlessEmpty "file" (p.shown m.file)))
  | .toon => line (Toon.metadata (some m) p.root)
  | .text => line (p.paint .name (Script.signature m.name m.params) ++ "\n  " ++
      p.paint .faint "defined in " ++ p.paint .path (p.shown m.file))

/-- A function that the engine provides. -/
def builtin (p : Printer) (e : Catalog.Entry) : Text :=
  match p.format with
  | .json => json (.object (Json.member "name" (.string e.name) ++
      Json.member "params" (.string (join ", " (e.params.map (·.name)))) ++
      Json.member "builtin" (.bool true) ++
      Json.unlessEmpty "summary" e.summary ++ Json.unlessEmpty "example" e.usage))
  | .toon => line (Toon.builtin e)
  | .text =>
    let summary : Text := if e.summary.isEmpty then [] else "\n  " ++ e.summary
    let usage : Text :=
      if e.usage.isEmpty then [] else "\n  " ++ p.paint .faint "example: " ++ e.usage
    line (p.paint .name e.signature ++ "  " ++ p.paint .faint "(built-in)" ++ summary ++ usage)

/-- Says that nothing is known about what is at a position. -/
def noMetadata (p : Printer) (found : Option Resolution) : Text :=
  match p.format, found with
  | .json, _ => json .null
  | .toon, _ => line (Toon.metadata none p.root)
  | .text, none => p.noReference
  | .text, some r =>
    line (p.paint .faint ("no unambiguous definition of " ++ r.reference.name ++ " (" ++
      ofNat r.definitions.length ++ " in scope)"))

/-- The modules that a file includes, each with the files that it names. -/
def includes (p : Printer) (file : Text) (found : List (Text × List Text)) : Text :=
  match p.format with
  | .json => json (.array (found.map fun (module, files) =>
      .object [("module", .string module), ("files", .texts (files.map p.shown))]))
  | .toon => line (Toon.includes file found p.root)
  | .text =>
    let columns := column (found.map Prod.fst)
    found.flatMap fun (module, files) =>
      let target :=
        if files.isEmpty then p.paint .error "(unresolved)"
        else join ", " (files.map fun f => p.paint .path (p.shown f))
      line (p.paint .name module ++ padding columns module ++ "  " ++ target)

def graphJson (g : IncludeGraph) : Json :=
  let dependency := fun (d : Dependency) =>
    Json.object [("source", .string d.source), ("target", .string d.target),
      ("modules", .texts d.modules)]
  let sorted := g.unresolved.mergeSort fun a b => decide (a.1 ≤ b.1)
  let unresolved := Json.object (sorted.map fun (file, modules) => (file, .texts modules))
  .object (("root", .string g.root) :: ("files", .texts g.files) ::
    ("includes", .array (g.dependencies.map dependency)) ::
    if sorted.isEmpty then [] else [("unresolved", unresolved)])

/-- Which scripts include which. -/
def graph (p : Printer) (g : IncludeGraph) : Text :=
  match p.format with
  | .json => json (graphJson g)
  | .toon => line (Toon.graph g)
  | .text =>
    let columns := column (g.dependencies.map (·.source))
    let edges := g.dependencies.flatMap fun d =>
      line (p.paint .path d.source ++ padding columns d.source ++ " -> " ++ p.paint .path d.target)
    let missing := g.files.flatMap fun file =>
      ((g.unresolved.lookup file).getD []).flatMap fun module =>
        line (p.paint .path file ++ ": " ++ p.paint .error ("unresolved include " ++ module))
    edges ++ missing

end Printer
end ScriptNav.Command
