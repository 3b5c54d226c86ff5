import ScriptNav.Catalog.Basic
import ScriptNav.IncludeGraph
import ScriptNav.Resolver
import ScriptNav.Script.Signature

/-! A compact notation for tables: a header with the number of rows and the columns, and one line a
row. Values are quoted where they would read as something else. -/
namespace ScriptNav.Toon

open Text

def escapeByte (b : UInt8) : Text :=
  if b == backslash then "\\\\"
  else if b == quote then "\\\""
  else if b == newline then "\\n"
  else if b == carriage then "\\r"
  else if b == tab then "\\t"
  else [b]

def quoteValue (t : Text) : Text := quote :: t.flatMap escapeByte ++ [quote]

/-- Whether a text is a decimal without superfluous zeros or signs. -/
def isNumeric (t : Text) : Bool :=
  let t := (after? "-" t).getD t
  let whole := t.takeWhile isDigit
  let isWhole := whole == "0" || (!whole.isEmpty && whole.head? != some 48)
  match t.drop whole.length with
  | [] => isWhole
  | b :: fraction => isWhole && b == dot && !fraction.isEmpty && fraction.all isDigit

/-- Bytes that mean something in the notation. -/
def isMark (b : UInt8) : Bool := (",:\"\\\x7b\x7d[]" : Text).contains b

def isKeyword (t : Text) : Bool := [("true" : Text), "false", "null"].contains t.toLower

/-- Whether a text has to be quoted. -/
def needsQuotes (t : Text) : Bool :=
  t.isEmpty || t != trim t || t.any (fun b => b == newline || b == carriage || b == tab) ||
    isKeyword t || (!isNumeric t && (t.any isMark || startsWith "-" t))

def value (t : Text) : Text := if needsQuotes t then quoteValue t else t

def row (cells : List Text) : Text := join [comma] (cells.map value)

def header (name : Text) (columns : List Text) (count : Nat) : Text :=
  name ++ "[" ++ ofNat count ++ "]\x7b" ++ join [comma] columns ++ "\x7d:"

def table (name : Text) (columns : List Text) (rows : List (List Text)) : Text :=
  header name columns rows.length ++ rows.flatMap fun cells => ("\n  " : Text) ++ row cells

def entry (name content : Text) : Text := name ++ ": " ++ value content

def lines (ls : List Text) : Text := join [newline] ls

/-- The definitions of a symbol, with paths from `root` and positions counted from one. -/
def definitions (symbol : Text) (found : List Definition) (root : Text) : Text :=
  let cells := fun (d : Definition) =>
    [Path.relative root d.file, ofInt (wrap (d.site.position.line + 1)),
      ofInt (wrap (d.site.position.column + 1)), Script.signature symbol d.site.params]
  lines [entry "symbol" symbol,
    table "definitions" ["file", "line", "column", "signature"] (found.map cells)]

def metadata (m : Option Metadata) (root : Text) : Text :=
  match m with
  | none => "metadata: null"
  | some m =>
    lines [entry "name" m.name, entry "params" m.params, entry "file" (Path.relative root m.file)]

def builtin (e : Catalog.Entry) : Text :=
  lines ([entry "builtin" e.name, entry "signature" e.signature] ++
    if e.summary.isEmpty then [] else [entry "summary" e.summary])

/-- The modules that a file includes with the files they name; one without files has an empty cell.
-/
def includes (file : Text) (found : List (Text × List Text)) (root : Text) : Text :=
  let rows := found.flatMap fun (module, files) =>
    if files.isEmpty then [[module, []]] else files.map fun f => [module, Path.relative root f]
  lines [entry "file" (Path.relative root file), table "includes" ["module", "file"] rows]

def graph (g : IncludeGraph) : Text :=
  let dependency := fun (d : Dependency) => [d.source, d.target, join [blank] d.modules]
  let sorted := g.unresolved.mergeSort fun a b => decide (a.1 ≤ b.1)
  let missing := sorted.flatMap fun (file, modules) => modules.map fun module => [file, module]
  lines ([entry "root" g.root, table "files" ["path"] (g.files.map fun f => [f]),
    table "includes" ["source", "target", "modules"] (g.dependencies.map dependency)] ++
    if g.unresolved.isEmpty then [] else [table "unresolved" ["file", "module"] missing])

end ScriptNav.Toon
