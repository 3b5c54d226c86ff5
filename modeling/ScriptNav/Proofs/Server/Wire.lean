import ScriptNav.Proofs.Json.Values
import ScriptNav.Proofs.Server.Notices

/-! The notices and questions of an editor as texts. Each notice is written as a message, and the
message is read back as the notice; so are the parameters of a question. -/
namespace ScriptNav.Server

open Text Utf8 Json

section Records
variable {α : Type} {fields : List (Text × Reading α)}

/-- The first member of an object is read by the field of its name, and then the others. -/
theorem record_cons {key name : Text} {read : Reading α}
    (h : (fields.find? fun field => equalFold key field.1) = some (name, read)) (value : Json)
    (members : List (Text × Json)) (a : α) :
    Reading.record fields (.object ((key, value) :: members)) a =
      (read value a).bind fun a => Reading.record fields (.object members) a := by
  simp only [Reading.record, List.foldlM_cons, h]
  rfl

theorem record_nil (a : α) : Reading.record fields (.object []) a = some a := rfl

end Records

section Changes

theorem isWritable_point (p : Point) : IsWritable p.toJson :=
  .object_cons (by decide) (.nat _) (.object_cons (by decide) (.nat _) .object_nil)

theorem isWritable_range (r : Range) : IsWritable r.toJson :=
  .object_cons (by decide) (isWritable_point _)
    (.object_cons (by decide) (isWritable_point _) .object_nil)

theorem word_nat (n old : UInt32) : Reading.word (.nat n.toNat) old = some n := by
  have hlt := n.toNat_lt
  rw [Json.nat, Reading.word, magnitude_ofNat (by omega)]
  simp only [if_pos hlt, UInt32.ofNat_toNat]

theorem Point.read_toJson (p old : Point) : Point.read p.toJson old = some p := by
  rw [Point.read, Point.toJson, record_cons rfl, Reading.part, word_nat, Option.map_some,
    Option.bind_some, record_cons rfl, Reading.part, word_nat, Option.map_some, Option.bind_some,
    record_nil]

theorem Range.read_toJson (r old : Range) : Range.read r.toJson old = some r := by
  rw [Range.read, Range.toJson, record_cons rfl, Reading.part, Point.read_toJson, Option.map_some,
    Option.bind_some, record_cons rfl, Reading.part, Point.read_toJson, Option.map_some,
    Option.bind_some, record_nil]

/-- How an editor writes a change. -/
def Change.toJson (c : Change) : Json :=
  match c.range with
  | none => .object [("text", .string c.text)]
  | some r => .object [("range", r.toJson), ("text", .string c.text)]

theorem Change.isWritable_toJson (c : Change) (h : IsUtf8 c.text) : IsWritable c.toJson := by
  rcases c with ⟨_ | r, text⟩
  · exact .object_cons (by decide) (.string h) .object_nil
  · exact .object_cons (by decide) (isWritable_range r)
      (.object_cons (by decide) (.string h) .object_nil)

theorem Change.read_toJson (c : Change) : Change.read c.toJson ⟨none, []⟩ = some c := by
  rcases c with ⟨_ | r, text⟩
  · rfl
  · have hrange : Reading.optional ⟨⟨0, 0⟩, ⟨0, 0⟩⟩ Range.read r.toJson none = some (some r) := by
      show (Range.read r.toJson _).map some = _
      rw [Range.read_toJson, Option.map_some]
    rw [Change.toJson, Change.read, record_cons rfl, Reading.part, hrange, Option.map_some,
      Option.bind_some]
    rfl

theorem Change.readAll_toJson (changes : List Change) :
    Change.readAll (.array (changes.map toJson)) {} = some ⟨changes, []⟩ := by
  have honto (changes : List Change) :
      Reading.itemsOnto ⟨none, []⟩ Change.read (changes.map toJson) [] = some ⟨changes, []⟩ := by
    induction changes with
    | nil => rfl
    | cons c changes ih =>
      rw [List.map_cons, Reading.itemsOnto, List.headD_nil, Change.read_toJson, List.tail_nil, ih]
      rfl
  cases changes with
  | nil => rfl
  | cons c changes => exact honto (c :: changes)

end Changes

namespace Notice

def method : Notice → Text
  | opened _ _ => "textDocument/didOpen"
  | changed _ _ => "textDocument/didChange"
  | saved _ _ => "textDocument/didSave"
  | closed _ => "textDocument/didClose"

def params : Notice → Json
  | opened uri text =>
    .object [("textDocument", .object [("uri", .string uri), ("text", .string text)])]
  | changed uri changes =>
    .object [("textDocument", .object [("uri", .string uri)]),
      ("contentChanges", .array (changes.map Change.toJson))]
  | saved uri text =>
    .object [("textDocument", .object [("uri", .string uri)]), ("text", .string text)]
  | closed uri => .object [("textDocument", .object [("uri", .string uri)])]

/-- The message by which an editor gives a notice. -/
def toJson (n : Notice) : Json :=
  .object [("jsonrpc", .string "2.0"), ("method", .string n.method), ("params", n.params)]

/-- The text of that message. -/
def payload (n : Notice) : Text := render n.toJson

/-- A notice whose texts are texts. -/
def IsUtf8 : Notice → Prop
  | opened uri text | saved uri text => Utf8.IsUtf8 uri ∧ Utf8.IsUtf8 text
  | changed uri changes => Utf8.IsUtf8 uri ∧ ∀ c ∈ changes, Utf8.IsUtf8 c.text
  | closed uri => Utf8.IsUtf8 uri

theorem isWritable_params {n : Notice} (h : n.IsUtf8) : IsWritable n.params := by
  cases n with
  | opened uri text =>
    exact .object_cons (by decide) (.object_cons (by decide) (.string h.1)
      (.object_cons (by decide) (.string h.2) .object_nil)) .object_nil
  | changed uri changes =>
    refine .object_cons (by decide) (.object_cons (by decide) (.string h.1) .object_nil)
      (.object_cons (by decide) (.array ?_) .object_nil)
    simp only [List.mem_map]
    rintro _ ⟨c, hc, rfl⟩
    exact c.isWritable_toJson (h.2 c hc)
  | saved uri text =>
    exact .object_cons (by decide) (.object_cons (by decide) (.string h.1) .object_nil)
      (.object_cons (by decide) (.string h.2) .object_nil)
  | closed uri =>
    exact .object_cons (by decide) (.object_cons (by decide) (.string h) .object_nil) .object_nil

theorem isWritable_toJson {n : Notice} (h : n.IsUtf8) : IsWritable n.toJson := by
  have hmethod : Utf8.IsUtf8 n.method := by
    cases n <;> rw [method] <;> decide
  exact .object_cons (by decide) (.string (by decide)) (.object_cons (by decide) (.string hmethod)
    (.object_cons (by decide) (isWritable_params h) .object_nil))

theorem parse?_payload {n : Notice} (h : n.IsUtf8) :
    Message.parse? n.payload = some ⟨none, n.method, some (render n.params)⟩ := by
  have hwrite := isWritable_toJson h
  have hsources := hwrite.sources_render (List.cons_ne_nil _ _)
  have henvelope : Message.readEnvelope n.toJson {} = some ⟨"2.0", n.method, none⟩ := rfl
  rw [payload, Message.parse?, hwrite.parse?_render]
  simp only [bind, pure, Option.bind_some, henvelope]
  rw [toJson, hsources]
  rfl

/-- A notice is read back from its text. -/
theorem ofPayload?_payload {n : Notice} (h : n.IsUtf8) : ofPayload? n.payload = some n := by
  have hparams {α : Type} (read : Reading α) (zero : α) :
      readParams read zero (some (render n.params)) = read n.params zero := by
    rw [readParams]
    simp only [bind, Option.bind_some, (isWritable_params h).parse?_render]
  rw [ofPayload?, parse?_payload h, Option.bind_some, ofMessage?]
  cases n with
  | opened uri text =>
    have hmethod : Method.ofText (opened uri text).method = .didOpen := rfl
    simp only [hmethod, hparams]
    rfl
  | changed uri changes =>
    have hmethod : Method.ofText (changed uri changes).method = .didChange := rfl
    have hread : ChangeParams.read (changed uri changes).params {} =
        some ⟨{ uri := uri }, ⟨changes, []⟩⟩ := by
      have hdocument : DocumentItem.readVersion (.object [("uri", .string uri)]) {} =
          some { uri := uri } := rfl
      rw [params, ChangeParams.read, record_cons rfl, Reading.part, hdocument, Option.map_some,
        Option.bind_some, record_cons rfl, Reading.part, Change.readAll_toJson, Option.map_some,
        Option.bind_some, record_nil]
    simp only [hmethod, hparams, hread]
    rfl
  | saved uri text =>
    have hmethod : Method.ofText (saved uri text).method = .didSave := rfl
    simp only [hmethod, hparams]
    rfl
  | closed uri =>
    have hmethod : Method.ofText (closed uri).method = .didClose := rfl
    simp only [hmethod, hparams]
    rfl

end Notice

namespace PositionParams

/-- How an editor writes the parameters of a question. -/
def toJson (uri : Text) (point : Point) : Json :=
  .object [("textDocument", .object [("uri", .string uri)]), ("position", point.toJson)]

theorem readParams_render {uri : Text} (h : IsUtf8 uri) (point : Point) :
    readParams read {} (some (render (toJson uri point))) = some ⟨{ uri := uri }, point⟩ := by
  have hwritable : IsWritable (toJson uri point) :=
    .object_cons (by decide) (.object_cons (by decide) (.string h) .object_nil)
      (.object_cons (by decide) (isWritable_point point) .object_nil)
  have hdocument : DocumentItem.readName (.object [("uri", .string uri)]) {} =
      some { uri := uri } := rfl
  rw [readParams]
  simp only [bind, Option.bind_some, hwritable.parse?_render]
  rw [toJson, read, record_cons rfl, Reading.part, hdocument, Option.map_some, Option.bind_some,
    record_cons rfl, Reading.part, Point.read_toJson, Option.map_some, Option.bind_some, record_nil]

end PositionParams
end ScriptNav.Server
