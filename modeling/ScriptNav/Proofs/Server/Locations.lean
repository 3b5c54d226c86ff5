import Mathlib.Data.List.Forall2
import ScriptNav.Proofs.Resolver.Paths
import ScriptNav.Proofs.Script.DefinitionNames
import ScriptNav.Proofs.Server.Points
import ScriptNav.Server.Inquiry

/-! The locations that answer a question for definitions. Each of them shows one definition that was
found, in its order: the range leads back to the offset of the definition, and spans its name. -/
namespace ScriptNav

open Text Utf8

namespace Server

section Words
variable {before name rest : Text} (hname : Script.IsWordText name)
  (ht : IsUtf8 (before ++ (name ++ rest))) (hlen : (before ++ (name ++ rest)).length < 0x100000000)
include hname ht hlen

/-- The point at the beginning of a word leads back there. -/
theorem offsetOf_wordStart :
    offsetOf (before ++ (name ++ rest)) (pointAt (before ++ (name ++ rest)) before.length) =
      before.length := by
  obtain ⟨b, more, rfl⟩ := List.exists_cons_of_ne_nil hname.1
  have hword : isWord b = true := hname.2 b List.mem_cons_self
  refine offsetOf_pointAt ht hlen (isBoundary_append ?_ before) fun hsplits => ?_
  · rintro _ ⟨⟩
    rw [isContinuation, Bool.and_eq_false_iff, decide_eq_false_iff_not, UInt8.not_le]
    exact .inl (Script.lt_of_isWord hword)
  · obtain rfl : b = newline := Option.some.inj (splitsBreak_append_iff.1 hsplits).2
    cases hword

/-- The point at the end of a word leads back there. -/
theorem offsetOf_wordStop :
    offsetOf (before ++ (name ++ rest))
      (pointAt (before ++ (name ++ rest)) (before.length + name.length : Nat)) =
        before.length + name.length := by
  obtain ⟨front, last, rfl⟩ := (List.eq_nil_or_concat name).resolve_left hname.1
  rw [List.concat_eq_append] at hname ht hlen ⊢
  have hword : isWord last = true := hname.2 last (by simp)
  have htext : before ++ (front ++ [last] ++ rest) = before ++ front ++ [last] ++ rest := by simp
  have hstop : before.length + (front ++ [last]).length = (before ++ front ++ [last]).length := by
    simp
  rw [htext] at ht hlen ⊢
  rw [hstop]
  generalize before ++ front = lead at ht hlen
  -- A word ends with a character of its own, so that another character begins behind it.
  have hrest : IsUtf8 rest := by
    rw [List.append_assoc, List.singleton_append] at ht
    refine ht.of_append_cons ?_
    rw [announced, if_pos (Script.lt_of_isWord hword)]
  have hboundary := isBoundary_append hrest.isContinuation_of_mem_head? (lead ++ [last])
  refine offsetOf_pointAt ht hlen hboundary fun hsplits => ?_
  obtain rfl : last = carriage := by simpa using (splitsBreak_append_iff.1 hsplits).1
  cases hword

end Words

section Definitions
variable {t name : Text} {site : Script.Site}

/-- The range of a definition leads back to its offset, and spans its name. -/
theorem offsetOf_range_definition (ht : IsUtf8 t) (hlen : t.length < 0x100000000)
    (hname : Script.IsWordText name) (hsite : Script.definition? t name = some site) :
    let range := rangeBetween t site.offset (site.offset + name.length)
    offsetOf t range.start = site.offset ∧
      (t.take (offsetOf t range.stop)).drop (offsetOf t range.start) = name := by
  obtain ⟨before, gap, rest, rfl, hoffset, -⟩ := (hname.definesAt hsite).exists_append hname
  have hstart := offsetOf_wordStart hname ht hlen
  have hstop := offsetOf_wordStop hname ht hlen
  rw [← hoffset] at hstart hstop
  intro range
  simp only [range, rangeBetween, ← Int.natCast_add, hstart, hstop, true_and]
  rw [hoffset, ← List.append_assoc, ← List.length_append, List.take_left, List.drop_left]

/-- A location shows a definition of a name: it gives the file, and a range that leads to the offset
of the definition in the text of the file and spans the name. -/
def Shows (cwd : Text) (reader : Source.Reader) (name : Text) (d : Definition) (location : Json) :
    Prop :=
  ∃ (text : Text) (range : Range), reader d.file = .ok text ∧
    location = .object [("uri", .string (uriOfPath cwd d.file)), ("range", range.toJson)] ∧
    offsetOf text range.start = d.site.offset ∧
    (text.take (offsetOf text range.stop)).drop (offsetOf text range.start) = name

variable {settings : Settings} {q : Inquiry} {doc : Document} {d : Definition} {text : Text}

/-- The location of a definition shows it. -/
theorem exists_location_shows (hdoc : q.reader settings doc.path = .ok doc.text)
    (hread : q.reader settings d.file = .ok text) (htext : IsUtf8 text)
    (hlen : text.length < 0x100000000) (hname : Script.IsWordText name)
    (hsite : Script.definition? text name = some d.site) :
    ∃ location, q.location? settings doc name d = some location ∧
      Shows settings.disk.cwd (q.reader settings) name d location := by
  obtain ⟨hstart, hspan⟩ := offsetOf_range_definition htext hlen hname hsite
  refine ⟨_, ?_, text, _, hread, rfl, hstart, hspan⟩
  rw [Inquiry.location?]
  split_ifs with hfile
  · rw [← eq_of_beq hfile, hread] at hdoc
    rw [Except.ok.inj hdoc]
    rfl
  · rw [hread]
    rfl

/-- Where every item gives one, the items that are given stand in their order. -/
theorem forall₂_filterMap {α β : Type} {f : α → Option β} {R : α → β → Prop} {xs : List α}
    (h : ∀ x ∈ xs, ∃ y, f x = some y ∧ R x y) : List.Forall₂ R xs (xs.filterMap f) := by
  induction xs with
  | nil => exact .nil
  | cons x xs ih =>
    obtain ⟨y, hy, hR⟩ := h x List.mem_cons_self
    rw [List.filterMap_cons_some hy]
    exact .cons hR (ih fun x hx => h x (List.mem_cons_of_mem _ hx))

/-- The locations of what is found in rooted paths show it, one to one and in order. -/
theorem forall₂_shows (hdoc : Path.IsAbsolute doc.path)
    (hread : q.reader settings doc.path = .ok doc.text) {files : List Text}
    (hfiles : ∀ path ∈ files, Path.IsAbsolute path)
    (htexts : ∀ path ∈ files, ∀ text, q.reader settings path = .ok text →
      IsUtf8 text ∧ text.length < 0x100000000) (hname : Script.IsWordText name) :
    let definitions := (q.resolver settings).scan doc files name
    List.Forall₂ (Shows settings.disk.cwd (q.reader settings) name) definitions
      (definitions.filterMap (q.location? settings doc name)) := by
  refine forall₂_filterMap fun d hd => ?_
  obtain ⟨hfile, text, htext, hsite⟩ := Resolver.exists_text_of_mem_scan rfl hdoc hread hfiles hd
  obtain ⟨hutf8, hlen⟩ := htexts d.file hfile text htext
  exact exists_location_shows hread htext hutf8 hlen hname hsite

end Definitions
end Server
end ScriptNav
