import ScriptNav.Proofs.Command.Location
import ScriptNav.Proofs.Resolver.Lookup
import ScriptNav.Proofs.Script.DefinitionNames

/-! Going to a definition, and from there again. A definition in the document itself is shown with a
location that leads back to its offset, and a lookup of the name that stands there finds what the
lookup that led there has found. -/
namespace ScriptNav

open Text

namespace Resolver
variable {r : Resolver} {doc : Document} {isCancelled : Bool} {offset : Int} {found : Resolution}

/-- What a lookup finds: the reference at the offset, and the definitions in its scope, if a cancelled
request has anything to scan there. -/
theorem lookup_eq_resolved_iff :
    r.lookup isCancelled doc offset = .resolved (some found) ↔
      Script.referenceAt doc.text offset = some found.reference ∧
      ∃ files, r.scope isCancelled doc found.reference = some files ∧
        (isCancelled && !files.isEmpty) = false ∧
        r.scan doc files found.reference.name = found.definitions := by
  cases hreference : Script.referenceAt doc.text offset with
  | none => simp [lookup, hreference]
  | some reference =>
    cases hscope : r.scope isCancelled doc reference with
    | none =>
      simp only [lookup, hreference, hscope, reduceCtorEq, Option.some.injEq, false_iff]
      rintro ⟨rfl, files, hfiles, -⟩
      rw [hscope] at hfiles
      cases hfiles
    | some files =>
      simp only [lookup, hreference, hscope, Option.some.injEq]
      constructor
      · intro h
        split_ifs at h with hidle
        cases h
        exact ⟨rfl, files, hscope, by simpa using hidle, rfl⟩
      · rintro ⟨rfl, files', hscope', hidle, hscan⟩
        rw [hscope] at hscope'
        cases hscope'
        rw [hidle, hscan]
        rfl

/-- The scope of a reference depends on its module path only. -/
theorem scope_congr {a b : Script.Reference} (h : a.namespacePath = b.namespacePath) :
    r.scope isCancelled doc a = r.scope isCancelled doc b := by
  simp only [scope, patterns, h]

theorem sameFile_self (cwd path : Text) : sameFile cwd path path = true := by
  simp [sameFile]

/-- A definition in the document itself is one in its own text. -/
theorem definition?_of_mem_scan {files : List Text} {name : Text} {d : Definition}
    (hd : d ∈ r.scan doc files name) (hfile : d.file = doc.path) :
    Script.definition? doc.text name = some d.site := by
  obtain ⟨path, -, hpath⟩ := List.mem_filterMap.1 hd
  simp only [Option.bind_eq_bind, Option.bind_eq_some_iff, Option.pure_def,
    Option.some.injEq] at hpath
  obtain ⟨text, htext, site, hsite, rfl⟩ := hpath
  obtain rfl : path = doc.path := hfile
  rw [text?, sameFile_self, if_pos rfl, Option.some.injEq] at htext
  rw [htext, hsite]

end Resolver

namespace Command
variable {r : Resolver} {doc : Document} {isCancelled : Bool} {offset : Int} {found : Resolution}
  {d : Definition}

/-- The location of a definition leads back to its offset. -/
theorem offsetAt_location {t name params : Text} {p : Nat}
    (h : Script.DefinesAt t (· = name) p params) (hname : Script.IsWordText name)
    (hlen : t.length < 0x8000000000000000) :
    ∃ position, parseLocation (showLocation (t.positionAt p)) = .ok position ∧
      t.offsetAt position = p := by
  obtain ⟨before, gap, rest, rfl, rfl, -⟩ := h.exists_append hname
  obtain ⟨b, more, rfl⟩ := List.exists_cons_of_ne_nil hname.1
  have hreturn : ¬ FollowsReturn (before ++ (b :: more ++ (gap ++ openParen :: rest)))
      before.length := by
    rintro ⟨i, hi, -, hnext⟩
    rw [← hi, List.getElem?_append_right (Nat.le_refl _), Nat.sub_self] at hnext
    rcases hnext with hnone | hfeed
    · cases hnone
    · cases hfeed
      exact absurd (hname.2 newline List.mem_cons_self) (by decide)
  refine ⟨_, parseLocation_positionAt ?_, offsetAt_positionAt (by simp) hlen hreturn⟩
  rw [clamp, Int.toNat_natCast, Nat.min_eq_left (by simp)]
  rw [List.length_append, List.length_append, List.length_cons] at hlen
  omega

/-- A definition of a plain name in the document itself leads back to itself. -/
theorem definition_isFixpoint (hlen : doc.text.length < 0x8000000000000000)
    (hfound : r.lookup isCancelled doc offset = .resolved (some found))
    (hbare : found.reference.namespacePath = []) (hd : d ∈ found.definitions)
    (hfile : d.file = doc.path) :
    (∃ position, parseLocation (showLocation d.site.position) = .ok position ∧
      doc.text.offsetAt position = d.site.offset) ∧
    (Script.OpensOnLine doc.text found.reference.name d.site.offset →
      (¬ ∃ front, Script.Separated doc.text d.site.offset front) →
      r.lookup isCancelled doc d.site.offset = .resolved (some
        ⟨⟨found.reference.name, [], .call, d.site.offset,
          d.site.offset + found.reference.name.length⟩, found.definitions⟩)) := by
  obtain ⟨hreference, files, hscope, hidle, hscan⟩ := Resolver.lookup_eq_resolved_iff.1 hfound
  have hname := Script.isWordText_of_referenceAt hreference
  have hsite := Resolver.definition?_of_mem_scan (hscan ▸ hd) hfile
  have hdefines := hname.definesAt hsite
  constructor
  · rw [Script.position_of_definition? hsite]
    exact offsetAt_location hdefines hname hlen
  · intro hopens hplain
    refine Resolver.lookup_eq_resolved_iff.2
      ⟨hdefines.referenceAt_eq hname hopens hplain, files, ?_, hidle, hscan⟩
    rw [← hscope]
    exact Resolver.scope_congr hbare.symm

/-- A resolver that sees nothing but the document. -/
def alone : Resolver where
  cwd := "/w"
  reader := none
  locator := none

/-- A definition behind a comment and a literal that hold its name, with a blank before its parameters
and a line break behind them. -/
theorem definition_isFixpoint_skipped :
    let doc : Document := ⟨"/w/a.gsc", ofString
      "/* é f()\x7b */ s = \"f()\x7b\";\r\n\tf (a)\r\n\x7b\x7d\r\nmain()\x7b f(); \x7d"⟩
    let definition : Definition := ⟨"/w/a.gsc", ⟨28, ⟨1, 1⟩, "a"⟩⟩
    doc.text.length < 0x8000000000000000 ∧
    alone.lookup false doc 47 = .resolved (some ⟨⟨"f", [], .call, 47, 48⟩, [definition]⟩) ∧
    (∃ position, parseLocation (showLocation ⟨1, 1⟩) = .ok position ∧
      doc.text.offsetAt position = (28 : Nat)) ∧
    Script.OpensOnLine doc.text "f" 28 ∧ (¬ ∃ front, Script.Separated doc.text 28 front) ∧
    alone.lookup false doc (28 : Nat) =
      .resolved (some ⟨⟨"f", [], .call, 28, 29⟩, [definition]⟩) := by
  intro doc definition
  have hlen : doc.text.length < 0x8000000000000000 := by decide
  have hfound : alone.lookup false doc 47 =
      .resolved (some ⟨⟨"f", [], .call, 47, 48⟩, [definition]⟩) := by decide
  have hopens : Script.OpensOnLine doc.text "f" 28 := by decide
  have hplain : ¬ ∃ front, Script.Separated doc.text 28 front := by decide
  obtain ⟨hlocation, hagain⟩ :=
    definition_isFixpoint hlen hfound rfl (d := definition) List.mem_cons_self rfl
  exact ⟨hlen, hfound, hlocation, hopens, hplain, hagain hopens hplain⟩

end Command
end ScriptNav
