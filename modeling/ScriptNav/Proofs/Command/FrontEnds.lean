import Mathlib.Logic.Basic
import ScriptNav.Command.Run
import ScriptNav.Proofs.Command.Location
import ScriptNav.Proofs.Server.Locations
import ScriptNav.Proofs.Server.Uri
import ScriptNav.Proofs.Server.Wire
import ScriptNav.Proofs.Source.Reader

/-! One lookup at two front ends. The command line is told a line and a byte column counted from one,
and an editor tells a line and a column in UTF-16 units, counted from zero, of a document that it
names by an identifier. Both come to the same offset of the same text, and the definitions that the
one prints are the locations that the other is answered. -/
namespace ScriptNav

open Text Utf8

namespace Command

/-- What a run is set up from. -/
theorem setUp_eq_ok {call : Invocation} {options : Options} {usual : Text} {s : Setup}
    (h : setUp call options usual = .ok s) :
    s.disk = call.disk ∧ Config.load s.disk s.environment s.root options.config = .ok s.config ∧
      s.workspace = workspaceOf s.disk.cwd s.config := by
  -- All checks but the last one fail without a setup, whichever branch they take.
  cases hload : Config.load call.disk call.environment
      (Path.absolute call.disk.cwd options.root) options.config with
  | error error =>
    simp only [setUp, hload] at h
    repeat' split at h
    all_goals cases h
  | ok config =>
    simp only [setUp, hload] at h
    repeat' split at h
    all_goals cases h
    all_goals exact ⟨rfl, hload, rfl⟩

namespace Setup
variable {s : Setup} {options : Options}

/-- In the root of the run an editor has the workspace of the run. -/
theorem workspace_root {call : Invocation} {usual : Text} (hs : setUp call options usual = .ok s) :
    (s.settings options).workspace s.root = s.workspace := by
  obtain ⟨-, hconfig, hworkspace⟩ := setUp_eq_ok hs
  show s.editorWorkspace options s.root = s.workspace
  rw [editorWorkspace]
  split_ifs with hempty
  · rfl
  · have hnil : options.config = [] := by simpa using hempty
    rw [hnil] at hconfig
    rw [hconfig, hworkspace]

/-- A question for definitions at a point of a file, as an editor without open documents asks it in
the root of the run. The file is named by its identifier. -/
structure AsksAt (s : Setup) (options : Options) (file : Text) (point : Server.Point)
    (q : Server.Inquiry) : Prop where
  topic : q.topic = .definition
  buffers : q.snapshot.buffers = []
  workspace : q.snapshot.workspace = some ((s.settings options).workspace s.root)
  params : ∃ params, Server.readParams Server.PositionParams.read {} q.params = some params ∧
    params.document.uri = Server.uriOfPath s.disk.cwd file ∧ params.position = point

variable {doc : Document} {o : Nat} {found : Option Resolution} {q : Server.Inquiry}

/-- The command line comes to the offset whose position it is told. -/
theorem lookup_showLocation (hpath : Path.IsAbsolute doc.path)
    (hread : s.reader doc.path = .ok doc.text) (hlen : doc.text.length < 0x100000000)
    (ho : o ≤ doc.text.length) (hreturn : ¬ FollowsReturn doc.text o)
    (hfound : s.resolver.lookup false doc o = .resolved found) :
    s.lookup doc.path (showLocation (doc.text.positionAt o)) = .ok found := by
  have hlocation : parseLocation (showLocation (doc.text.positionAt o)) =
      .ok (doc.text.positionAt o) := by
    refine parseLocation_positionAt ?_
    rw [clamp]
    omega
  have hdoc : s.read doc.path = .ok doc := by
    rw [read, hpath.absolute_eq, hread]
  have hoffset : doc.text.offsetAt (doc.text.positionAt o) = o :=
    offsetAt_positionAt ho (by omega) hreturn
  rw [lookup, hlocation, hdoc]
  simp only [Except.mapError, bind, Except.bind, hoffset, hfound]
  rfl

namespace AsksAt
variable {path : Text} {point : Server.Point}

theorem reader_eq (hq : s.AsksAt options path point q) :
    q.reader (s.settings options) = s.reader := by
  rw [Server.Inquiry.reader, hq.buffers]
  rfl

/-- An editor in the root of the run is answered by the resolver of the run. -/
theorem resolver_eq (hq : s.AsksAt options path point q)
    (hworkspace : (s.settings options).workspace s.root = s.workspace) :
    q.resolver (s.settings options) = s.resolver := by
  rw [Server.Inquiry.resolver, hq.reader_eq, hq.workspace, hworkspace]
  rfl

/-- An editor comes to the offset whose point it tells. -/
theorem answer_eq (hq : s.AsksAt options doc.path (Server.pointAt doc.text o) q)
    (hworkspace : (s.settings options).workspace s.root = s.workspace)
    (hpath : Path.IsAbsolute doc.path) (hpercent : 37 ∉ doc.path)
    (hread : s.reader doc.path = .ok doc.text) (hlen : doc.text.length < 0x100000000)
    (ho : IsBoundary doc.text o) (hreturn : ¬ FollowsReturn doc.text o)
    (hfound : s.resolver.lookup false doc o = .resolved found) :
    q.answer (s.settings options) = .result (q.describe (s.settings options) doc found) := by
  obtain ⟨params, hparams, huri, hposition⟩ := hq.params
  have hbreak : ¬ Server.SplitsBreak doc.text o := by
    rintro ⟨i, hi, hcr, hlf⟩
    exact hreturn ⟨i, hi, hcr, .inr hlf⟩
  have hoffset : Server.offsetOf doc.text params.position = o := by
    rw [hposition]
    exact Server.offsetOf_pointAt (Source.isUtf8_of_fromDisk hread) hlen ho hbreak
  have hnamed : Server.pathOfUri (s.settings options).disk.cwd params.document.uri = doc.path := by
    rw [huri]
    exact Server.pathOfUri_uriOfPath hpath hpercent
  have htarget : q.target? (s.settings options) params = some (doc, o) := by
    rw [Server.Inquiry.target?, hnamed]
    simp only [List.isEmpty_iff, hpath.ne_nil, if_false, hq.reader_eq, hread]
    rw [← hoffset]
    rfl
  rw [Server.Inquiry.answer, hparams]
  simp only [htarget, hq.resolver_eq hworkspace, hfound]

end AsksAt

/-- The command line and an editor are given the same definitions. At an offset of a file that can be
read, the definitions that are looked up for its position and the locations that are answered for its
point correspond one to one and in order: a location names the file of its definition, its range
leads to the offset of the definition in the text of that file, and spans the name of the
reference. -/
theorem definitions_agree {call : Invocation} {usual : Text}
    (hs : setUp call options usual = .ok s) (hcwd : Path.isRooted call.disk.cwd = true)
    (hpath : Path.IsAbsolute doc.path) (hpercent : 37 ∉ doc.path)
    (hread : s.reader doc.path = .ok doc.text) (hlen : doc.text.length < 0x100000000)
    (hlengths : ∀ reference, Script.referenceAt doc.text o = some reference →
      ∀ path ∈ s.resolver.candidates doc reference, ∀ text,
        s.reader path = .ok text → text.length < 0x100000000)
    (ho : IsBoundary doc.text o) (hreturn : ¬ FollowsReturn doc.text o)
    (hq : s.AsksAt options doc.path (Server.pointAt doc.text o) q) :
    ∃ found locations,
      s.lookup doc.path (showLocation (doc.text.positionAt o)) = .ok found ∧
      q.answer (s.settings options) = .result (.array locations) ∧
      (found = none → locations = []) ∧
      ∀ r, found = some r →
        List.Forall₂ (Server.Shows s.disk.cwd s.reader r.reference.name) r.definitions locations := by
  obtain ⟨hdisk, -, hworkspace⟩ := setUp_eq_ok hs
  have heditor := workspace_root hs
  have hlookup (found : Option Resolution) (h : s.resolver.lookup false doc o = .resolved found) :=
    lookup_showLocation hpath hread hlen ho.1 hreturn h
  have hanswer (found : Option Resolution) (h : s.resolver.lookup false doc o = .resolved found) :=
    hq.answer_eq heditor hpath hpercent hread hlen ho hreturn h
  simp only [Server.Inquiry.describe, hq.topic] at hanswer
  cases hreference : Script.referenceAt doc.text o with
  | none =>
    have hfound : s.resolver.lookup false doc o = .resolved none := by
      rw [Resolver.lookup, hreference]
    exact ⟨none, [], hlookup _ hfound, hanswer _ hfound, fun _ => rfl, by simp⟩
  | some reference =>
    have hfound := Resolver.lookup_live (r := s.resolver) hreference
    refine ⟨_, _, hlookup _ hfound, hanswer _ hfound, by simp, ?_⟩
    rintro _ ⟨⟩
    have hroots : ∀ root ∈ s.workspace.roots, Path.IsAbsolute root := by
      intro root hroot
      rw [hworkspace, workspaceOf] at hroot
      exact Workspace.isAbsolute_of_mem_roots (hdisk ▸ hcwd) hroot
    have hlocated : ∀ pattern, ∀ path ∈ s.resolver.located pattern, Path.IsAbsolute path := by
      intro pattern path hmem
      rw [Resolver.located_of_workspace rfl] at hmem
      exact Workspace.isAbsolute_of_mem_find hroots hmem
    have hmem {path : Text} (h : path ∈ Resolver.dedupe s.resolver.cwd doc.path
        (s.resolver.candidates doc reference)) := Resolver.mem_candidates_of_mem_dedupe h
    have hreader : q.reader (s.settings options) = s.reader := hq.reader_eq
    have hshows := Server.forall₂_shows (q := q) hpath (hreader.symm ▸ hread)
      (fun path h => Resolver.isAbsolute_of_mem_candidates hpath hlocated path (hmem h))
      (fun path h text htext => by
        rw [hreader] at htext
        exact ⟨Source.isUtf8_of_fromDisk htext,
          hlengths reference hreference path (hmem h) text htext⟩)
      (Script.isWordText_of_referenceAt hreference)
    rw [hreader, hq.resolver_eq heditor] at hshows
    exact hshows

/-- A script with characters of several units and line breaks of two bytes, which includes another
one. -/
def accented : Document := ⟨"/w/a.gsc", "#include b;\r\n/* é😀 */ f();\r\n"⟩

def accentedCall : Invocation :=
  { arguments := [], disk :=
      ⟨.directory [("w", .directory [("a.gsc", .file accented.text),
        ("b.gsc", .file "// é\r\n/*😀*/ f(x)\n\x7b\n\x7d\n")])], "/w"⟩ }

def accentedSetup : Setup :=
  { disk := accentedCall.disk, git := Git.absent, environment := [], config := Config.default "/w"
    root := "/w", workspace := workspaceOf "/w" (Config.default "/w")
    catalog := Catalog.Builtin.entries, printer := ⟨.text, false, "/w"⟩ }

theorem setUp_accented : setUp accentedCall {} "text" = .ok accentedSetup := by
  have hroot : Path.absolute accentedCall.disk.cwd ({} : Options).root = "/w" := by decide
  obtain ⟨entries, hstat⟩ : ∃ entries, accentedCall.disk.stat "/w" = .ok (.directory entries) :=
    ⟨_, rfl⟩
  have hload : Config.load accentedCall.disk accentedCall.environment "/w" ({} : Options).config =
      .ok (Config.default "/w") := rfl
  simp only [setUp, hroot, hstat, hload]
  rfl

theorem files_accented :
    accentedSetup.workspace.files accentedSetup.disk accentedSetup.git [] =
      [⟨"/w", "a.gsc", .server⟩, ⟨"/w", "b.gsc", .server⟩] :=
  (List.flatMap_singleton _ _).trans
    (Workspace.scripts_eq_of_perm (by decide +kernel) (by decide))

/-- The question of an editor at the same place. -/
def accentedInquiry : Server.Inquiry where
  topic := .definition
  params := some (Server.PositionParams.toJson "file:///w/a.gsc" ⟨1, 10⟩).render
  snapshot := { workspace := some accentedSetup.workspace }

/-- A call behind characters of several units, with its definition in another file. -/
theorem definitions_agree_accented :
    let s := accentedSetup
    let definition : Definition := ⟨"/w/b.gsc", ⟨16, ⟨1, 9⟩, "x"⟩⟩
    setUp accentedCall {} "text" = .ok s ∧
    s.AsksAt {} accented.path (Server.pointAt accented.text 26) accentedInquiry ∧
    s.lookup accented.path "2:14" = .ok (some ⟨⟨"f", [], .call, 26, 27⟩, [definition]⟩) ∧
    ∃ location, accentedInquiry.answer (s.settings {}) = .result (.array [location]) ∧
      Server.Shows "/w" s.reader "f" definition location := by
  intro s definition
  have hread : s.reader accented.path = .ok accented.text := rfl
  have hother : ∃ text, s.reader "/w/b.gsc" = .ok text ∧ text.length = 25 := ⟨_, rfl, rfl⟩
  have hlookup : s.lookup accented.path "2:14" =
      .ok (some ⟨⟨"f", [], .call, 26, 27⟩, [definition]⟩) := by
    simp only [s, lookup, resolver, Resolver.locator_of_files files_accented]
    decide +kernel
  have hq : s.AsksAt {} accented.path (Server.pointAt accented.text 26) accentedInquiry := by
    refine ⟨rfl, rfl, by rw [workspace_root setUp_accented]; rfl, ?_⟩
    exact ⟨_, Server.PositionParams.readParams_render (by decide) _, by decide, by decide⟩
  have hlengths : ∀ reference, Script.referenceAt accented.text 26 = some reference →
      ∀ path ∈ s.resolver.candidates accented reference, ∀ text, s.reader path = .ok text →
        text.length < 0x100000000 := by
    have hreference : Script.referenceAt accented.text 26 = some ⟨"f", [], .call, 26, 27⟩ := by
      decide +kernel
    have hcandidates : s.resolver.candidates accented ⟨"f", [], .call, 26, 27⟩ =
        (["/w/a.gsc", "/w/b.gsc"] : List Text) := by
      simp only [s, resolver, Resolver.locator_of_files files_accented]
      rfl
    rintro reference href path hpath text htext
    rw [hreference] at href
    cases href
    obtain ⟨other, hb, hlen⟩ := hother
    rw [hcandidates] at hpath
    simp only [List.mem_cons, List.not_mem_nil, or_false] at hpath
    rcases hpath with rfl | rfl
    · cases hread.symm.trans htext
      decide
    · cases hb.symm.trans htext
      omega
  obtain ⟨found, locations, hfound, hanswer, -, hshows⟩ :=
    definitions_agree setUp_accented (by decide) (by decide) (by decide) hread (by decide) hlengths
      (by decide) (by decide) hq
  have hposition : showLocation (accented.text.positionAt 26) = "2:14" := by decide
  rw [show ((26 : Nat) : Int) = 26 from rfl, hposition, hlookup] at hfound
  cases hfound
  cases hshows _ rfl with
  | cons hlocation hrest =>
    cases hrest
    exact ⟨setUp_accented, hq, hlookup, _, hanswer, hlocation⟩

end Setup
end Command
end ScriptNav
