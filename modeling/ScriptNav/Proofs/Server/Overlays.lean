import Mathlib.Logic.Basic
import ScriptNav.Proofs.Resolver.Paths
import ScriptNav.Proofs.Server.Uri
import ScriptNav.Proofs.Server.Wire
import ScriptNav.Proofs.Source.Reader
import ScriptNav.Proofs.Workspace.Rewriting
import ScriptNav.Server.Inquiry

/-! Open documents and the disk. A question is answered from the buffer of a script just as it is
answered after the buffer has been written to the disk. -/
namespace ScriptNav.Server

open Text Source

namespace Inquiry

/-- A question that is asked while other documents are open. -/
def withBuffers (q : Inquiry) (buffers : Overlay) : Inquiry :=
  { q with snapshot := { q.snapshot with buffers := buffers } }

section Congruence
variable {settings settings' : Settings} {q q' : Inquiry}

/-- Questions are about rooted paths. -/
theorem isAbsolute_of_target? (hcwd : Path.isRooted settings.disk.cwd = true)
    {params : PositionParams} {doc : Document} {offset : Nat}
    (h : q.target? settings params = some (doc, offset)) : Path.IsAbsolute doc.path := by
  rw [target?] at h
  split_ifs at h with hempty
  obtain ⟨text, -, htarget⟩ := Option.bind_eq_some_iff.1 h
  cases htarget
  exact isAbsolute_pathOfUri hcwd (by simpa using hempty)

/-- Two servers that answer alike: they differ in the disk and in the open documents, but a rooted
path has the same text for both, and a module the same files. -/
structure Alike (settings settings' : Settings) (q q' : Inquiry) : Prop where
  cwd : settings'.disk.cwd = settings.disk.cwd
  extension : settings'.extension = settings.extension
  catalog : settings'.catalog = settings.catalog
  topic : q'.topic = q.topic
  params : q'.params = q.params
  root : q'.snapshot.root = q.snapshot.root
  text : ∀ path, Path.IsAbsolute path →
    (q'.reader settings' path).toOption = (q.reader settings path).toOption
  locator : (q'.resolver settings').locator = (q.resolver settings).locator
  located : ∀ pattern, ∀ path ∈ (q.resolver settings).located pattern, Path.IsAbsolute path

namespace Alike
variable (h : Alike settings settings' q q')
include h

theorem resolver_eq : q'.resolver settings' =
    { q.resolver settings with reader := some (q'.reader settings') } := by
  have hlocator : (q'.snapshot.workspace.map fun w => w.locator settings'.disk settings'.git) =
      q.snapshot.workspace.map fun w => w.locator settings.disk settings.git := h.locator
  simp only [resolver, Resolver.make, h.cwd, h.extension, hlocator]

theorem target?_eq (hcwd : Path.isRooted settings.disk.cwd = true) (params : PositionParams) :
    q'.target? settings' params = q.target? settings params := by
  rw [target?, target?, h.cwd]
  by_cases hpath : pathOfUri settings.disk.cwd params.document.uri = []
  · simp only [hpath, List.isEmpty_nil, if_true]
  · rw [h.text _ (isAbsolute_pathOfUri hcwd hpath)]

theorem location?_eq (doc : Document) (name : Text) {d : Definition}
    (hd : Path.IsAbsolute d.file) :
    q'.location? settings' doc name d = q.location? settings doc name d := by
  rw [location?, location?, h.text d.file hd, h.cwd]

theorem hover_eq (doc : Document) (found : Resolution) :
    hover settings' q' doc found = hover settings q doc found := by
  have htext : hoverText settings' q' found = hoverText settings q found := by
    rw [hoverText, hoverText, h.root, h.catalog]
  rw [hover, htext, hover]

/-- Servers that are alike give the same answer. -/
theorem answer_eq (hcwd : Path.isRooted settings.disk.cwd = true) :
    q'.answer settings' = q.answer settings := by
  rw [answer, answer, h.params]
  cases readParams PositionParams.read {} q.params with
  | none => rfl
  | some params =>
    dsimp only
    rw [h.target?_eq hcwd]
    cases htarget : q.target? settings params with
    | none => rfl
    | some target =>
      obtain ⟨doc, offset⟩ := target
      have hdoc := isAbsolute_of_target? hcwd htarget
      dsimp only
      rw [h.resolver_eq, Resolver.lookup_congr_texts rfl hdoc h.located h.text]
      cases hfound : (q.resolver settings).lookup false doc offset with
      | cancelled => rfl
      | resolved found =>
        cases found with
        | none => simp only [describe, h.topic]
        | some found =>
          simp only [describe, h.topic]
          cases q.topic with
          | hover => exact congrArg Answer.result (h.hover_eq doc found)
          | definition =>
            have hfiles := Resolver.isAbsolute_of_mem_definitions hdoc h.located hfound
            refine congrArg (fun locations => Answer.result (.array locations)) ?_
            exact List.filterMap_congr fun d hd =>
              h.location?_eq doc found.reference.name (hfiles d hd)

end Alike
end Congruence
end Inquiry

section Rewriting
variable {settings : Settings} {w : Workspace} {languages : List Text} {f : Workspace.File}
  {text : Text}

theorem decode?_of_fitsSize (htext : Utf8.read text = text) (hfits : w.fitsSize text.length = true) :
    decode? w.maxFileSize text = some text := by
  rw [decode?, if_neg, htext]
  simp only [Workspace.fitsSize, Bool.or_eq_true, decide_eq_true_eq] at hfits
  simp only [Bool.and_eq_true, decide_eq_true_eq]
  omega

/-- An open document is as good as the same text on the disk. On a disk without links a script of the
workspace can be written over with any text that is read as it is and fits the limit, and every
question is answered from a buffer with that text, whatever else is open, as it is answered without
the buffer after the text was written. The roots are rooted as those of every workspace that is
made (`Workspace.isAbsolute_of_mem_roots`). -/
theorem answer_buffer_eq_written (hcwd : Path.isRooted settings.disk.cwd = true)
    (hlinkless : settings.disk.root.IsLinkless) (hroots : ∀ root ∈ w.roots, Path.IsAbsolute root)
    (hlimit : settings.maxFileSize = w.maxFileSize)
    (hf : f ∈ w.files settings.disk settings.git languages) (htext : Utf8.read text = text)
    (hfits : w.fitsSize text.length = true) :
    ∃ disk, settings.disk.write f.absolute text = .ok disk ∧
      ∀ (q : Inquiry) (buffers : Overlay), q.snapshot.workspace = some w →
        let key := key settings.disk.cwd f.absolute
        (q.withBuffers (buffers.set key text)).answer settings =
          (q.withBuffers (buffers.erase key)).answer { settings with disk := disk } := by
  obtain ⟨hpath, hscript, content, hold, hcontent⟩ :=
    Workspace.descend?_of_mem_files hlinkless hroots hf
  have hne := Workspace.names_ne_nil hpath hscript
  refine ⟨_, Disk.write_eq_ok hlinkless hpath hold hne text, ?_⟩
  intro q buffers hworkspace key
  have hfind (pattern : Text) :
      w.find (settings.disk.rewritten (Path.parts f.absolute).names text) settings.git pattern =
        w.find settings.disk settings.git pattern :=
    Workspace.find_rewritten hlinkless hold hpath hscript hroots (hfits.trans hcontent.symm) _ _
  have hlocator (disk : Disk) (buffers : Overlay) :
      ((q.withBuffers buffers).resolver { settings with disk := disk }).locator =
        some (w.locator disk settings.git) := by
    show (q.snapshot.workspace.map fun w => w.locator disk settings.git) = _
    rw [hworkspace]
    rfl
  have halike : Inquiry.Alike settings
      { settings with disk := settings.disk.rewritten (Path.parts f.absolute).names text }
      (q.withBuffers (buffers.set key text)) (q.withBuffers (buffers.erase key)) :=
    { cwd := rfl, extension := rfl, catalog := rfl, topic := rfl, params := rfl, root := rfl
      text := fun path habsolute => (toOption_reader_rewritten hlinkless habsolute hpath hold
        (hlimit ▸ decode?_of_fitsSize htext hfits) buffers).symm
      locator := by
        refine (hlocator _ _).trans (Eq.trans ?_ (hlocator settings.disk _).symm)
        refine congrArg some (funext fun isCancelled => funext fun pattern => ?_)
        rw [Workspace.locator, Workspace.locator, hfind]
      located := fun pattern path hmem => by
        rw [Resolver.located_of_workspace (hlocator settings.disk _)] at hmem
        exact Workspace.isAbsolute_of_mem_find hroots hmem }
  exact (halike.answer_eq hcwd).symm

end Rewriting

/-- A server over two scripts, one of which includes the other. -/
def twoScripts : Settings where
  disk := ⟨.directory [("w", .directory [("a.gsc", .file "#include b;\nf();"), ("b.gsc", .file [])])],
    "/w"⟩
  workspace := fun root => Workspace.make "/w" [root] [] 0 false

theorem files_twoScripts :
    (twoScripts.workspace "/w").files twoScripts.disk twoScripts.git [] =
      [⟨"/w", "a.gsc", .server⟩, ⟨"/w", "b.gsc", .server⟩] :=
  (List.flatMap_singleton _ _).trans
    (Workspace.scripts_eq_of_perm (by decide +kernel) (by decide))

/-- The question for the definition of what the one calls. -/
def callQuestion : Inquiry where
  topic := .definition
  params := some (PositionParams.toJson "file:///w/a.gsc" ⟨1, 0⟩).render
  snapshot := { workspace := some (twoScripts.workspace "/w") }

/-- A definition that stands in an unsaved document is found there. -/
theorem answer_buffer_eq_written_unsaved :
    let text : Text := "f(x)\x7b"
    let location := Json.object [("uri", .string "file:///w/b.gsc"),
      ("range", (Range.mk ⟨0, 0⟩ ⟨0, 1⟩).toJson)]
    twoScripts.disk.root.IsLinkless ∧
    (callQuestion.withBuffers [("/w/b.gsc", text)]).answer twoScripts =
      .result (.array [location]) ∧
    ∃ disk, twoScripts.disk.write "/w/b.gsc" text = .ok disk ∧
      callQuestion.answer { twoScripts with disk := disk } = .result (.array [location]) := by
  intro text location
  have hlinkless : twoScripts.disk.root.IsLinkless := by
    refine .directory (by decide) (by decide) (List.forall_mem_singleton.2 ?_)
    refine .directory (by decide) (by decide) (List.forall_mem_cons.2 ⟨.file _, ?_⟩)
    exact List.forall_mem_singleton.2 (.file _)
  have hanswer : (callQuestion.withBuffers [("/w/b.gsc", text)]).answer twoScripts =
      .result (.array [location]) := by
    have hparams : readParams PositionParams.read {}
        (callQuestion.withBuffers [("/w/b.gsc", text)]).params =
          some ⟨{ uri := "file:///w/a.gsc" }, ⟨1, 0⟩⟩ :=
      PositionParams.readParams_render (by decide) _
    have hworkspace : (callQuestion.withBuffers [("/w/b.gsc", text)]).snapshot.workspace =
        some (twoScripts.workspace "/w") := rfl
    rw [Inquiry.answer, hparams]
    simp only [Inquiry.resolver, Resolver.make, hworkspace, Option.map_some,
      Resolver.locator_of_files files_twoScripts]
    rfl
  have hroots : ∀ root ∈ (twoScripts.workspace "/w").roots, Path.IsAbsolute root :=
    fun root hroot => Workspace.isAbsolute_of_mem_roots (by decide) hroot
  have hf : (⟨"/w", "b.gsc", .server⟩ : Workspace.File) ∈
      (twoScripts.workspace "/w").files twoScripts.disk twoScripts.git [] :=
    files_twoScripts ▸ List.mem_cons_of_mem _ (List.mem_singleton_self _)
  obtain ⟨disk, hwrite, hsame⟩ := answer_buffer_eq_written (by decide) hlinkless hroots rfl hf
    (by decide : Utf8.read text = text) (by decide)
  refine ⟨hlinkless, hanswer, disk, hwrite, ?_⟩
  rw [← hanswer]
  exact (hsame callQuestion [] rfl).symm

end ScriptNav.Server
