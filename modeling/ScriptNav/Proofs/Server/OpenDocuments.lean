import Mathlib.Data.List.Induction
import ScriptNav.Proofs.Server.Buffers
import ScriptNav.Proofs.Server.Exchanges

/-! Which documents have a buffer. Opening, changing and saving a document all leave one, and closing
it takes the buffer away; so a document has a buffer if one of the former was told since it was last
closed. These are the open documents as long as changes and saves are told of open documents only. -/
namespace ScriptNav.Server

open Text Source

namespace Notice

def isOpening : Notice → Bool
  | opened _ _ => true
  | _ => false

def isClosing : Notice → Bool
  | closed _ => true
  | _ => false

/-- Whether a notice is about the document of a key. One that names no file is about none. -/
def IsAbout (cwd key : Text) (n : Notice) : Prop :=
  pathOfUri cwd n.uri ≠ [] ∧ documentKey cwd n.uri = key

instance (cwd key : Text) (n : Notice) : Decidable (n.IsAbout cwd key) :=
  inferInstanceAs (Decidable (_ ∧ _))

/-- A notice of some kind was given of a document, and the document was not closed since. -/
def Since (cwd key : Text) (kind : Notice → Bool) (notices : List Notice) : Prop :=
  ∃ before n after, notices = before ++ n :: after ∧ n.IsAbout cwd key ∧ kind n = true ∧
    ∀ c ∈ after, c.IsAbout cwd key → c.isClosing = false

/-- A document was opened, and not closed since. -/
def IsOpen (cwd key : Text) (notices : List Notice) : Prop := Since cwd key isOpening notices

/-- A document was opened, changed or saved, and not closed since. -/
def IsHeld (cwd key : Text) (notices : List Notice) : Prop :=
  Since cwd key (fun n => !n.isClosing) notices

/-- Changes and saves are told of open documents only. -/
def AreOfOpen (cwd : Text) (notices : List Notice) : Prop :=
  ∀ before n after, notices = before ++ n :: after → n.isOpening = false → n.isClosing = false →
    pathOfUri cwd n.uri ≠ [] → IsOpen cwd (documentKey cwd n.uri) before

section Since
variable {cwd key : Text} {kind : Notice → Bool} {notices : List Notice} {n : Notice}

theorem not_since_nil : ¬ Since cwd key kind [] := by
  rintro ⟨before, n, after, h, -⟩
  simp at h

/-- One more notice is of the kind, or it does not close the document. -/
theorem since_concat_iff :
    Since cwd key kind (notices ++ [n]) ↔ n.IsAbout cwd key ∧ kind n = true ∨
      Since cwd key kind notices ∧ (n.IsAbout cwd key → n.isClosing = false) := by
  constructor
  · rintro ⟨before, m, after, h, habout, hkind, hafter⟩
    obtain rfl | ⟨after, last, rfl⟩ := List.eq_nil_or_concat after
    · obtain ⟨-, hlast⟩ := List.append_inj' h rfl
      obtain rfl : n = m := List.singleton_injective hlast
      exact .inl ⟨habout, hkind⟩
    · rw [List.concat_eq_append] at h hafter
      rw [← List.cons_append, ← List.append_assoc] at h
      obtain ⟨rfl, hlast⟩ := List.append_inj' h rfl
      obtain rfl : n = last := List.singleton_injective hlast
      refine .inr ⟨⟨before, m, after, rfl, habout, hkind, ?_⟩, ?_⟩
      · exact fun c hc => hafter c (List.mem_append_left _ hc)
      · exact hafter n (List.mem_append_right _ List.mem_cons_self)
  · rintro (⟨habout, hkind⟩ | ⟨⟨before, m, after, rfl, habout, hkind, hafter⟩, hn⟩)
    · exact ⟨notices, n, [], rfl, habout, hkind, by simp⟩
    · refine ⟨before, m, after ++ [n], by simp, habout, hkind, fun c hc => ?_⟩
      obtain hc | hc := List.mem_append.1 hc
      · exact hafter c hc
      · exact List.mem_singleton.1 hc ▸ hn

theorem areOfOpen_nil : AreOfOpen cwd [] := by
  rintro before m after h
  simp at h

theorem areOfOpen_concat_iff :
    AreOfOpen cwd (notices ++ [n]) ↔ AreOfOpen cwd notices ∧ (n.isOpening = false →
      n.isClosing = false → pathOfUri cwd n.uri ≠ [] →
        IsOpen cwd (documentKey cwd n.uri) notices) := by
  constructor
  · refine fun h => ⟨?_, h notices n [] rfl⟩
    rintro before m after rfl
    exact h before m (after ++ [n]) (by simp)
  · rintro ⟨h, hn⟩ before m after heq
    obtain rfl | ⟨after, last, rfl⟩ := List.eq_nil_or_concat after
    · obtain ⟨rfl, hlast⟩ := List.append_inj' heq rfl
      exact List.singleton_injective hlast ▸ hn
    · rw [List.concat_eq_append, ← List.cons_append, ← List.append_assoc] at heq
      exact h before m after (List.append_inj' heq rfl).1

/-- If changes and saves are told of open documents only, a document is held as long as it is
open. -/
theorem AreOfOpen.isHeld_iff (h : AreOfOpen cwd notices) :
    IsHeld cwd key notices ↔ IsOpen cwd key notices := by
  induction notices using List.reverseRec with
  | nil => exact iff_of_false not_since_nil not_since_nil
  | append_singleton notices n ih =>
    obtain ⟨hnotices, hn⟩ := areOfOpen_concat_iff.1 h
    have ih := ih hnotices
    rw [IsHeld, IsOpen] at ih ⊢
    rw [since_concat_iff, since_concat_iff, ih]
    constructor
    · rintro (⟨habout, hclosing⟩ | hsince)
      · by_cases hopening : n.isOpening = true
        · exact .inl ⟨habout, hopening⟩
        · have hclosing : n.isClosing = false := by simpa using hclosing
          have hopen := hn (by simpa using hopening) hclosing habout.1
          exact .inr ⟨habout.2 ▸ hopen, fun _ => hclosing⟩
      · exact .inr hsince
    · rintro (⟨habout, hopening⟩ | hsince)
      · cases n with
        | opened _ _ => exact .inl ⟨habout, rfl⟩
        | changed _ _ | saved _ _ | closed _ => cases hopening
      · exact .inr hsince

end Since

section Buffers
variable {cwd key : Text}

theorem isSome_get?_update_self (n : Notice) (buffers : Overlay) :
    ((n.update key buffers).get? key).isSome = !n.isClosing := by
  cases n with
  | opened _ _ | changed _ _ | saved _ _ => rw [update, Overlay.get?_set_self]; rfl
  | closed _ => rw [update, Overlay.get?_erase_self]; rfl

/-- A notice fills or empties the buffer of its document, and leaves the others. -/
theorem isSome_get?_apply (n : Notice) (buffers : Overlay) :
    ((n.apply cwd buffers).get? key).isSome = true ↔
      n.IsAbout cwd key ∧ (!n.isClosing) = true ∨
        (buffers.get? key).isSome = true ∧ (n.IsAbout cwd key → n.isClosing = false) := by
  by_cases habout : n.IsAbout cwd key
  · obtain ⟨hpath, rfl⟩ := habout
    have hself : n.IsAbout cwd (documentKey cwd n.uri) := ⟨hpath, rfl⟩
    rw [apply_of_ne_nil hpath, isSome_get?_update_self]
    cases n.isClosing <;> simp [hself]
  · have hget : (n.apply cwd buffers).get? key = buffers.get? key := by
      by_cases hpath : pathOfUri cwd n.uri = []
      · rw [apply, if_pos (by simp [hpath])]
      · exact get?_apply_of_ne fun hkey => habout ⟨hpath, hkey.symm⟩
    simp [habout, hget]

end Buffers
end Notice

namespace Session
variable (settings : Settings)

/-- After any events there is a buffer for a document if and only if it is held. -/
theorem isSome_buffer_run_iff (events : List Event) (key : Text) :
    ((({} : Session).run settings events).1.snapshot.buffers.get? key).isSome = true ↔
      Notice.IsHeld settings.disk.cwd key (events.filterMap Notice.ofEvent?) := by
  induction events using List.reverseRec with
  | nil => exact iff_of_false Bool.false_ne_true Notice.not_since_nil
  | append_singleton events e ih =>
    rw [run_append, List.filterMap_append]
    show (((run settings {} events).1.step settings e).1.snapshot.buffers.get? key).isSome = true ↔ _
    cases he : Notice.ofEvent? e with
    | none => simpa [buffers_step_of_none he, he] using ih
    | some n =>
      rw [buffers_step, he, List.filterMap_cons_some he, List.filterMap_nil, Notice.IsHeld,
        Notice.since_concat_iff, ← Notice.IsHeld, ← ih]
      exact n.isSome_get?_apply _

/-- After any messages and completions a document has a buffer if and only if it was opened, changed
or saved and not closed since; so the documents with buffers are the open ones if changes and saves
were told of open documents only. What has no buffer is read from the disk. -/
theorem buffers_hold_documents (events : List Event) :
    let s := (({} : Session).run settings events).1
    let cwd := settings.disk.cwd
    let notices := events.filterMap Notice.ofEvent?
    (∀ key, (s.snapshot.buffers.get? key).isSome = true ↔ Notice.IsHeld cwd key notices) ∧
    (Notice.AreOfOpen cwd notices →
      ∀ key, (s.snapshot.buffers.get? key).isSome = true ↔ Notice.IsOpen cwd key notices) ∧
    ∀ path, ¬ Notice.IsHeld cwd (key cwd path) notices →
      reader settings.disk s.snapshot.buffers settings.maxFileSize path =
        fromDisk settings.disk settings.maxFileSize path := by
  intro s cwd notices
  have hheld := isSome_buffer_run_iff settings events
  refine ⟨hheld, fun hopen key => (hheld key).trans hopen.isHeld_iff, fun path hpath => ?_⟩
  have hnone : s.snapshot.buffers.get? (key settings.disk.cwd path) = none := by
    simpa using mt (hheld _).1 hpath
  rw [reader, hnone]

/-- A session that is told notices one after another. -/
def told (notices : List Notice) : List Event := notices.map fun n => .received n.payload

theorem filterMap_told {notices : List Notice} (h : ∀ n ∈ notices, n.IsUtf8) :
    (told notices).filterMap Notice.ofEvent? = notices := by
  induction notices with
  | nil => rfl
  | cons n notices ih =>
    obtain ⟨hn, hnotices⟩ := List.forall_mem_cons.1 h
    have hread : Notice.ofEvent? (.received n.payload) = some n := Notice.ofPayload?_payload hn
    rw [told, List.map_cons, List.filterMap_cons_some hread]
    exact congrArg _ (ih hnotices)

/-- A server over a disk with one script. -/
def oneScript : Settings :=
  { disk := ⟨.directory [("a.gsc", .file "f()\x7b")], "/"⟩, workspace := fun _ => ⟨[], [], 0, false⟩ }

/-- A document that is opened, changed and closed again, beside one that stays open. -/
theorem buffers_hold_documents_closedAgain :
    let a : Text := "file:///a.gsc"
    let b : Text := "file:///b.gsc"
    let events := told ([.opened b []] ++ [.opened a "g"] ++ [.changed a []] ++ [.closed a])
    let buffers := (({} : Session).run oneScript events).1.snapshot.buffers
    Notice.AreOfOpen "/" (events.filterMap Notice.ofEvent?) ∧
      (buffers.get? "/a.gsc").isSome = false ∧ (buffers.get? "/b.gsc").isSome = true := by
  intro a b events buffers
  have hnotices : events.filterMap Notice.ofEvent? =
      [] ++ [.opened b []] ++ [.opened a "g"] ++ [.changed a []] ++ [.closed a] := by
    refine filterMap_told ?_
    simp only [List.forall_mem_append, List.forall_mem_singleton, Notice.IsUtf8]
    exact ⟨⟨⟨by decide, by decide⟩, ⟨by decide, nofun⟩⟩, by decide⟩
  have hof : Notice.AreOfOpen "/" (events.filterMap Notice.ofEvent?) := by
    rw [hnotices]
    simp only [Notice.areOfOpen_concat_iff]
    refine ⟨⟨⟨⟨Notice.areOfOpen_nil, nofun⟩, nofun⟩, fun _ _ _ => ?_⟩, nofun⟩
    exact Notice.since_concat_iff.2 (.inl (by decide))
  obtain ⟨-, hiff, -⟩ := buffers_hold_documents oneScript events
  refine ⟨hof, ?_, (hiff hof _).2 ?_⟩
  · refine Bool.eq_false_iff.2 (mt (hiff hof _).1 ?_)
    rw [hnotices, Notice.IsOpen]
    simp only [Notice.since_concat_iff, Notice.not_since_nil]
    decide
  · rw [hnotices, Notice.IsOpen]
    simp only [Notice.since_concat_iff, Notice.not_since_nil]
    decide

/-- A change makes a buffer for a document that nobody opened, out of nothing, and a save does so
too; the buffer then hides the text on the disk. -/
theorem buffers_hold_unopened :
    let uri : Text := "file:///a.gsc"
    let changing := Notice.changed uri [⟨some ⟨⟨0, 0⟩, ⟨0, 0⟩⟩, "x"⟩]
    let saving := Notice.saved uri "y"
    let read := fun n : Notice => reader oneScript.disk
      (({} : Session).run oneScript (told [n])).1.snapshot.buffers oneScript.maxFileSize "/a.gsc"
    (∀ n ∈ [changing, saving],
      ¬ Notice.IsOpen "/" "/a.gsc" ((told [n]).filterMap Notice.ofEvent?)) ∧
    fromDisk oneScript.disk oneScript.maxFileSize "/a.gsc" = .ok "f()\x7b" ∧
    read changing = .ok "x" ∧ read saving = .ok "y" := by
  intro uri changing saving read
  have hbuffers {n : Notice} (h : n.IsUtf8) :
      (({} : Session).run oneScript (told [n])).1.snapshot.buffers = n.apply "/" [] :=
    buffers_step_received (Notice.ofPayload?_payload h)
  have hchanging : changing.IsUtf8 := ⟨by decide, by decide⟩
  have hsaving : saving.IsUtf8 := ⟨by decide, by decide⟩
  have hclosed {n : Notice} (hn : n.IsUtf8) (h : n.isOpening = false) :
      ¬ Notice.IsOpen "/" "/a.gsc" ((told [n]).filterMap Notice.ofEvent?) := by
    rw [filterMap_told (List.forall_mem_singleton.2 hn), Notice.IsOpen, ← List.nil_append [n],
      Notice.since_concat_iff, h]
    simp [Notice.not_since_nil]
  refine ⟨?_, by decide +kernel, ?_, ?_⟩
  · exact List.forall_mem_cons.2 ⟨hclosed hchanging rfl,
      List.forall_mem_singleton.2 (hclosed hsaving rfl)⟩
  · simp only [read, hbuffers hchanging]
    rfl
  · simp only [read, hbuffers hsaving]
    rfl

end Session
end ScriptNav.Server
