import Mathlib.Data.Set.Function
import ScriptNav.Proofs.Server.Edits
import ScriptNav.Proofs.Server.Wire

/-! The documents of an editor and the buffers of its server. An editor opens, edits, saves and closes
documents and tells the server each time; the buffers then hold what the editor shows, whatever else
happens in the session. -/
namespace ScriptNav.Server

open Text Source

/-- The key of a document by its identifier. -/
def documentKey (cwd uri : Text) : Text := key cwd (pathOfUri cwd uri)

/-- Documents that name files, no two of them under one key. -/
structure AreDistinct (cwd : Text) (documents : Set Text) : Prop where
  named : ∀ uri ∈ documents, pathOfUri cwd uri ≠ []
  injOn : Set.InjOn (documentKey cwd) documents

/-- The texts that an editor shows, by the identifiers of their documents. -/
abbrev Editor := Text → Option Text

/-- What an editor may do to its documents, with the notice it gives of it. -/
inductive Acts (documents : Set Text) : Editor → Notice → Editor → Prop
  | opens {editor uri text} (hu : uri ∈ documents) (ht : IsAddressable text) :
      Acts documents editor (.opened uri text) (Function.update editor uri (some text))
  | edits {editor uri text es} (hu : uri ∈ documents) (ht : editor uri = some text)
      (hes : Edit.FitAll text es) :
      Acts documents editor (.changed uri (Edit.toChanges text es))
        (Function.update editor uri (some (Edit.applyAll text es)))
  | saves {editor uri text} (hu : uri ∈ documents) (ht : editor uri = some text) :
      Acts documents editor (.saved uri text) editor
  | closes {editor uri} (hu : uri ∈ documents) :
      Acts documents editor (.closed uri) (Function.update editor uri none)

/-- An editor and the session of a server that has received all its notices. Other events of the
session, and messages that say nothing about a document, may come in between. -/
inductive InTouch (settings : Settings) (documents : Set Text) : Editor → Session → Prop
  | start : InTouch settings documents (fun _ => none) {}
  | told {editor editor' s n payload} (h : InTouch settings documents editor s)
      (hact : Acts documents editor n editor') (hn : Notice.ofPayload? payload = some n) :
      InTouch settings documents editor' (s.step settings (.received payload)).1
  | other {editor s e} (h : InTouch settings documents editor s) (he : Notice.ofEvent? e = none) :
      InTouch settings documents editor (s.step settings e).1

/-- The buffers hold what the editor shows, and each text of the editor can be edited further. -/
structure Agrees (cwd : Text) (documents : Set Text) (editor : Editor) (buffers : Overlay) :
    Prop where
  get? : ∀ uri ∈ documents, buffers.get? (documentKey cwd uri) = editor uri
  isAddressable : ∀ uri text, editor uri = some text → IsAddressable text

section Notices
variable {cwd : Text} {documents : Set Text} {editor editor' : Editor} {n : Notice}
  {buffers : Overlay}

theorem Acts.uri_mem (h : Acts documents editor n editor') : n.uri ∈ documents := by
  cases h <;> assumption

/-- What an editor does to one of its documents leaves the others as they are. -/
theorem Acts.other_eq (h : Acts documents editor n editor') {uri : Text} (hne : uri ≠ n.uri) :
    editor' uri = editor uri := by
  cases h with
  | opens _ _ | edits _ _ _ | closes _ => exact Function.update_of_ne hne _ _
  | saves _ _ => rfl

theorem Acts.isAddressable (h : Acts documents editor n editor')
    (ha : ∀ uri text, editor uri = some text → IsAddressable text) {uri text : Text}
    (ht : editor' uri = some text) : IsAddressable text := by
  by_cases hne : uri = n.uri
  · subst hne
    cases h with
    | opens _ hnew =>
      rw [Notice.uri, Function.update_self] at ht
      exact Option.some.inj ht ▸ hnew
    | edits _ hold hes =>
      rw [Notice.uri, Function.update_self] at ht
      exact Option.some.inj ht ▸ hes.isAddressable (ha _ _ hold)
    | saves _ _ => exact ha _ _ ht
    | closes _ =>
      rw [Notice.uri, Function.update_self] at ht
      cases ht
  · exact ha uri text (h.other_eq hne ▸ ht)

/-- The notice of what an editor did makes the same of the buffer as the editor made of its text. -/
theorem Acts.get?_update (h : Acts documents editor n editor') {key : Text}
    (hget : buffers.get? key = editor n.uri)
    (ha : ∀ uri text, editor uri = some text → IsAddressable text) :
    (n.update key buffers).get? key = editor' n.uri := by
  cases h with
  | opens _ _ =>
    rw [Notice.update, Overlay.get?_set_self, Notice.uri, Function.update_self]
  | edits _ hold hes =>
    rw [Notice.uri, hold] at hget
    rw [Notice.update, Overlay.get?_set_self, Notice.uri, Function.update_self, hget,
      Option.getD_some, hes.applyAll_toChanges (ha _ _ hold)]
  | saves _ hold => rw [Notice.update, Overlay.get?_set_self, Notice.uri, hold]
  | closes _ => rw [Notice.update, Overlay.get?_erase_self, Notice.uri, Function.update_self]

/-- What an editor does can be told in a message. -/
theorem Acts.isUtf8 (h : Acts documents editor n editor')
    (ha : ∀ uri text, editor uri = some text → IsAddressable text) (hu : Utf8.IsUtf8 n.uri) :
    n.IsUtf8 := by
  cases h with
  | opens _ ht => exact ⟨hu, ht.utf8⟩
  | edits _ hold hes => exact ⟨hu, hes.utf8_toChanges (ha _ _ hold)⟩
  | saves _ hold => exact ⟨hu, (ha _ _ hold).utf8⟩
  | closes _ => exact hu

theorem Notice.apply_of_ne_nil (h : pathOfUri cwd n.uri ≠ []) :
    n.apply cwd buffers = n.update (documentKey cwd n.uri) buffers := by
  rw [Notice.apply, if_neg (by simpa using h), documentKey]

/-- A notice touches no key but that of its document. -/
theorem Notice.get?_apply_of_ne {other : Text} (h : other ≠ documentKey cwd n.uri) :
    (n.apply cwd buffers).get? other = buffers.get? other := by
  rw [Notice.apply]
  split_ifs
  · rfl
  · exact n.get?_update_of_ne buffers h

/-- What an editor does, told to the server, keeps the two in agreement. -/
theorem Agrees.apply (hd : AreDistinct cwd documents) (h : Agrees cwd documents editor buffers)
    (hact : Acts documents editor n editor') :
    Agrees cwd documents editor' (n.apply cwd buffers) where
  get? uri hu := by
    by_cases hne : uri = n.uri
    · subst hne
      rw [Notice.apply_of_ne_nil (hd.named _ hu)]
      exact hact.get?_update (h.get? _ hu) h.isAddressable
    · have hkey : documentKey cwd uri ≠ documentKey cwd n.uri :=
        hd.injOn.ne hu hact.uri_mem hne
      rw [Notice.get?_apply_of_ne hkey, h.get? uri hu, hact.other_eq hne]
  isAddressable _ _ ht := hact.isAddressable h.isAddressable ht

end Notices

section Session
variable {settings : Settings} {documents : Set Text} {editor : Editor} {s : Session}

/-- As long as they are in touch, editor and server agree. -/
theorem InTouch.agrees (hd : AreDistinct settings.disk.cwd documents)
    (h : InTouch settings documents editor s) :
    Agrees settings.disk.cwd documents editor s.snapshot.buffers := by
  induction h with
  | start => exact ⟨fun _ _ => rfl, fun _ _ ht => nomatch ht⟩
  | told _ hact hn ih =>
    rw [Session.buffers_step_received hn]
    exact ih.apply hd hact
  | other _ he ih =>
    rw [Session.buffers_step_of_none he]
    exact ih

/-- After every message the buffer of each document is the text that the editor shows, and there is
none if the document is not open. Whatever the editor does next can be told, and a message about one
document leaves the buffers of all others unchanged. -/
theorem buffers_follow_editor (hd : AreDistinct settings.disk.cwd documents)
    (h : InTouch settings documents editor s) :
    (∀ uri ∈ documents,
      s.snapshot.buffers.get? (documentKey settings.disk.cwd uri) = editor uri) ∧
    (∀ n editor', Acts documents editor n editor' → Utf8.IsUtf8 n.uri →
      InTouch settings documents editor' (s.step settings (.received n.payload)).1) ∧
    ∀ payload n, Notice.ofPayload? payload = some n →
      ∀ other, other ≠ documentKey settings.disk.cwd n.uri →
        (s.step settings (.received payload)).1.snapshot.buffers.get? other =
          s.snapshot.buffers.get? other := by
  have hagrees := h.agrees hd
  refine ⟨hagrees.get?, ?_, ?_⟩
  · intro n editor' hact hu
    exact h.told hact (Notice.ofPayload?_payload (hact.isUtf8 hagrees.isAddressable hu))
  · intro payload n hn other hne
    rw [Session.buffers_step_received hn]
    exact Notice.get?_apply_of_ne hne

end Session

/-- A document with a line break of two bytes and a character of two units, changed behind the
character and then before it. -/
theorem buffers_follow_editor_twoUnits :
    let settings : Settings :=
      { disk := ⟨.directory [], ("/" : String)⟩, workspace := fun _ => ⟨[], [], 0, false⟩ }
    let uri : Text := ("file:///a.gsc" : String)
    let text : Text := ("\r\n😀b" : String)
    let edits : List Edit := [⟨6, 7, ("c" : String), false⟩, ⟨0, 2, ("\n" : String), true⟩]
    let opening := Notice.opened uri text
    let changing := Notice.changed uri (Edit.toChanges text edits)
    let s := (({} : Session).step settings (.received opening.payload)).1
    AreDistinct settings.disk.cwd {uri} ∧ Edit.FitAll text edits ∧
    (s.step settings (.received changing.payload)).1.snapshot.buffers.get? ("/a.gsc" : String) =
      some ("\n😀c" : String) := by
  intro settings uri text edits opening changing s
  have hd : AreDistinct settings.disk.cwd {uri} := by
    refine ⟨?_, Set.injOn_singleton _ _⟩
    rintro _ rfl
    decide
  have hfit : Edit.FitAll text edits := by decide
  have hstart : InTouch settings {uri} (fun _ => none) {} := .start
  have hopened : InTouch settings {uri} _ s :=
    (buffers_follow_editor hd hstart).2.1 opening _ (.opens rfl (by decide)) (by decide)
  have hchanged := (buffers_follow_editor hd hopened).2.1 changing _
    (.edits rfl (Function.update_self _ _ _) hfit) (by decide)
  have hkey : documentKey settings.disk.cwd uri = ("/a.gsc" : String) := by decide
  have htext : Edit.applyAll text edits = ("\n😀c" : String) := by decide
  have hget := (buffers_follow_editor hd hchanged).1 uri rfl
  rw [hkey, Function.update_self, htext] at hget
  exact ⟨hd, hfit, hget⟩

end ScriptNav.Server
