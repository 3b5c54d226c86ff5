import ScriptNav.Proofs.Disk
import ScriptNav.Proofs.Source.Overlay
import ScriptNav.Proofs.Text.Utf8

/-! What readers give. A text from the disk is well-formed, whatever the file holds; and on a disk
without links a buffer is as good as a file that holds its text. -/
namespace ScriptNav.Source

open Text Utf8

variable {d : Disk} {limit : Int} {path : Text}

theorem isUtf8_of_fromDisk {text : Text} (h : fromDisk d limit path = .ok text) : IsUtf8 text := by
  rw [fromDisk] at h
  split at h
  · cases h
  · cases h
  · cases h
  · split at h
    · cases h
    · split at h
      · cases h
        exact isUtf8_read _
      · cases h

/-- The text of what a file holds, if that is not too large. -/
def decode? (limit : Int) (content : Text) : Option Text :=
  if 0 < limit && limit < content.length then none else some (Utf8.read content)

section Linkless
variable (hlinkless : d.root.IsLinkless) (hpath : Path.IsAbsolute path)
include hlinkless hpath

/-- A text is had from a disk if the names of its path lead to a file of it. -/
theorem toOption_fromDisk :
    (fromDisk d limit path).toOption =
      ((d.root.descend? (Path.parts path).names).bind Entry.content?).bind (decode? limit) := by
  have hstat := Disk.toOption_stat hlinkless hpath
  have hread := Disk.toOption_read hlinkless hpath
  rw [fromDisk]
  cases hd : d.stat path with
  | error error =>
    rw [hd] at hstat
    rw [← hstat]
    obtain ⟨action, path, fault⟩ := error
    cases fault <;> rfl
  | ok entry =>
    rw [hd] at hstat
    rw [← hstat] at hread ⊢
    cases (hlinkless.descend? hstat.symm).1 with
    | directory _ _ _ => rfl
    | file content =>
      cases hr : d.read path with
      | error error =>
        rw [hr] at hread
        cases hread
      | ok stored =>
        rw [hr] at hread
        cases hread
        exact apply_ite Except.toOption _ _ _

variable {file content new : Text} (hfile : Path.IsAbsolute file)
  (hold : d.root.descend? (Path.parts file).names = some (.file content))
  (hnew : decode? limit new = some new) (buffers : Overlay)
include hfile hold hnew

/-- A buffer over a disk gives what the disk gives after the text of the buffer is written. -/
theorem toOption_reader_rewritten :
    (reader d (buffers.set (key d.cwd file) new) limit path).toOption =
      (reader (d.rewritten (Path.parts file).names new)
        (buffers.erase (key d.cwd file)) limit path).toOption := by
  have hcwd : (d.rewritten (Path.parts file).names new).cwd = d.cwd := rfl
  have hdisk : (fromDisk (d.rewritten (Path.parts file).names new) limit path).toOption =
      (if (Path.parts path).names = (Path.parts file).names then some new
        else (d.root.descend? (Path.parts path).names).bind Entry.content?).bind
          (decode? limit) := by
    rw [toOption_fromDisk (hlinkless.insert hold new) hpath, ← Entry.content?_insert hold]
    rfl
  rw [reader, reader, hcwd, key, key, hpath.absolute_eq, hfile.absolute_eq]
  by_cases hsame : path = file
  · subst hsame
    rw [Overlay.get?_set_self, Overlay.get?_erase_self]
    dsimp only
    rw [hdisk, if_pos rfl, Option.bind_some, hnew]
    rfl
  · rw [Overlay.get?_set_of_ne _ _ _ hsame, Overlay.get?_erase_of_ne _ _ hsame]
    cases buffers.get? path with
    | some text => rfl
    | none =>
      dsimp only
      rw [hdisk, if_neg (mt (hpath.names_inj hfile) hsame), toOption_fromDisk hlinkless hpath]

end Linkless
end ScriptNav.Source
