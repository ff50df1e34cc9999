import SerialConsole.Proofs.Files.Tree
import SerialConsole.Proofs.Text.Utf8

set_option autoImplicit false

/-!
# Saving and loading

After a save that succeeded, the file is there and holds what was saved. Loading it gives the text
with every line end as a line feed.
-/
namespace SerialConsole.Files

variable {files written : Files} {path : Path}

theorem last_of_placeOfNew {place : List String} (h : files.placeOfNew path = .ok place) :
    ∃ hparts : path.parts ≠ [], path.parts.getLast hparts ≠ ".." := by
  have hparts : path.parts ≠ [] := by
    intro hnone
    rcases placeOfNew_nil files hnone with hrefused | hrefused
    all_goals cases hrefused.symm.trans h
  refine ⟨hparts, fun hup => ?_⟩
  unfold placeOfNew at h
  rw [List.getLast?_eq_some_getLast hparts, hup] at h
  split at h
  case isTrue => cases h
  case isFalse =>
    cases hparent : files.locate path.parent with
    | error problem =>
      rw [hparent] at h
      cases h
    | ok directory =>
      simp only [hparent, bind, Except.bind, if_true] at h
      split at h <;> cases h

/-- A file is written to a path that ends in a name of its own. -/
theorem last_of_writeBytes {content : Bytes} (h : files.writeBytes path content = .ok written) :
    ∃ hparts : path.parts ≠ [], path.parts.getLast hparts ≠ ".." := by
  unfold writeBytes at h
  split at h
  case h_1 => cases h
  case h_2 =>
    split at h
    case h_1 hplace => exact last_of_placeOfNew hplace
    case h_2 => cases h

/-- A file that was written is there. -/
theorem find_written {content : Bytes} (h : files.writeBytes path content = .ok written) :
    written.find path = .ok (.file content) := by
  obtain ⟨hparts, hname⟩ := last_of_writeBytes h
  rw [Path.eq_entry hparts] at h ⊢
  obtain ⟨entries, hfind⟩ := find_of_writeBytes h
  rcases writeBytes_entry hfind hname content with ⟨refused, hrefused⟩ | ⟨hfits, _, hdone, hwritten⟩
  · cases hrefused.symm.trans h
  · cases hdone.symm.trans h
    rw [find_entry hwritten hname, if_pos hfits, Entry.child?_setIn, if_pos rfl]
    rfl

/-- What a save that succeeded has left. -/
theorem find_saved {role : FileRole} {text : String}
    (h : files.save role path text = (written, .ok ())) :
    written.find path = .ok (.file (Utf8.encode text.toList)) := by
  unfold save writeWithParents at h
  generalize files.makeParents path = ready at h
  obtain ⟨made, result⟩ := ready
  cases result with
  | error refused => cases h
  | ok _ =>
    cases hwrite : made.writeBytes path (Utf8.encode text.toList) with
    | error refused =>
      simp only [hwrite] at h
      cases h
    | ok after =>
      simp only [hwrite] at h
      cases h
      exact find_written hwrite

theorem exists?_saved {role : FileRole} {text : String}
    (h : files.save role path text = (written, .ok ())) : written.exists? path = .ok true := by
  rw [exists?, find_saved h]

theorem load_saved {role other : FileRole} {text : String}
    (h : files.save role path text = (written, .ok ())) :
    written.load other path = .ok (String.ofList (Text.unifyLineEnds text.toList)) := by
  unfold load readText readBytes
  rw [mapError_eq_ok, find_saved h]
  simp only [bind, Except.bind, Utf8.decode_eq_ok.2 rfl]

end SerialConsole.Files
