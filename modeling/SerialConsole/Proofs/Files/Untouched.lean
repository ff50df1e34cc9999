import SerialConsole.Proofs.Files.Saving

set_option autoImplicit false

/-!
# Files that stay as they are

A write makes directories and changes one file, a removal takes one file away. The places of all
other files, and what they hold, stay.
-/
namespace SerialConsole

namespace Entry

/-- The content of the file at a place, if there is a file. -/
def contentAt (entry : Entry) (place : List String) : Option Bytes :=
  match entry.at? place with
  | some (.file content) => some content
  | _ => none

/-- An entry with nothing below it. -/
def IsLeaf : Entry → Prop
  | .file _ => True
  | .directory entries => entries = []

variable {entry inner : Entry} {entries : List (String × Entry)} {name : String}
  {place other : List String}

theorem contentAt_leaf (h : inner.IsLeaf) (hother : other ≠ []) : inner.contentAt other = none := by
  cases other with
  | nil => exact absurd rfl hother
  | cons first rest =>
    cases inner with
    | file content => rfl
    | directory below =>
      obtain rfl : below = [] := h
      rfl

theorem contentAt_cons (entries : List (String × Entry)) (name : String) (rest : List String) :
    (directory entries).contentAt (name :: rest) =
      ((directory entries).child? name).bind (·.contentAt rest) := by
  rw [contentAt, at?]
  cases (directory entries).child? name <;> rfl

/-- A leaf in place of a leaf, or of nothing, changes no file elsewhere. -/
theorem contentAt_set {new : Option Entry} (h : entry.at? place = some (directory entries))
    (hold : ∀ inner, (directory entries).child? name = some inner → inner.IsLeaf)
    (hnew : ∀ inner, new = some inner → inner.IsLeaf) (hother : other ≠ place ++ [name]) :
    (entry.set (place ++ [name]) new).contentAt other = entry.contentAt other := by
  induction place generalizing entry other with
  | nil =>
    obtain rfl : entry = directory entries := by simpa [at?] using h
    change (directory (setIn entries name new)).contentAt other = _
    cases other with
    | nil => rfl
    | cons first rest =>
      rw [contentAt_cons, contentAt_cons, child?_setIn]
      split
      case isFalse => rfl
      case isTrue hsame =>
        -- a place below the name: the old and the new leaf have nothing there
        have hrest : rest ≠ [] := by
          rintro rfl
          exact hother (by rw [hsame, List.nil_append])
        have hnone : ∀ found : Option Entry, (∀ inner, found = some inner → inner.IsLeaf) →
            found.bind (·.contentAt rest) = none := by
          intro found hleaf
          cases found with
          | none => rfl
          | some inner => exact contentAt_leaf (hleaf inner rfl) hrest
        rw [hnone new hnew, hsame, hnone _ hold]
  | cons first rest ih =>
    obtain ⟨outer, inner, rfl, hchild, hinner⟩ := at?_eq_directory h
    rw [List.cons_append, set_below hchild]
    cases other with
    | nil => rfl
    | cons second below =>
      rw [contentAt_cons, contentAt_cons, child?_setIn]
      split
      case isFalse => rfl
      case isTrue hsame =>
        have hbelow : below ≠ rest ++ [name] := by
          rintro rfl
          exact hother (by rw [hsame, List.cons_append])
        rw [hsame, hchild, Option.bind_some, Option.bind_some, ih hinner hbelow]

end Entry

namespace Files

variable {files made written left : Files} {directory path : Path} {name : String}

/-- The content of the file at a place, if there is a file. -/
def contentAt (files : Files) (place : List String) : Option Bytes :=
  files.root.contentAt place

/-- One file of a directory holds a content, or is gone, and all other files are as they were. -/
def Touched (files after : Files) (directory : Path) (name : String) (content : Option Bytes) :
    Prop :=
  ∃ place, after.locate directory = .ok place ∧ after.contentAt (place ++ [name]) = content ∧
    ∀ other, other ≠ place ++ [name] → after.contentAt other = files.contentAt other

theorem contentAt_entry {entries : List (String × Entry)} {place : List String}
    (h : files.root.at? place = some (.directory entries)) :
    files.contentAt (place ++ [name]) =
      ((Entry.directory entries).child? name).bind (·.contentAt []) := by
  rw [contentAt, Entry.contentAt, Entry.at?_append, h, Option.bind_some, Entry.at?]
  cases (Entry.directory entries).child? name <;> rfl

/-- A file that is written or removed is the only one that is touched. -/
theorem touched_put {entries : List (String × Entry)} {place : List String} {new : Option Entry}
    (hplace : files.locate directory = .ok place)
    (hat : files.root.at? place = some (.directory entries))
    (hold : ∀ inner, (Entry.directory entries).child? name = some inner →
      ∃ content, inner = .file content)
    (hnew : ∀ inner, new = some inner → inner.IsLeaf) :
    Touched files (files.put (place ++ [name]) new) directory name
      (new.bind (·.contentAt [])) := by
  have hflat : ∀ inner, (Entry.directory entries).child? name = some inner →
      inner.isDirectory = false := by
    intro inner hinner
    obtain ⟨content, rfl⟩ := hold inner hinner
    rfl
  have hleaf : ∀ inner, (Entry.directory entries).child? name = some inner → inner.IsLeaf := by
    intro inner hinner
    obtain ⟨content, rfl⟩ := hold inner hinner
    trivial
  refine ⟨place, locate_put new hplace hat hflat, ?_, fun other => Entry.contentAt_set hat hleaf hnew⟩
  rw [contentAt_entry (Entry.at?_set new hat), Entry.child?_setIn, if_pos rfl]

theorem writeBytes_touched {content : Bytes}
    (h : files.writeBytes (directory.entry name) content = .ok written) :
    Touched files written directory name (some content) := by
  have hname : name ≠ ".." := by
    obtain ⟨hparts, hlast⟩ := last_of_writeBytes h
    simpa [Path.entry] using hlast
  obtain ⟨entries, hfind⟩ := find_of_writeBytes h
  obtain ⟨place, hplace, hat⟩ := find_eq_directory hfind
  unfold writeBytes at h
  rw [find_entry hfind hname, placeOfNew_entry hplace hat hname] at h
  by_cases hfits : Fits directory name
  · simp only [if_pos hfits] at h
    have hfile : ∀ inner, (Entry.directory entries).child? name = some inner →
        ∃ old, inner = .file old := by
      intro inner hinner
      cases inner with
      | file old => exact ⟨old, rfl⟩
      | directory below => simp [hinner] at h
    cases hchild : (Entry.directory entries).child? name with
    | none =>
      simp only [hchild, Option.elim_none, Except.ok.injEq] at h
      subst h
      exact touched_put hplace hat hfile (by simp [Entry.IsLeaf])
    | some inner =>
      obtain ⟨old, rfl⟩ := hfile inner hchild
      simp only [hchild, Option.elim_some, Except.ok.injEq] at h
      subst h
      exact touched_put hplace hat hfile (by simp [Entry.IsLeaf])
  · simp only [if_neg hfits] at h
    cases h

theorem remove_touched (h : files.remove (directory.entry name) = .ok left) (hname : name ≠ "..") :
    (∃ content, files.find (directory.entry name) = .ok (.file content)) ∧
      Touched files left directory name none := by
  unfold remove at h
  split at h
  case h_1 => cases h
  case h_3 => cases h
  case h_2 content hthere =>
    refine ⟨⟨content, hthere⟩, ?_⟩
    obtain ⟨entries, hfind⟩ := find_parent hthere
    obtain ⟨place, hplace, hat⟩ := find_eq_directory hfind
    rw [find_entry hfind hname] at hthere
    rw [locate_entry hplace hat hname] at h
    by_cases hfits : Fits directory name
    · rw [if_pos hfits] at h hthere
      cases hchild : (Entry.directory entries).child? name with
      | none => simp [hchild] at hthere
      | some inner =>
        obtain rfl : inner = .file content := by simpa [hchild] using hthere
        simp only [hchild, Option.isSome_some, if_true, Except.ok.injEq] at h
        subst h
        exact touched_put hplace hat (by simp [hchild]) (by simp)
    · rw [if_neg hfits] at hthere
      cases hthere

/-! ## Directories on the way -/

theorem makeDirectory_contentAt (h : files.makeDirectory path = .ok made) (place : List String) :
    made.contentAt place = files.contentAt place := by
  have hlast : ∃ hparts : path.parts ≠ [], path.parts.getLast hparts ≠ ".." := by
    unfold makeDirectory at h
    split at h
    case h_1 => cases h
    case h_2 =>
      cases hnew : files.placeOfNew path with
      | error problem => simp [hnew, bind, Except.bind] at h
      | ok final => exact last_of_placeOfNew hnew
  obtain ⟨hparts, hname⟩ := hlast
  rw [Path.eq_entry hparts] at h
  obtain ⟨outer, entries, _, _, hat, hnone, rfl⟩ := makeDirectory_entry h hname
  by_cases hplace : place = outer ++ [path.parts.getLast hparts]
  · rw [hplace, contentAt_entry (Entry.at?_set _ hat), contentAt_entry hat, Entry.child?_setIn,
      if_pos rfl, hnone]
    rfl
  · exact Entry.contentAt_set hat (by simp [hnone]) (by simp [Entry.IsLeaf]) hplace

theorem makeDirectories_contentAt (files : Files) (depth : Nat) (path : Path) (place : List String) :
    (files.makeDirectories depth path).1.contentAt place = files.contentAt place := by
  induction depth generalizing path with
  | zero =>
    rw [makeDirectories]
    split
    case h_1 made hmake => exact makeDirectory_contentAt hmake place
    case h_2 => rfl
    case h_3 => rfl
  | succ depth ih =>
    rw [makeDirectories]
    split
    case h_1 made hmake => exact makeDirectory_contentAt hmake place
    case h_3 => rfl
    case h_2 =>
      have habove := ih path.parent
      split
      case h_1 made refused heq => rwa [heq] at habove
      case h_2 made heq =>
        rw [heq] at habove
        split
        case h_1 further hmake => rw [makeDirectory_contentAt hmake, habove]
        case h_2 => exact habove

/-! ## Saving -/

theorem fault_of_settled {here : Files} {problem : FileProblem} {refused : Fault}
    (h : (if here.isDirectory path then .ok () else .error (fault path problem)) =
      (.error refused : Except Fault Unit)) : refused = fault path problem := by
  split at h
  · cases h
  · exact (Except.error.inj h).symm

theorem makeDirectories_refused {depth : Nat} {refused : Fault}
    (h : (files.makeDirectories depth path).2 = .error refused) :
    ∃ other problem, refused = fault other problem := by
  induction depth generalizing path with
  | zero =>
    rw [makeDirectories] at h
    split at h
    case h_1 => cases h
    case h_2 => exact ⟨_, _, (Except.error.inj h).symm⟩
    case h_3 => exact ⟨_, _, fault_of_settled h⟩
  | succ depth ih =>
    rw [makeDirectories] at h
    split at h
    case h_1 => cases h
    case h_3 => exact ⟨_, _, fault_of_settled h⟩
    case h_2 =>
      split at h
      case h_1 made met heq =>
        obtain rfl : met = refused := Except.error.inj h
        exact ih (by rw [heq])
      case h_2 made heq =>
        split at h
        case h_1 => cases h
        case h_2 => exact ⟨_, _, fault_of_settled h⟩

theorem writeBytes_refused {content : Bytes} {refused : Fault}
    (h : files.writeBytes path content = .error refused) : ∃ problem, refused = fault path problem := by
  unfold writeBytes at h
  split at h
  case h_1 => exact ⟨_, (Except.error.inj h).symm⟩
  case h_2 =>
    split at h
    case h_1 => cases h
    case h_2 => exact ⟨_, (Except.error.inj h).symm⟩

theorem remove_refused {refused : Fault} (h : files.remove path = .error refused) :
    ∃ problem, refused = fault path problem := by
  unfold remove at h
  split at h
  case h_1 => exact ⟨_, (Except.error.inj h).symm⟩
  case h_2 =>
    split at h
    case h_1 => cases h
    case h_2 => exact ⟨_, (Except.error.inj h).symm⟩
  case h_3 => exact ⟨_, (Except.error.inj h).symm⟩

/-- A write fails with a problem of the file system and leaves all files as they are, or it touches
one file. -/
theorem writeWithParents_cases (files : Files) (directory : Path) (name : String) (content : Bytes) :
    (∃ made other problem, files.writeWithParents (directory.entry name) content =
        (made, .error (fault other problem)) ∧
      ∀ place, made.contentAt place = files.contentAt place) ∨
    ∃ written, files.writeWithParents (directory.entry name) content = (written, .ok ()) ∧
      Touched files written directory name (some content) := by
  have hmade := makeDirectories_contentAt files (directory.entry name).parts.length
    (directory.entry name).parent
  unfold writeWithParents makeParents
  cases hparents : files.makeDirectories (directory.entry name).parts.length
      (directory.entry name).parent with
  | mk made result =>
    rw [hparents] at hmade
    cases result with
    | error refused =>
      obtain ⟨other, problem, rfl⟩ := makeDirectories_refused (congrArg (·.2) hparents)
      exact Or.inl ⟨made, other, problem, rfl, hmade⟩
    | ok _ =>
      cases hwrite : made.writeBytes (directory.entry name) content with
      | error refused =>
        obtain ⟨problem, rfl⟩ := writeBytes_refused hwrite
        refine Or.inl ⟨made, directory.entry name, problem, ?_, hmade⟩
        simp only [hwrite]
      | ok written =>
        obtain ⟨place, hplace, hcontent, hothers⟩ := writeBytes_touched hwrite
        refine Or.inr ⟨written, by simp only [hwrite], place, hplace, hcontent, fun other hother => ?_⟩
        exact (hothers other hother).trans (hmade other)

/-- A save fails with a fault that says what was to be done and leaves all files as they are, or it
touches one file. -/
theorem save_cases (files : Files) (role : FileRole) (directory : Path) (name text : String) :
    (∃ made cause, files.save role (directory.entry name) text =
        (made, .error (.fileRefused role (directory.entry name).text cause)) ∧
      ∀ place, made.contentAt place = files.contentAt place) ∨
    ∃ written, files.save role (directory.entry name) text = (written, .ok ()) ∧
      Touched files written directory name (some (Utf8.encode text.toList)) := by
  unfold save
  rcases writeWithParents_cases files directory name (Utf8.encode text.toList) with
    ⟨made, other, problem, hrefused, hmade⟩ | ⟨written, hwritten, htouched⟩
  · refine Or.inl ⟨made, fault other problem, ?_, hmade⟩
    rw [hrefused]
    exact congrArg (made, Except.error ·) (explain_fault role _ other problem)
  · refine Or.inr ⟨written, ?_, htouched⟩
    rw [hwritten]
    rfl

end Files

end SerialConsole
