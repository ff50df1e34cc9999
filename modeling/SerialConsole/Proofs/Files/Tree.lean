import SerialConsole.Files.Tree
import SerialConsole.Proofs.Text.Keyed
import SerialConsole.Proofs.Text.Trimming

set_option autoImplicit false

/-!
# Trees of files

What a change to one entry of a directory does to the tree: the directory has the new entry, every
other directory is still there, and a path that led to a directory still leads to it.
-/
namespace SerialConsole

namespace Entry

variable {entry inner : Entry} {entries : List (String × Entry)} {name other : String}
  {place : List String}

/-! ## The entries of a directory -/

theorem child?_eq_find? : (directory entries).child? name =
    (entries.find? fun e => e.1 = name).map (·.2) := rfl

theorem child?_isSome : ((directory entries).child? name).isSome = true ↔
    (entries.any fun e => e.1 = name) = true := by
  simp [child?]

theorem child?_mem (h : (directory entries).child? name = some inner) : (name, inner) ∈ entries := by
  obtain ⟨⟨found, entry⟩, hfind, rfl⟩ := Option.map_eq_some_iff.1 h
  obtain rfl : found = name := by simpa using List.find?_some hfind
  exact List.mem_of_find?_eq_some hfind

theorem child?_of_mem (hdistinct : (entries.map (·.1)).Nodup) (h : (name, inner) ∈ entries) :
    (directory entries).child? name = some inner := by
  rw [child?_eq_find?, Keyed.find?_of_nodup hdistinct h, Option.map_some]

theorem child?_setIn (entries : List (String × Entry)) (name other : String) (new : Option Entry) :
    (directory (setIn entries name new)).child? other =
      if other = name then new else (directory entries).child? other := by
  rw [child?_eq_find?, child?_eq_find?]
  cases new with
  | some inner => exact Keyed.find?_put entries name other inner
  | none =>
    by_cases hsame : other = name
    · simp [setIn, hsame]
    · rw [if_neg hsame, setIn, Keyed.find?_without hsame]

theorem mem_setIn {new : Option Entry} (h : (other, inner) ∈ setIn entries name new) :
    other = name ∨ (other, inner) ∈ entries := by
  unfold setIn at h
  cases new with
  | none => exact Or.inr (List.mem_filter.1 h).1
  | some entry =>
    simp only at h
    split at h
    · obtain ⟨e, hmem, heq⟩ := List.mem_map.1 h
      split at heq
      · exact Or.inl (congrArg (·.1) heq).symm
      · exact Or.inr (heq ▸ hmem)
    · rcases List.mem_append.1 h with hmem | hnew
      · exact Or.inr hmem
      · exact Or.inl (congrArg (·.1) (List.mem_singleton.1 hnew))

theorem nodup_setIn (hdistinct : (entries.map (·.1)).Nodup) (new : Option Entry) :
    ((setIn entries name new).map (·.1)).Nodup := by
  unfold setIn
  cases new with
  | none => exact hdistinct.sublist (List.filter_sublist.map _)
  | some entry =>
    simp only
    split
    case isTrue =>
      have hnames : (entries.map fun e => if e.1 = name then (name, entry) else e).map (·.1) =
          entries.map (·.1) := by
        rw [List.map_map]
        refine List.map_congr_left fun e _ => ?_
        by_cases hname : e.1 = name <;> simp [hname]
      rwa [hnames]
    case isFalse hnone =>
      rw [List.map_append, List.nodup_append]
      refine ⟨hdistinct, by simp, ?_⟩
      rintro found hfound _ hnew rfl
      obtain rfl : found = name := by simpa using hnew
      obtain ⟨e, hmem, hname⟩ := List.mem_map.1 hfound
      exact hnone (List.any_eq_true.2 ⟨e, hmem, by simpa using hname⟩)

/-! ## Places -/

theorem at?_cons (entry : Entry) (name : String) (rest : List String) :
    entry.at? (name :: rest) = (entry.child? name).bind (·.at? rest) := rfl

theorem at?_append (entry : Entry) (a b : List String) :
    entry.at? (a ++ b) = (entry.at? a).bind (·.at? b) := by
  induction a generalizing entry with
  | nil => rfl
  | cons name rest ih =>
    rw [List.cons_append, at?_cons, at?_cons]
    cases entry.child? name with
    | none => rfl
    | some inner => exact ih inner

theorem at?_eq_directory (h : entry.at? (name :: place) = some (directory entries)) :
    ∃ outer inner, entry = directory outer ∧ (directory outer).child? name = some inner ∧
      inner.at? place = some (directory entries) := by
  cases entry with
  | file content => cases h
  | directory outer =>
    rw [at?_cons] at h
    cases hinner : (directory outer).child? name with
    | none =>
      rw [hinner] at h
      cases h
    | some inner =>
      rw [hinner] at h
      exact ⟨outer, inner, rfl, hinner, h⟩

/-- A change below a directory is a change below the child on the way. -/
theorem set_below (h : (directory entries).child? name = some inner) (rest : List String)
    (last : String) (new : Option Entry) :
    (directory entries).set (name :: (rest ++ [last])) new =
      directory (setIn entries name (some (inner.set (rest ++ [last]) new))) := by
  rw [set, h]
  simp

/-- An entry of a directory is replaced, added or removed. -/
theorem at?_set (new : Option Entry) (h : entry.at? place = some (directory entries)) :
    (entry.set (place ++ [name]) new).at? place = some (directory (setIn entries name new)) := by
  induction place generalizing entry with
  | nil =>
    obtain rfl : entry = directory entries := Option.some.inj h
    rfl
  | cons first rest ih =>
    obtain ⟨outer, inner, rfl, hchild, hinner⟩ := at?_eq_directory h
    rw [List.cons_append, set_below hchild, at?_cons, child?_setIn, if_pos rfl]
    exact ih hinner

/-- No directory is lost when an entry that is no directory changes. -/
theorem set_keeps {other : List String} {others : List (String × Entry)} (new : Option Entry)
    (h : entry.at? place = some (directory entries))
    (hold : ∀ inner, (directory entries).child? name = some inner → inner.isDirectory = false)
    (hother : entry.at? other = some (directory others)) :
    ∃ kept, (entry.set (place ++ [name]) new).at? other = some (directory kept) := by
  induction place generalizing entry other with
  | nil =>
    obtain rfl : entry = directory entries := Option.some.inj h
    cases other with
    | nil => exact ⟨_, rfl⟩
    | cons first rest =>
      obtain ⟨_, inner, heq, hchild, hinner⟩ := at?_eq_directory hother
      cases heq
      have hfirst : first ≠ name := by
        rintro rfl
        cases inner with
        | file content => cases rest <;> cases hinner
        | directory below => exact absurd (hold _ hchild) (by simp [isDirectory])
      refine ⟨others, ?_⟩
      change ((directory (setIn entries name new)).child? first).bind (·.at? rest) = _
      rw [child?_setIn, if_neg hfirst, hchild]
      exact hinner
  | cons first rest ih =>
    obtain ⟨outer, inner, rfl, hchild, hinner⟩ := at?_eq_directory h
    rw [List.cons_append, set_below hchild]
    cases other with
    | nil => exact ⟨_, rfl⟩
    | cons second below =>
      obtain ⟨_, found, heq, hfound, hbelow⟩ := at?_eq_directory hother
      cases heq
      rw [at?_cons, child?_setIn]
      by_cases hsame : second = first
      · subst hsame
        obtain rfl : inner = found := Option.some.inj (hchild.symm.trans hfound)
        rw [if_pos rfl]
        exact ih hinner hbelow
      · rw [if_neg hsame, hfound]
        exact ⟨others, hbelow⟩

end Entry

namespace Path

/-- Whether a text can be the name of a file. -/
def IsFileName (name : String) : Prop :=
  '/' ∉ name.toList ∧ name ≠ "" ∧ name ≠ "." ∧ name ≠ ".."

/-- The path of an entry of a directory. -/
def entry (directory : Path) (name : String) : Path :=
  { directory with parts := directory.parts ++ [name] }

@[simp] theorem parent_entry (directory : Path) (name : String) :
    (directory.entry name).parent = directory := by
  rw [entry, parent, List.dropLast_concat]

theorem eq_entry {path : Path} (h : path.parts ≠ []) :
    path = path.parent.entry (path.parts.getLast h) := by
  rw [entry, parent, List.dropLast_concat_getLast]

theorem child_fileName (directory : Path) {name : String} (h : IsFileName name) :
    directory.child name = directory.entry name := by
  obtain ⟨hslash, hempty, hdot, _⟩ := h
  have hparts : components name.toList = [name] := by
    simp [components, Text.splitAt_of_not_mem hslash, hempty, hdot]
  have hslashes : (name.toList.takeWhile (· == '/')).length = 0 := by
    cases hname : name.toList with
    | nil => rfl
    | cons c rest =>
      have hc : c ≠ '/' := by
        rintro rfl
        simp [hname] at hslash
      simp [hc]
  simp [child, join, ofString, isAbsolute, hparts, hslashes, keptSlashes, entry]

theorem size_intercalate_le (separator : String) (parts : List String) (name : String) :
    (separator.intercalate parts).utf8ByteSize ≤
      (separator.intercalate (parts ++ [name])).utf8ByteSize := by
  induction parts with
  | nil => exact Nat.zero_le _
  | cons first rest ih =>
    cases rest with
    | nil =>
      rw [List.cons_append, List.nil_append, String.intercalate_cons_cons,
        String.utf8ByteSize_append, String.utf8ByteSize_append, String.intercalate_singleton]
      omega
    | cons second others =>
      rw [List.cons_append, List.cons_append, String.intercalate_cons_cons,
        String.intercalate_cons_cons]
      simp only [String.utf8ByteSize_append]
      exact Nat.add_le_add_left ih _

/-- The path of an entry is no shorter than the one of its directory. -/
theorem size_text_le (directory : Path) (name : String) :
    directory.text.utf8ByteSize ≤ (directory.entry name).text.utf8ByteSize := by
  have hshown := size_intercalate_le "/" directory.parts name
  have hdot : ".".utf8ByteSize = 1 := rfl
  unfold text entry
  simp only
  generalize String.ofList (List.replicate directory.slashes '/') = root
  split
  case isTrue =>
    split
    · exact Nat.le_refl _
    case isFalse hsome =>
      rw [hdot]
      exact Nat.pos_of_ne_zero fun hzero => hsome (String.utf8ByteSize_eq_zero_iff.1 hzero)
  case isFalse hsome =>
    split
    case isTrue hnone =>
      have hzero := congrArg String.utf8ByteSize hnone
      rw [String.utf8ByteSize_append] at hzero
      refine absurd (String.utf8ByteSize_eq_zero_iff.1 ?_) hsome
      rw [String.utf8ByteSize_append]
      have hempty : "".utf8ByteSize = 0 := rfl
      omega
    case isFalse =>
      rw [String.utf8ByteSize_append, String.utf8ByteSize_append]
      omega

end Path

namespace Files

open Entry

variable {root : Entry} {place : List String}

/-! ## Following a path -/

theorem follow_cons (root : Entry) (place : List String) (name : String) (rest : List String) :
    follow root place (name :: rest) =
      match root.at? place with
      | none => .error .notFound
      | some (.file _) => .error .notADirectory
      | some (.directory entries) =>
        if name = ".." then follow root place.dropLast rest
        else if nameLimit < name.utf8ByteSize then .error .nameTooLong
        else if entries.any fun e => e.1 = name then follow root (place ++ [name]) rest
        else .error .notFound := rfl

theorem follow_append (root : Entry) (place a b : List String) :
    follow root place (a ++ b) = (follow root place a).bind (follow root · b) := by
  induction a generalizing place with
  | nil => rfl
  | cons name rest ih =>
    rw [List.cons_append, follow_cons, follow_cons]
    split
    · rfl
    · rfl
    · split
      · exact ih _
      · split
        · rfl
        · split
          · exact ih _
          · rfl

theorem at?_of_follow {names final : List String} {entries : List (String × Entry)}
    (h : follow root place names = .ok final) (hfinal : root.at? final = some (directory entries)) :
    ∃ outer, root.at? place = some (directory outer) := by
  cases names with
  | nil =>
    obtain rfl : place = final := Except.ok.inj h
    exact ⟨entries, hfinal⟩
  | cons name rest =>
    rw [follow_cons] at h
    split at h
    case h_1 => cases h
    case h_2 => cases h
    case h_3 outer houter => exact ⟨outer, houter⟩

/-- A path that leads to a directory leads there as long as no directory is lost. -/
theorem follow_keeps {changed : Entry} {names final : List String} {entries : List (String × Entry)}
    (hkept : ∀ other others, root.at? other = some (directory others) →
      ∃ kept, changed.at? other = some (directory kept))
    (h : follow root place names = .ok final) (hfinal : root.at? final = some (directory entries)) :
    follow changed place names = .ok final := by
  induction names generalizing place with
  | nil => exact h
  | cons name rest ih =>
    obtain ⟨outer, houter⟩ := at?_of_follow h hfinal
    obtain ⟨kept, hat⟩ := hkept _ _ houter
    rw [follow_cons, houter] at h
    rw [follow_cons, hat]
    simp only at h ⊢
    by_cases hup : name = ".."
    · rw [if_pos hup] at h ⊢
      exact ih h
    · rw [if_neg hup] at h ⊢
      split at h
      case isTrue => cases h
      case isFalse hshort =>
        split at h
        case isFalse => cases h
        case isTrue =>
          obtain ⟨below, hbelow⟩ := at?_of_follow h hfinal
          obtain ⟨still, hstill⟩ := hkept _ _ hbelow
          have hchild : ((directory kept).child? name).isSome = true := by
            rw [at?_append, hat, Option.bind_some, at?_cons] at hstill
            cases hfound : (directory kept).child? name with
            | none => simp [hfound] at hstill
            | some inner => rfl
          rw [if_neg hshort, if_pos (child?_isSome.1 hchild)]
          exact ih h

/-! ## Entries of a directory that a path leads to -/

variable {files : Files} {directory : Path} {entries : List (String × Entry)} {name : String}

/-- A result keeps its value when its fault is explained. -/
theorem mapError_eq_ok {α : Type} {explain : Fault → Fault} {result : Except Fault α} {value : α} :
    result.mapError explain = .ok value ↔ result = .ok value := by
  cases result with
  | error fault => exact ⟨fun h => (by cases h), fun h => (by cases h)⟩
  | ok found => exact Iff.rfl

theorem isSystem_fault (path : Path) (problem : FileProblem) :
    (fault path problem).kind.isSystem = true := by
  cases problem <;> rfl

/-- A problem of the file system is explained by what was to be done. -/
theorem explain_fault (role : FileRole) (path other : Path) (problem : FileProblem) :
    explain role path (fault other problem) =
      .fileRefused role path.text (fault other problem) :=
  if_pos (isSystem_fault other problem)

theorem find_eq_directory (h : files.find directory = .ok (.directory entries)) :
    ∃ place, files.locate directory = .ok place ∧
      files.root.at? place = some (.directory entries) := by
  unfold find at h
  cases hplace : files.locate directory with
  | error problem => simp [hplace, bind, Except.bind] at h
  | ok place =>
    refine ⟨place, rfl, ?_⟩
    simp only [hplace, bind, Except.bind] at h
    split at h
    case h_1 entry hentry => rw [hentry, Except.ok.inj h]
    case h_2 => cases h

theorem find_of_locate {place : List String} (h : files.locate directory = .ok place)
    (hat : files.root.at? place = some (.directory entries)) :
    files.find directory = .ok (.directory entries) := by
  simp only [find, h, hat, bind, Except.bind]

/-- Whether the system can hold an entry with a name in a directory. -/
def Fits (directory : Path) (name : String) : Prop :=
  (directory.entry name).text.utf8ByteSize ≤ pathLimit ∧ name.utf8ByteSize ≤ nameLimit

instance : Decidable (Fits directory name) :=
  inferInstanceAs (Decidable (_ ∧ _))

theorem locate_entry {place : List String} (hplace : files.locate directory = .ok place)
    (hat : files.root.at? place = some (.directory entries)) (hname : name ≠ "..") :
    files.locate (directory.entry name) =
      if Fits directory name then
        if ((Entry.directory entries).child? name).isSome then .ok (place ++ [name])
        else .error .notFound
      else .error .nameTooLong := by
  unfold locate at hplace ⊢
  split at hplace
  case isTrue => cases hplace
  case isFalse =>
    have hstart : (directory.entry name).isAbsolute = directory.isAbsolute := rfl
    have hparts : (directory.entry name).parts = directory.parts ++ [name] := rfl
    rw [hstart, hparts, follow_append, hplace, Except.bind, follow_cons, hat]
    simp only [hname, if_false, child?_isSome, follow]
    split
    case isTrue hlong => rw [if_neg fun hfits => Nat.not_lt.2 hfits.1 hlong]
    case isFalse hshort =>
      split
      case isTrue hlong => rw [if_neg fun hfits => Nat.not_lt.2 hfits.2 hlong]
      case isFalse hfine =>
        have hfits : Fits directory name := ⟨Nat.not_lt.1 hshort, Nat.not_lt.1 hfine⟩
        rw [if_pos hfits]

/-- What is found at the path of an entry of a directory. -/
theorem find_entry (h : files.find directory = .ok (.directory entries)) (hname : name ≠ "..") :
    files.find (directory.entry name) =
      if Fits directory name then ((Entry.directory entries).child? name).elim (.error .notFound) .ok
      else .error .nameTooLong := by
  obtain ⟨place, hplace, hat⟩ := find_eq_directory h
  unfold find
  rw [locate_entry hplace hat hname]
  by_cases hfits : Fits directory name
  · rw [if_pos hfits, if_pos hfits]
    cases hchild : (Entry.directory entries).child? name with
    | none => rfl
    | some inner =>
      have hinner : files.root.at? (place ++ [name]) = some inner := by
        rw [at?_append, hat, Option.bind_some, at?_cons, hchild]
        rfl
      simp [hinner, bind, Except.bind]
  · rw [if_neg hfits, if_neg hfits]
    rfl

/-- An entry is only found in a directory. -/
theorem find_parent {inner : Entry} (h : files.find (directory.entry name) = .ok inner) :
    ∃ entries, files.find directory = .ok (.directory entries) := by
  unfold find at h
  cases hplace : files.locate (directory.entry name) with
  | error problem => simp [hplace, bind, Except.bind] at h
  | ok final =>
    unfold locate at hplace
    have hstart : (directory.entry name).isAbsolute = directory.isAbsolute := rfl
    have hparts : (directory.entry name).parts = directory.parts ++ [name] := rfl
    split at hplace
    case isTrue => cases hplace
    case isFalse hshort =>
      rw [hstart, hparts, follow_append] at hplace
      cases hdirectory : follow files.root (if directory.isAbsolute then [] else files.working)
          directory.parts with
      | error problem => simp [hdirectory, Except.bind] at hplace
      | ok place =>
        rw [hdirectory, Except.bind, follow_cons] at hplace
        split at hplace
        case h_1 => cases hplace
        case h_2 => cases hplace
        case h_3 entries hat =>
          refine ⟨entries, find_of_locate ?_ hat⟩
          have hsize := Path.size_text_le directory name
          rw [locate, if_neg (by omega), hdirectory]

/-- A change to an entry that is no directory leaves the paths of directories as they are. -/
theorem locate_put {place : List String} (new : Option Entry)
    (hplace : files.locate directory = .ok place)
    (hat : files.root.at? place = some (.directory entries))
    (hold : ∀ inner, (Entry.directory entries).child? name = some inner → inner.isDirectory = false) :
    (files.put (place ++ [name]) new).locate directory = .ok place := by
  unfold locate at hplace ⊢
  split at hplace
  case isTrue => cases hplace
  case isFalse hshort =>
    rw [if_neg hshort]
    exact follow_keeps (fun _ _ => set_keeps new hat hold) hplace hat

/-- A change to an entry that is no directory shows in its directory and nowhere else. -/
theorem find_put {place : List String} (new : Option Entry)
    (hplace : files.locate directory = .ok place)
    (hat : files.root.at? place = some (.directory entries))
    (hold : ∀ inner, (Entry.directory entries).child? name = some inner → inner.isDirectory = false) :
    (files.put (place ++ [name]) new).find directory = .ok (.directory (setIn entries name new)) :=
  find_of_locate (locate_put new hplace hat hold) (at?_set new hat)

/-- Where a new entry of a directory comes to be. -/
theorem placeOfNew_entry {place : List String} (hplace : files.locate directory = .ok place)
    (hat : files.root.at? place = some (.directory entries)) (hname : name ≠ "..") :
    files.placeOfNew (directory.entry name) =
      if Fits directory name then .ok (place ++ [name]) else .error .nameTooLong := by
  have hlast : (directory.entry name).parts.getLast? = some name := by simp [Path.entry]
  unfold placeOfNew
  simp only [hlast, Path.parent_entry, hplace, hat, hname, bind, Except.bind, if_false]
  split
  case isTrue hlong => rw [if_neg fun hfits => Nat.not_lt.2 hfits.1 hlong]
  case isFalse hshort =>
    split
    case isTrue hlong => rw [if_neg fun hfits => Nat.not_lt.2 hfits.2 hlong]
    case isFalse hfine =>
      have hfits : Fits directory name := ⟨Nat.not_lt.1 hshort, Nat.not_lt.1 hfine⟩
      rw [if_pos hfits]

/-! ## Changes to a directory -/

/-- A file is written in a directory, or nothing happens. -/
theorem writeBytes_entry (h : files.find directory = .ok (.directory entries)) (hname : name ≠ "..")
    (content : Bytes) :
    (∃ refused, files.writeBytes (directory.entry name) content = .error refused) ∨
      Fits directory name ∧ ∃ written, files.writeBytes (directory.entry name) content = .ok written ∧
        written.find directory = .ok (.directory (setIn entries name (some (.file content)))) := by
  obtain ⟨place, hplace, hat⟩ := find_eq_directory h
  unfold writeBytes
  rw [find_entry h hname, placeOfNew_entry hplace hat hname]
  by_cases hfits : Fits directory name
  · simp only [if_pos hfits]
    cases hchild : (Entry.directory entries).child? name with
    | none => exact Or.inr ⟨hfits, _, rfl, find_put _ hplace hat (by simp [hchild])⟩
    | some inner =>
      cases inner with
      | directory below => exact Or.inl ⟨_, rfl⟩
      | file old =>
        refine Or.inr ⟨hfits, _, rfl, find_put _ hplace hat fun inner hinner => ?_⟩
        cases hchild.symm.trans hinner
        rfl
  · simp only [if_neg hfits]
    exact Or.inl ⟨_, rfl⟩

theorem remove_entry {content : Bytes} (h : files.find directory = .ok (.directory entries))
    (hname : name ≠ "..") (hfits : Fits directory name)
    (hchild : (Entry.directory entries).child? name = some (.file content)) :
    ∃ left, files.remove (directory.entry name) = .ok left ∧
      left.find directory = .ok (.directory (setIn entries name none)) := by
  obtain ⟨place, hplace, hat⟩ := find_eq_directory h
  unfold remove
  rw [find_entry h hname, if_pos hfits, hchild, locate_entry hplace hat hname, if_pos hfits, hchild]
  refine ⟨_, rfl, find_put _ hplace hat fun inner hinner => ?_⟩
  cases hchild.symm.trans hinner
  rfl

/-! ## Making directories -/

variable {made : Files}

theorem find_of_placeOfNew {place : List String}
    (h : files.placeOfNew (directory.entry name) = .ok place) :
    ∃ entries, files.find directory = .ok (.directory entries) := by
  have hlast : (directory.entry name).parts.getLast? = some name := by simp [Path.entry]
  unfold placeOfNew at h
  simp only [hlast, Path.parent_entry] at h
  split at h
  case isTrue => cases h
  case isFalse =>
    cases hplace : files.locate directory with
    | error problem => simp [hplace, bind, Except.bind] at h
    | ok outer =>
      simp only [hplace, bind, Except.bind] at h
      split at h
      case h_1 entries hat => exact ⟨entries, find_of_locate hplace hat⟩
      case h_2 => cases h
      case h_3 => cases h

/-- A file is only written in a directory. -/
theorem find_of_writeBytes {written : Files} {content : Bytes}
    (h : files.writeBytes (directory.entry name) content = .ok written) :
    ∃ entries, files.find directory = .ok (.directory entries) := by
  unfold writeBytes at h
  split at h
  case h_1 => cases h
  case h_2 =>
    split at h
    case h_1 place hplace => exact find_of_placeOfNew hplace
    case h_2 => cases h

/-- A new directory comes where nothing was. -/
theorem makeDirectory_entry (h : files.makeDirectory (directory.entry name) = .ok made)
    (hname : name ≠ "..") :
    ∃ place entries, Fits directory name ∧ files.locate directory = .ok place ∧
      files.root.at? place = some (.directory entries) ∧
      (Entry.directory entries).child? name = none ∧
      made = files.put (place ++ [name]) (some (.directory [])) := by
  unfold makeDirectory at h
  split at h
  case h_1 => cases h
  case h_2 problem hmissing =>
    cases hnew : files.placeOfNew (directory.entry name) with
    | error problem => simp [hnew, bind, Except.bind] at h
    | ok final =>
      obtain ⟨entries, hfind⟩ := find_of_placeOfNew hnew
      obtain ⟨place, hplace, hat⟩ := find_eq_directory hfind
      rw [placeOfNew_entry hplace hat hname] at hnew
      split at hnew
      case isFalse => cases hnew
      case isTrue hfits =>
        cases hnew
        rw [find_entry hfind hname, if_pos hfits] at hmissing
        have hnone : (Entry.directory entries).child? name = none := by
          cases hchild : (Entry.directory entries).child? name with
          | none => rfl
          | some inner => simp [hchild] at hmissing
        refine ⟨place, entries, hfits, hplace, hat, hnone, ?_⟩
        simpa [placeOfNew_entry hplace hat hname, hfits, bind, Except.bind, eq_comm] using h

/-- A new directory is empty. -/
theorem find_of_makeDirectory (h : files.makeDirectory (directory.entry name) = .ok made)
    (hname : name ≠ "..") : made.find (directory.entry name) = .ok (.directory []) := by
  obtain ⟨place, entries, hfits, hplace, hat, hnone, rfl⟩ := makeDirectory_entry h hname
  have hput := find_put (some (.directory [])) hplace hat fun inner hinner => by
    cases hnone.symm.trans hinner
  rw [find_entry hput hname, if_pos hfits, child?_setIn, if_pos rfl]
  rfl

/-- How making a directory can end: it is there, new or as it was before, or it is not. -/
def Made (files : Files) (path : Path) : Files × Except Fault Unit → Prop
  | (made, .ok ()) => made.find path = .ok (.directory []) ∨ made = files ∧ files.isDirectory path
  | (made, .error _) => made.isDirectory path = false

theorem isDirectory_iff : files.isDirectory directory = true ↔
    ∃ entries, files.find directory = .ok (.directory entries) := by
  unfold isDirectory
  split
  case h_1 entry hfind =>
    cases entry <;> simp [hfind, Entry.isDirectory]
  case h_2 problem hfind => simp [hfind]

/-- The path without components is not new. -/
theorem placeOfNew_nil (files : Files) {path : Path} (h : path.parts = []) :
    files.placeOfNew path = .error .nameTooLong ∨ files.placeOfNew path = .error .alreadyThere := by
  unfold placeOfNew
  simp only [h, List.getLast?_nil]
  split
  · exact Or.inl rfl
  · exact Or.inr rfl

theorem find_of_new {path : Path} (hplain : ".." ∉ path.parts)
    (h : files.makeDirectory path = .ok made) : made.find path = .ok (.directory []) := by
  have hparts : path.parts ≠ [] := by
    intro hnone
    unfold makeDirectory at h
    split at h
    · cases h
    · rcases placeOfNew_nil files hnone with hnew | hnew <;>
        simp [hnew, bind, Except.bind] at h
  rw [Path.eq_entry hparts] at h ⊢
  exact find_of_makeDirectory h fun hlast => hplain (hlast ▸ List.getLast_mem hparts)

theorem made_of_no_change (files : Files) (path : Path) (refused : Fault) :
    files.Made path (files, if files.isDirectory path then .ok () else .error refused) := by
  cases hthere : files.isDirectory path with
  | true => exact Or.inr ⟨rfl, hthere⟩
  | false => exact hthere

theorem find_of_notFound {path : Path} (h : files.makeDirectory path = .error .notFound) :
    path.parts ≠ [] ∧ files.isDirectory path = false := by
  unfold makeDirectory at h
  split at h
  case h_1 => cases h
  case h_2 problem hmissing =>
    refine ⟨fun hnone => ?_, by simp [isDirectory, hmissing]⟩
    rcases placeOfNew_nil files hnone with hnew | hnew <;>
      simp [hnew, bind, Except.bind] at h

/-- There is no directory below one that is not there, and none in a new one. -/
theorem isDirectory_entry (hname : name ≠ "..")
    (h : files.isDirectory directory = false ∨ files.find directory = .ok (.directory [])) :
    files.isDirectory (directory.entry name) = false := by
  cases hthere : files.isDirectory (directory.entry name) with
  | false => rfl
  | true =>
    obtain ⟨entries, hfind⟩ := isDirectory_iff.1 hthere
    rcases h with hnone | hempty
    · obtain ⟨outer, houter⟩ := find_parent hfind
      rw [isDirectory_iff.2 ⟨outer, houter⟩] at hnone
      cases hnone
    · rw [find_entry hempty hname] at hfind
      split at hfind <;> cases hfind

/-- Making a directory with those above it, on a path that does not go up again. -/
theorem makeDirectories_made (files : Files) {path : Path} (hplain : ".." ∉ path.parts) (depth : Nat) :
    files.Made path (files.makeDirectories depth path) := by
  induction depth generalizing path with
  | zero =>
    rw [makeDirectories]
    split
    case h_1 made hmake => exact Or.inl (find_of_new hplain hmake)
    case h_2 hmissing => exact (find_of_notFound hmissing).2
    case h_3 => exact made_of_no_change files path _
  | succ depth ih =>
    rw [makeDirectories]
    split
    case h_1 made hmake => exact Or.inl (find_of_new hplain hmake)
    case h_2 hmissing =>
      obtain ⟨hparts, hnone⟩ := find_of_notFound hmissing
      have hlast : path.parts.getLast hparts ≠ ".." := fun hlast =>
        hplain (hlast ▸ List.getLast_mem hparts)
      have habove : files.Made path.parent (files.makeDirectories depth path.parent) :=
        ih fun hup => hplain ((List.dropLast_sublist _).subset hup)
      -- Nothing is at the path yet, whether the directory above it could be made or not.
      have hstill : ∀ made result, files.makeDirectories depth path.parent = (made, result) →
          made.isDirectory path = false := by
        intro made result heq
        rw [heq] at habove
        rw [Path.eq_entry hparts] at hnone ⊢
        cases result with
        | error refused => exact isDirectory_entry hlast (Or.inl habove)
        | ok _ =>
          rcases habove with hempty | ⟨rfl, _⟩
          · exact isDirectory_entry hlast (Or.inr hempty)
          · exact hnone
      split
      case h_1 made refused heq => exact hstill made _ heq
      case h_2 made heq =>
        split
        case h_1 further hmake => exact Or.inl (find_of_new hplain hmake)
        case h_2 problem hmake =>
          rw [hstill made _ heq, if_neg Bool.false_ne_true]
          exact hstill made _ heq
    case h_3 => exact made_of_no_change files path _

theorem makeDirectories_there (h : files.isDirectory directory = true) (depth : Nat) :
    files.makeDirectories depth directory = (files, .ok ()) := by
  obtain ⟨entries, hfind⟩ := isDirectory_iff.1 h
  have hmake : files.makeDirectory directory = .error .alreadyThere := by rw [makeDirectory, hfind]
  cases depth <;> simp [makeDirectories, hmake, h]

/-! ## Looking up -/

theorem follow_absence {names : List String} {problem : FileProblem}
    (hshort : ∀ name ∈ names, name.utf8ByteSize ≤ nameLimit)
    (h : follow root place names = .error problem) : isAbsence problem = true := by
  induction names generalizing place with
  | nil => cases h
  | cons name rest ih =>
    have hrest := fun n hn => hshort n (List.mem_cons_of_mem _ hn)
    rw [follow_cons] at h
    split at h
    · cases h
      rfl
    · cases h
      rfl
    · split at h
      · exact ih hrest h
      · split at h
        case isTrue hlong => exact absurd hlong (Nat.not_lt.2 (hshort name List.mem_cons_self))
        case isFalse =>
          split at h
          · exact ih hrest h
          · cases h
            rfl

/-- Whether something is there can be found out on every path that is not too long. -/
theorem exists?_short (files : Files) {path : Path} (htext : path.text.utf8ByteSize ≤ pathLimit)
    (hparts : ∀ part ∈ path.parts, part.utf8ByteSize ≤ nameLimit) :
    ∃ there, files.exists? path = .ok there := by
  unfold exists?
  split
  case h_1 => exact ⟨true, rfl⟩
  case h_2 problem hmissing =>
    have habsence : isAbsence problem = true := by
      unfold find locate at hmissing
      rw [if_neg (Nat.not_lt.2 htext)] at hmissing
      cases hplace : follow files.root (if path.isAbsolute then [] else files.working) path.parts with
      | error found =>
        obtain rfl : found = problem := by simpa [hplace, bind, Except.bind] using hmissing
        exact follow_absence hparts hplace
      | ok place =>
        simp only [hplace, bind, Except.bind] at hmissing
        split at hmissing <;> cases hmissing
        rfl
    rw [habsence, if_pos rfl]
    exact ⟨false, rfl⟩

theorem size_of_exists? {path : Path} (h : ∃ there, files.exists? path = .ok there) :
    path.text.utf8ByteSize ≤ pathLimit := by
  obtain ⟨there, h⟩ := h
  refine Nat.not_lt.1 fun hlong => ?_
  have hfind : files.find path = .error .nameTooLong := by
    rw [find, locate, if_pos hlong]
    rfl
  rw [exists?, hfind] at h
  cases h

end Files

end SerialConsole
