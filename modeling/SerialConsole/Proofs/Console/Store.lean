import SerialConsole.Console.Basic
import SerialConsole.Proofs.Script.Saved

set_option autoImplicit false

/-!
# The script store

A console holds its scripts in memory and the operator's scripts in files. A save changes the memory
by hand and a deletion loads everything again; after each of them, whether it succeeds or fails, the
memory holds what loading would give (`store_coherent`).
-/
namespace SerialConsole

namespace Script.Library

variable {files made : Files} {directory : Path} {library : Library} {name script : String}
  {entries : List (String × SerialConsole.Entry)}

/-- A path that leads to a directory once those on the way are made. -/
def Attainable (directory : Path) : Prop :=
  ∀ part ∈ directory.parts, part ≠ ".." ∧ part.utf8ByteSize ≤ Files.nameLimit

/-- A directory of scripts together with the library that loading would give. -/
structure Kept (files : Files) (directory : Path) (library : Library) : Prop where
  looked : ∃ there, files.exists? directory = .ok there
  named : Named (entriesAt files directory)
  readable : Readable directory (entriesAt files directory)
  overlay : ∀ name, library.find? name =
    (own? (entriesAt files directory) name).or (packaged.find? name)
  steady : files.isDirectory directory = true ∨ Attainable directory

/-! ## Entries of scripts -/

theorem named_setIn (h : Named entries) (hname : '/' ∉ name.toList) (new : Option SerialConsole.Entry) :
    Named (Entry.setIn entries name new) := by
  refine ⟨Entry.nodup_setIn h.1 new, fun e he => ?_⟩
  rcases Entry.mem_setIn he with hsame | hmem
  · rwa [hsame]
  · exact h.2 _ hmem

theorem readable_setIn {file : String} {new : Option SerialConsole.Entry} (hnamed : Named entries)
    (h : Readable directory entries) (hnew : ∀ inner, new = some inner →
      Files.Fits directory file ∧ (textOf? inner).isSome = true) :
    Readable directory (Entry.setIn entries file new) := by
  intro e he hscript
  have hchild := Entry.child?_of_mem (Entry.nodup_setIn hnamed.1 new) he
  rw [Entry.child?_setIn] at hchild
  split at hchild
  case isTrue hsame => rw [hsame]; exact hnew _ hchild
  case isFalse => exact h e (Entry.child?_mem hchild) hscript

theorem looked_of_find (h : files.find directory = .ok (.directory entries)) :
    ∃ there, files.exists? directory = .ok there :=
  ⟨true, by rw [Files.exists?, h]⟩

namespace Kept

theorem load (h : Kept files directory library) : ∃ warnings loaded,
    Library.load files directory = (warnings, .ok loaded) ∧
      Overlaid (entriesAt files directory) warnings loaded ∧
        ∀ name, library.find? name = loaded.find? name := by
  obtain ⟨warnings, loaded, hload, hoverlaid⟩ := load_ok h.looked h.named h.readable
  exact ⟨warnings, loaded, hload, hoverlaid, fun name => by rw [h.overlay, hoverlaid.find?]⟩

/-- What only depends on the entries of the directory. -/
theorem congr (h : Kept files directory library)
    (hlooked : ∃ there, made.exists? directory = .ok there)
    (hentries : entriesAt made directory = entriesAt files directory)
    (hsteady : made.isDirectory directory = true ∨ Attainable directory) :
    Kept made directory library :=
  ⟨hlooked, hentries ▸ h.named, hentries ▸ h.readable, hentries ▸ h.overlay, hsteady⟩

/-! ## Saving -/

/-- Making the directory changes nothing about the scripts, whether it succeeds or not. -/
theorem makeDirectories (h : Kept files directory library) {depth : Nat}
    {result : Except Fault Unit} (hmake : files.makeDirectories depth directory = (made, result)) :
    Kept made directory library ∧
      (result = .ok () → ∃ entries, made.find directory = .ok (.directory entries)) := by
  cases hthere : files.isDirectory directory with
  | true =>
    rw [Files.makeDirectories_there hthere] at hmake
    cases hmake
    exact ⟨h, fun _ => Files.isDirectory_iff.1 hthere⟩
  | false =>
    have hplain : Attainable directory := h.steady.resolve_left (by simp [hthere])
    have hmade := Files.makeDirectories_made files
      (fun hup => (hplain ".." hup).1 rfl) depth
    rw [hmake] at hmade
    cases result with
    | error refused =>
      have hlooked := Files.exists?_short made (Files.size_of_exists? h.looked)
        fun part hpart => (hplain part hpart).2
      refine ⟨h.congr hlooked ?_ (Or.inr hplain), fun hok => by cases hok⟩
      rw [entriesAt_nil hmade, entriesAt_nil hthere]
    | ok _ =>
      rcases hmade with hempty | ⟨_, hstill⟩
      · refine ⟨h.congr (looked_of_find hempty) ?_ (Or.inr hplain), fun _ => ⟨[], hempty⟩⟩
        rw [entriesAt_eq hempty, entriesAt_nil hthere]
      · rw [hthere] at hstill
        cases hstill

/-- The file of a script was written. -/
theorem written (h : Kept files directory library) {written : Files}
    (hfind : files.find directory = .ok (.directory entries)) (hname : isName name = true)
    (hscript : '\r' ∉ script.toList) (hfits : Files.Fits directory (name ++ String.ofList suffix))
    (hwritten : written.find directory = .ok (.directory (Entry.setIn entries
      (name ++ String.ofList suffix) (some (.file (Utf8.encode script.toList)))))) :
    Kept written directory (library.put name script) := by
  obtain ⟨hsome, hfile⟩ := isFileName_of_isName hname
  have hnamed := h.named
  have hreadable := h.readable
  have hoverlay := h.overlay
  rw [entriesAt_eq hfind] at hnamed hreadable hoverlay
  have htext := textOf?_encode hscript
  refine ⟨looked_of_find hwritten, ?_, ?_, fun other => ?_,
    Or.inl (Files.isDirectory_iff.2 ⟨_, hwritten⟩)⟩
  all_goals rw [entriesAt_eq hwritten]
  · exact named_setIn hnamed hfile.1 _
  · refine readable_setIn hnamed hreadable fun inner hinner => ?_
    cases hinner
    exact ⟨hfits, by simp [htext]⟩
  · rw [find?_put, own?_setIn hsome, hoverlay]
    by_cases hsame : other = name
    · simp [hsame, htext]
    · simp [hsame]

/-- A save keeps memory and files together: both have the script, or the save has failed and the
scripts are as they were. -/
theorem save (h : Kept files directory library) (hscript : '\r' ∉ script.toList)
    {result : Except Fault Path}
    (hsave : Library.save files directory name script = (made, result)) :
    (∀ path, result = .ok path → Kept made directory (library.put name script)) ∧
      ∀ fault, result = .error fault → Kept made directory library := by
  unfold Library.save fileOf at hsave
  cases hname : isName name with
  | false =>
    rw [hname] at hsave
    cases hsave
    exact ⟨fun path hok => (by cases hok), fun _ _ => h⟩
  | true =>
    obtain ⟨_, hfile⟩ := isFileName_of_isName hname
    rw [hname, if_pos rfl, Path.child_fileName directory hfile] at hsave
    simp only [Files.save, Files.writeWithParents, Files.makeParents, Path.parent_entry] at hsave
    generalize hmake : files.makeDirectories _ directory = ready at hsave
    obtain ⟨ready, outcome⟩ := ready
    obtain ⟨hready, hthere⟩ := h.makeDirectories hmake
    cases outcome with
    | error refused =>
      cases hsave
      exact ⟨fun path hok => (by cases hok), fun _ _ => hready⟩
    | ok _ =>
      obtain ⟨entries, hfind⟩ := hthere rfl
      rcases Files.writeBytes_entry hfind hfile.2.2.2 (Utf8.encode script.toList) with
        ⟨refused, hwrite⟩ | ⟨hfits, written, hwrite, hwritten⟩
      · simp only [hwrite] at hsave
        cases hsave
        exact ⟨fun path hok => (by cases hok), fun _ _ => hready⟩
      · simp only [hwrite] at hsave
        cases hsave
        exact ⟨fun _ _ => hready.written hfind hname hscript hfits hwritten,
          fun fault herror => (by cases herror)⟩

/-! ## Deleting -/

/-- How a deletion can end. It fails for a name that no script can have or that has no file; if it
does not fail it says whether there was a file, and the file is gone. -/
inductive Deleted (files : Files) (directory : Path) (name : String) :
    Except Fault (Files × Bool) → Prop where
  | refused (fault : Fault)
      (h : isName name = true → hasFile (entriesAt files directory) name = false) :
      Deleted files directory name (.error fault)
  | absent (h : hasFile (entriesAt files directory) name = false) :
      Deleted files directory name (.ok (files, false))
  | gone (left : Files) (h : hasFile (entriesAt files directory) name = true)
      (hfind : left.find directory = .ok (.directory
        (Entry.setIn (entriesAt files directory) (name ++ String.ofList suffix) none))) :
      Deleted files directory name (.ok (left, true))

theorem exists?_of_error {path : Path} {problem : FileProblem} (h : files.find path = .error problem) :
    files.exists? path = .ok false ∨ ∃ fault, files.exists? path = .error fault := by
  unfold Files.exists?
  rw [h]
  simp only
  split
  · exact Or.inl rfl
  · exact Or.inr ⟨_, rfl⟩

/-- The file of a script can be found. -/
theorem find_file (h : Kept files directory library) (hname : isName name = true)
    (hthere : hasFile (entriesAt files directory) name = true) :
    ∃ entries content, files.find directory = .ok (.directory entries) ∧
      Files.Fits directory (name ++ String.ofList suffix) ∧
        (Entry.directory entries).child? (name ++ String.ofList suffix) = some (.file content) := by
  obtain ⟨hsome, _⟩ := isFileName_of_isName hname
  have hscript : nameOfFile? (name ++ String.ofList suffix) = some name :=
    nameOfFile?_eq_some.2 ⟨hsome, rfl⟩
  obtain ⟨inner, hinner⟩ := Option.isSome_iff_exists.1 hthere
  obtain ⟨hfits, htext⟩ := h.readable _ (Entry.child?_mem hinner) (by simp [hscript])
  cases hdirectory : files.isDirectory directory with
  | false =>
    rw [entriesAt_nil hdirectory] at hinner
    cases hinner
  | true =>
    obtain ⟨entries, hfind⟩ := Files.isDirectory_iff.1 hdirectory
    rw [entriesAt_eq hfind] at hinner
    cases inner with
    | directory below => cases htext
    | file content => exact ⟨entries, content, hfind, hfits, hinner⟩

theorem delete (h : Kept files directory library) (name : String) :
    Deleted files directory name (Library.delete files directory name) := by
  unfold Library.delete fileOf
  cases hname : isName name with
  | false => exact .refused _ fun htrue => by simp [hname] at htrue
  | true =>
    obtain ⟨_, hfile⟩ := isFileName_of_isName hname
    simp only [if_pos, Path.child_fileName directory hfile, bind, Except.bind]
    cases hthere : hasFile (entriesAt files directory) name with
    | true =>
      obtain ⟨entries, content, hfind, hfits, hchild⟩ := h.find_file hname hthere
      obtain ⟨left, hremove, hleft⟩ := Files.remove_entry hfind hfile.2.2.2 hfits hchild
      have hexists : files.exists? (directory.entry (name ++ String.ofList suffix)) = .ok true := by
        rw [Files.exists?, Files.find_entry hfind hfile.2.2.2, if_pos hfits, hchild]
        rfl
      simp only [hexists, Files.mapError_eq_ok.2 hremove, if_true]
      exact .gone left hthere (by rwa [entriesAt_eq hfind])
    | false =>
      cases hfind : files.find (directory.entry (name ++ String.ofList suffix)) with
      | ok inner =>
        obtain ⟨entries, hdirectory⟩ := Files.find_parent hfind
        rw [Files.find_entry hdirectory hfile.2.2.2] at hfind
        rw [entriesAt_eq hdirectory, hasFile] at hthere
        split at hfind
        · cases hchild : (Entry.directory entries).child? (name ++ String.ofList suffix) <;>
            simp [hchild] at hfind hthere
        · cases hfind
      | error problem =>
        rcases exists?_of_error hfind with hexists | ⟨fault, hexists⟩
        · simp only [hexists, Bool.false_eq_true, if_false]
          exact .absent hthere
        · simp only [hexists]
          exact .refused fault fun _ => hthere

/-- A file of a script was deleted, and what is left is loaded. -/
theorem deleted (h : Kept files directory library) {left : Files} {file : String}
    (hfind : left.find directory = .ok (.directory
      (Entry.setIn (entriesAt files directory) file none))) :
    ∃ warnings loaded, Library.load left directory = (warnings, .ok loaded) ∧
      Kept left directory loaded := by
  have hnamed : Named (entriesAt left directory) := by
    rw [entriesAt_eq hfind]
    refine ⟨Entry.nodup_setIn h.named.1 none, fun e he => ?_⟩
    exact h.named.2 e (List.mem_filter.1 he).1
  have hreadable : Readable directory (entriesAt left directory) := by
    rw [entriesAt_eq hfind]
    exact readable_setIn h.named h.readable fun inner hinner => by cases hinner
  obtain ⟨warnings, loaded, hload, hoverlaid⟩ := load_ok (looked_of_find hfind) hnamed hreadable
  exact ⟨warnings, loaded, hload, looked_of_find hfind, hnamed, hreadable, hoverlaid.find?,
    Or.inl (Files.isDirectory_iff.2 ⟨_, hfind⟩)⟩

end Kept

end Script.Library

/-! ## Calls on a console -/

open Script Script.Library

/-- A change to the saved scripts that a caller asks for. -/
inductive StoreCall where
  | save (name script : String)
  | delete (name : String)
  deriving DecidableEq, Repr

namespace Console

variable {w : Workplace} {c : Console} {name script : String}

/-- The workplace and the console after a call, whatever came of it. -/
def afterCall : Workplace × Console → StoreCall → Workplace × Console
  | (w, c), .save name script => ((c.saveScript w name script).1, (c.saveScript w name script).2.1)
  | (w, c), .delete name => ((c.deleteScript w name).1, (c.deleteScript w name).2.1)

def afterCalls (start : Workplace × Console) (calls : List StoreCall) : Workplace × Console :=
  calls.foldl afterCall start

/-- The console's scripts and its files are together. -/
def Keeps (directory : Path) (state : Workplace × Console) : Prop :=
  Kept state.1.files directory state.2.library ∧ state.1.places.scripts = directory

/-- Putting warnings on record changes nothing else. -/
theorem exists_notes (w : Workplace) (warnings : List String) :
    ∃ notes, warnings.foldl (fun w text => w.note .warning text) w = { w with notes } := by
  induction warnings generalizing w with
  | nil => exact ⟨w.notes, rfl⟩
  | cons text rest ih => exact ih (w.note .warning text)

theorem files_notes (w : Workplace) (warnings : List String) :
    (warnings.foldl (fun w text => w.note .warning text) w).files = w.files ∧
      (warnings.foldl (fun w text => w.note .warning text) w).places = w.places := by
  obtain ⟨notes, hnotes⟩ := exists_notes w warnings
  rw [hnotes]
  exact ⟨rfl, rfl⟩

variable {directory : Path}

theorem keeps_openConsole {start : Workplace} {settings : Option Settings}
    (hopen : start.openConsole settings = (w, .ok c))
    (hnamed : Named (entriesAt start.files start.places.scripts))
    (hpath : start.files.isDirectory start.places.scripts = true ∨ Attainable start.places.scripts) :
    Keeps start.places.scripts (w, c) := by
  unfold Workplace.openConsole Workplace.loadScripts at hopen
  simp only at hopen
  split at hopen
  case h_1 => cases hopen
  case h_2 settings _ =>
    cases hload : Library.load start.files start.places.scripts with
    | mk warnings result =>
      rw [hload] at hopen
      cases result with
      | error fault => cases hopen
      | ok loaded =>
        obtain ⟨hlooked, hreadable⟩ := readable_of_load hnamed hload
        obtain ⟨warnings', loaded', hload', hoverlaid⟩ := load_ok hlooked hnamed hreadable
        rw [hload] at hload'
        cases hload'
        cases hopen
        obtain ⟨hfiles, hplaces⟩ := files_notes start warnings
        rw [Keeps]
        simp only [hfiles, hplaces, and_true]
        exact ⟨hlooked, hnamed, hreadable, hoverlaid.find?, hpath⟩

theorem keeps_saveScript (h : Keeps directory (w, c)) (hscript : '\r' ∉ script.toList) :
    Keeps directory ((c.saveScript w name script).1, (c.saveScript w name script).2.1) := by
  unfold saveScript
  split
  case h_1 => exact h
  case h_2 verdict _ =>
    split
    case h_1 => exact h
    case h_2 =>
      obtain ⟨hkept, rfl⟩ := h
      unfold keepScript
      cases hsave : Library.save w.files w.places.scripts name script with
      | mk files result =>
        obtain ⟨hdone, hfailed⟩ := hkept.save hscript hsave
        cases result with
        | error fault => exact ⟨hfailed fault rfl, rfl⟩
        | ok path => exact ⟨hdone path rfl, rfl⟩

/-- A script that is not valid or has a name that no script can have is not saved. -/
theorem saveScript_refused (w : Workplace) (c : Console)
    (h : isName name = false ∨
      ∀ verdict, Script.validate script.toList = .ok verdict → verdict.reason ≠ none) :
    ∃ fault, c.saveScript w name script = (w, c, .error fault) := by
  unfold saveScript
  split
  case h_1 fault _ => exact ⟨fault, rfl⟩
  case h_2 verdict hverdict =>
    split
    case h_1 reason _ => exact ⟨_, rfl⟩
    case h_2 hvalid =>
      have hname : isName name = false := h.resolve_right fun hall => hall verdict hverdict hvalid
      have hsave : ∀ files, Library.save files w.places.scripts name script =
          (files, .error (.settings (.badScriptName name))) := by
        intro files
        rw [Library.save, Library.fileOf, hname, if_neg Bool.false_ne_true]
      exact ⟨.settings (.badScriptName name), by rw [keepScript, hsave]⟩

/-- A deletion finds no file, or is not allowed to look for one, and changes nothing; or the file is
gone and the scripts are loaded again. -/
theorem deleteScript_cases (h : Keeps directory (w, c)) (name : String) :
    (isName name = true → hasFile (entriesAt w.files directory) name = false) ∧
        (∃ result, c.deleteScript w name = (w, c, result) ∧ ∀ deleted, result = .ok deleted →
          deleted = false ∧ hasFile (entriesAt w.files directory) name = false) ∨
      hasFile (entriesAt w.files directory) name = true ∧
        ∃ w' c', c.deleteScript w name = (w', c', .ok true) ∧ Keeps directory (w', c') ∧
          hasFile (entriesAt w'.files directory) name = false := by
  obtain ⟨hkept, rfl⟩ := h
  have hdeleted := hkept.delete name
  unfold deleteScript
  generalize Library.delete w.files w.places.scripts name = outcome at hdeleted
  cases hdeleted with
  | refused fault hnone => exact Or.inl ⟨hnone, _, rfl, by simp⟩
  | absent hnone => exact Or.inl ⟨fun _ => hnone, _, rfl, by simp [hnone]⟩
  | gone left hthere hfind =>
    obtain ⟨warnings, loaded, hload, hleft⟩ := hkept.deleted hfind
    obtain ⟨hfiles, hplaces⟩ := files_notes { w with files := left } warnings
    refine Or.inr ⟨hthere, ?_⟩
    simp only [Workplace.loadScripts, hload]
    refine ⟨_, _, rfl, ⟨hfiles ▸ hleft, by rw [hplaces]⟩, ?_⟩
    rw [hfiles, entriesAt_eq hfind, hasFile, Entry.child?_setIn, if_pos rfl]
    rfl

theorem keeps_afterCall (h : Keeps directory (w, c)) (call : StoreCall)
    (hcall : ∀ name script, call = .save name script → '\r' ∉ script.toList) :
    Keeps directory (afterCall (w, c) call) := by
  cases call with
  | save name script => exact keeps_saveScript h (hcall name script rfl)
  | delete name =>
    rcases deleteScript_cases h name with ⟨_, result, heq, _⟩ | ⟨_, w', c', heq, hkeeps, _⟩
    · rw [afterCall, heq]
      exact h
    · rw [afterCall, heq]
      exact hkeeps

theorem keeps_afterCalls {state : Workplace × Console} (h : Keeps directory state)
    (calls : List StoreCall)
    (hcalls : ∀ name script, .save name script ∈ calls → '\r' ∉ script.toList) :
    Keeps directory (afterCalls state calls) := by
  induction calls generalizing state with
  | nil => exact h
  | cons call rest ih =>
    refine ih (keeps_afterCall h call fun name script hsame => ?_) fun name script hmem =>
      hcalls name script (List.mem_cons_of_mem _ hmem)
    exact hcalls name script (hsame ▸ List.mem_cons_self)

/-- A workplace with a script of the operator's that hides one that comes with the program. -/
def overridden : Workplace :=
  { files :=
      { root := .directory [("home", .directory [("data", .directory [("serterm",
          .directory [("scripts", .directory [("heartbeat.txt", .file [83, 69, 78, 68, 32, 79])])])])])] }
    places := ⟨Path.ofString "cfg", Path.ofString "data"⟩ }

def mixedCalls : List StoreCall :=
  [.save "ping" "SEND hi\n", .delete "heartbeat", .save "a b" "SEND hi\n"]

end Console

end SerialConsole
