import SerialConsole.Proofs.Console.Store
import SerialConsole.Proofs.Script.Remarks

set_option autoImplicit false

/-!
# Scripts that are saved and loaded

A script is saved as it is, and loaded with every line end as a line feed. `saved_script_reloads`
says when an accepted script keeps its meaning on the way: exactly if carriage returns change
nothing about its remarks.
-/
namespace SerialConsole

namespace Script.Library

variable {files written : Files} {directory path : Path} {name script : String}

/-- A save that succeeds has put the script into its file. -/
theorem saved_entries (h : save files directory name script = (written, .ok path)) :
    isName name = true ∧ Files.Fits directory (name ++ String.ofList suffix) ∧
      ∃ entries, written.find directory = .ok (.directory (Entry.setIn entries
        (name ++ String.ofList suffix) (some (.file (Utf8.encode script.toList))))) := by
  unfold save fileOf at h
  cases hname : isName name with
  | false =>
    rw [hname] at h
    cases h
  | true =>
    obtain ⟨_, hfile⟩ := isFileName_of_isName hname
    rw [hname, if_pos rfl, Path.child_fileName directory hfile] at h
    simp only [Files.save, Files.writeWithParents] at h
    generalize files.makeParents (directory.entry (name ++ String.ofList suffix)) = ready at h
    obtain ⟨made, result⟩ := ready
    cases result with
    | error refused => cases h
    | ok _ =>
      cases hwrite : made.writeBytes (directory.entry (name ++ String.ofList suffix))
          (Utf8.encode script.toList) with
      | error refused =>
        simp only [hwrite] at h
        cases h
      | ok after =>
        simp only [hwrite] at h
        cases h
        obtain ⟨entries, hfind⟩ := Files.find_of_writeBytes hwrite
        refine ⟨rfl, ?_⟩
        rcases Files.writeBytes_entry hfind hfile.2.2.2 (Utf8.encode script.toList) with
          ⟨refused, hrefused⟩ | ⟨hfits, _, hdone, hwritten⟩
        · rw [hwrite] at hrefused
          cases hrefused
        · rw [hwrite] at hdone
          cases hdone
          exact ⟨hfits, entries, hwritten⟩

/-- Whether all scripts but one among some entries of a directory can be read. -/
def ReadableBut (name : String) (directory : Path) (entries : List (String × SerialConsole.Entry)) :
    Prop :=
  ∀ e ∈ entries, ∀ other, nameOfFile? e.1 = some other → other ≠ name →
    Files.Fits directory e.1 ∧ (textOf? e.2).isSome = true

variable {entries : List (String × SerialConsole.Entry)} {text : List Char}

/-- A script that was written can be read. -/
theorem readable_setIn_iff (hfits : Files.Fits directory (name ++ String.ofList suffix))
    (hnamed : Named (Entry.setIn entries (name ++ String.ofList suffix)
      (some (.file (Utf8.encode text))))) :
    Readable directory (Entry.setIn entries (name ++ String.ofList suffix)
        (some (.file (Utf8.encode text)))) ↔
      ReadableBut name directory (Entry.setIn entries (name ++ String.ofList suffix)
        (some (.file (Utf8.encode text)))) := by
  constructor
  · exact fun h e he other hother _ => h e he (by rw [hother]; rfl)
  · intro h e he hscript
    obtain ⟨other, hother⟩ := Option.isSome_iff_exists.1 hscript
    by_cases hsame : other = name
    · subst hsame
      obtain ⟨_, hfile⟩ := nameOfFile?_eq_some.1 hother
      have hchild := Entry.child?_of_mem hnamed.1 he
      rw [Entry.child?_setIn, if_pos hfile] at hchild
      rw [hfile, ← Option.some.inj hchild, textOf?_file]
      exact ⟨hfits, rfl⟩
    · exact h e he other hother hsame

end Script.Library

namespace Console

open Script Script.Library Text

variable {w saved : Workplace} {c kept : Console} {name script : String} {path : Path}

/-- Only an accepted script is saved. -/
theorem saveScript_eq_ok (h : c.saveScript w name script = (saved, kept, .ok path)) :
    (∃ commands, parse script.toList = .ok commands) ∧ saved.places = w.places ∧
      Library.save w.files w.places.scripts name script = (saved.files, .ok path) := by
  unfold saveScript at h
  split at h
  case h_1 => cases h
  case h_2 verdict hverdict =>
    split at h
    case h_1 => cases h
    case h_2 hvalid =>
      constructor
      · unfold validate at hverdict
        split at hverdict
        case h_1 commands hparse => exact ⟨commands, hparse⟩
        case h_2 =>
          split at hverdict
          case isTrue =>
            cases hverdict
            cases hvalid
          case isFalse => cases hverdict
      · unfold keepScript at h
        cases hsave : Library.save w.files w.places.scripts name script with
        | mk files result =>
          rw [hsave] at h
          cases result with
          | error fault => cases h
          | ok written =>
            cases h
            exact ⟨rfl, rfl⟩

/-- After a save that succeeded, loading fails only for the sake of other scripts, and gives the
script with every line end as a line feed. The script was accepted, and what is loaded gives the same
commands exactly if it makes the same remarks. That is so if carriage returns stand only at the ends
of lines. -/
theorem saved_script_reloads (hsave : c.saveScript w name script = (saved, kept, .ok path))
    (hnamed : Named (entriesAt saved.files saved.places.scripts)) :
    ∃ commands, parse script.toList = .ok commands ∧
      ((∃ warnings library,
          Library.load saved.files saved.places.scripts = (warnings, .ok library)) ↔
        ReadableBut name saved.places.scripts (entriesAt saved.files saved.places.scripts)) ∧
      ∀ warnings library,
        Library.load saved.files saved.places.scripts = (warnings, .ok library) →
        ∃ loaded, library.find? name = some loaded ∧
          loaded.toList = unifyLineEnds script.toList ∧
          (parse loaded.toList = .ok commands ↔ remarks loaded.toList = remarks script.toList) ∧
          ((∀ line ∈ splitAt '\n' script.toList, '\r' ∉ withoutReturn line) →
            parse loaded.toList = .ok commands) := by
  obtain ⟨⟨commands, hparse⟩, hplaces, hwrite⟩ := saveScript_eq_ok hsave
  obtain ⟨hname, hfits, entries, hfind⟩ := saved_entries hwrite
  obtain ⟨hsome, _⟩ := isFileName_of_isName hname
  rw [hplaces, entriesAt_eq hfind] at hnamed ⊢
  refine ⟨commands, hparse, ?_, fun warnings library hload => ?_⟩
  · rw [← readable_setIn_iff hfits hnamed]
    constructor
    · rintro ⟨warnings, library, hload⟩
      have hreadable := (readable_of_load (entriesAt_eq hfind ▸ hnamed) hload).2
      rwa [entriesAt_eq hfind] at hreadable
    · intro hreadable
      rw [← entriesAt_eq hfind] at hnamed hreadable
      obtain ⟨warnings, library, hload, _⟩ := load_ok (looked_of_find hfind) hnamed hreadable
      exact ⟨warnings, library, hload⟩
  · rw [← entriesAt_eq hfind] at hnamed
    obtain ⟨hlooked, hreadable⟩ := readable_of_load hnamed hload
    obtain ⟨_, _, hload', hoverlaid⟩ := load_ok hlooked hnamed hreadable
    cases hload.symm.trans hload'
    have hfound : library.find? name = some (String.ofList (unifyLineEnds script.toList)) := by
      rw [hoverlaid.find?, entriesAt_eq hfind, own?_setIn hsome, if_pos rfl, Option.bind_some,
        textOf?_file, Option.some_or]
    refine ⟨_, hfound, String.toList_ofList, ?_, fun hends => ?_⟩
    · rw [String.toList_ofList]
      exact parse_unifyLineEnds_iff hparse
    · rw [String.toList_ofList]
      exact (parse_unifyLineEnds_iff hparse).2 (remarks_unifyLineEnds hends)

/-- A workplace in which nothing was saved yet. -/
def unused : Workplace :=
  { places := ⟨Path.ofString "cfg", Path.ofString "data"⟩ }

theorem saved_script_reloads_ends :
    ∃ saved kept path, (default : Console).saveScript unused "twice" "LOOP 2\r\nSEND a\r\nEND\r" =
        (saved, kept, .ok path) ∧
      ∃ warnings library loaded,
        Library.load saved.files saved.places.scripts = (warnings, .ok library) ∧
        library.find? "twice" = some loaded ∧
        parse loaded.toList = .ok [.loop 2 2 1, .send "a" 2, .loopEnd 0 3] := by
  generalize hresult : (default : Console).saveScript unused "twice" _ = result
  obtain ⟨saved, kept, outcome⟩ := result
  have hwritten : outcome.toOption.isSome = true := by
    rw [show outcome = _ from (congrArg (·.2.2) hresult).symm]
    decide
  have hnamed : Named (entriesAt saved.files saved.places.scripts) := by
    rw [show saved = _ from (congrArg (·.1) hresult).symm, Named]
    decide
  have hloads : (Library.load saved.files saved.places.scripts).2.toOption.isSome = true := by
    rw [show saved = _ from (congrArg (·.1) hresult).symm]
    decide +kernel
  cases outcome with
  | error fault => cases hwritten
  | ok path =>
    obtain ⟨commands, hparse, _, hloaded⟩ := saved_script_reloads hresult hnamed
    cases hlibrary : (Library.load saved.files saved.places.scripts).2 with
    | error fault =>
      rw [hlibrary] at hloads
      cases hloads
    | ok library =>
      have hload : Library.load saved.files saved.places.scripts = (_, .ok library) :=
        Prod.ext rfl hlibrary
      obtain ⟨loaded, hfound, _, _, hsame⟩ := hloaded _ library hload
      refine ⟨saved, kept, path, rfl, _, library, loaded, hload, hfound, ?_⟩
      rw [hsame (by decide), ← hparse]
      rfl

/-- A carriage return in the data of a SEND is a line end for whoever loads the script. -/
theorem saved_script_loses_return :
    let saved := (default : Console).saveScript unused "x" "SEND a\rb"
    let loaded := (Library.load saved.1.files saved.1.places.scripts).2
    parse "SEND a\rb".toList = .ok [.send "a\rb" 1] ∧ saved.2.2.toOption.isSome = true ∧
      (loaded.toOption.bind (·.find? "x")) = some "SEND a\nb" ∧
      (parse "SEND a\nb".toList).toOption = none :=
  ⟨by rfl, by decide, by decide +kernel, by decide⟩

end Console

end SerialConsole
