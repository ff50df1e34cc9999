import SerialConsole.Proofs.Console.Reloading
import SerialConsole.Proofs.Files.Untouched

set_option autoImplicit false

/-!
# Names of saved scripts

A script is saved and deleted by its name, which comes from the operator. `script_names_confined`
says which names are let through, that the file of such a name stands in the directory of the
scripts itself and is listed under that name only, and that no other file is touched.
-/
namespace SerialConsole.Script.Library

variable {files : Files} {directory : Path} {name script : String}

/-! ## Names -/

/-- The characters that the refusal of a name lists. -/
def Listed (c : Char) : Prop :=
  'A' ≤ c ∧ c ≤ 'Z' ∨ 'a' ≤ c ∧ c ≤ 'z' ∨ '0' ≤ c ∧ c ≤ '9' ∨ c ∈ ['.', '_', '-']

/-- A text of listed characters, at least one. -/
def Proper (text : List Char) : Prop :=
  text ≠ [] ∧ ∀ c ∈ text, Listed c

/-- A name that is let through: a proper text, with or without a line feed behind it. -/
def Nameable (name : String) : Prop :=
  ∃ text, Proper text ∧ (name.toList = text ∨ name.toList = text ++ ['\n'])

theorem isAlphanum_iff {c : Char} : c.isAlphanum = true ↔
    'A' ≤ c ∧ c ≤ 'Z' ∨ 'a' ≤ c ∧ c ≤ 'z' ∨ '0' ≤ c ∧ c ≤ '9' := by
  change (decide (c.val ≥ 'A'.val ∧ c.val ≤ 'Z'.val) ||
    (decide (c.val ≥ 'a'.val) && decide (c.val ≤ 'z'.val)) ||
    (decide (c.val ≥ '0'.val) && decide (c.val ≤ '9'.val))) = true ↔ _
  simp only [Bool.or_eq_true, Bool.and_eq_true, decide_eq_true_eq, or_assoc]
  rfl

theorem isNameChar_iff {c : Char} : isNameChar c = true ↔ Listed c := by
  simp only [isNameChar, Listed, isAlphanum_iff, Bool.or_eq_true, beq_iff_eq, List.mem_cons,
    List.not_mem_nil, or_false, or_assoc]
  rw [@or_left_comm (c = '_')]

theorem proper_iff {text : List Char} :
    (!text.isEmpty && text.all isNameChar) = true ↔ Proper text := by
  simp only [Bool.and_eq_true, Bool.not_eq_true', List.isEmpty_eq_false_iff, List.all_eq_true,
    isNameChar_iff, Proper]

theorem not_listed_newline : ¬ Listed '\n' := by
  rw [← isNameChar_iff]
  decide

theorem isName_iff : isName name = true ↔ Nameable name := by
  unfold isName
  rw [proper_iff]
  cases hlast : name.toList.getLast? == some '\n' with
  | true =>
    obtain ⟨before, hbefore⟩ := List.getLast?_eq_some_iff.1 (beq_iff_eq.1 hlast)
    rw [if_pos rfl, hbefore, List.dropLast_concat]
    constructor
    · exact fun hproper => ⟨before, hproper, Or.inr hbefore⟩
    · rintro ⟨text, hproper, hsame | hline⟩
      · refine absurd (hproper.2 '\n' ?_) not_listed_newline
        simp [← hsame, hbefore]
      · rwa [List.append_cancel_right (hbefore.symm.trans hline)]
  | false =>
    rw [if_neg Bool.false_ne_true]
    constructor
    · exact fun hproper => ⟨_, hproper, Or.inl rfl⟩
    · rintro ⟨text, hproper, hsame | hline⟩
      · rwa [hsame]
      · simp [hline] at hlast

/-! ## The file of a name -/

/-- The file of a script holds a content and is listed by loading under the name of the script. Only
the other scripts can stop that, or a content that is no text. -/
structure ListedAs (files : Files) (directory : Path) (name : String) (content : Bytes) : Prop where
  there : files.find (directory.entry (name ++ String.ofList suffix)) = .ok (.file content)
  listed : ∃ names, files.list? directory = some names ∧ name ++ String.ofList suffix ∈ names
  loads : Named (entriesAt files directory) → (textOf? (.file content)).isSome = true →
    ReadableBut name directory (entriesAt files directory) →
      ∃ warnings library, load files directory = (warnings, .ok library)
  loaded : Named (entriesAt files directory) → ∀ warnings library,
    load files directory = (warnings, .ok library) →
      ∃ text, textOf? (.file content) = some text ∧ library.find? name = some text

theorem readable_of_but {entries : List (String × SerialConsole.Entry)}
    {inner : SerialConsole.Entry} (hnamed : Named entries)
    (hfits : Files.Fits directory (name ++ String.ofList suffix))
    (hchild : (Entry.directory entries).child? (name ++ String.ofList suffix) = some inner)
    (htext : (textOf? inner).isSome = true) (hothers : ReadableBut name directory entries) :
    Readable directory entries := by
  intro e he hscript
  obtain ⟨other, hother⟩ := Option.isSome_iff_exists.1 hscript
  by_cases hsame : other = name
  · obtain ⟨_, hfile⟩ := nameOfFile?_eq_some.1 hother
    have hinner := Entry.child?_of_mem hnamed.1 he
    rw [hfile, hsame] at hinner ⊢
    rw [hchild] at hinner
    rw [← Option.some.inj hinner]
    exact ⟨hfits, htext⟩
  · exact hothers e he other hother hsame

theorem listedAs_of_find {content : Bytes} (hname : name ≠ "")
    (hfile : Path.IsFileName (name ++ String.ofList suffix))
    (hthere : files.find (directory.entry (name ++ String.ofList suffix)) = .ok (.file content)) :
    ListedAs files directory name content := by
  obtain ⟨entries, hfind⟩ := Files.find_parent hthere
  obtain ⟨hfits, hchild⟩ : Files.Fits directory (name ++ String.ofList suffix) ∧
      (Entry.directory entries).child? (name ++ String.ofList suffix) = some (.file content) := by
    rw [Files.find_entry hfind hfile.2.2.2] at hthere
    split at hthere
    case isFalse => cases hthere
    case isTrue hfits =>
      refine ⟨hfits, ?_⟩
      cases hchild : (Entry.directory entries).child? (name ++ String.ofList suffix) with
      | none => simp [hchild] at hthere
      | some inner => simpa [hchild] using hthere
  have hmem := Entry.child?_mem hchild
  refine ⟨hthere, ⟨_, by rw [Files.list?, hfind], ?_⟩, fun hnamed htext hothers => ?_,
    fun hnamed warnings library hload => ?_⟩
  · exact (sortOn_perm _).mem_iff.2 (List.mem_map_of_mem hmem)
  · rw [entriesAt_eq hfind] at hnamed hothers
    have hreadable := readable_of_but hnamed hfits hchild htext hothers
    rw [← entriesAt_eq hfind] at hnamed hreadable
    obtain ⟨warnings, library, hload, _⟩ := load_ok (looked_of_find hfind) hnamed hreadable
    exact ⟨warnings, library, hload⟩
  · obtain ⟨hlooked, hreadable⟩ := readable_of_load hnamed hload
    obtain ⟨_, _, hload', hoverlaid⟩ := load_ok hlooked hnamed hreadable
    cases hload.symm.trans hload'
    rw [entriesAt_eq hfind] at hreadable hoverlaid
    have hscript : nameOfFile? (name ++ String.ofList suffix) = some name :=
      nameOfFile?_eq_some.2 ⟨hname, rfl⟩
    obtain ⟨text, htext⟩ := Option.isSome_iff_exists.1 (hreadable _ hmem (by rw [hscript]; rfl)).2
    refine ⟨text, htext, ?_⟩
    rw [hoverlaid.find?, own?, if_neg hname, hchild, Option.bind_some, htext, Option.some_or]

/-! ## Saving and deleting -/

/-- What can come of saving a script under a name that is let through. -/
inductive SaveEnds (files : Files) (directory : Path) (name script : String) :
    Files × Except Fault Path → Prop
  | refused (made : Files) (cause : Fault)
      (huntouched : ∀ place, made.contentAt place = files.contentAt place) :
      SaveEnds files directory name script (made, .error (.fileRefused .writeScript
        (directory.entry (name ++ String.ofList suffix)).text cause))
  | saved (written : Files)
      (htouched : files.Touched written directory (name ++ String.ofList suffix)
        (some (Utf8.encode script.toList)))
      (hlisted : ListedAs written directory name (Utf8.encode script.toList)) :
      SaveEnds files directory name script
        (written, .ok (directory.entry (name ++ String.ofList suffix)))

/-- What can come of deleting a script by a name that is let through. -/
inductive DeleteEnds (files : Files) (directory : Path) (name : String) :
    Except Fault (Files × Bool) → Prop
  | unseen (problem : FileProblem)
      (hunseen : files.find (directory.entry (name ++ String.ofList suffix)) = .error problem) :
      DeleteEnds files directory name
        (.error (Files.fault (directory.entry (name ++ String.ofList suffix)) problem))
  | absent
      (habsent : files.exists? (directory.entry (name ++ String.ofList suffix)) = .ok false) :
      DeleteEnds files directory name (.ok (files, false))
  | refused (cause : Fault) :
      DeleteEnds files directory name (.error (.fileRefused .deleteScript
        (directory.entry (name ++ String.ofList suffix)).text cause))
  | deleted (left : Files) (content : Bytes) (hlisted : ListedAs files directory name content)
      (htouched : files.Touched left directory (name ++ String.ofList suffix) none) :
      DeleteEnds files directory name (.ok (left, true))

theorem fileOf_named (hname : isName name = true) :
    fileOf directory name = .ok (directory.entry (name ++ String.ofList suffix)) := by
  rw [fileOf, if_pos hname, Path.child_fileName directory (isFileName_of_isName hname).2]

theorem save_ends (files : Files) (directory : Path) (script : String) (hname : isName name = true) :
    SaveEnds files directory name script (save files directory name script) := by
  obtain ⟨hsome, hfile⟩ := isFileName_of_isName hname
  unfold save
  simp only [fileOf_named hname]
  rcases Files.save_cases files .writeScript directory (name ++ String.ofList suffix) script with
    ⟨made, cause, hrefused, huntouched⟩ | ⟨written, hwritten, htouched⟩
  · simp only [hrefused, Except.map]
    exact .refused made cause huntouched
  · simp only [hwritten, Except.map]
    exact .saved written htouched (listedAs_of_find hsome hfile (Files.find_saved hwritten))

theorem delete_ends (files : Files) (directory : Path) (hname : isName name = true) :
    DeleteEnds files directory name (delete files directory name) := by
  obtain ⟨hsome, hfile⟩ := isFileName_of_isName hname
  unfold delete
  simp only [fileOf_named hname, bind, Except.bind]
  cases hthere : files.exists? (directory.entry (name ++ String.ofList suffix)) with
  | error fault =>
    unfold Files.exists? at hthere
    split at hthere
    case h_1 => cases hthere
    case h_2 problem hfind =>
      split at hthere
      case isTrue => cases hthere
      case isFalse =>
        cases hthere
        exact .unseen problem hfind
  | ok there =>
    cases there with
    | false =>
      simp only [Bool.false_eq_true, if_false]
      exact .absent hthere
    | true =>
      simp only [if_true]
      cases hremove : files.remove (directory.entry (name ++ String.ofList suffix)) with
      | error refused =>
        obtain ⟨problem, rfl⟩ := Files.remove_refused hremove
        change DeleteEnds files directory name
          (.error (Files.explain .deleteScript _ (Files.fault _ problem)))
        rw [Files.explain_fault]
        exact .refused _
      | ok left =>
        obtain ⟨⟨content, hfind⟩, htouched⟩ := Files.remove_touched hremove hfile.2.2.2
        exact .deleted left content (listedAs_of_find hsome hfile hfind) htouched

theorem SaveEnds.kind {outcome : Files × Except Fault Path} {fault : Fault}
    (h : SaveEnds files directory name script outcome) (hfault : outcome.2 = .error fault) :
    fault.kind ≠ .settingsInvalid := by
  cases h with
  | refused made cause =>
    cases hfault
    exact nofun
  | saved => cases hfault

theorem DeleteEnds.kind {outcome : Except Fault (Files × Bool)} {fault : Fault}
    (h : DeleteEnds files directory name outcome) (hfault : outcome = .error fault) :
    fault.kind ≠ .settingsInvalid := by
  cases h with
  | unseen problem =>
    cases hfault
    cases problem <;> exact nofun
  | refused cause =>
    cases hfault
    exact nofun
  | absent => cases hfault
  | deleted => cases hfault

/-- A name is refused, and nothing is touched, exactly if it is neither a proper text nor one with a
line feed behind it. Under any other name a save and a deletion only ever touch one file, which stands
in the directory of the scripts and which loading lists under that name and no other. -/
theorem script_names_confined (files : Files) (directory : Path) (name script : String) :
    ((∃ fault, (save files directory name script).2 = .error fault ∧ fault.kind = .settingsInvalid) ↔
        ¬ Nameable name) ∧
      ((∃ fault, delete files directory name = .error fault ∧ fault.kind = .settingsInvalid) ↔
        ¬ Nameable name) ∧
      (¬ Nameable name →
        save files directory name script = (files, .error (.settings (.badScriptName name))) ∧
          delete files directory name = .error (.settings (.badScriptName name))) ∧
      (Nameable name →
        (∀ other, nameOfFile? (name ++ String.ofList suffix) = some other ↔ other = name) ∧
          SaveEnds files directory name script (save files directory name script) ∧
          DeleteEnds files directory name (delete files directory name)) := by
  by_cases hnameable : Nameable name
  · have hname := isName_iff.2 hnameable
    have hsave := save_ends files directory script hname
    have hdelete := delete_ends files directory hname
    -- what else can go wrong is of another kind than the refusal of a name
    have haccepted : ¬ ¬ Nameable name := fun hbad => hbad hnameable
    refine ⟨iff_of_false ?_ haccepted, iff_of_false ?_ haccepted, fun hbad => absurd hnameable hbad,
      fun _ => ⟨fun other => ?_, hsave, hdelete⟩⟩
    · rintro ⟨fault, hfault, hkind⟩
      exact hsave.kind hfault hkind
    · rintro ⟨fault, hfault, hkind⟩
      exact hdelete.kind hfault hkind
    · rw [nameOfFile?_eq_some, String.append_left_inj]
      constructor
      · exact fun h => h.2.symm
      · rintro rfl
        exact ⟨(isFileName_of_isName hname).1, rfl⟩
  · have hname : isName name = false := by
      rw [← Bool.not_eq_true, isName_iff]
      exact hnameable
    have hfile : fileOf directory name = .error (.settings (.badScriptName name)) := by
      rw [fileOf, hname, if_neg Bool.false_ne_true]
    have hsave : save files directory name script =
        (files, .error (.settings (.badScriptName name))) := by rw [save, hfile]
    have hdelete : delete files directory name = .error (.settings (.badScriptName name)) := by
      rw [delete, hfile]
      rfl
    exact ⟨iff_of_true ⟨_, congrArg (·.2) hsave, rfl⟩ hnameable,
      iff_of_true ⟨_, hdelete, rfl⟩ hnameable, fun _ => ⟨hsave, hdelete⟩,
      fun h => absurd h hnameable⟩

/-- A tree in which no script was saved yet. -/
def blank : Files := {}

theorem script_names_confined_dots :
    ¬ Nameable "../x" ∧ delete blank (Path.ofString "data") "../x" =
        .error (.settings (.badScriptName "../x")) ∧
      Nameable ".." ∧ SaveEnds blank (Path.ofString "data") ".." "SEND a"
        (save blank (Path.ofString "data") ".." "SEND a") ∧
      (save blank (Path.ofString "data") ".." "SEND a").2.toOption =
        some ((Path.ofString "data").entry "...txt") := by
  have hrefused : ¬ Nameable "../x" := by
    rw [← isName_iff]
    decide
  have hdots : Nameable ".." := isName_iff.1 (by decide)
  obtain ⟨_, _, hbad, _⟩ := script_names_confined blank (Path.ofString "data") "../x" "SEND a"
  obtain ⟨_, _, _, hgood⟩ := script_names_confined blank (Path.ofString "data") ".." "SEND a"
  exact ⟨hrefused, (hbad hrefused).2, hdots, (hgood hdots).2.1, by decide⟩

/-- A line feed behind a name is let through and comes to stand in the name of the file. -/
theorem line_feed_let_through :
    ¬ Proper "x\n".toList ∧
      (save blank (Path.ofString "data") "x\n" "SEND a").2.toOption =
        some ((Path.ofString "data").entry "x\n.txt") ∧
      (delete blank (Path.ofString "data") "x\n").toOption.isSome = true := by
  refine ⟨fun hproper => not_listed_newline (hproper.2 '\n' (by decide)), ?_, ?_⟩
  · decide
  · decide

end SerialConsole.Script.Library
