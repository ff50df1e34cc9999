import SerialConsole.CommandLine.Execution
import SerialConsole.Proofs.Files.Tree
import SerialConsole.Proofs.Text.Utf8
import SerialConsole.Proofs.Yaml.Making

set_option autoImplicit false

/-!
# Files that cannot be used

A file that cannot be used should end in a fault of the console's own families, which a command
prints. The theorem says for all files when a fault of another family comes out instead
(`Escapes`): the bytes are not UTF-8, the document of the settings has a flaw that no rule names, or
the path is too long to be looked up.
-/
namespace SerialConsole

/-- The result is a fault of a foreign family, which nothing reports. -/
def Escapes {α : Type} (result : Except Fault α) : Prop :=
  ∃ fault, result = .error fault ∧ fault.isOwn = false

theorem escapes_ok {α : Type} {value : α} : ¬ Escapes (.ok value) :=
  fun ⟨_, h, _⟩ => by cases h

theorem escapes_error {α : Type} {fault : Fault} :
    Escapes (.error fault : Except Fault α) ↔ fault.isOwn = false :=
  ⟨fun ⟨_, h, hforeign⟩ => by cases h; exact hforeign, fun h => ⟨fault, rfl, h⟩⟩

instance {α : Type} (result : Except Fault α) : Decidable (Escapes result) :=
  match result with
  | .ok _ => isFalse escapes_ok
  | .error _ => decidable_of_iff _ escapes_error.symm

namespace Files

variable {files : Files} {path : Path} {role : FileRole}

/-! ## Looking up -/

theorem follow_problem {root : Entry} {place names : List String} {problem : FileProblem}
    (h : follow root place names = .error problem) : isAbsence problem = true ∨ problem = .nameTooLong := by
  induction names generalizing place with
  | nil => cases h
  | cons name rest ih =>
    rw [follow] at h
    split at h
    case h_1 => cases h; exact Or.inl rfl
    case h_2 => cases h; exact Or.inl rfl
    case h_3 =>
      split at h
      case isTrue => exact ih h
      case isFalse =>
        split at h
        case isTrue => cases h; exact Or.inr rfl
        case isFalse =>
          split at h
          case isTrue => exact ih h
          case isFalse => cases h; exact Or.inl rfl

theorem find_problem {problem : FileProblem} (h : files.find path = .error problem) :
    isAbsence problem = true ∨ problem = .nameTooLong := by
  unfold find locate at h
  split at h
  case isTrue =>
    cases h
    exact Or.inr rfl
  case isFalse =>
    cases hplace : follow files.root (if path.isAbsolute then [] else files.working) path.parts with
    | error met =>
      rw [hplace] at h
      cases h
      exact follow_problem hplace
    | ok place =>
      rw [hplace] at h
      simp only [bind, Except.bind] at h
      split at h
      case h_1 => cases h
      case h_2 => cases h; exact Or.inl rfl

theorem isOwn_fault (path : Path) (problem : FileProblem) : (fault path problem).isOwn = false := by
  cases problem <;> rfl

theorem exists?_escapes : Escapes (files.exists? path) ↔ files.find path = .error .nameTooLong := by
  unfold exists?
  cases hfind : files.find path with
  | ok entry => exact iff_of_false escapes_ok nofun
  | error problem =>
    simp only
    rcases find_problem hfind with habsent | rfl
    · rw [if_pos habsent]
      refine iff_of_false escapes_ok ?_
      rintro ⟨⟩
      cases habsent
    · exact iff_of_true (escapes_error.2 (isOwn_fault _ _)) rfl

theorem exists?_of_file {bytes : Bytes} (h : files.find path = .ok (.file bytes)) :
    files.exists? path = .ok true := by
  rw [exists?, h]

/-! ## Loading -/

/-- The path leads to a file whose bytes are not UTF-8. -/
def Undecodable (files : Files) (path : Path) : Prop :=
  ∃ bytes, files.find path = .ok (.file bytes) ∧ ∀ text, bytes ≠ Utf8.encode text

theorem readText_file {bytes : Bytes} (h : files.find path = .ok (.file bytes)) :
    files.readText path = match Utf8.decode bytes with
      | .ok text => .ok (String.ofList (Text.unifyLineEnds text))
      | .error flaw => .error (.badBytes flaw) := by
  rw [readText, readBytes, h]
  rfl

theorem load_encoded {text : List Char} (h : files.find path = .ok (.file (Utf8.encode text))) :
    files.load role path = .ok (String.ofList (Text.unifyLineEnds text)) := by
  rw [load, readText_file h, Utf8.decode_eq_ok.2 rfl]
  rfl

/-- How loading can end: with the text of the file, with a fault that says what was to be done, or
with the flaw of bytes that are not UTF-8. -/
theorem load_cases (files : Files) (role : FileRole) (path : Path) :
    (∃ text, files.find path = .ok (.file (Utf8.encode text)) ∧
        files.load role path = .ok (String.ofList (Text.unifyLineEnds text))) ∨
      (∃ cause, files.load role path = .error (.fileRefused role path.text cause) ∧
        ∀ bytes, files.find path ≠ .ok (.file bytes)) ∨
      files.Undecodable path ∧ ∃ flaw, files.load role path = .error (.badBytes flaw) := by
  have hrefused : ∀ problem, files.readText path = .error (fault path problem) →
      files.load role path = .error (.fileRefused role path.text (fault path problem)) := by
    intro problem hread
    rw [load, hread]
    exact congrArg Except.error (if_pos (isSystem_fault path problem))
  cases hfind : files.find path with
  | error problem =>
    refine Or.inr (Or.inl ⟨_, hrefused problem ?_, fun _ h => (by cases h)⟩)
    rw [readText, readBytes, hfind]
    rfl
  | ok entry =>
    cases entry with
    | directory entries =>
      refine Or.inr (Or.inl ⟨_, hrefused .isADirectory ?_, fun _ h => (by cases h)⟩)
      rw [readText, readBytes, hfind]
      rfl
    | file bytes =>
      cases hdecode : Utf8.decode bytes with
      | ok text =>
        obtain rfl := Utf8.decode_eq_ok.1 hdecode
        exact Or.inl ⟨text, rfl, load_encoded hfind⟩
      | error flaw =>
        refine Or.inr (Or.inr ⟨⟨bytes, hfind, fun text heq => ?_⟩, flaw, ?_⟩)
        · rw [Utf8.decode_eq_ok.2 heq] at hdecode
          cases hdecode
        · rw [load, readText_file hfind, hdecode]
          rfl

theorem load_eq_ok {script : String} : files.load role path = .ok script ↔
    ∃ text, files.find path = .ok (.file (Utf8.encode text)) ∧
      script = String.ofList (Text.unifyLineEnds text) := by
  constructor
  · intro h
    rcases load_cases files role path with ⟨text, hfind, hload⟩ | ⟨_, hload, _⟩ | ⟨_, _, hload⟩
    · rw [hload] at h
      cases h
      exact ⟨text, hfind, rfl⟩
    · rw [hload] at h
      cases h
    · rw [hload] at h
      cases h
  · rintro ⟨text, hfind, rfl⟩
    exact load_encoded hfind

theorem load_escapes : Escapes (files.load role path) ↔ files.Undecodable path := by
  rcases load_cases files role path with ⟨text, hfind, hload⟩ | ⟨_, hload, hnone⟩ | ⟨hbad, _, hload⟩
  · rw [hload]
    refine iff_of_false escapes_ok fun ⟨bytes, hbytes, hbad⟩ => hbad text ?_
    rw [hfind] at hbytes
    cases hbytes
    rfl
  · rw [hload]
    exact iff_of_false (fun h => nomatch escapes_error.1 h) fun ⟨bytes, hbytes, _⟩ => hnone bytes hbytes
  · rw [hload]
    exact iff_of_true (escapes_error.2 rfl) hbad

end Files

/-! ## Scripts -/

namespace Script.Library

variable {files : Files} {directory : Path} {library : Library} {names : List String}

/-- The first file of a script that is not a text ends the loading of the scripts. -/
def Blocked (files : Files) (directory : Path) (names : List String) : Prop :=
  ∃ before file after, names = before ++ file :: after ∧ (nameOfFile? file).isSome = true ∧
    files.Undecodable (directory.child file) ∧
    ∀ other ∈ before, (nameOfFile? other).isSome = true →
      ∃ text, files.find (directory.child other) = .ok (.file (Utf8.encode text))

theorem blocked_nil : ¬ Blocked files directory [] := by
  rintro ⟨before, file, after, hnames, _⟩
  cases before <;> cases hnames

/-- What the files behind the first one have to do with it. -/
theorem blocked_cons {file : String} : Blocked files directory (file :: names) ↔
    ((nameOfFile? file).isSome = true ∧ files.Undecodable (directory.child file)) ∨
      ((nameOfFile? file).isSome = true →
        ∃ text, files.find (directory.child file) = .ok (.file (Utf8.encode text))) ∧
      Blocked files directory names := by
  constructor
  · rintro ⟨before, found, after, hnames, hscript, hbad, hbefore⟩
    cases before with
    | nil =>
      cases hnames
      exact Or.inl ⟨hscript, hbad⟩
    | cons first before =>
      cases hnames
      exact Or.inr ⟨hbefore _ List.mem_cons_self, before, found, after, rfl, hscript, hbad,
        fun other hother => hbefore other (List.mem_cons_of_mem _ hother)⟩
  · rintro (⟨hscript, hbad⟩ | ⟨hfirst, before, found, after, rfl, hscript, hbad, hbefore⟩)
    · exact ⟨[], file, names, rfl, hscript, hbad, nofun⟩
    · exact ⟨file :: before, found, after, rfl, hscript, hbad, fun other hother =>
        (List.mem_cons.1 hother).elim (fun hsame => hsame ▸ hfirst) (hbefore other)⟩

theorem loadFrom_escapes :
    Escapes (loadFrom files directory library names).2 ↔ Blocked files directory names := by
  induction names generalizing library with
  | nil => exact iff_of_false escapes_ok blocked_nil
  | cons file rest ih =>
    rw [loadFrom, blocked_cons]
    cases hname : nameOfFile? file with
    | none => simpa using ih
    | some name =>
      simp only [Option.isSome_some, true_and, forall_const]
      rcases Files.load_cases files .readScript (directory.child file) with
        ⟨text, hfind, hload⟩ | ⟨_, hload, hnone⟩ | ⟨hbad, _, hload⟩
      · have hgood : ¬ files.Undecodable (directory.child file) := fun hbad =>
          escapes_ok (hload ▸ Files.load_escapes.2 hbad)
        simp only [hload, hgood, false_or]
        exact ih.trans ⟨fun h => ⟨⟨text, hfind⟩, h⟩, And.right⟩
      · have hgood : ¬ files.Undecodable (directory.child file) := fun ⟨bytes, hbytes, _⟩ =>
          hnone bytes hbytes
        simp only [hload, hgood, false_or]
        exact iff_of_false (fun h => nomatch escapes_error.1 h) fun ⟨⟨_, hfind⟩, _⟩ => hnone _ hfind
      · simp only [hload, hbad, true_or, iff_true]
        exact escapes_error.2 rfl

theorem load_escapes : Escapes (load files directory).2 ↔
    files.find directory = .error .nameTooLong ∨
      ∃ names, files.list? directory = some names ∧ Blocked files directory names := by
  rw [← Files.exists?_escapes, load]
  cases hthere : files.exists? directory with
  | error fault =>
    have hfind : ∀ names, files.list? directory ≠ some names := by
      intro names hlist
      unfold Files.list? at hlist
      unfold Files.exists? at hthere
      split at hlist
      case h_1 entries hfind =>
        rw [hfind] at hthere
        cases hthere
      case h_2 => cases hlist
    simp [hfind, escapes_error]
  | ok there =>
    simp only [escapes_ok, false_or]
    rw [loadFrom_escapes]
    cases files.list? directory with
    | none => simp [blocked_nil]
    | some names => simp

end Script.Library

/-! ## Settings -/

namespace Settings

variable {files : Files} {path : Path} {source text : String}

theorem isOwn_flawFault (source : String) (flaw : Yaml.Flaw) :
    (flawFault source flaw).isOwn = flaw.kind.isOwn := by
  cases flaw <;> rfl

theorem checked_escapes {document : Yaml.Document} : ¬ Escapes (checked source document) := by
  unfold checked
  split
  case h_1 => exact fun h => nomatch escapes_error.1 h
  case h_2 =>
    simp only
    split
    case h_1 => exact fun h => nomatch escapes_error.1 h
    case h_2 => exact escapes_ok

theorem ofText_escapes : Escapes (ofText source text) ↔
    ∃ flaw, Yaml.Document.ofText text.toList = .error flaw ∧ flaw.kind.isOwn = false := by
  unfold ofText
  cases hdocument : Yaml.Document.ofText text.toList with
  | error flaw => simp [escapes_error, isOwn_flawFault]
  | ok document =>
    refine iff_of_false ?_ nofun
    simp only
    split
    case isTrue => exact escapes_ok
    case isFalse =>
      split
      case isTrue => exact fun h => nomatch escapes_error.1 h
      case isFalse => exact checked_escapes

/-- The path leads to a text with a flaw that is not reported as one of the settings. -/
def Unreported (files : Files) (path : Path) : Prop :=
  ∃ text flaw, files.find path = .ok (.file (Utf8.encode text)) ∧
    Yaml.Document.ofText (Text.unifyLineEnds text) = .error flaw ∧ flaw.kind.isOwn = false

theorem Unreported.suspect (h : Unreported files path) :
    ∃ text, files.find path = .ok (.file (Utf8.encode text)) ∧
      Yaml.Suspect (Text.unifyLineEnds text) := by
  obtain ⟨text, flaw, hfind, hflaw, hforeign⟩ := h
  exact ⟨text, hfind, Yaml.Document.suspect_of_error hflaw hforeign⟩

theorem file_of_bad (h : files.Undecodable path ∨ Unreported files path) :
    ∃ bytes, files.find path = .ok (.file bytes) := by
  rcases h with ⟨bytes, hfind, _⟩ | ⟨_, _, hfind, _⟩ <;> exact ⟨_, hfind⟩

theorem load_escapes : Escapes (load files path) ↔
    files.find path = .error .nameTooLong ∨ files.Undecodable path ∨ Unreported files path := by
  rw [← Files.exists?_escapes, load]
  simp only [bind, Except.bind]
  cases hthere : files.exists? path with
  | error fault =>
    refine escapes_error.trans ⟨fun h => Or.inl (escapes_error.2 h), ?_⟩
    rintro (h | hbad)
    · exact escapes_error.1 h
    · obtain ⟨bytes, hfind⟩ := file_of_bad hbad
      rw [Files.exists?_of_file hfind] at hthere
      cases hthere
  | ok there =>
    simp only [escapes_ok, false_or]
    cases there with
    | false =>
      refine iff_of_false escapes_ok fun hbad => ?_
      obtain ⟨bytes, hfind⟩ := file_of_bad hbad
      rw [Files.exists?_of_file hfind] at hthere
      cases hthere
    | true =>
      rw [if_pos rfl]
      rcases Files.load_cases files .readSettings path with
        ⟨text, hfind, hload⟩ | ⟨_, hload, hnone⟩ | ⟨hbad, _, hload⟩
      · have hgood : ¬ files.Undecodable path := fun hbad =>
          escapes_ok (hload ▸ Files.load_escapes.2 hbad)
        simp only [hload, ofText_escapes, String.toList_ofList, hgood, false_or]
        constructor
        · rintro ⟨flaw, hflaw, hforeign⟩
          exact ⟨text, flaw, hfind, hflaw, hforeign⟩
        · rintro ⟨other, flaw, hother, hflaw, hforeign⟩
          rw [hfind] at hother
          obtain rfl : text = other := Utf8.encode_injective (by simpa using hother)
          exact ⟨flaw, hflaw, hforeign⟩
      · simp only [hload]
        refine iff_of_false (fun h => nomatch escapes_error.1 h) fun hbad => ?_
        obtain ⟨bytes, hfind⟩ := file_of_bad hbad
        exact hnone _ hfind
      · simp only [hload, hbad, true_or, iff_true]
        exact escapes_error.2 rfl

end Settings

/-! ## Commands -/

/-- Faults that reading files can end in. -/
def Fault.IsOfFiles : Fault → Prop
  | .settings _ | .fileRefused _ _ _ | .file _ _ | .badBytes _ | .document _ => True
  | _ => False

theorem Fault.IsOfFiles.not_interrupt {fault : Fault} (h : fault.IsOfFiles) :
    fault.kind ≠ .interrupt := by
  cases fault with
  | settings problem => exact nofun
  | fileRefused role path cause => exact nofun
  | file problem path => cases problem <;> exact nofun
  | badBytes flaw => exact nofun
  | document flaw => cases flaw <;> exact nofun
  | _ => exact h.elim

section

variable {files : Files} {path : Path} {fault : Fault}

theorem Files.isOfFiles_exists? (h : files.exists? path = .error fault) : fault.IsOfFiles := by
  unfold Files.exists? at h
  split at h
  case h_1 => cases h
  case h_2 =>
    split at h
    case isTrue => cases h
    case isFalse => cases h; exact trivial

theorem Files.isOfFiles_load {role : FileRole} (h : files.load role path = .error fault) :
    fault.IsOfFiles := by
  rcases Files.load_cases files role path with ⟨_, _, hload⟩ | ⟨_, hload, _⟩ | ⟨_, _, hload⟩
  all_goals
    rw [hload] at h
    cases h
  · exact trivial
  · exact trivial

theorem Settings.isOfFiles_ofText {source text : String} (h : ofText source text = .error fault) :
    fault.IsOfFiles := by
  unfold ofText checked at h
  split at h
  case h_1 flaw _ => cases h; cases flaw <;> exact trivial
  case h_2 =>
    split at h
    case isTrue => cases h
    case isFalse =>
      split at h
      case isTrue => cases h; exact trivial
      case isFalse =>
        split at h
        case h_1 => cases h; exact trivial
        case h_2 =>
          simp only at h
          split at h
          case h_1 => cases h; exact trivial
          case h_2 => cases h

theorem Settings.isOfFiles_load (h : load files path = .error fault) : fault.IsOfFiles := by
  unfold load at h
  simp only [bind, Except.bind] at h
  split at h
  case h_1 hlooked => cases h; exact Files.isOfFiles_exists? hlooked
  case h_2 =>
    split at h
    case isFalse => cases h
    case isTrue =>
      split at h
      case h_1 hread => cases h; exact Files.isOfFiles_load hread
      case h_2 => exact isOfFiles_ofText h

theorem Script.Library.isOfFiles_loadFrom {library : Library} {names : List String}
    (h : (loadFrom files path library names).2 = .error fault) : fault.IsOfFiles := by
  induction names generalizing library with
  | nil => cases h
  | cons file rest ih =>
    rw [loadFrom] at h
    split at h
    case h_1 => exact ih h
    case h_2 =>
      simp only at h
      split at h
      case h_1 hread => cases h; exact Files.isOfFiles_load hread
      case h_2 => exact ih h

theorem Script.Library.isOfFiles_load (h : (load files path).2 = .error fault) :
    fault.IsOfFiles := by
  unfold load at h
  split at h
  case h_1 hlooked => cases h; exact Files.isOfFiles_exists? hlooked
  case h_2 => exact isOfFiles_loadFrom h

end

namespace Workplace

variable {w opened : Workplace} {fault : Fault}

/-- Opening a console ends in the fault of the settings or else in that of the scripts. -/
theorem openConsole_refused (h : w.openConsole none = (opened, .error fault)) :
    Settings.load w.files w.places.settings = .error fault ∨
      (∃ settings, Settings.load w.files w.places.settings = .ok settings) ∧
        (Script.Library.load w.files w.places.scripts).2 = .error fault := by
  unfold openConsole loadScripts at h
  simp only at h
  cases hsettings : Settings.load w.files w.places.settings with
  | error met =>
    rw [hsettings] at h
    cases h
    exact Or.inl rfl
  | ok settings =>
    rw [hsettings] at h
    refine Or.inr ⟨⟨settings, rfl⟩, ?_⟩
    generalize Script.Library.load w.files w.places.scripts = loaded at h
    obtain ⟨warnings, result⟩ := loaded
    cases result with
    | ok library => cases h
    | error met => cases h; rfl

end Workplace

namespace CommandLine

theorem withConsole_refused {w opened : Workplace} {fault : Fault}
    (h : w.openConsole none = (opened, .error fault)) (go : Workplace → Console → Report → Outcome) :
    withConsole w go = (opened,
      if fault.isOwn then { exit := 1, err := ["Error: " ++ fault.message] }
      else { exit := 1, fault := some fault }) := by
  have hoffiles : fault.IsOfFiles := by
    rcases Workplace.openConsole_refused h with hsettings | ⟨_, hscripts⟩
    · exact Settings.isOfFiles_load hsettings
    · exact Script.Library.isOfFiles_load hscripts
  rw [withConsole, h]
  simp only [Report.failWith, hoffiles.not_interrupt, if_false]
  rfl

/-- A workplace whose settings file and only saved script are not UTF-8. -/
def garbled : Workplace :=
  { files :=
      { root := .directory [("home", .directory [
          ("cfg", .directory [("serterm", .directory [
            ("settings.yaml", .file [0x70, 0x6F, 0x72, 0x74, 0x3A, 0x20, 0xFF, 0x0A])])]),
          ("data", .directory [("serterm", .directory [("scripts", .directory [
            ("bad.txt", .file [0x53, 0xFF])])])])])] }
    places := ⟨Path.ofString "cfg", Path.ofString "data"⟩ }

end CommandLine

end SerialConsole
