import SerialConsole.Proofs.Files.Tree
import SerialConsole.Proofs.Text.Utf8
import SerialConsole.Script.Library

set_option autoImplicit false

/-!
# Saved scripts

What loading gives: the scripts that come with the program, with those of the operator's files laid
over them. The name of a script and the name of its file determine each other.
-/
namespace SerialConsole

namespace Script.Library

variable {library : Library} {name other file script : String}

/-! ## Names -/

theorem splitName_suffix {stem : List Char} (h : stem ≠ []) :
    Path.splitName (stem ++ suffix) = (stem, suffix) := by
  unfold Path.splitName
  simp [suffix, h]

theorem splitName_eq_suffix {text stem : List Char} (h : Path.splitName text = (stem, suffix)) :
    stem ≠ [] ∧ text = stem ++ suffix := by
  have hsplit := List.takeWhile_append_dropWhile (p := (· != '.')) (l := text.reverse)
  have hhead := List.head?_dropWhile_not (· != '.') text.reverse
  unfold Path.splitName at h
  generalize text.reverse.takeWhile (· != '.') = after at h hsplit
  generalize text.reverse.dropWhile (· != '.') = before at hsplit hhead
  simp only at h
  split at h
  case isTrue => simp [suffix] at h
  case isFalse hnamed =>
    obtain ⟨hstem, hafter⟩ := Prod.mk.inj h
    obtain rfl : after = ['t', 'x', 't'] := by simpa [suffix] using hafter
    cases before with
    | nil =>
      have hlength := congrArg List.length hsplit
      simp at hlength
      simp [← hlength] at hnamed
    | cons c rest =>
      obtain rfl : c = '.' := by simpa using hhead
      have htext : text = rest.reverse ++ suffix := by
        rw [← List.reverse_reverse text, ← hsplit]
        simp [suffix]
      subst htext
      simp [suffix] at hstem hnamed
      exact ⟨by simpa [← hstem] using hnamed, by rw [← hstem]⟩

/-- The file of a script has its name and the suffix; a file that has only the suffix is none. -/
theorem nameOfFile?_eq_some :
    nameOfFile? file = some name ↔ name ≠ "" ∧ file = name ++ String.ofList suffix := by
  unfold nameOfFile?
  constructor
  · intro h
    simp only at h
    split at h
    case isFalse => cases h
    case isTrue hsuffix =>
      cases h
      obtain ⟨hstem, htext⟩ := splitName_eq_suffix (Prod.ext rfl hsuffix)
      refine ⟨by simpa using hstem, String.toList_inj.1 ?_⟩
      simpa using htext
  · rintro ⟨hname, rfl⟩
    have hstem : name.toList ≠ [] := by simpa using hname
    simp [splitName_suffix hstem]

theorem isFileName_suffix (h : '/' ∉ (name ++ String.ofList suffix).toList) :
    Path.IsFileName (name ++ String.ofList suffix) := by
  have hlong : ∀ other : String, other.toList.length < 4 → name ++ String.ofList suffix ≠ other := by
    rintro other hshort rfl
    rw [String.toList_append, List.length_append, String.toList_ofList] at hshort
    have hsize : suffix.length = 4 := rfl
    omega
  exact ⟨h, hlong _ (by decide), hlong _ (by decide), hlong _ (by decide)⟩

/-- A name that a script can be saved under makes the name of a file. -/
theorem isFileName_of_isName (h : isName name = true) :
    name ≠ "" ∧ Path.IsFileName (name ++ String.ofList suffix) := by
  unfold isName at h
  simp only [Bool.and_eq_true, Bool.not_eq_true', List.isEmpty_eq_false_iff, List.all_eq_true] at h
  obtain ⟨hsome, hchars⟩ := h
  have hname : name ≠ "" := by
    rintro rfl
    simp at hsome
  have hslash : '/' ∉ name.toList := by
    intro hmem
    refine Bool.false_ne_true (hchars '/' ?_)
    split
    case isFalse => exact hmem
    case isTrue hline =>
      have hlast : name.toList.getLast? = some '\n' := by simpa using hline
      rw [List.getLast?_eq_some_iff] at hlast
      obtain ⟨before, hbefore⟩ := hlast
      rw [hbefore] at hmem ⊢
      simpa using hmem
  exact ⟨hname, isFileName_suffix (by simpa [suffix] using hslash)⟩

/-! ## Libraries -/

theorem find?_put : (library.put name script).find? other =
    if other = name then some script else library.find? other := by
  have hcontains : library.contains name = library.scripts.any fun s => s.1 = name := by
    rw [contains, find?, Option.isSome_map, Bool.eq_iff_iff, List.find?_isSome, List.any_eq_true]
  unfold put find?
  rw [← Keyed.find?_put, hcontains]
  split <;> rfl

/-! ## The files of the operator's scripts -/

/-- The text of an entry that can be read as one. -/
def textOf? : SerialConsole.Entry → Option String
  | .file bytes =>
    match Utf8.decode bytes with
    | .ok text => some (String.ofList (Text.unifyLineEnds text))
    | .error _ => none
  | .directory _ => none

/-- The script of the operator's that some entries of a directory hold under a name. -/
def own? (entries : List (String × SerialConsole.Entry)) (name : String) : Option String :=
  if name = "" then none
  else ((Entry.directory entries).child? (name ++ String.ofList suffix)).bind textOf?

/-- Whether the operator has a file for a script. -/
def hasFile (entries : List (String × SerialConsole.Entry)) (name : String) : Bool :=
  ((Entry.directory entries).child? (name ++ String.ofList suffix)).isSome

theorem own?_eq_none {entries : List (String × SerialConsole.Entry)} (h : hasFile entries name = false) :
    own? entries name = none := by
  unfold hasFile at h
  unfold own?
  cases hchild : (Entry.directory entries).child? (name ++ String.ofList suffix) with
  | none => simp
  | some inner => simp [hchild] at h

theorem own?_setIn {entries : List (String × SerialConsole.Entry)} {new : Option SerialConsole.Entry} (h : name ≠ "") :
    own? (Entry.setIn entries (name ++ String.ofList suffix) new) other =
      if other = name then new.bind textOf? else own? entries other := by
  unfold own?
  rw [Entry.child?_setIn]
  by_cases hsame : other = name
  · simp [hsame, h]
  · have hfile : other ++ String.ofList suffix ≠ name ++ String.ofList suffix := fun heq =>
      hsame (String.append_left_inj _ |>.1 heq)
    rw [if_neg hsame, if_neg hfile]

theorem unifyLineEnds_eq {text : List Char} (h : '\r' ∉ text) : Text.unifyLineEnds text = text := by
  induction text using Text.unifyLineEnds.induct with
  | case1 => rfl
  | case2 rest ih => simp at h
  | case3 rest hnext ih => simp at h
  | case4 c rest hpair hlone ih =>
    have hrest : '\r' ∉ rest := fun hmem => h (List.mem_cons_of_mem c hmem)
    rw [Text.unifyLineEnds, ih hrest]
    · exact hpair
    · exact hlone

theorem textOf?_file (text : List Char) :
    textOf? (.file (Utf8.encode text)) = some (String.ofList (Text.unifyLineEnds text)) := by
  rw [textOf?, Utf8.decode_eq_ok.2 rfl]

theorem textOf?_encode {script : String} (h : '\r' ∉ script.toList) :
    textOf? (.file (Utf8.encode script.toList)) = some script := by
  rw [textOf?_file, unifyLineEnds_eq h, String.ofList_toList]

/-! ## Loading -/

variable {files : Files} {directory : Path} {entries : List (String × SerialConsole.Entry)}

/-- What comes of loading the text of an entry. -/
theorem load_entry (h : files.find directory = .ok (.directory entries)) (hfile : file ≠ "..")
    {role : FileRole} : files.load role (directory.entry file) = .ok script ↔
      Files.Fits directory file ∧
        ((Entry.directory entries).child? file).bind textOf? = some script := by
  unfold Files.load Files.readText Files.readBytes
  rw [Files.mapError_eq_ok, Files.find_entry h hfile]
  by_cases hfits : Files.Fits directory file
  · rw [if_pos hfits]
    cases hchild : (Entry.directory entries).child? file with
    | none => simp [bind, Except.bind]
    | some inner =>
      cases inner with
      | directory below => simp [bind, Except.bind, textOf?]
      | file bytes =>
        cases hdecode : Utf8.decode bytes <;>
          simp [bind, Except.bind, textOf?, hdecode, hfits]
  · simp [hfits, bind, Except.bind]

/-- Whether all scripts among some entries of a directory can be read. -/
def Readable (directory : Path) (entries : List (String × SerialConsole.Entry)) : Prop :=
  ∀ e ∈ entries, (nameOfFile? e.1).isSome = true →
    Files.Fits directory e.1 ∧ (textOf? e.2).isSome = true

/-- Names of entries as a system has them. -/
def Named (entries : List (String × SerialConsole.Entry)) : Prop :=
  (entries.map (·.1)).Nodup ∧ ∀ e ∈ entries, '/' ∉ e.1.toList

theorem loadFrom_cons (library : Library) (file : String) (rest : List String) :
    loadFrom files directory library (file :: rest) =
      match nameOfFile? file with
      | none => loadFrom files directory library rest
      | some name =>
        let warning := if library.contains name then [overrideWarning name] else []
        match files.load .readScript (directory.child file) with
        | .error fault => (warning, .error fault)
        | .ok script =>
          let (warnings, result) := loadFrom files directory (library.put name script) rest
          (warning ++ warnings, result) := rfl

theorem loadFrom_other {rest : List String} (hname : nameOfFile? file = none) :
    loadFrom files directory library (file :: rest) = loadFrom files directory library rest := by
  rw [loadFrom_cons, hname]

theorem loadFrom_unread {rest : List String} {fault : Fault} (hname : nameOfFile? file = some name)
    (hload : files.load .readScript (directory.child file) = .error fault) :
    loadFrom files directory library (file :: rest) =
      (if library.contains name then [overrideWarning name] else [], .error fault) := by
  rw [loadFrom_cons, hname]
  simp only [hload]

theorem loadFrom_read {rest : List String} (hname : nameOfFile? file = some name)
    (hload : files.load .readScript (directory.child file) = .ok script) :
    loadFrom files directory library (file :: rest) =
      ((if library.contains name then [overrideWarning name] else []) ++
          (loadFrom files directory (library.put name script) rest).1,
        (loadFrom files directory (library.put name script) rest).2) := by
  rw [loadFrom_cons, hname]
  simp only [hload]

section

variable (hfind : files.find directory = .ok (.directory entries)) (hnamed : Named entries)
include hfind hnamed

/-- The script in a file of the directory. -/
theorem load_file {e : String × SerialConsole.Entry} (he : e ∈ entries) (hname : nameOfFile? e.1 = some name) :
    files.load .readScript (directory.child e.1) = .ok script ↔
      Files.Fits directory e.1 ∧ textOf? e.2 = some script := by
  obtain ⟨-, hfile⟩ := nameOfFile?_eq_some.1 hname
  have hplain : Path.IsFileName e.1 := by
    rw [hfile]
    exact isFileName_suffix (hfile ▸ hnamed.2 e he)
  rw [Path.child_fileName directory hplain, load_entry hfind hplain.2.2.2,
    Entry.child?_of_mem hnamed.1 he, Option.bind_some]

omit hfind in
theorem own?_of_mem {e : String × SerialConsole.Entry} (he : e ∈ entries) (hname : nameOfFile? e.1 = some name) :
    own? entries name = textOf? e.2 := by
  obtain ⟨hsome, hfile⟩ := nameOfFile?_eq_some.1 hname
  rw [own?, if_neg hsome, ← hfile, Entry.child?_of_mem hnamed.1 he, Option.bind_some]

theorem readable_of_loadFrom {names : List String} {loaded : Library}
    (h : (loadFrom files directory library names).2 = .ok loaded) {e : String × SerialConsole.Entry}
    (he : e ∈ entries) (hmem : e.1 ∈ names) (hscript : (nameOfFile? e.1).isSome = true) :
    Files.Fits directory e.1 ∧ (textOf? e.2).isSome = true := by
  induction names generalizing library with
  | nil => cases hmem
  | cons first rest ih =>
    cases hname : nameOfFile? first with
    | none =>
      rw [loadFrom_other hname] at h
      refine ih h ((List.mem_cons.1 hmem).resolve_left ?_)
      rintro rfl
      rw [hname] at hscript
      cases hscript
    | some name =>
      cases hload : files.load .readScript (directory.child first) with
      | error fault =>
        rw [loadFrom_unread hname hload] at h
        cases h
      | ok script =>
        rw [loadFrom_read hname hload] at h
        rcases List.mem_cons.1 hmem with rfl | hmem
        · obtain ⟨hfits, htext⟩ := (load_file hfind hnamed he hname).1 hload
          exact ⟨hfits, Option.isSome_iff_exists.2 ⟨script, htext⟩⟩
        · exact ih h hmem

/-- Loading some of the files lays their scripts over the library. -/
theorem loadFrom_ok (hreadable : Readable directory entries) {names : List String}
    (hnames : ∀ n ∈ names, n ∈ entries.map (·.1)) (hdistinct : names.Nodup) (library : Library) :
    ∃ loaded, loadFrom files directory library names =
        (((names.filterMap nameOfFile?).filter library.contains).map overrideWarning, .ok loaded) ∧
      ∀ name, loaded.find? name =
        if name ∈ names.filterMap nameOfFile? then own? entries name else library.find? name := by
  induction names generalizing library with
  | nil => exact ⟨library, rfl, fun name => by simp⟩
  | cons first rest ih =>
    obtain ⟨hfirst, hrest⟩ := List.nodup_cons.1 hdistinct
    have ih := ih (fun n hn => hnames n (List.mem_cons_of_mem _ hn)) hrest
    cases hname : nameOfFile? first with
    | none =>
      rw [List.filterMap_cons_none hname, loadFrom_other hname]
      exact ih library
    | some name =>
      obtain ⟨e, he, rfl⟩ := List.mem_map.1 (hnames first List.mem_cons_self)
      obtain ⟨hfits, htext⟩ := hreadable e he (by simp [hname])
      obtain ⟨script, hscript⟩ := Option.isSome_iff_exists.1 htext
      have hload := (load_file hfind hnamed he hname).2 ⟨hfits, hscript⟩
      have hnew : name ∉ rest.filterMap nameOfFile? := by
        intro hmem
        obtain ⟨other, hother, hsame⟩ := List.mem_filterMap.1 hmem
        rw [(nameOfFile?_eq_some.1 hname).2, ← (nameOfFile?_eq_some.1 hsame).2] at hfirst
        exact hfirst hother
      obtain ⟨loaded, hloaded, hfound⟩ := ih (library.put name script)
      have hwarned : (rest.filterMap nameOfFile?).filter (library.put name script).contains =
          (rest.filterMap nameOfFile?).filter library.contains := by
        refine List.filter_congr fun other hother => ?_
        have hne : other ≠ name := fun hsame => hnew (hsame ▸ hother)
        rw [contains, contains, find?_put, if_neg hne]
      rw [loadFrom_read hname hload, hloaded, hwarned, List.filterMap_cons_some hname]
      refine ⟨loaded, Prod.ext ?_ rfl, fun other => ?_⟩
      · cases hcontains : library.contains name <;> simp [hcontains]
      · rw [hfound, find?_put]
        by_cases hsame : other = name
        · rw [if_pos hsame, hsame, if_neg hnew, if_pos List.mem_cons_self,
            own?_of_mem hnamed he hname, hscript]
        · rw [if_neg hsame]
          simp only [List.mem_cons, hsame, false_or]

omit hfind in
/-- The operator has a script under the names that the files give, if all of them can be read. -/
theorem own?_isSome (hreadable : Readable directory entries) {names : List String}
    (hnames : ∀ n, n ∈ names ↔ n ∈ entries.map (·.1)) :
    (own? entries name).isSome = true ↔ name ∈ names.filterMap nameOfFile? := by
  rw [List.mem_filterMap]
  constructor
  · intro hown
    unfold own? at hown
    split at hown
    case isTrue => cases hown
    case isFalse hsome =>
      cases hchild : (Entry.directory entries).child? (name ++ String.ofList suffix) with
      | none => simp [hchild] at hown
      | some inner =>
        exact ⟨_, (hnames _).2 (List.mem_map.2 ⟨_, Entry.child?_mem hchild, rfl⟩),
          nameOfFile?_eq_some.2 ⟨hsome, rfl⟩⟩
  · rintro ⟨file, hfile, hname⟩
    obtain ⟨e, he, rfl⟩ := List.mem_map.1 ((hnames file).1 hfile)
    rw [own?_of_mem hnamed he hname]
    exact (hreadable e he (by simp [hname])).2

end

theorem own?_of_hasFile (hreadable : Readable directory entries) (hname : name ≠ "") :
    (own? entries name).isSome = hasFile entries name := by
  unfold own? hasFile
  rw [if_neg hname]
  cases hchild : (Entry.directory entries).child? (name ++ String.ofList suffix) with
  | none => rfl
  | some inner =>
    have hfile : nameOfFile? (name ++ String.ofList suffix) = some name :=
      nameOfFile?_eq_some.2 ⟨hname, rfl⟩
    exact (hreadable _ (Entry.child?_mem hchild) (by simp [hfile])).2

/-- The entries of a directory; none if there is no directory. -/
def entriesAt (files : Files) (directory : Path) : List (String × SerialConsole.Entry) :=
  match files.find directory with
  | .ok (.directory entries) => entries
  | _ => []

theorem entriesAt_eq (h : files.find directory = .ok (.directory entries)) :
    entriesAt files directory = entries := by
  rw [entriesAt, h]

theorem entriesAt_nil (h : files.isDirectory directory = false) : entriesAt files directory = [] := by
  unfold entriesAt
  split
  case h_1 entries hfind =>
    rw [Files.isDirectory_iff.2 ⟨entries, hfind⟩] at h
    cases h
  case h_2 => rfl

/-- The names of the scripts that come with the program. -/
def packagedNames : List String :=
  packaged.scripts.map (·.1)

/-- What loading gives when everything can be read: the scripts that come with the program and, over
them, the operator's. There is a warning for each script that is hidden. -/
structure Overlaid (entries : List (String × SerialConsole.Entry)) (warnings : List String) (loaded : Library) :
    Prop where
  find? : ∀ name, loaded.find? name = (own? entries name).or (packaged.find? name)
  warnings : warnings.Perm
    ((packagedNames.filter (hasFile entries)).map overrideWarning)

theorem contains_packaged : packaged.contains name = true ↔ name ∈ packagedNames := by
  rw [contains, find?, Option.isSome_map, List.find?_isSome, packagedNames, List.mem_map]
  simp

theorem sortOn_perm (names : List String) : (Text.sortOn id names).Perm names :=
  List.mergeSort_perm _ _

theorem nodup_names {names : List String} (h : names.Nodup) :
    (names.filterMap nameOfFile?).Nodup := by
  refine List.Pairwise.filterMap nameOfFile? (fun a b hne name ha other hb hsame => hne ?_) h
  rw [(nameOfFile?_eq_some.1 ha).2, (nameOfFile?_eq_some.1 hb).2, hsame]

theorem load_ok (hlooked : ∃ there, files.exists? directory = .ok there)
    (hnamed : Named (entriesAt files directory))
    (hreadable : Readable directory (entriesAt files directory)) :
    ∃ warnings loaded, load files directory = (warnings, .ok loaded) ∧
      Overlaid (entriesAt files directory) warnings loaded := by
  obtain ⟨there, hlooked⟩ := hlooked
  unfold load
  rw [hlooked]
  cases hdirectory : files.isDirectory directory with
  | false =>
    have hlist : files.list? directory = none := by
      unfold Files.list?
      split
      case h_1 entries hfind =>
        rw [Files.isDirectory_iff.2 ⟨entries, hfind⟩] at hdirectory
        cases hdirectory
      case h_2 => rfl
    rw [entriesAt_nil hdirectory, hlist]
    refine ⟨[], packaged, rfl, ⟨fun name => ?_, ?_⟩⟩
    · simp [own?, Entry.child?]
    · simp [hasFile, Entry.child?]
  | true =>
    obtain ⟨entries, hfind⟩ := Files.isDirectory_iff.1 hdirectory
    rw [entriesAt_eq hfind] at hnamed hreadable ⊢
    have hlist : files.list? directory = some (Text.sortOn id (entries.map (·.1))) := by
      rw [Files.list?, hfind]
    have hperm := sortOn_perm (entries.map (·.1))
    have hdistinct := hperm.nodup_iff.2 hnamed.1
    have hown : ∀ name, (own? entries name).isSome = true ↔ _ := fun name =>
      own?_isSome hnamed hreadable (fun n => hperm.mem_iff)
    obtain ⟨loaded, hloaded, hfound⟩ := loadFrom_ok hfind hnamed hreadable
      (fun n hn => hperm.mem_iff.1 hn) hdistinct packaged
    refine ⟨_, loaded, by simpa [hlist] using hloaded, ⟨fun name => ?_, ?_⟩⟩
    · rw [hfound]
      split
      case isTrue hmem =>
        obtain ⟨script, hscript⟩ := Option.isSome_iff_exists.1 ((hown name).2 hmem)
        rw [hscript, Option.some_or]
      case isFalse hmem =>
        have hnone : own? entries name = none := by
          rw [← Option.not_isSome_iff_eq_none]
          exact fun hsome => hmem ((hown name).1 hsome)
        rw [hnone, Option.none_or]
    · refine List.Perm.map _ ((List.perm_ext_iff_of_nodup ?_ ?_).2 fun name => ?_)
      · exact (nodup_names hdistinct).sublist List.filter_sublist
      · exact List.Nodup.sublist List.filter_sublist (by decide)
      · rw [List.mem_filter, List.mem_filter, contains_packaged, and_comm]
        refine and_congr_right fun hpackaged => ?_
        have hsome : name ≠ "" := by
          rintro rfl
          revert hpackaged
          decide
        rw [← own?_of_hasFile hreadable hsome, hown]

theorem readable_of_load {warnings : List String} {loaded : Library}
    (hnamed : Named (entriesAt files directory))
    (h : load files directory = (warnings, .ok loaded)) :
    (∃ there, files.exists? directory = .ok there) ∧
      Readable directory (entriesAt files directory) := by
  unfold load at h
  split at h
  case h_1 => cases h
  case h_2 there hlooked =>
    refine ⟨⟨there, hlooked⟩, ?_⟩
    cases hdirectory : files.isDirectory directory with
    | false =>
      rw [entriesAt_nil hdirectory]
      intro e he
      cases he
    | true =>
      obtain ⟨entries, hfind⟩ := Files.isDirectory_iff.1 hdirectory
      have hlist : files.list? directory = some (Text.sortOn id (entries.map (·.1))) := by
        rw [Files.list?, hfind]
      rw [hlist] at h
      rw [entriesAt_eq hfind] at hnamed ⊢
      exact fun e he => readable_of_loadFrom hfind hnamed (congrArg (·.2) h) he
        ((sortOn_perm _).mem_iff.2 (List.mem_map_of_mem he))

end Script.Library

end SerialConsole
