import SerialConsole.Proofs.Session.Restoring
import SerialConsole.Proofs.Settings.Tree
import SerialConsole.Proofs.Settings.Usable
import SerialConsole.Proofs.Yaml.Nodes

set_option autoImplicit false

/-!
# Documents that hold settings

A document that holds the tree of usable settings has the right form, and the settings that it gives
are these (`checked_of_isIn`): what was left out has no other value than the usual one.
-/
namespace SerialConsole.Settings

open Yaml Check

variable {objects : Objects} {value inner : Value} {key : String} {check : Check}
  {pairs : List (String × Tree)} {items : List Tree} {tree : Tree}

/-! ## Parts of trees -/

namespace Tree

theorem isIn_text {s : String} : (Tree.text s).isIn objects value = true ↔ value = .text s := by
  rw [isIn, beq_iff_eq]

theorem isIn_whole {n : Int} : (Tree.whole n).isIn objects value = true ↔ value = .int n := by
  rw [isIn, beq_iff_eq]

theorem areItems_iff {values : List Value} : areItems objects items values = true ↔
    List.Forall₂ (fun tree value => tree.isIn objects value = true) items values := by
  induction items generalizing values with
  | nil => cases values <;> simp [areItems]
  | cons item rest ih => cases values <;> simp [areItems, ih]

theorem arePairs_iff {kept : List (Value × Value)} : arePairs objects pairs kept = true ↔
    List.Forall₂ (fun pair made => made.1 = .text pair.1 ∧ pair.2.isIn objects made.2 = true)
      pairs kept := by
  induction pairs generalizing kept with
  | nil => cases kept <;> simp [arePairs]
  | cons pair rest ih => cases kept <;> simp [arePairs, ih, and_assoc]

theorem isIn_list : (Tree.list items).isIn objects value = true ↔
    ∃ values, value.items? objects = some values ∧
      List.Forall₂ (fun tree value => tree.isIn objects value = true) items values := by
  simp only [isIn, Option.any_eq_true, areItems_iff]

theorem isIn_mapping : (Tree.mapping pairs).isIn objects value = true ↔
    ∃ kept, value.pairs? objects = some kept ∧
      List.Forall₂ (fun pair made => made.1 = .text pair.1 ∧ pair.2.isIn objects made.2 = true)
        pairs kept := by
  simp only [isIn, Option.any_eq_true, arePairs_iff]

/-- The tree of a key. -/
def at? (pairs : List (String × Tree)) (key : String) : Option Tree :=
  (pairs.find? fun pair => pair.1 = key).map (·.2)

/-- What a mapping that holds some pairs has for a key. -/
theorem valueAt_of_isIn (h : (Tree.mapping pairs).isIn objects value = true) (key : String) :
    match at? pairs key with
    | some tree => ∃ inner, valueAt? objects value key = some inner ∧ tree.isIn objects inner = true
    | none => valueAt? objects value key = none := by
  obtain ⟨kept, hkept, hpairs⟩ := isIn_mapping.1 h
  simp only [valueAt?, hkept, Option.getD_some]
  clear h hkept
  induction hpairs with
  | nil => rfl
  | @cons pair first _ _ hfirst _ ih =>
    have hsame : first.1 = .text key ↔ pair.1 = key := by rw [hfirst.1, Value.text.injEq]
    by_cases hkey : pair.1 = key
    · rw [at?, List.find?_cons_of_pos (by simpa using hkey),
        List.find?_cons_of_pos (by simpa using hsame.2 hkey)]
      exact ⟨_, rfl, hfirst.2⟩
    · rw [at?, List.find?_cons_of_neg (by simpa using hkey),
        List.find?_cons_of_neg (by simpa using fun h => hkey (hsame.1 h))]
      exact ih

end Tree

section

variable (h : (Tree.mapping pairs).isIn objects value = true)
include h

theorem valueAt_of_some (hpart : Tree.at? pairs key = some tree) :
    ∃ inner, valueAt? objects value key = some inner ∧ tree.isIn objects inner = true := by
  have hvalue := Tree.valueAt_of_isIn h key
  rwa [hpart] at hvalue

theorem valueAt_of_none (hpart : Tree.at? pairs key = none) :
    valueAt? objects value key = none := by
  have hvalue := Tree.valueAt_of_isIn h key
  rwa [hpart] at hvalue

/-- A text that may be left out is read as it is. -/
theorem text_of_part {t : Option String} (hpart : Tree.at? pairs key = t.map Tree.text) :
    (valueAt? objects value key).bind textOf? = t := by
  cases t with
  | none =>
    rw [valueAt_of_none h hpart]
    rfl
  | some s =>
    obtain ⟨inner, hinner, htext⟩ := valueAt_of_some h hpart
    rw [hinner, Tree.isIn_text.1 htext]
    rfl

theorem whole_of_some {n : Int} (hpart : Tree.at? pairs key = some (.whole n)) :
    (valueAt? objects value key).bind wholeOf? = some n := by
  obtain ⟨inner, hinner, hwhole⟩ := valueAt_of_some h hpart
  rw [hinner, Tree.isIn_whole.1 hwhole]
  rfl

/-! ## Checks -/

theorem ofShape_object_passes : ofShape .object objects value = none := by
  obtain ⟨kept, hkept, _⟩ := Tree.isIn_mapping.1 h
  rw [ofShape, Shape.holds, hkept, Option.isSome_some, if_pos rfl]

theorem noOthers_passes {known : List String} (hknown : ∀ pair ∈ pairs, pair.1 ∈ known) :
    noOthers known objects value = none := by
  obtain ⟨kept, hkept, hpairs⟩ := Tree.isIn_mapping.1 h
  have hkeys : kept.map (·.1) = pairs.map fun pair => .text pair.1 := by
    clear hkept hknown h
    induction hpairs with
    | nil => rfl
    | cons hfirst _ ih => rw [List.map_cons, List.map_cons, hfirst.1, ih]
  have hothers : (kept.map (·.1)).filter
      (fun key => !known.any fun name => key = .text name) = [] := by
    rw [hkeys, List.filter_eq_nil_iff]
    intro name hname
    obtain ⟨pair, hpair, rfl⟩ := List.mem_map.1 hname
    simpa using hknown pair hpair
  have hsorted : Text.sortOn Value.plain [] = [] := List.mergeSort_nil
  simp only [noOthers, hkept, Option.getD_some, hothers, hsorted, List.map_nil]

theorem requires_passes (hpart : Tree.at? pairs key = some tree) :
    requires key objects value = none := by
  obtain ⟨inner, hinner, _⟩ := valueAt_of_some h hpart
  rw [requires, hinner, Option.isSome_some, if_pos rfl]

theorem property_passes (hpart : Tree.at? pairs key = some tree)
    (hcheck : ∀ inner, tree.isIn objects inner = true → check objects inner = none) :
    property key check objects value = none := by
  obtain ⟨inner, hinner, htree⟩ := valueAt_of_some h hpart
  rw [property, hinner, Option.bind_some, hcheck inner htree]
  rfl

theorem property_passes_none (hpart : Tree.at? pairs key = none) :
    property key check objects value = none := by
  rw [property, valueAt_of_none h hpart]
  rfl

/-- A text that may be left out passes a check if it does so when it is there. -/
theorem property_passes_text {t : Option String} (hpart : Tree.at? pairs key = t.map Tree.text)
    (hcheck : ∀ s, t = some s → check objects (.text s) = none) :
    property key check objects value = none := by
  cases t with
  | none => exact property_passes_none h hpart
  | some s =>
    refine property_passes h hpart fun inner hinner => ?_
    rw [Tree.isIn_text.1 hinner]
    exact hcheck s rfl

end

theorem someText_passes {s : String} (h : s ≠ "") : someText objects (.text s) = none := by
  have hsome : nonEmpty objects (.text s) = none := by
    rw [nonEmpty, if_neg (by simpa using h)]
  refine all_eq_none.2 ?_
  simp only [List.forall_mem_cons]
  exact ⟨rfl, hsome, by simp⟩

theorem isSame_text (s : String) : isSame (.text s) (.text s) = true :=
  Value.Equals.isSameKey (a := .text s) (.same nofun)

theorem isSame_int (n : Int) : isSame (.int n) (.int n) = true :=
  Value.Equals.isSameKey (a := .int n) (.same nofun)

theorem oneWord_passes {s : String} {choices : List String} (h : s ∈ choices) :
    oneWord choices objects (.text s) = none := by
  have hany : (choices.map Value.text).any (isSame · (.text s)) = true :=
    List.any_eq_true.2 ⟨_, List.mem_map_of_mem h, isSame_text s⟩
  rw [oneWord, oneOf, hany, if_pos rfl]

theorem oneNumber_passes {n : Int} {choices : List Int} (h : n ∈ choices) :
    oneNumber choices objects (.int n) = none := by
  have hany : (choices.map Value.int).any (isSame · (.int n)) = true :=
    List.any_eq_true.2 ⟨_, List.mem_map_of_mem h, isSame_int n⟩
  rw [oneNumber, oneOf, hany, if_pos rfl]

theorem positive_passes {n : Int} (h : 0 < n) :
    all [ofShape .integer, positive] objects (.int n) = none := by
  have hpos : 0 < (Double.one : Int) := by exact_mod_cast Double.one_pos
  have hmul := Int.mul_le_mul_of_nonneg_right (Int.add_one_le_of_lt h) (Int.le_of_lt hpos)
  rw [Int.zero_add, Int.one_mul] at hmul
  refine all_eq_none.2 ?_
  simp only [List.forall_mem_cons]
  refine ⟨rfl, ?_, by simp⟩
  rw [positive, Value.units?]
  exact if_neg (Int.not_lt.2 hmul)

/-- All items of a list pass a check that their trees pass. -/
theorem items_passes (h : (Tree.list items).isIn objects value = true)
    (hcheck : ∀ tree ∈ items, ∀ inner, tree.isIn objects inner = true →
      check objects inner = none) : Check.items check objects value = none := by
  obtain ⟨values, hvalues, hitems⟩ := Tree.isIn_list.1 h
  rw [Check.items, hvalues, Option.getD_some]
  -- The number of the first item is only used for the place of a violation.
  generalize 0 = index
  clear h hvalues
  induction hitems generalizing index with
  | nil => rfl
  | cons hfirst _ ih =>
    rw [firstIn, hcheck _ List.mem_cons_self _ hfirst]
    exact ih (fun tree hmem => hcheck tree (List.mem_cons_of_mem _ hmem)) _

/-! ## Line settings -/

section

variable {line : LineSettings} (h : (Tree.mapping (lineParts line)).isIn objects value = true)
include h

theorem lineCheck_passes (hline : line.Allowed) : lineCheck objects value = none := by
  have hnumber (key : String) (n : Int) (choices : List Int)
      (hpart : Tree.at? (lineParts line) key = some (.whole n)) (hn : n ∈ choices) :
      property key (oneNumber choices) objects value = none := by
    refine property_passes h hpart fun inner hinner => ?_
    rw [Tree.isIn_whole.1 hinner]
    exact oneNumber_passes hn
  have hbaud : property "baud_rate" (all [ofShape .integer, positive]) objects value = none := by
    have hpart : Tree.at? (lineParts line) "baud_rate" = some (.whole line.baudRate) := rfl
    refine property_passes h hpart fun inner hinner => ?_
    rw [Tree.isIn_whole.1 hinner]
    exact positive_passes hline.baudRate
  have hword (key s : String) (choices : List String)
      (hpart : Tree.at? (lineParts line) key = some (.text s)) (hs : s ∈ choices) :
      property key (oneWord choices) objects value = none :=
    property_passes_text h (t := some s) hpart fun _ hsame =>
      oneWord_passes (Option.some.inj hsame ▸ hs)
  refine all_eq_none.2 ?_
  simp only [List.forall_mem_cons]
  exact ⟨ofShape_object_passes h, noOthers_passes h (by simp [lineParts]), hbaud,
    hnumber _ _ _ rfl hline.dataBits, hnumber _ _ _ rfl hline.stopBits,
    hword _ _ _ rfl hline.parity, hword _ _ _ rfl hline.flowControl, by simp⟩

end

variable {document : Document}

theorem lineOf_eq {line : LineSettings}
    (h : (Tree.mapping (lineParts line)).isIn document.objects value = true) :
    lineOf document value = line := by
  simp only [lineOf, part?]
  rw [whole_of_some h (n := line.baudRate) rfl, whole_of_some h (n := line.dataBits) rfl,
    whole_of_some h (n := line.stopBits) rfl, text_of_part h (t := some line.parity) rfl,
    text_of_part h (t := some line.flowControl) rfl]
  rfl

/-! ## Commands -/

theorem at?_description (command : SavedCommand) :
    Tree.at? (commandParts command) "description" = command.description.map Tree.text := by
  obtain ⟨name, data, format, description⟩ := command
  cases description <;> rfl

section

variable {command : SavedCommand}

theorem commandCheck_passes (h : (commandTree command).isIn objects value = true)
    (hcommand : Sendable command) : commandCheck objects value = none := by
  obtain ⟨hname, hdata, hformat⟩ := hcommand
  have hkeys : ∀ pair ∈ commandParts command,
      pair.1 ∈ ["name", "data", "format", "description"] := by
    cases hdescription : command.description <;> simp [commandParts, hdescription]
  have hword : command.format ∈ ["text", "hex"] := by
    rcases hformat with hformat | ⟨hformat, _⟩ <;> simp [hformat]
  have htext (key s : String) (check : Check)
      (hpart : Tree.at? (commandParts command) key = some (.text s))
      (hcheck : check objects (.text s) = none) : property key check objects value = none :=
    property_passes_text h (t := some s) hpart fun _ hsame => Option.some.inj hsame ▸ hcheck
  have hdescribed : property "description" (ofShape .string) objects value = none :=
    property_passes_text h (at?_description command) fun _ _ => rfl
  have hnamePart : Tree.at? (commandParts command) "name" = some (.text command.name) := rfl
  have hdataPart : Tree.at? (commandParts command) "data" = some (.text command.data) := rfl
  refine all_eq_none.2 ?_
  simp only [List.forall_mem_cons]
  exact ⟨ofShape_object_passes h, noOthers_passes h hkeys, requires_passes h hnamePart,
    requires_passes h hdataPart, htext _ _ _ hnamePart (someText_passes hname),
    htext _ _ _ hdataPart (someText_passes hdata), htext _ _ _ rfl (oneWord_passes hword),
    hdescribed, by simp⟩

theorem commandOf_eq (h : (commandTree command).isIn document.objects value = true) :
    commandOf document value = command := by
  simp only [commandOf, part?]
  rw [text_of_part h (t := some command.name) rfl, text_of_part h (t := some command.data) rfl,
    text_of_part h (t := some command.format) rfl, text_of_part h (at?_description command)]
  rfl

end

theorem commandOf_items {commands : List SavedCommand} {values : List Value}
    (h : List.Forall₂ (fun tree value => tree.isIn document.objects value = true)
      (commands.map commandTree) values) : values.map (commandOf document) = commands := by
  induction commands generalizing values with
  | nil =>
    cases h
    rfl
  | cons command rest ih =>
    obtain ⟨first, others, hfirst, hothers, rfl⟩ := List.forall₂_cons_left_iff.1 h
    rw [List.map_cons, commandOf_eq hfirst, ih hothers]

/-- Commands with distinct names and data that suit their formats have no problem. -/
theorem problemIn_of_sendable {source : String} {seen : List String} {index : Nat}
    {commands : List SavedCommand} (hdistinct : (commands.map SavedCommand.name).Nodup)
    (hnew : ∀ command ∈ commands, command.name ∉ seen)
    (hsendable : ∀ command ∈ commands, isSendable command = true) :
    problemIn source seen index commands = none := by
  induction commands generalizing seen index with
  | nil => rfl
  | cons command rest ih =>
    obtain ⟨hfirst, hrest⟩ := List.nodup_cons.1 hdistinct
    have hseen : ¬ seen.contains command.name = true := by
      simpa using hnew command List.mem_cons_self
    rw [problemIn, if_neg hseen, hsendable command List.mem_cons_self]
    refine ih hrest (fun other hother => ?_) fun other hother =>
      hsendable other (List.mem_cons_of_mem _ hother)
    rw [List.mem_cons, not_or]
    refine ⟨fun hsame => hfirst ?_, hnew other (List.mem_cons_of_mem _ hother)⟩
    exact hsame ▸ List.mem_map_of_mem hother

/-! ## Documents -/

section

variable (settings : Settings)

theorem at?_serial : Tree.at? settings.parts "serial" = some (.mapping (lineParts settings.line)) :=
  rfl

theorem key_of_portParts {pair : String × Tree} {port : Option String}
    (h : pair ∈ portParts port) : pair.1 = "port" := by
  unfold portParts at h
  split at h
  · split at h
    · cases h
    · rw [List.mem_singleton.1 h]
  · cases h

theorem key_of_listParts {pair : String × Tree} {commands : List SavedCommand}
    (h : pair ∈ listParts commands) : pair.1 = "commands" := by
  unfold listParts at h
  split at h
  · cases h
  · rw [List.mem_singleton.1 h]

theorem at?_port (hport : settings.port ≠ some "") :
    Tree.at? settings.parts "port" = settings.port.map Tree.text := by
  have hlist : (listParts settings.commands).find? (fun pair => pair.1 = "port") = none :=
    List.find?_eq_none.2 fun pair hpair => by simp [key_of_listParts hpair]
  cases hsome : settings.port with
  | none => simp [Tree.at?, parts, portParts, hsome, hlist]
  | some port =>
    have hfilled : port ≠ "" := fun hempty => hport (by rw [hsome, hempty])
    simp [Tree.at?, parts, portParts, hsome, hfilled]

theorem at?_commands : Tree.at? settings.parts "commands" =
    if settings.commands.isEmpty then none
    else some (.list (settings.commands.map commandTree)) := by
  have hport : (portParts settings.port).find? (fun pair => pair.1 = "commands") = none :=
    List.find?_eq_none.2 fun pair hpair => by simp [key_of_portParts hpair]
  rw [Tree.at?, parts, listParts]
  split <;> simp [hport]

variable {settings}
  (h : (Tree.mapping settings.parts).isIn document.objects document.value = true)
  (husable : settings.Usable)
include h husable

theorem documentCheck_passes : documentCheck document.objects document.value = none := by
  have hkeys : ∀ pair ∈ settings.parts, pair.1 ∈ ["serial", "port", "commands"] := by
    intro pair hpair
    rcases List.mem_cons.1 hpair with rfl | hmem
    · exact List.mem_cons_self
    · rcases List.mem_append.1 hmem with hport | hcommands
      · simp [key_of_portParts hport]
      · simp [key_of_listParts hcommands]
  have hserial : property "serial" lineCheck document.objects document.value = none :=
    property_passes h (at?_serial settings) fun inner hinner =>
      lineCheck_passes hinner (settings.line.check_eq_ok_iff.1 husable.line)
  have hport : property "port" someText document.objects document.value = none :=
    property_passes_text h (at?_port settings husable.port) fun port hsome =>
      someText_passes fun hempty => husable.port (by rw [hsome, hempty])
  have hcommands : property "commands" (all [ofShape .array, Check.items commandCheck])
      document.objects document.value = none := by
    have hpart := at?_commands settings
    split at hpart
    · exact property_passes_none h hpart
    · refine property_passes h hpart fun inner hinner => ?_
      obtain ⟨values, hvalues, _⟩ := Tree.isIn_list.1 hinner
      have hitems : Check.items commandCheck document.objects inner = none := by
        refine items_passes hinner fun tree hmem item hitem => ?_
        obtain ⟨command, hcommand, rfl⟩ := List.mem_map.1 hmem
        exact commandCheck_passes hitem (husable.sendable command hcommand)
      have hshape : ofShape .array document.objects inner = none := by
        rw [ofShape, Shape.holds, hvalues, Option.isSome_some, if_pos rfl]
      refine all_eq_none.2 ?_
      simp only [List.forall_mem_cons]
      exact ⟨hshape, hitems, by simp⟩
  refine all_eq_none.2 ?_
  simp only [List.forall_mem_cons]
  exact ⟨ofShape_object_passes h, noOthers_passes h hkeys, hserial, hport, hcommands, by simp⟩

theorem ofDocument_eq : ofDocument document = settings := by
  have hserial : (part? document document.value "serial").elim {} (lineOf document) =
      settings.line := by
    obtain ⟨inner, hinner, hline⟩ := valueAt_of_some h (at?_serial settings)
    rw [part?, hinner, Option.elim_some, lineOf_eq hline]
  have hport : (part? document document.value "port").bind textOf? = settings.port :=
    text_of_part h (at?_port settings husable.port)
  have hcommands : (((part? document document.value "commands").bind
      (Value.items? document.objects)).getD []).map (commandOf document) = settings.commands := by
    have hpart := at?_commands settings
    split at hpart
    case isTrue hempty =>
      rw [part?, valueAt_of_none h hpart, List.isEmpty_iff.1 hempty]
      rfl
    case isFalse =>
      obtain ⟨inner, hinner, hlist⟩ := valueAt_of_some h hpart
      obtain ⟨values, hvalues, hitems⟩ := Tree.isIn_list.1 hlist
      rw [part?, hinner, Option.bind_some, hvalues, Option.getD_some, commandOf_items hitems]
  simp only [ofDocument, hserial, hport, hcommands]

theorem checked_of_isIn (source : String) : checked source document = .ok settings := by
  have hproblem : problemIn source [] 0 settings.commands = none := by
    refine problemIn_of_sendable husable.distinct (by simp) fun command hmem => ?_
    obtain ⟨_, _, hformat⟩ := husable.sendable command hmem
    rcases hformat with hformat | ⟨hformat, hhex⟩ <;> simp [isSendable, *]
  rw [checked, documentCheck_passes h husable, ofDocument_eq h husable]
  simp only [hproblem]

end

end SerialConsole.Settings
