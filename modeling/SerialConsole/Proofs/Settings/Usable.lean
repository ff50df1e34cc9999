import SerialConsole.Proofs.Settings.Form
import SerialConsole.Proofs.Text.Keyed
import SerialConsole.Proofs.Text.Payload
import SerialConsole.Session.Call

set_option autoImplicit false

/-!
# Settings that load can be used

A document is checked for its form, the commands are checked for their names and their hexadecimal
data, a session checks the line settings once more when it connects, and a send checks what it gets.
What passes the first two passes the others (`checked_settings_usable`).
-/
namespace SerialConsole.Settings

open Yaml Check

variable {source : String} {document : Document} {value : Value} {settings : Settings}

/-- A command that can be sent: it has a name and data, and its data suit its format. -/
def Sendable (command : SavedCommand) : Prop :=
  command.name ≠ "" ∧ command.data ≠ "" ∧
    (command.format = "text" ∨ command.format = "hex" ∧ Hex.isValid command.data.toList = true)

/-- Settings that can be used. -/
structure Usable (settings : Settings) : Prop where
  line : settings.line.check = .ok ()
  port : settings.port ≠ some ""
  distinct : (settings.commands.map SavedCommand.name).Nodup
  sendable : ∀ command ∈ settings.commands, Sendable command

/-! ## Commands -/

/-- Among commands without a problem each has a name that was not seen before it. -/
theorem problemIn_eq_none {seen : List String} {index : Nat} {commands : List SavedCommand}
    (h : problemIn source seen index commands = none) :
    (commands.map SavedCommand.name).Nodup ∧
      ∀ command ∈ commands, command.name ∉ seen ∧ isSendable command = true := by
  induction commands generalizing seen index with
  | nil => simp
  | cons command rest ih =>
    unfold problemIn at h
    split at h
    case isTrue => cases h
    case isFalse hnew =>
      split at h
      case isTrue => cases h
      case isFalse hsendable =>
        obtain ⟨hdistinct, hrest⟩ := ih h
        have hfirst : command.name ∉ rest.map SavedCommand.name := by
          simpa using fun other hother hname => (hrest other hother).1 (by simp [hname])
        refine ⟨List.nodup_cons.2 ⟨hfirst, hdistinct⟩, ?_⟩
        simp only [List.mem_cons, forall_eq_or_imp]
        exact ⟨⟨by simpa using hnew, by simpa using hsendable⟩, fun other hother =>
          ⟨fun hseen => (hrest other hother).1 (by simp [hseen]), (hrest other hother).2⟩⟩

/-! ## Documents -/

theorem lineOf_check (h : lineCheck document.objects value = none) :
    (lineOf document value).check = .ok () := by
  have hall := all_eq_none.1 h
  have hbaud := positive_of_property ({} : LineSettings).baudRate (by decide)
    (hall (property "baud_rate" (all [ofShape .integer, positive])) (by simp))
  have hdata := number_of_property ({} : LineSettings).dataBits (by decide)
    (hall (property "data_bits" (oneNumber [7, 8])) (by simp))
  have hstop := number_of_property ({} : LineSettings).stopBits (by decide)
    (hall (property "stop_bits" (oneNumber [1, 2])) (by simp))
  have hparity := word_of_property ({} : LineSettings).parity (by decide)
    (hall (property "parity" (oneWord ["none", "even", "odd"])) (by simp))
  have hflow := word_of_property ({} : LineSettings).flowControl (by decide)
    (hall (property "flow_control" (oneWord ["none", "hardware"])) (by simp))
  unfold LineSettings.check lineOf LineSettings.dataBitChoices LineSettings.stopBitChoices
    LineSettings.parityChoices LineSettings.flowControlChoices
  simp only [List.contains_eq_mem, hdata, hstop, hparity, hflow, Int.not_le.2 hbaud, decide_true,
    Bool.not_true, if_false, Bool.false_eq_true]

theorem commandOf_sendable (h : commandCheck document.objects value = none)
    (hsendable : isSendable (commandOf document value) = true) :
    Sendable (commandOf document value) := by
  have hall := all_eq_none.1 h
  obtain ⟨name, hname, hnamed⟩ := text_of_property (hall (requires "name") (by simp))
    (hall (property "name" someText) (by simp))
  obtain ⟨data, hdata, hholds⟩ := text_of_property (hall (requires "data") (by simp))
    (hall (property "data" someText) (by simp))
  have hformat : (commandOf document value).format ∈ ["text", "hex"] :=
    word_of_property "text" (by decide) (hall (property "format" (oneWord ["text", "hex"])) (by simp))
  refine ⟨by simpa [commandOf, hnamed] using hname, by simpa [commandOf, hholds] using hdata, ?_⟩
  simp only [List.mem_cons, List.not_mem_nil, or_false] at hformat
  refine hformat.imp_right fun hhex => ⟨hhex, ?_⟩
  simpa [isSendable, hhex] using hsendable

section

variable (h : documentCheck document.objects document.value = none)
include h

theorem line_of_form : (ofDocument document).line.check = .ok () := by
  have hserial := all_eq_none.1 h (property "serial" lineCheck) (by simp)
  cases hpart : part? document document.value "serial" with
  | none =>
    simp only [ofDocument, hpart, Option.elim_none]
    rfl
  | some inner =>
    simp only [ofDocument, hpart, Option.elim_some]
    exact lineOf_check (property_eq_none hserial hpart)

theorem port_of_form : (ofDocument document).port ≠ some "" := by
  have hport := all_eq_none.1 h (property "port" someText) (by simp)
  cases hpart : part? document document.value "port" with
  | none => simp [ofDocument, hpart]
  | some inner =>
    obtain ⟨port, rfl, hsome⟩ := someText_eq_none (property_eq_none hport hpart)
    simpa [ofDocument, hpart, textOf?] using hsome

theorem commands_of_form {command : SavedCommand} (hmem : command ∈ (ofDocument document).commands) :
    ∃ item, commandCheck document.objects item = none ∧ commandOf document item = command := by
  have hlist := all_eq_none.1 h (property "commands" (all [ofShape .array, items commandCheck]))
    (by simp)
  cases hpart : part? document document.value "commands" with
  | none => simp [ofDocument, hpart] at hmem
  | some inner =>
    have hitems := all_eq_none.1 (property_eq_none hlist hpart) (items commandCheck) (by simp)
    simp only [ofDocument, hpart, Option.bind_some, List.mem_map] at hmem
    obtain ⟨item, hitem, hcommand⟩ := hmem
    exact ⟨item, firstIn_eq_none hitems hitem, hcommand⟩

end

theorem usable_of_checked (h : checked source document = .ok settings) : settings.Usable := by
  unfold checked at h
  split at h
  case h_1 => cases h
  case h_2 hform =>
    simp only at h
    split at h
    case h_1 => cases h
    case h_2 hproblem =>
      cases h
      obtain ⟨hdistinct, hcommands⟩ := problemIn_eq_none hproblem
      refine ⟨line_of_form hform, port_of_form hform, hdistinct, fun command hmem => ?_⟩
      obtain ⟨item, hitem, rfl⟩ := commands_of_form hform hmem
      exact commandOf_sendable hitem (hcommands _ hmem).2

theorem usable_default : ({} : Settings).Usable :=
  ⟨rfl, by simp, List.nodup_nil, by simp⟩

theorem usable_of_text {text : String} (h : ofText source text = .ok settings) :
    settings.Usable := by
  unfold ofText at h
  split at h
  · cases h
  · split at h
    · cases h
      exact usable_default
    · split at h
      · cases h
      · exact usable_of_checked h

/-- Whatever the files are, settings that are loaded from one can be used. -/
theorem usable_of_load {files : Files} {path : Path} (h : load files path = .ok settings) :
    settings.Usable := by
  unfold load at h
  cases hthere : files.exists? path with
  | error fault => simp [hthere, bind, Except.bind] at h
  | ok there =>
    cases there with
    | false =>
      obtain rfl : {} = settings := by simpa [hthere, bind, Except.bind] using h
      exact usable_default
    | true =>
      cases htext : files.load .readSettings path with
      | error fault => simp [hthere, htext, bind, Except.bind] at h
      | ok text => exact usable_of_text (by simpa [hthere, htext, bind, Except.bind] using h)

/-! ## Use -/

section

variable {command : SavedCommand} {ending : String}

/-- A saved command can be encoded with every line ending. -/
theorem Sendable.encode (h : Sendable command) (hending : ending ∈ ["none", "LF", "CR", "CRLF"]) :
    ∃ bytes, Payload.encode command.data command.format ending = .ok bytes ∧ bytes ≠ [] := by
  obtain ⟨_, hdata, hformat⟩ := h
  obtain ⟨bytes, hencode⟩ := Payload.encode_accepted hending hformat
  exact ⟨bytes, hencode, Payload.encode_ne_nil hdata hencode⟩

/-- A send of a saved command is refused for nothing but the phase of the session. -/
theorem Sendable.refused (h : Sendable command) (hending : ending ∈ ["none", "LF", "CR", "CRLF"])
    {s : Session} {me : Caller} {fault : Fault}
    (hover : (s.beginSendData me command.data command.format ending).pause = .over (.error fault)) :
    fault.kind = .notConnected := by
  obtain ⟨bytes, hencode, hsome⟩ := h.encode hending
  unfold Session.beginSendData Session.beginSend Session.enter Session.sendLocked at hover
  simp only [hencode] at hover
  split at hover
  · cases hover
    rfl
  · split at hover
    · exact absurd (by simpa using ‹bytes.isEmpty = true›) hsome
    · split at hover
      · split at hover <;> cases hover
        rfl
      · cases hover

end

/-- Settings from a document that passes the checks. The line settings pass the check of a session,
which then goes on to ask for a device. The port is not empty, the saved commands have distinct names
that are not empty and are found by them, and each of them can be encoded with every line ending and
gives at least one byte, so that a send of it is refused only when there is no connection. -/
theorem checked_settings_usable (h : checked source document = .ok settings) :
    (settings.line.check = .ok () ∧
      ∀ (s : Session) (hint : Option String), s.phase = .disconnected →
        Session.connectLocked settings.line hint s = ⟨{ s with phase := .connecting }, [],
          .askDevice (.request hint) (.requesting settings.line)⟩) ∧
      settings.port ≠ some "" ∧
      (∀ command ∈ settings.commands, command.name ≠ "") ∧
      (settings.commands.map SavedCommand.name).Nodup ∧
      (∀ command ∈ settings.commands, settings.command? command.name = some command) ∧
      ∀ command ∈ settings.commands, ∀ ending ∈ ["none", "LF", "CR", "CRLF"],
        (∃ bytes, Payload.encode command.data command.format ending = .ok bytes ∧ bytes ≠ []) ∧
          ∀ (s : Session) (me : Caller) (fault : Fault),
            (s.beginSendData me command.data command.format ending).pause = .over (.error fault) →
              fault.kind = .notConnected := by
  obtain ⟨hline, hport, hdistinct, hsendable⟩ := usable_of_checked h
  refine ⟨⟨hline, fun s hint hphase => ?_⟩, hport, fun c hc => (hsendable c hc).1, hdistinct,
    fun c hc => Keyed.find?_of_nodup hdistinct hc, fun c hc ending hending =>
      ⟨(hsendable c hc).encode hending, fun s me fault => (hsendable c hc).refused hending⟩⟩
  rw [Session.connectLocked, if_neg (by simp [hphase]), hline]

/-- A document whose numbers are written with a point, with a command of each format. -/
def exampleDocument : Document :=
  { value := .object 0
    objects := #[
      some (.dict [(.text "serial", .object 1), (.text "port", .text "ttyUSB0"),
        (.text "commands", .object 2)]),
      some (.dict [(.text "baud_rate", .float (.finite false (9600 * Double.one))),
        (.text "data_bits", .float (.finite false (7 * Double.one)))]),
      some (.list [.object 3, .object 4]),
      some (.dict [(.text "name", .text "reset"), (.text "data", .text "AT Z")]),
      some (.dict [(.text "name", .text "ping"), (.text "data", .text "0a 0D"),
        (.text "format", .text "hex")])] }

def exampleSettings : Settings :=
  { line := { baudRate := 9600, dataBits := 7 }
    port := some "ttyUSB0"
    commands := [⟨"reset", "AT Z", "text", none⟩, ⟨"ping", "0a 0D", "hex", none⟩] }

theorem checked_exampleDocument :
    checked "settings.yaml" exampleDocument = .ok exampleSettings := by
  have hform : documentCheck exampleDocument.objects exampleDocument.value = none :=
    Option.isNone_iff_eq_none.1 (by decide +kernel)
  have hgiven : ofDocument exampleDocument = exampleSettings := by decide +kernel
  have hproblem : problemIn "settings.yaml" [] 0 exampleSettings.commands = none :=
    Option.isNone_iff_eq_none.1 (by decide +kernel)
  simp only [checked, hform, hgiven, hproblem]

theorem checked_settings_usable_example :
    checked "settings.yaml" exampleDocument = .ok exampleSettings ∧
      exampleSettings.command? "ping" = some ⟨"ping", "0a 0D", "hex", none⟩ ∧
      ∃ bytes, Payload.encode "0a 0D" "hex" "CRLF" = .ok bytes ∧ bytes ≠ [] := by
  obtain ⟨_, _, _, _, hfound, hencoded⟩ := checked_settings_usable checked_exampleDocument
  have hping : ⟨"ping", "0a 0D", "hex", none⟩ ∈ exampleSettings.commands := by simp [exampleSettings]
  exact ⟨checked_exampleDocument, hfound _ hping, (hencoded _ hping "CRLF" (by simp)).1⟩

end SerialConsole.Settings
