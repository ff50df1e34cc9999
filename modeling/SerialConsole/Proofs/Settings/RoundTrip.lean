import SerialConsole.Proofs.Files.Saving
import SerialConsole.Proofs.Script.Saved
import SerialConsole.Proofs.Settings.Held
import SerialConsole.Proofs.Yaml.Written

set_option autoImplicit false

/-!
# Settings that are saved and loaded

Usable settings are loaded as they were saved, if the document that they are written as is read as
the tree that it was written for (`saved_settings_load`). The file has printable characters only, so
that nothing happens to its line ends.
-/
namespace SerialConsole.Settings

open Yaml

/-! ## The characters of the file -/

theorem isSpecial_of_isDigit {c : Char} (h : c.isDigit = true) : isSpecial c = false := by
  have hrange : 48 ≤ c.toNat ∧ c.toNat ≤ 57 := by
    simpa [Char.isDigit, UInt32.le_iff_toNat_le] using h
  have hprintable : 0x20 ≤ c.toNat ∧ c.toNat ≤ 0x7E := by omega
  simp [isSpecial, hprintable]

theorem clear_toDigits (n : Nat) : Clear (Nat.toDigits 10 n) :=
  fun _ hc => isSpecial_of_isDigit (Nat.isDigit_of_mem_toDigits (by decide) (by decide) hc)

theorem clear_toString (n : Int) : Clear (toString n).toList := by
  rcases Int.lt_or_le n 0 with hn | hn
  · have hshown : (toString n).toList = '-' :: Nat.toDigits 10 (-n).toNat := by
      simp [Int.repr_eq_if, Int.not_le.2 hn]
    rw [hshown]
    exact .cons rfl (clear_toDigits _)
  · have hshown : (toString n).toList = Nat.toDigits 10 n.toNat := by
      simp [Int.repr_eq_if, hn]
    rw [hshown]
    exact clear_toDigits _

theorem clear_textLine {key : String} (indent : Nat) (value : String) (hkey : Clear key.toList) :
    Clear (textLine indent key value) :=
  (hkey.append (.cons rfl (.cons rfl (clear_writeText _ _ _)))).append (.cons rfl .nil)

theorem clear_numberLine {key : String} (n : Int) (hkey : Clear key.toList) :
    Clear (numberLine key n) :=
  (hkey.append (.cons rfl (.cons rfl (clear_toString n)))).append (.cons rfl .nil)

theorem clear_flatten {lines : List (List Char)} (h : ∀ line ∈ lines, Clear line) :
    Clear lines.flatten := by
  intro c hc
  obtain ⟨line, hline, hmem⟩ := List.mem_flatten.1 hc
  exact h line hline c hmem

theorem clear_indented {lines : List (List Char)} (h : ∀ line ∈ lines, Clear line) :
    ∀ line ∈ lines.map ([' ', ' '] ++ ·), Clear line := by
  intro line hline
  obtain ⟨inner, hinner, rfl⟩ := List.mem_map.1 hline
  exact .cons rfl (.cons rfl (h inner hinner))

theorem clear_lineLines (line : LineSettings) : ∀ l ∈ lineLines line, Clear l := by
  refine List.forall_mem_append.2 ⟨?_, clear_indented ?_⟩
  · rw [List.forall_mem_singleton]
    decide
  · simp only [List.forall_mem_cons]
    refine ⟨clear_numberLine _ ?_, clear_numberLine _ ?_, clear_numberLine _ ?_,
      clear_textLine _ _ ?_, clear_textLine _ _ ?_, by simp⟩
    all_goals decide

theorem clear_commandLines (command : SavedCommand) : ∀ l ∈ commandLines command, Clear l := by
  have hdescription : ∀ l ∈ (command.description.map (textLine 2 "description")).toList, Clear l := by
    intro l hl
    obtain ⟨description, _, rfl⟩ := Option.map_eq_some_iff.1 (Option.mem_toList.1 hl)
    exact clear_textLine _ _ (by decide)
  have hname : Clear (textLine 2 "name" command.name) := clear_textLine _ _ (by decide)
  refine List.forall_mem_cons.2 ⟨.cons rfl (.cons rfl hname), ?_⟩
  refine clear_indented (List.forall_mem_append.2 ⟨?_, hdescription⟩)
  simp only [List.forall_mem_cons]
  refine ⟨clear_textLine _ _ ?_, clear_textLine _ _ ?_, by simp⟩
  all_goals decide

/-- Whatever some settings are, only printable characters and line feeds are written. -/
theorem clear_render (settings : Settings) : Clear settings.render.toList := by
  rw [render, String.toList_ofList]
  refine clear_flatten (List.forall_mem_append.2 ⟨List.forall_mem_append.2
    ⟨clear_lineLines settings.line, ?_⟩, ?_⟩)
  · split
    · split
      · simp
      · rw [List.forall_mem_singleton]
        exact clear_textLine _ _ (by decide)
    · simp
  · split
    · simp
    · refine List.forall_mem_cons.2 ⟨by decide, fun l hl => ?_⟩
      obtain ⟨command, _, hmem⟩ := List.mem_flatMap.1 hl
      exact clear_commandLines command l hmem

variable {files written : Files} {path : Path} {settings : Settings}

/-- Usable settings are loaded as they were saved: what was left out of the file is taken to be as
usual, and every check passes. It is assumed that the document holds the tree that it was written
for. -/
theorem saved_settings_load (husable : settings.Usable)
    (hrestored : Tree.isRestored settings.parts = true)
    (hsave : save files path settings = (written, .ok ())) :
    load written path = .ok settings := by
  have htext : String.ofList (Text.unifyLineEnds settings.render.toList) = settings.render := by
    rw [Script.Library.unifyLineEnds_eq fun hmem => ?_, String.ofList_toList]
    cases clear_render settings _ hmem
  -- The tree comes back by assumption; that the settings come back from it is proved.
  have hread : ofText path.text settings.render = .ok settings := by
    rw [render_eq]
    unfold Tree.isRestored at hrestored
    unfold ofText
    rw [String.toList_ofList]
    split at hrestored
    case h_2 => cases hrestored
    case h_1 document hdocument =>
      obtain ⟨kept, hkept, _⟩ := Tree.isIn_mapping.1 hrestored
      have hnull : document.value ≠ .null := by
        intro hnull
        rw [hnull] at hkept
        cases hkept
      simp only [hdocument, if_neg hnull, hkept, Option.isNone_some, Bool.false_eq_true, if_false]
      exact checked_of_isIn hrestored husable path.text
  unfold load
  rw [Files.exists?_saved hsave]
  simp only [bind, Except.bind, if_true]
  rw [Files.load_saved hsave, htext]
  exact hread

/-- Settings with texts that need quotes, and with a description. -/
def quotedSettings : Settings :=
  { line := { baudRate := 9600 }
    commands := [⟨"on", "0a", "hex", some "power: on"⟩] }

def quotedPath : Path :=
  ⟨0, ["config", "settings.yaml"]⟩

theorem saved_settings_load_quoted :
    quotedSettings.Usable ∧ Tree.isRestored quotedSettings.parts = true ∧
      ∃ written, save {} quotedPath quotedSettings = (written, .ok ()) ∧
        load written quotedPath = .ok quotedSettings := by
  have hsendable : ∀ command ∈ quotedSettings.commands, Sendable command := by
    unfold Sendable
    decide +kernel
  have husable : quotedSettings.Usable := ⟨rfl, by decide, by decide +kernel, hsendable⟩
  have hrestored : Tree.isRestored quotedSettings.parts = true := by decide +kernel
  have hsaved : (save {} quotedPath quotedSettings).2.isOk = true := by decide +kernel
  cases hsave : save {} quotedPath quotedSettings with
  | mk written result =>
    rw [hsave] at hsaved
    cases result with
    | error refused => cases hsaved
    | ok _ => exact ⟨husable, hrestored, written, rfl, saved_settings_load husable hrestored hsave⟩

end SerialConsole.Settings
