import SerialConsole.Proofs.Script.Composing
import SerialConsole.Proofs.Script.ErrorLines

set_option autoImplicit false

/-!
# The layout of a script

A script can be laid out in another way: with other white space around its lines, and with more
blank lines and comments between them. It makes the same remarks then, at the new places of their
lines (`Relaid.numbered`), and reading remarks with other numbers comes to the same with other
numbers. So parsing gives the same commands or the same kind of fault (`parse_relaid`).
-/
namespace SerialConsole

/-! ## Faults with other line numbers -/

/-- The problem with another line number, if it names one. -/
def LineProblem.renumber (number : Nat → Nat) : LineProblem → LineProblem
  | .unclosedLoops count line => .unclosedLoops count (number line)
  | other => other

/-- The fault with another line number, if it has one. -/
def Fault.renumber (number : Nat → Nat) : Fault → Fault
  | .scriptLine line problem => .scriptLine (number line) (problem.renumber number)
  | other => other

theorem LineProblem.renumber_of_not_unclosed {problem : LineProblem} (number : Nat → Nat)
    (h : problem.isUnclosed = false) : problem.renumber number = problem := by
  cases problem <;> first | rfl | cases h

theorem Fault.kind_renumber (number : Nat → Nat) (fault : Fault) :
    (fault.renumber number).kind = fault.kind := by
  cases fault with
  | scriptLine line problem => cases problem <;> rfl
  | _ => rfl

theorem Fault.line?_renumber (number : Nat → Nat) (fault : Fault) :
    (fault.renumber number).line? = fault.line?.map number := by
  cases fault <;> rfl

namespace Script

open Text

/-- An outcome with other line numbers. -/
def renumbered {α : Type} (number : Nat → Nat) (rename : α → α) (outcome : Except Fault α) :
    Except Fault α :=
  (outcome.map rename).mapError (Fault.renumber number)

/-! ## Reading with other line numbers -/

theorem readStatement_renumber (number : Nat → Nat) (line : Nat) (text : List Char) :
    readStatement (number line) text = renumbered number id (readStatement line text) := by
  cases readStatement_uniform text with
  | read statement h => rw [h, h]; rfl
  | refused problem hproblem h =>
    have hsame := LineProblem.renumber_of_not_unclosed number hproblem
    rw [h, h, renumbered, Except.map, Except.mapError, Fault.renumber, hsame]
  | long digits h => rw [h, h]; rfl

theorem map_modify {α β : Type} {f : α → β} {g : α → α} {g' : β → β} (h : ∀ a, g' (f a) = f (g a))
    (l : List α) (i : Nat) : (l.map f).modify i g' = (l.modify i g).map f := by
  induction l generalizing i with
  | nil => simp
  | cons a rest ih =>
    cases i with
    | zero => simp [h]
    | succ i => simp [ih]

theorem Command.closeAt_renumber (number : Nat → Nat) (place : Nat) (c : Command) :
    (c.renumber number).closeAt place = (c.closeAt place).renumber number := by
  cases c <;> rfl

namespace Draft

/-- The draft with other line numbers. -/
def renumber (number : Nat → Nat) (draft : Draft) : Draft :=
  { draft with commands := draft.commands.map (Command.renumber number) }

theorem add_renumber (number : Nat → Nat) (draft : Draft) (line : Nat) (statement : Statement) :
    (draft.renumber number).add (number line) statement =
      renumbered number (renumber number) (draft.add line statement) := by
  cases statement with
  | send value | delay ms | loop count =>
    simp [add, renumber, renumbered, Except.map, Except.mapError, Command.renumber]
  | loopEnd =>
    obtain ⟨commands, opened⟩ := draft
    cases opened with
    | nil => rfl
    | cons start outer =>
      have hclose := map_modify (Command.closeAt_renumber number commands.length) commands start
      simp only [add, renumber, renumbered, Except.map, Except.mapError, List.length_map,
        List.map_append, hclose]
      rfl

theorem hear_renumber (number : Nat → Nat) (draft : Draft) (line : Nat) (text : List Char) :
    (draft.renumber number).hear (number line, text) =
      renumbered number (renumber number) (draft.hear (line, text)) := by
  unfold hear
  rw [readStatement_renumber]
  cases readStatement line text with
  | error fault => rfl
  | ok statement => exact add_renumber number draft line statement

theorem hearAll_renumber (number : Nat → Nat) (draft : Draft) (said : List (Nat × List Char)) :
    (said.map (Prod.map number id)).foldlM hear (draft.renumber number) =
      renumbered number (renumber number) (said.foldlM hear draft) := by
  induction said generalizing draft with
  | nil => rfl
  | cons remark rest ih =>
    rw [List.map_cons, List.foldlM_cons, List.foldlM_cons, Prod.map, id, hear_renumber]
    cases draft.hear remark with
    | error fault => rfl
    | ok next => exact ih next

theorem finish_renumber (number : Nat → Nat) (stack : List Opening) (b : Block) :
    ((draftOf stack b).renumber number).finish =
      renumbered number (List.map (Command.renumber number)) (draftOf stack b).finish := by
  cases stack with
  | nil => rfl
  | cons o outer =>
    have hloop := loop_draftOf o outer b
    simp only [draftOf] at hloop ⊢
    simp only [finish, renumber, List.getElem?_map, hloop]
    rfl

end Draft

/-! ## Other layouts -/

/-- The same line with other white space at its ends. -/
def Respaced (raw raw' : List Char) : Prop :=
  ∃ text before after before' after', raw = before ++ text ++ after ∧
    raw' = before' ++ text ++ after' ∧ Blank before ∧ Blank after ∧ Blank before' ∧ Blank after'

/-- The other lines are the lines, with other white space at the ends, and with blank lines and
comments between them. The next lines have the numbers `n` and `n'`; a line that has the number `n`
has the number `place n` among the others. -/
inductive Relaid (place : Nat → Nat) : Nat → Nat → List (List Char) → List (List Char) → Prop where
  | nil {n n' : Nat} : Relaid place n n' [] []
  | keep {n n' : Nat} {raw raw' : List Char} {rest rest' : List (List Char)} :
      Respaced raw raw' → place n = n' → Relaid place (n + 1) (n' + 1) rest rest' →
        Relaid place n n' (raw :: rest) (raw' :: rest')
  | insert {n n' : Nat} {raw' : List Char} {lines rest' : List (List Char)} :
      LineSays raw' none → Relaid place n (n' + 1) lines rest' →
        Relaid place n n' lines (raw' :: rest')

theorem Respaced.trim_eq {raw raw' : List Char} (h : Respaced raw raw') : trim raw' = trim raw := by
  obtain ⟨text, before, after, before', after', rfl, rfl, hb, ha, hb', ha'⟩ := h
  rw [trim_append_blank ha', trim_blank_append hb', trim_append_blank ha, trim_blank_append hb]

namespace Relaid

variable {place : Nat → Nat} {n n' : Nat} {lines lines' : List (List Char)}

theorem numbered (h : Relaid place n n' lines lines') :
    Script.numbered n' lines' = (Script.numbered n lines).map (Prod.map place id) := by
  induction h with
  | nil => rfl
  | @keep n n' raw raw' rest rest' hraw hplace _ ih =>
    rw [Script.numbered, Script.numbered, hraw.trim_eq, ih]
    split
    · rfl
    · rw [List.map_cons, Prod.map, hplace, id]
  | insert hsilent _ ih =>
    rw [numbered_silent (says_none_iff.1 (lineSays_iff.1 hsilent)), ih]

theorem readAll (h : Relaid place n n' lines lines') (draft : Draft) :
    (draft.renumber place).readAll n' lines' =
      renumbered place (Draft.renumber place) (draft.readAll n lines) := by
  rw [Draft.readAll_eq, Draft.readAll_eq, h.numbered, Draft.hearAll_renumber]

theorem blank (h : Relaid place n n' lines lines') (hblank : ∀ raw ∈ lines', Blank raw) :
    ∀ raw ∈ lines, Blank raw := by
  induction h with
  | nil => exact hblank
  | @keep n n' raw raw' rest rest' hraw _ _ ih =>
    obtain ⟨hfirst, hrest⟩ := List.forall_mem_cons.1 hblank
    refine List.forall_mem_cons.2 ⟨?_, ih hrest⟩
    rw [← trim_eq_nil_iff, ← hraw.trim_eq, trim_eq_nil_iff]
    exact hfirst
  | insert _ _ ih => exact ih (List.forall_mem_cons.1 hblank).2

end Relaid

/-- Parsing a script in another layout comes to the same, with the numbers of the other lines. -/
theorem parse_relaid {place : Nat → Nat} {script other : List Char} (hblank : ¬ Blank script)
    (h : Relaid place 1 1 (splitAt '\n' script) (splitAt '\n' other)) :
    parse other = renumbered place (List.map (Command.renumber place)) (parse script) := by
  have hother : ¬ Blank other := fun hall =>
    hblank (blank_of_splitAt (by decide) (h.blank fun _ hraw => blank_of_mem_splitAt hall hraw))
  have hall : Draft.readAll {} 1 (splitAt '\n' other) =
      renumbered place (Draft.renumber place) (Draft.readAll {} 1 (splitAt '\n' script)) :=
    h.readAll {}
  rw [parse_of_not_blank hother, parse_of_not_blank hblank, hall]
  cases hread : Draft.readAll {} 1 (splitAt '\n' script) with
  | error fault => rfl
  | ok draft =>
    obtain ⟨stack, b, -, rfl⟩ := readAll_eq_ok_iff.1 hread
    exact Draft.finish_renumber place stack b

/-- White space around the lines of a script, blank lines and comments do not matter. In another
layout the script is accepted as well, with the same commands at the new places of their lines, or
it fails as well, in the same way and at the new place of the line. -/
theorem layout_irrelevant (place : Nat → Nat) (script other : List Char) (hblank : ¬ Blank script)
    (h : Relaid place 1 1 (splitAt '\n' script) (splitAt '\n' other)) :
    ((∃ commands, parse other = .ok commands) ↔ ∃ commands, parse script = .ok commands) ∧
      (∀ commands, parse script = .ok commands →
        parse other = .ok (commands.map (Command.renumber place))) ∧
      ∀ fault, parse script = .error fault →
        parse other = .error (fault.renumber place) ∧
          (fault.renumber place).kind = fault.kind ∧
          (fault.renumber place).line? = fault.line?.map place := by
  have hparse := parse_relaid hblank h
  cases hscript : parse script with
  | ok commands =>
    rw [hscript] at hparse
    refine ⟨⟨fun _ => ⟨commands, rfl⟩, fun _ => ⟨_, hparse⟩⟩, ?_, nofun⟩
    intro same hsame
    cases hsame
    exact hparse
  | error fault =>
    rw [hscript] at hparse
    refine ⟨⟨fun hok => ?_, nofun⟩, nofun, ?_⟩
    · obtain ⟨commands, hok⟩ := hok
      cases hparse.symm.trans hok
    · intro same hsame
      cases hsame
      exact ⟨hparse, fault.kind_renumber place, fault.line?_renumber place⟩

/-- A loop, and an END with something behind it, among remarks and with other white space. -/
theorem layout_irrelevant_remarks :
    parse "\n# twice\r\n\tLOOP 2\r\n \r\nSEND a \t\n#\nEND".toList =
        .ok [.loop 2 2 3, .send "a" 5, .loopEnd 0 7] ∧
      parse "#\n \tSEND a\r\n\nEND # done".toList =
        .error (.scriptLine 4 (.unknownCommand "END # done")) := by
  have hsilent : ∀ {raw : List Char}, isSilent (trim raw) = true → LineSays raw none :=
    fun h => lineSays_iff.2 (says_none_iff.2 h)
  have hspaced : ∀ text before after : List Char, before.all isBlank = true →
      after.all isBlank = true → Respaced text (before ++ text ++ after) := by
    intro text before after hbefore hafter
    exact ⟨text, [], [], before, after, by simp, rfl, blank_nil, blank_nil,
      List.all_eq_true.1 hbefore, List.all_eq_true.1 hafter⟩
  have hloop : Relaid (fun n => 2 * n + 1) 1 1 (splitAt '\n' "LOOP 2\nSEND a\nEND".toList)
      (splitAt '\n' "\n# twice\r\n\tLOOP 2\r\n \r\nSEND a \t\n#\nEND".toList) :=
    .insert (hsilent rfl) (.insert (hsilent rfl) (.keep
      (hspaced "LOOP 2".toList ['\t'] ['\r'] rfl rfl) rfl
      (.insert (hsilent rfl) (.keep
        (hspaced "SEND a".toList [] [' ', '\t'] rfl rfl) rfl
        (.insert (hsilent rfl) (.keep (hspaced "END".toList [] [] rfl rfl) rfl .nil))))))
  have hend : Relaid (fun n => 2 * n) 1 1 (splitAt '\n' "SEND a\nEND # done".toList)
      (splitAt '\n' "#\n \tSEND a\r\n\nEND # done".toList) :=
    .insert (hsilent rfl) (.keep
      (hspaced "SEND a".toList [' ', '\t'] ['\r'] rfl rfl) rfl
      (.insert (hsilent rfl) (.keep (hspaced "END # done".toList [] [] rfl rfl) rfl .nil)))
  exact ⟨(layout_irrelevant _ _ _ (not_blank_of_all rfl) hloop).2.1 _ rfl,
    ((layout_irrelevant _ _ _ (not_blank_of_all rfl) hend).2.2 _ rfl).1⟩

end Script

end SerialConsole
