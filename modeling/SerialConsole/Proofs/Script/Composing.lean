import SerialConsole.Proofs.Script.Spelling

set_option autoImplicit false

/-!
# Scripts in scripts

A tree that is laid out elsewhere has the same commands, with the places moved, and a tree that is
written on other lines has the same commands, with the numbers changed. So an accepted script stays
what it is behind another one and inside of a LOOP (`parse_composes`).
-/
namespace SerialConsole.Script

open Text

/-! ## Other places and other lines -/

namespace Command

/-- The command as it stands in a row that begins at place `base`. -/
def relocate (base : Nat) : Command → Command
  | loop count endAt line => loop count (endAt + base) line
  | loopEnd startAt line => loopEnd (startAt + base) line
  | other => other

/-- The command with another line number. -/
def renumber (number : Nat → Nat) : Command → Command
  | send value line => send value (number line)
  | delay ms line => delay ms (number line)
  | loop count endAt line => loop count endAt (number line)
  | loopEnd startAt line => loopEnd startAt (number line)
  | unknown name => unknown name

end Command

namespace Block

/-- The tree with other line numbers. -/
def renumber (number : Nat → Nat) : Block → Block
  | done => done
  | send value line rest => send value (number line) (rest.renumber number)
  | delay ms line rest => delay ms (number line) (rest.renumber number)
  | loop count line body endLine rest =>
    loop count (number line) (body.renumber number) (number endLine) (rest.renumber number)

@[simp] theorem size_renumber (number : Nat → Nat) (b : Block) :
    (b.renumber number).size = b.size := by
  induction b with
  | done => rfl
  | send value line rest ih | delay ms line rest ih => rw [renumber, size, size, ih]
  | loop count line body endLine rest ihb ihr => rw [renumber, size, size, ihb, ihr]

theorem commands_renumber (number : Nat → Nat) (b : Block) (start : Nat) :
    (b.renumber number).commands start = (b.commands start).map (Command.renumber number) := by
  induction b generalizing start with
  | done => rfl
  | send value line rest ih | delay ms line rest ih =>
    rw [renumber, commands, commands, ih, List.map_cons]
    rfl
  | loop count line body endLine rest ihb ihr =>
    rw [renumber, commands, commands, ihb, ihr, List.map_cons, List.map_append, List.map_cons,
      size_renumber]
    rfl

theorem commands_relocate (b : Block) (start base : Nat) :
    b.commands (start + base) = (b.commands start).map (Command.relocate base) := by
  induction b generalizing start with
  | done => rfl
  | send value line rest ih | delay ms line rest ih =>
    rw [commands, commands, Nat.add_right_comm, ih, List.map_cons]
    rfl
  | loop count line body endLine rest ihb ihr =>
    rw [commands, commands, List.map_cons, List.map_append, List.map_cons, ← ihb, ← ihr,
      Command.relocate, Command.relocate]
    have hend : start + base + body.size + 1 = start + body.size + 1 + base := by omega
    have hbody : start + base + 1 = start + 1 + base := by omega
    have hrest : start + base + body.size + 2 = start + body.size + 2 + base := by omega
    rw [hend, hbody, hrest, Int.natCast_add _ base, Int.natCast_add start base]

end Block

/-- Lines write the same tree further down, on other lines. -/
theorem Writes.renumber {n : Nat} {lines : List (List Char)} {b : Block} (h : Writes n lines b)
    (k : Nat) : Writes (n + k) lines (b.renumber (· + k)) := by
  induction h with
  | nil => exact .nil
  | silent hline _ ih => exact .silent hline (Nat.add_right_comm _ 1 k ▸ ih)
  | send hline _ ih => exact .send hline (Nat.add_right_comm _ 1 k ▸ ih)
  | delay hline _ ih => exact .delay hline (Nat.add_right_comm _ 1 k ▸ ih)
  | @loop n raw last count inside rest body b hline _ hlast _ ihbody ihrest =>
    rw [Nat.add_right_comm] at ihbody
    rw [show n + inside.length + 2 + k = n + k + inside.length + 2 by omega] at ihrest
    have hloop := Writes.loop hline ihbody hlast ihrest
    rwa [show n + k + inside.length + 1 = n + inside.length + 1 + k by omega] at hloop

/-! ## Composition -/

/-- The commands of a script that stands behind `lines` lines and `base` commands. -/
def moved (base lines : Nat) (commands : List Command) : List Command :=
  commands.map fun c => (c.renumber (· + lines)).relocate base

theorem commands_moved (b : Block) (base lines : Nat) :
    (b.renumber (· + lines)).commands base = moved base lines (b.commands 0) := by
  rw [← Nat.zero_add base, Block.commands_relocate, Block.commands_renumber, List.map_map]
  simp only [moved, Nat.zero_add, Function.comp_def]

theorem blank_append_cons {front behind : List Char} {c : Char} :
    Blank (front ++ c :: behind) ↔ Blank front ∧ isBlank c = true ∧ Blank behind := by
  rw [blank_append, blank_cons]

theorem parse_behind {first second : List Char} {commands others : List Command}
    (h : parse first = .ok commands) (h' : parse second = .ok others) :
    parse (first ++ '\n' :: second) =
      .ok (commands ++ moved commands.length (splitAt '\n' first).length others) := by
  obtain ⟨hblank, b, hfirst, rfl⟩ := parse_eq_ok_iff.1 h
  obtain ⟨-, c, hsecond, rfl⟩ := parse_eq_ok_iff.1 h'
  refine parse_eq_ok_iff.2 ⟨fun hall => hblank (blank_append_cons.1 hall).1,
    b.append (c.renumber (· + (splitAt '\n' first).length)), ?_, ?_⟩
  · rw [splitAt_append_cons]
    exact hfirst.append (hsecond.renumber _)
  · rw [Block.commands_append, Nat.zero_add, Block.commands_length, commands_moved]

/-- The script inside of a LOOP. -/
def looped (count : Int) (script : List Char) : List Char :=
  Keyword.loop.line (decimal count) ++ '\n' :: (script ++ '\n' :: endLine)

theorem splitAt_looped {count : Int} (hlow : 1 ≤ count) (script : List Char) :
    splitAt '\n' (looped count script) =
      Keyword.loop.line (decimal count) :: (splitAt '\n' script ++ [endLine]) := by
  have hline : '\n' ∉ Keyword.loop.line (decimal count) :=
    Keyword.newline_not_mem_line (newline_not_mem_decimal (by omega))
  have hend : '\n' ∉ endLine := by decide
  rw [looped, splitAt_append _ hline, splitAt_append_cons, splitAt_of_not_mem hend]

theorem parse_looped {count : Int} {script : List Char} {commands : List Command}
    (hlow : 1 ≤ count) (hhigh : count ≤ 10000) (h : parse script = .ok commands) :
    parse (looped count script) =
      .ok (.loop count (commands.length + 1) 1 :: moved 1 1 commands ++
        [.loopEnd 0 ((splitAt '\n' script).length + 2)]) := by
  obtain ⟨hblank, b, hlines, rfl⟩ := parse_eq_ok_iff.1 h
  refine parse_eq_ok_iff.2 ⟨fun hall => hblank ?_,
    .loop count 1 (b.renumber (· + 1)) (1 + (splitAt '\n' script).length + 1) .done, ?_, ?_⟩
  · exact (blank_append_cons.1 (blank_append_cons.1 hall).2.2).1
  · rw [splitAt_looped hlow]
    exact .loop (tells_loop hlow hhigh) (hlines.renumber 1) tells_end .nil
  · rw [Block.commands, Nat.zero_add, Nat.zero_add, commands_moved, Block.size_renumber,
      Block.commands_length]
    simp [Block.commands, Nat.add_comm 1]

/-- An accepted script behind another one is read as it is alone, with its places and line numbers
moved; and so is one in a LOOP, whose END pairs with it. -/
theorem parse_composes :
    (∀ first second commands others, parse first = .ok commands → parse second = .ok others →
      parse (first ++ '\n' :: second) =
        .ok (commands ++ moved commands.length (splitAt '\n' first).length others)) ∧
    ∀ count script commands, 1 ≤ count → count ≤ 10000 → parse script = .ok commands →
      parse (looped count script) =
        .ok (.loop count (commands.length + 1) 1 :: moved 1 1 commands ++
          [.loopEnd 0 ((splitAt '\n' script).length + 2)]) :=
  ⟨fun _ _ _ _ => parse_behind, fun _ _ _ => parse_looped⟩

/-- A loop behind a loop, with a comment in front of it, and both in a loop. -/
theorem parse_composes_loops :
    parse "LOOP 2\nSEND \"a\"\nEND\n".toList =
        .ok [.loop 2 2 1, .send "a" 2, .loopEnd 0 3] ∧
      parse "# wait\nLOOP 3\nDELAY 5\nEND".toList =
        .ok [.loop 3 2 2, .delay 5 3, .loopEnd 0 4] ∧
      parse "LOOP 2\nSEND \"a\"\nEND\n\n# wait\nLOOP 3\nDELAY 5\nEND".toList =
        .ok [.loop 2 2 1, .send "a" 2, .loopEnd 0 3, .loop 3 5 6, .delay 5 7, .loopEnd 3 8] ∧
      parse "LOOP 10000\n# wait\nLOOP 3\nDELAY 5\nEND\nEND".toList =
        .ok [.loop 10000 4 1, .loop 3 3 3, .delay 5 4, .loopEnd 1 5, .loopEnd 0 6] := by
  have hfirst : parse "LOOP 2\nSEND \"a\"\nEND\n".toList =
      .ok [.loop 2 2 1, .send "a" 2, .loopEnd 0 3] := by rfl
  have hsecond : parse "# wait\nLOOP 3\nDELAY 5\nEND".toList =
      .ok [.loop 3 2 2, .delay 5 3, .loopEnd 0 4] := by rfl
  exact ⟨hfirst, hsecond, parse_composes.1 _ _ _ _ hfirst hsecond,
    parse_composes.2 10000 _ _ (by decide) (by decide) hsecond⟩

end SerialConsole.Script
