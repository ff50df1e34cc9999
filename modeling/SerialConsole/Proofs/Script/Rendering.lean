import SerialConsole.Proofs.Script.Composing

set_option autoImplicit false

/-!
# Writing commands down

Commands in which the LOOPs and ENDs are paired are the layout of a tree (`Paired.exists_tree`), and
a tree of commands that are in range is written by one line for each command. So every such row of
commands is the meaning of a script, and the commands of a script can be written down and read again
(`parse_render`).
-/
namespace SerialConsole.Script

open Text

/-! ## Rows of commands as trees -/

/-- The LOOPs and ENDs of a row of commands are paired, and two LOOPs are nested or apart. -/
structure Paired (commands : List Command) : Prop where
  loop_closed : ∀ (i : Nat) (count endAt : Int) (line : Nat),
    commands[i]? = some (.loop count endAt line) →
      ∃ j : Nat, endAt = j ∧ i < j ∧ ∃ endLine, commands[j]? = some (.loopEnd i endLine)
  end_opened : ∀ (j : Nat) (startAt : Int) (line : Nat),
    commands[j]? = some (.loopEnd startAt line) →
      ∃ i : Nat, startAt = i ∧ ∃ count loopLine, commands[i]? = some (.loop count j loopLine)
  nested_or_apart : ∀ (i i' : Nat) (count count' endAt endAt' : Int) (line line' : Nat), i < i' →
    commands[i]? = some (.loop count endAt line) →
      commands[i']? = some (.loop count' endAt' line') → endAt < i' ∨ endAt' < endAt

/-- A tree is laid out as a row of paired commands. -/
theorem Block.paired (b : Block) : Paired (b.commands 0) where
  loop_closed i count endAt line h := by simpa using b.loop_closed 0 i count endAt line h
  end_opened j startAt line h := by simpa using b.end_opened 0 j startAt line h
  nested_or_apart i i' count count' endAt endAt' line line' hlt h h' := by
    simpa using b.nested_or_apart 0 i i' count count' endAt endAt' line line' hlt h h'

/-- The part of a row from one place up to another that no LOOP leaves and no END enters. -/
structure Piece (commands : List Command) (start stop : Nat) : Prop where
  stop_le : stop ≤ commands.length
  loops_end : ∀ (i : Nat) (count endAt : Int) (line : Nat), start ≤ i → i < stop →
    commands[i]? = some (.loop count endAt line) → endAt < stop
  ends_start : ∀ (j : Nat) (startAt : Int) (line : Nat), start ≤ j → j < stop →
    commands[j]? = some (.loopEnd startAt line) → start ≤ startAt

namespace Piece

variable {commands : List Command} {start stop stopAt : Nat} {count : Int} {line : Nat}

/-- An END in a piece that is not the one of the first command belongs to a LOOP behind that. -/
theorem later_start (h : Paired commands) (hp : Piece commands start stop) {j endLine : Nat}
    {startAt : Int} (hj : start < j) (hstop : j < stop)
    (hend : commands[j]? = some (.loopEnd startAt endLine))
    (hother : ∀ count line, commands[start]? ≠ some (.loop count j line)) :
    start + 1 ≤ startAt := by
  have hle := hp.ends_start j startAt endLine (Nat.le_of_lt hj) hstop hend
  obtain ⟨i, rfl, count, loopLine, hi⟩ := h.end_opened j startAt endLine hend
  have hne : i ≠ start := by
    rintro rfl
    exact hother count loopLine hi
  omega

/-- A piece without its first command, if that is not a LOOP. -/
theorem tail (h : Paired commands) (hp : Piece commands start stop) {c : Command}
    (hc : commands[start]? = some c) (hloop : ∀ count endAt line, c ≠ .loop count endAt line) :
    Piece commands (start + 1) stop where
  stop_le := hp.stop_le
  loops_end i count endAt line hi := hp.loops_end i count endAt line (Nat.le_of_succ_le hi)
  ends_start j startAt endLine hj hstop hend := by
    refine later_start h hp hj hstop hend fun count line hi => ?_
    exact hloop count j line (Option.some.inj (hc.symm.trans hi))

/-- A LOOP at the start of a piece has no other END than its own. -/
theorem not_other_end (hc : commands[start]? = some (.loop count stopAt line)) {j : Nat}
    (hj : j ≠ stopAt) (count' : Int) (line' : Nat) :
    commands[start]? ≠ some (.loop count' j line') := by
  intro hi
  cases hc.symm.trans hi
  omega

/-- The commands between a LOOP and its END. -/
theorem body (h : Paired commands) (hp : Piece commands start stop) (hstop : stopAt < stop)
    (hc : commands[start]? = some (.loop count stopAt line)) :
    Piece commands (start + 1) stopAt where
  stop_le := Nat.le_of_lt (Nat.lt_of_lt_of_le hstop hp.stop_le)
  loops_end i count' endAt' line' hi his hloop := by
    have := h.nested_or_apart start i _ _ _ _ _ _ hi hc hloop
    omega
  ends_start j startAt endLine hj hjs hend :=
    later_start h hp hj (Nat.lt_trans hjs hstop) hend (not_other_end hc (Nat.ne_of_lt hjs))

/-- The commands behind the END of the first LOOP. -/
theorem behind (h : Paired commands) (hp : Piece commands start stop) (hlt : start < stopAt)
    (hc : commands[start]? = some (.loop count stopAt line))
    {endLine : Nat} (hclosed : commands[stopAt]? = some (.loopEnd start endLine)) :
    Piece commands (stopAt + 1) stop where
  stop_le := hp.stop_le
  loops_end i count' endAt' line' hi := hp.loops_end i count' endAt' line' (by omega)
  ends_start j startAt endLine hj hstop hend := by
    have hle := later_start h hp (Nat.lt_trans hlt hj) hstop hend
      (not_other_end hc (Nat.ne_of_gt hj))
    -- its LOOP is not in the body, as it would cross the first one there
    obtain ⟨i, rfl, count', loopLine, hi⟩ := h.end_opened j startAt endLine hend
    have hne : i ≠ stopAt := by
      rintro rfl
      cases hclosed.symm.trans hi
    have := h.nested_or_apart start i _ _ _ _ _ _ (by omega) hc hi
    omega

theorem segment_cons {c : Command} (hlt : start < stop) (hc : commands[start]? = some c) :
    (commands.take stop).drop start = c :: (commands.take stop).drop (start + 1) := by
  obtain ⟨hlength, rfl⟩ := List.getElem?_eq_some_iff.1 hc
  rw [List.drop_eq_getElem_cons (by rw [List.length_take]; omega), List.getElem_take]

theorem segment_append {middle : Nat} (hstart : start ≤ middle) (hstop : middle ≤ stop)
    (hlength : middle ≤ commands.length) : (commands.take stop).drop start =
      (commands.take middle).drop start ++ (commands.take stop).drop middle := by
  have htake : (commands.take stop).take middle = commands.take middle := by
    rw [List.take_take, Nat.min_eq_left hstop]
  rw [← htake, ← List.drop_append_of_le_length (by rw [List.length_take, List.length_take]; omega),
    List.take_append_drop]

/-- A piece of a row is the layout of a tree. -/
theorem exists_tree (h : Paired commands) (hrange : ∀ c ∈ commands, c.InRange)
    (hp : Piece commands start stop) :
    ∃ b : Block, (commands.take stop).drop start = b.commands start := by
  -- on the length of the piece; a LOOP splits it into its body and what is behind its END
  induction hsize : stop - start using Nat.strongRecOn generalizing start stop with
  | ind size ih =>
    subst hsize
    by_cases hlt : start < stop
    · obtain ⟨c, hc⟩ : ∃ c, commands[start]? = some c :=
        ⟨_, List.getElem?_eq_getElem (Nat.lt_of_lt_of_le hlt hp.stop_le)⟩
      rw [segment_cons hlt hc]
      cases c with
      | send value line =>
        obtain ⟨b, hb⟩ := ih _ (by omega) (hp.tail h hc (by simp)) rfl
        exact ⟨.send value line b, by rw [hb, Block.commands]⟩
      | delay ms line =>
        obtain ⟨b, hb⟩ := ih _ (by omega) (hp.tail h hc (by simp)) rfl
        exact ⟨.delay ms line b, by rw [hb, Block.commands]⟩
      | loop count endAt line =>
        obtain ⟨stopAt, rfl, hopen, endLine, hend⟩ := h.loop_closed start count endAt line hc
        have hstop : stopAt < stop := by
          have := hp.loops_end start count stopAt line (Nat.le_refl _) hlt hc
          omega
        obtain ⟨inside, hinside⟩ := ih _ (by omega) (hp.body h hstop hc) rfl
        obtain ⟨rest, hrest⟩ := ih _ (by omega) (hp.behind h hopen hc hend) rfl
        have hsize : start + inside.size + 1 = stopAt := by
          rw [← Block.commands_length inside (start + 1), ← hinside, List.length_drop,
            List.length_take]
          have := hp.stop_le
          omega
        refine ⟨.loop count line inside endLine rest, ?_⟩
        rw [segment_append hopen (Nat.le_of_lt hstop)
            (Nat.le_of_lt (Nat.lt_of_lt_of_le hstop hp.stop_le)),
          segment_cons hstop hend, hinside, hrest, Block.commands, ← hsize]
      | loopEnd startAt line =>
        -- its LOOP stands before the piece
        have hle := hp.ends_start start startAt line (Nat.le_refl _) hlt hc
        obtain ⟨i, rfl, count, loopLine, hi⟩ := h.end_opened start startAt line hc
        obtain ⟨j, hj, hij, -⟩ := h.loop_closed i count start loopLine hi
        omega
      | unknown name => exact (hrange _ (List.mem_of_getElem? hc)).elim
    · exact ⟨.done, List.drop_eq_nil_of_le (by rw [List.length_take]; omega)⟩

end Piece

/-- Paired commands are the layout of a tree. -/
theorem Paired.exists_tree {commands : List Command} (h : Paired commands)
    (hrange : ∀ c ∈ commands, c.InRange) : ∃ b : Block, commands = b.commands 0 := by
  have hall : Piece commands 0 commands.length :=
    { stop_le := Nat.le_refl _
      loops_end := fun i count endAt line _ _ hi => by
        obtain ⟨j, rfl, -, endLine, hj⟩ := h.loop_closed i count endAt line hi
        exact Int.ofNat_lt.2 (List.getElem?_eq_some_iff.1 hj).1
      ends_start := fun j startAt line _ _ hj => by
        obtain ⟨i, rfl, -⟩ := h.end_opened j startAt line hj
        exact Int.natCast_nonneg i }
  obtain ⟨b, hb⟩ := hall.exists_tree h hrange
  exact ⟨b, by rwa [List.take_length, List.drop_zero] at hb⟩

/-! ## One line for each command -/

/-- The commands as they come from a script with one line for each, from line `n` on. -/
def onLines (n : Nat) (commands : List Command) : List Command :=
  (commands.zipIdx n).map fun numbered => numbered.1.renumber fun _ => numbered.2

theorem onLines_cons (n : Nat) (c : Command) (rest : List Command) :
    onLines n (c :: rest) = c.renumber (fun _ => n) :: onLines (n + 1) rest := rfl

theorem onLines_append (n : Nat) (commands others : List Command) :
    onLines n (commands ++ others) =
      onLines n commands ++ onLines (n + commands.length) others := by
  rw [onLines, List.zipIdx_append, List.map_append, onLines, onLines, Nat.add_comm n]

/-- The tree with one line for each command, from line `n` on. -/
def Block.onLines (n : Nat) : Block → Block
  | done => done
  | send value _ rest => send value n (rest.onLines (n + 1))
  | delay ms _ rest => delay ms n (rest.onLines (n + 1))
  | loop count _ body _ rest =>
    loop count n (body.onLines (n + 1)) (n + body.size + 1) (rest.onLines (n + body.size + 2))

theorem Block.size_onLines (b : Block) (n : Nat) : (b.onLines n).size = b.size := by
  induction b generalizing n with
  | done => rfl
  | send value line rest ih | delay ms line rest ih => rw [onLines, size, size, ih]
  | loop count line body endLine rest ihb ihr => rw [onLines, size, size, ihb, ihr]

theorem Block.commands_onLines (b : Block) (n start : Nat) :
    (b.onLines n).commands start = Script.onLines n (b.commands start) := by
  induction b generalizing n start with
  | done => rfl
  | send value line rest ih | delay ms line rest ih =>
    rw [onLines, commands, ih, commands, onLines_cons]
    rfl
  | loop count line body endLine rest ihb ihr =>
    rw [onLines, commands, ihb, ihr, commands, onLines_cons, onLines_append, onLines_cons,
      commands_length, size_onLines, Nat.add_right_comm n 1]
    rfl

/-- The lines of commands that are in range write their tree. -/
theorem writes_text (b : Block) (n start : Nat) (hrange : ∀ c ∈ b.commands start, c.InRange) :
    Writes n ((b.commands start).map Command.text) (b.onLines n) := by
  induction b generalizing n start with
  | done => exact .nil
  | send value line rest ih =>
    rw [Block.commands] at hrange ⊢
    obtain ⟨⟨hvalue, _⟩, hrest⟩ := List.forall_mem_cons.1 hrange
    have hdata : value.toList ≠ [] := by simpa using hvalue
    have hsend := Writes.send (tells_send hdata) (ih (n + 1) (start + 1) hrest)
    rwa [String.ofList_toList] at hsend
  | delay ms line rest ih =>
    rw [Block.commands] at hrange ⊢
    obtain ⟨hms, hrest⟩ := List.forall_mem_cons.1 hrange
    exact .delay (tells_delay hms.1 hms.2) (ih (n + 1) (start + 1) hrest)
  | loop count line body endLine rest ihb ihr =>
    rw [Block.commands] at hrange ⊢
    obtain ⟨hcount, hinside⟩ := List.forall_mem_cons.1 hrange
    obtain ⟨hbody, hend⟩ := List.forall_mem_append.1 hinside
    have hlength : ((body.commands (start + 1)).map Command.text).length = body.size := by
      rw [List.length_map, Block.commands_length]
    have hloop := Writes.loop (tells_loop hcount.1 hcount.2) (ihb (n + 1) (start + 1) hbody)
      tells_end (ihr _ (start + body.size + 2) (List.forall_mem_cons.1 hend).2)
    rw [hlength] at hloop
    rwa [List.map_cons, List.map_append, List.map_cons]

/-- The script with one line for each command. -/
def render (commands : List Command) : List Char :=
  joinWith ['\n'] (commands.map Command.text)

theorem splitAt_render {commands : List Command} (hsome : commands ≠ [])
    (hrange : ∀ c ∈ commands, c.InRange) :
    splitAt '\n' (render commands) = commands.map Command.text :=
  splitAt_joinWith (by simpa using hsome)
    (List.forall_mem_map.2 fun c hc => Command.newline_not_mem_text (hrange c hc))

theorem parse_render {commands : List Command} (hsome : commands ≠ []) (hpaired : Paired commands)
    (hrange : ∀ c ∈ commands, c.InRange) :
    parse (render commands) = .ok (onLines 1 commands) := by
  obtain ⟨b, rfl⟩ := hpaired.exists_tree hrange
  have hlines := writes_text b 1 0 hrange
  rw [← splitAt_render hsome hrange] at hlines
  refine parse_eq_ok_iff.2 ⟨fun hblank => ?_, b.onLines 1, hlines, (b.commands_onLines 1 0).symm⟩
  obtain ⟨c, hc⟩ := List.exists_mem_of_ne_nil _ hsome
  refine Command.not_blank_text (hrange c hc) (blank_of_mem_splitAt hblank ?_)
  rw [splitAt_render hsome hrange]
  exact List.mem_map_of_mem hc

/-- Paired commands that are in range are the meaning of the script with one line for each of them.
So the commands of a script are found again in what they are written down as. -/
theorem render_read_back :
    (∀ commands, commands ≠ [] → Paired commands → (∀ c ∈ commands, c.InRange) →
      parse (render commands) = .ok (onLines 1 commands)) ∧
    ∀ script commands, parse script = .ok commands → commands ≠ [] →
      parse (render commands) = .ok (onLines 1 commands) := by
  refine ⟨fun _ => parse_render, fun script commands h hsome => ?_⟩
  obtain ⟨-, b, -, rfl⟩ := parse_eq_ok_iff.1 h
  exact parse_render hsome b.paired (readUpTo_parse h).in_range

/-- Nested loops around texts that look like something else, and a script with other lines. -/
theorem render_read_back_quoted :
    parse "LOOP 10000\nLOOP 1\nSEND \"\" # \r\"\nEND\nSEND \"END\"\nDELAY 0\nEND".toList =
        .ok [.loop 10000 6 1, .loop 1 3 2, .send "\" # \r" 3, .loopEnd 1 4, .send "END" 5,
          .delay 0 6, .loopEnd 0 7] ∧
      parse "LOOP +2\r\n\n  # note\nSEND it's '\nEND".toList =
        .ok [.loop 2 2 1, .send "it's " 4, .loopEnd 0 5] ∧
      parse "LOOP 2\nSEND \"it's \"\nEND".toList =
        .ok [.loop 2 2 1, .send "it's " 2, .loopEnd 0 3] := by
  have hscript : parse "LOOP +2\r\n\n  # note\nSEND it's '\nEND".toList =
      .ok [.loop 2 2 1, .send "it's " 4, .loopEnd 0 5] := by rfl
  have hpaired := (Block.loop 10000 0 (.loop 1 0 (.send "\" # \r" 0 .done) 0
    (.send "END" 0 (.delay 0 0 .done))) 0 .done).paired
  exact ⟨render_read_back.1 _ (by simp [Block.commands]) hpaired
    (by simp [Block.commands, Command.InRange]), hscript, render_read_back.2 _ _ hscript (by simp)⟩

end SerialConsole.Script
