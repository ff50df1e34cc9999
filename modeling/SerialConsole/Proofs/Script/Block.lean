import SerialConsole.Script.Parser

set_option autoImplicit false

/-!
# Scripts as trees

A `Block` is a script read as a tree: a row of SEND, DELAY and LOOP nodes, where a LOOP has a body.
`Block.commands` lays a tree out as the flat row of commands with its pairing. The parser reads
every script as the layout of a tree (`parse_eq_commands`): a draft is at any time the layout of the
open LOOPs, each with what stands before it, and of the tree behind the innermost one.
-/
namespace SerialConsole.Script

/-- A script as a tree. A node has the line that it comes from, a LOOP also that of its END. -/
inductive Block where
  | done
  | send (value : String) (line : Nat) (rest : Block)
  | delay (ms : Int) (line : Nat) (rest : Block)
  | loop (count : Int) (line : Nat) (body : Block) (endLine : Nat) (rest : Block)
  deriving DecidableEq, Repr

namespace Block

/-- The number of commands of a tree. -/
def size : Block → Nat
  | done => 0
  | send _ _ rest => rest.size + 1
  | delay _ _ rest => rest.size + 1
  | loop _ _ body _ rest => body.size + rest.size + 2

/-- The commands of a tree whose first command has the place `start`. -/
def commands (start : Nat) : Block → List Command
  | done => []
  | send value line rest => .send value line :: rest.commands (start + 1)
  | delay ms line rest => .delay ms line :: rest.commands (start + 1)
  | loop count line body endLine rest =>
    .loop count ((start + body.size + 1 : Nat) : Int) line ::
      (body.commands (start + 1) ++
        .loopEnd (start : Int) endLine :: rest.commands (start + body.size + 2))

/-- One tree behind another. -/
def append : Block → Block → Block
  | done, next => next
  | send value line rest, next => send value line (rest.append next)
  | delay ms line rest, next => delay ms line (rest.append next)
  | loop count line body endLine rest, next => loop count line body endLine (rest.append next)

@[simp] theorem commands_length (b : Block) (start : Nat) :
    (b.commands start).length = b.size := by
  induction b generalizing start with
  | done => rfl
  | send value line rest ih => simp [commands, size, ih]
  | delay ms line rest ih => simp [commands, size, ih]
  | loop count line body endLine rest ihb ihr =>
    simp only [commands, size, List.length_cons, List.length_append, ihb, ihr]
    omega

theorem size_ne_zero {b : Block} {start : Nat} (h : b.commands start ≠ []) : b.size ≠ 0 := by
  rw [← commands_length b start]
  exact fun hzero => h (List.eq_nil_of_length_eq_zero hzero)

theorem commands_append (b next : Block) (start : Nat) :
    (b.append next).commands start = b.commands start ++ next.commands (start + b.size) := by
  induction b generalizing start with
  | done => simp [append, commands, size]
  | send value line rest ih | delay ms line rest ih =>
    simp only [append, commands, size, ih, List.cons_append]
    rw [show start + 1 + rest.size = start + (rest.size + 1) by omega]
  | loop count line body endLine rest ihb ihr =>
    simp only [append, commands, size, ihr, List.cons_append, List.append_assoc]
    rw [show start + body.size + 2 + rest.size = start + (body.size + rest.size + 2) by omega]

theorem commands_injective {b c : Block} {start : Nat} (h : b.commands start = c.commands start) :
    b = c := by
  induction b generalizing c start with
  | done => cases c <;> simp_all [commands]
  | send value line rest ih =>
    cases c with
    | send value' line' rest' =>
      simp only [commands, List.cons.injEq, Command.send.injEq] at h
      rw [h.1.1, h.1.2, ih h.2]
    | _ => simp [commands] at h
  | delay ms line rest ih =>
    cases c with
    | delay ms' line' rest' =>
      simp only [commands, List.cons.injEq, Command.delay.injEq] at h
      rw [h.1.1, h.1.2, ih h.2]
    | _ => simp [commands] at h
  | loop count line body endLine rest ihb ihr =>
    cases c with
    | loop count' line' body' endLine' rest' =>
      simp only [commands, List.cons.injEq, Command.loop.injEq] at h
      obtain ⟨⟨hcount, hplace, hline⟩, htail⟩ := h
      have hsize : body.size = body'.size := by omega
      obtain ⟨hbody, hend⟩ := List.append_inj htail (by simp [hsize])
      simp only [List.cons.injEq, Command.loopEnd.injEq, ← hsize] at hend
      rw [hcount, hline, hend.1.2, ihb hbody, ihr hend.2]
    | _ => simp [commands] at h

end Block

/-- A LOOP that is still open, and the tree that stands before it. -/
structure Opening where
  before : Block
  count : Int
  line : Nat

/-- The draft after the open LOOPs, the innermost first, and a tree behind the innermost one. -/
def draftOf : List Opening → Block → Draft
  | [], b => ⟨b.commands 0, []⟩
  | o :: outer, b =>
    let d := draftOf outer o.before
    ⟨d.commands ++ .loop o.count (-1) o.line :: b.commands (d.commands.length + 1),
      d.commands.length :: d.opened⟩

theorem draftOf_append (stack : List Opening) (b next : Block) :
    draftOf stack (b.append next) =
      ⟨(draftOf stack b).commands ++ next.commands (draftOf stack b).commands.length,
        (draftOf stack b).opened⟩ := by
  cases stack with
  | nil => simp [draftOf, Block.commands_append]
  | cons o outer =>
    simp only [draftOf, Block.commands_append, List.append_assoc, List.cons_append,
      List.length_append, List.length_cons, Block.commands_length]
    rw [show ∀ n : Nat, n + 1 + b.size = n + (b.size + 1) by omega]

theorem modify_length_append {α : Type} (before after : List α) (x : α) (f : α → α) :
    (before ++ x :: after).modify before.length f = before ++ f x :: after := by
  rw [List.modify_eq_take_drop, List.take_left, List.drop_left]
  rfl

/-- An END makes a node of the innermost open LOOP and of what stands behind it. -/
theorem draftOf_close (o : Opening) (outer : List Opening) (b : Block) (line : Nat) :
    (draftOf (o :: outer) b).add line .loopEnd =
      .ok (draftOf outer (o.before.append (.loop o.count o.line b line .done))) := by
  rw [draftOf_append]
  simp only [draftOf, Draft.add, Block.commands, List.length_append, List.length_cons,
    Block.commands_length, modify_length_append, Command.closeAt, List.append_assoc,
    List.cons_append, Except.ok.injEq, Draft.mk.injEq, and_true]
  rw [Nat.add_assoc]

/-- A statement that a draft takes leaves it the layout of open LOOPs and a tree. -/
theorem draftOf_add {stack : List Opening} {b : Block} {line : Nat} {statement : Statement}
    {next : Draft} (h : (draftOf stack b).add line statement = .ok next) :
    ∃ stack' b', next = draftOf stack' b' := by
  cases statement with
  | send value =>
    refine ⟨stack, b.append (.send (String.ofList value) line .done), ?_⟩
    rw [draftOf_append]
    exact (Except.ok.inj h).symm
  | delay ms =>
    refine ⟨stack, b.append (.delay ms line .done), ?_⟩
    rw [draftOf_append]
    exact (Except.ok.inj h).symm
  | loop count => exact ⟨⟨b, count, line⟩ :: stack, .done, (Except.ok.inj h).symm⟩
  | loopEnd =>
    cases stack with
    | nil => cases h
    | cons o outer =>
      rw [draftOf_close] at h
      exact ⟨outer, _, (Except.ok.inj h).symm⟩

/-- What reading a line can do to a draft. -/
theorem Draft.read_cases {draft next : Draft} {line : Nat} {raw : List Char}
    (h : draft.read line raw = .ok next) :
    (isSilent (Text.trim raw) = true ∧ next = draft) ∨
      ∃ statement, isSilent (Text.trim raw) = false ∧
        readStatement line (Text.trim raw) = .ok statement ∧
        draft.add line statement = .ok next := by
  rw [Draft.read] at h
  cases hsilent : isSilent (Text.trim raw) with
  | true =>
    simp only [hsilent, if_true] at h
    exact Or.inl ⟨rfl, (Except.ok.inj h).symm⟩
  | false =>
    simp only [hsilent, Bool.false_eq_true, if_false] at h
    cases hread : readStatement line (Text.trim raw) with
    | error fault =>
      rw [hread] at h
      cases h
    | ok statement =>
      rw [hread] at h
      exact Or.inr ⟨statement, rfl, rfl, h⟩

/-- A property of drafts that reading a line keeps holds of the draft of all lines. -/
theorem Draft.readAll_induct {P : Nat → Draft → Prop} {lines : List (List Char)} {line : Nat}
    {draft final : Draft} (h : draft.readAll line lines = .ok final) (start : P line draft)
    (keep : ∀ k d next raw, lines[k]? = some raw → P (line + k) d →
      d.read (line + k) raw = .ok next → P (line + k + 1) next) :
    P (line + lines.length) final := by
  induction lines generalizing line draft with
  | nil =>
    cases h
    exact start
  | cons raw rest ih =>
    rw [Draft.readAll] at h
    cases hread : draft.read line raw with
    | error fault =>
      rw [hread] at h
      cases h
    | ok next =>
      rw [hread] at h
      have hnext : P (line + 1) next := keep 0 draft next raw rfl start hread
      have hfinal := ih h hnext fun k d e r hr hp hd => by
        rw [show line + 1 + k = line + (k + 1) by omega] at hp hd ⊢
        exact keep (k + 1) d e r hr hp hd
      rwa [List.length_cons, Nat.add_comm rest.length 1, ← Nat.add_assoc]

/-- What stands behind an accepted script: a draft of all lines without an open LOOP. -/
theorem parse_cases {script : List Char} {commands : List Command}
    (h : parse script = .ok commands) :
    Draft.readAll {} 1 (Text.splitAt '\n' script) = .ok ⟨commands, []⟩ := by
  rw [parse] at h
  split at h
  · cases h
  · split at h
    case h_1 draft hread =>
      rw [Draft.finish] at h
      split at h
      case h_1 hopened =>
        cases h
        rw [hread, ← hopened]
      case h_2 => cases h
    case h_2 => cases h

/-- The parser reads every script as the layout of a tree. -/
theorem parse_eq_commands {script : List Char} {commands : List Command}
    (h : parse script = .ok commands) : ∃ b : Block, commands = b.commands 0 := by
  obtain ⟨stack, b, hdraft⟩ := Draft.readAll_induct
    (P := fun _ d => ∃ stack b, d = draftOf stack b) (parse_cases h) ⟨[], .done, rfl⟩ (by
      rintro k _ next raw _ ⟨stack, b, rfl⟩ hread
      rcases Draft.read_cases hread with ⟨_, rfl⟩ | ⟨statement, _, _, hadd⟩
      · exact ⟨stack, b, rfl⟩
      · exact draftOf_add hadd)
  cases stack with
  | nil => exact ⟨b, congrArg Draft.commands hdraft⟩
  | cons o outer => cases congrArg Draft.opened hdraft

end SerialConsole.Script
