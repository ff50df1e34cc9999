import SerialConsole.Proofs.Script.Verdict

set_option autoImplicit false

/-!
# Lines that write a tree

`Writes` is the grammar of scripts as a grammar of trees: which lines write which tree. Lines in
which some LOOPs are still open are those LOOPs with a written tree before and behind each of them
(`Unclosed`). Reading gives a draft exactly if the lines are of this form, and the draft is their
layout (`readAll_eq_ok_iff`); a script is accepted exactly if its lines write a tree
(`parse_eq_ok_iff`).
-/
namespace SerialConsole.Script

open Text

/-! ## What a line tells -/

/-- What a line says, if it can be read: a number in it is not too long. -/
def Tells (raw : List Char) (said : Option Statement) : Prop :=
  LineSays raw said ∧ ShortNumber (trim raw)

theorem tells_none_iff {raw : List Char} : Tells raw none ↔ isSilent (trim raw) = true := by
  constructor
  · exact fun h => says_none_iff.1 (lineSays_iff.1 h.1)
  · intro hsilent
    refine ⟨lineSays_iff.2 (says_none_iff.2 hsilent), Classical.byContradiction fun hlong => ?_⟩
    obtain ⟨digits, hdigits⟩ := not_shortNumber_iff.1 hlong
    rw [hdigits.not_silent] at hsilent
    cases hsilent

theorem tells_some_iff (line : Nat) {raw : List Char} {statement : Statement} :
    Tells raw (some statement) ↔
      isSilent (trim raw) = false ∧ readStatement line (trim raw) = .ok statement := by
  have hreading := readStatement_reading line (bare_trim raw)
  constructor
  · rintro ⟨hline, hshort⟩
    have hsaid := lineSays_iff.1 hline
    refine ⟨hsaid.not_silent, ?_⟩
    cases hread : readStatement line (trim raw) with
    | ok other =>
      rw [hread] at hreading
      cases hreading with
      | read hother => rw [hother.unique (bare_trim raw) hsaid]
    | error fault =>
      rw [hread] at hreading
      cases hreading with
      | outOfRange hout => exact absurd hout (hsaid.not_outOfRange (bare_trim raw))
      | long digits hlong => exact absurd hshort hlong
      | malformed hno => exact absurd hsaid (hno statement)
  · rintro ⟨_, hread⟩
    rw [hread] at hreading
    cases hreading with
    | read hsaid =>
      refine ⟨lineSays_iff.2 hsaid, Classical.byContradiction fun hlong => ?_⟩
      obtain ⟨digits, hdigits⟩ := not_shortNumber_iff.1 hlong
      cases hread.symm.trans ((readStatement_long_iff line (bare_trim raw)).2 hdigits)

namespace Draft

theorem read_silent {draft : Draft} {line : Nat} {raw : List Char} (h : Tells raw none) :
    draft.read line raw = .ok draft := by
  rw [read, tells_none_iff.1 h, if_pos rfl]

theorem read_tells {draft : Draft} {line : Nat} {raw : List Char} {statement : Statement}
    (h : Tells raw (some statement)) : draft.read line raw = draft.add line statement := by
  obtain ⟨hspoken, hread⟩ := (tells_some_iff line).1 h
  simp [read, hspoken, hread]

/-- A line that is read tells nothing and leaves the draft alone, or tells a statement that the
draft takes. -/
theorem tells_of_read {draft next : Draft} {line : Nat} {raw : List Char}
    (h : draft.read line raw = .ok next) : (Tells raw none ∧ next = draft) ∨
      ∃ statement, Tells raw (some statement) ∧ draft.add line statement = .ok next := by
  rcases read_cases h with ⟨hsilent, hsame⟩ | ⟨statement, hspoken, hread, hadd⟩
  · exact Or.inl ⟨tells_none_iff.2 hsilent, hsame⟩
  · exact Or.inr ⟨statement, (tells_some_iff line).2 ⟨hspoken, hread⟩, hadd⟩

theorem readAll_cons {draft next : Draft} {line : Nat} {raw : List Char} {rest : List (List Char)}
    (h : draft.read line raw = .ok next) :
    draft.readAll line (raw :: rest) = next.readAll (line + 1) rest := by
  rw [readAll, h]

end Draft

/-! ## Written trees -/

namespace Block

theorem append_assoc (a b c : Block) : (a.append b).append c = a.append (b.append c) := by
  induction a with
  | done => rfl
  | send value line rest ih | delay ms line rest ih => rw [append, append, append, ih]
  | loop count line body endLine rest _ ih => rw [append, append, append, ih]

theorem append_done (b : Block) : b.append done = b := by
  induction b with
  | done => rfl
  | send value line rest ih | delay ms line rest ih => rw [append, ih]
  | loop count line body endLine rest _ ih => rw [append, ih]

end Block

/-- The lines, of which the first one has the number `n`, write a tree. -/
inductive Writes : Nat → List (List Char) → Block → Prop where
  | nil {n : Nat} : Writes n [] .done
  | silent {n : Nat} {raw : List Char} {rest : List (List Char)} {b : Block} :
      Tells raw none → Writes (n + 1) rest b → Writes n (raw :: rest) b
  | send {n : Nat} {raw data : List Char} {rest : List (List Char)} {b : Block} :
      Tells raw (some (.send data)) → Writes (n + 1) rest b →
        Writes n (raw :: rest) (.send (String.ofList data) n b)
  | delay {n : Nat} {raw : List Char} {ms : Int} {rest : List (List Char)} {b : Block} :
      Tells raw (some (.delay ms)) → Writes (n + 1) rest b →
        Writes n (raw :: rest) (.delay ms n b)
  | loop {n : Nat} {raw last : List Char} {count : Int} {inside rest : List (List Char)}
      {body b : Block} :
      Tells raw (some (.loop count)) → Writes (n + 1) inside body → Tells last (some .loopEnd) →
        Writes (n + inside.length + 2) rest b →
          Writes n (raw :: (inside ++ last :: rest))
            (.loop count n body (n + inside.length + 1) b)

/-- The number behind some lines, of which the first one has the number `n`. -/
theorem number_behind_line (n : Nat) (raw : List Char) (rest : List (List Char)) :
    n + (raw :: rest).length = n + 1 + rest.length := by
  rw [List.length_cons]
  omega

theorem number_behind_loop (n : Nat) (raw last : List Char) (inside rest : List (List Char)) :
    n + (raw :: (inside ++ last :: rest)).length = n + inside.length + 2 + rest.length := by
  rw [List.length_cons, List.length_append, List.length_cons]
  omega

namespace Writes

variable {n : Nat} {lines more : List (List Char)} {b c : Block}

theorem append (h : Writes n lines b) (hmore : Writes (n + lines.length) more c) :
    Writes n (lines ++ more) (b.append c) := by
  induction h with
  | nil => exact hmore
  | silent hline _ ih => exact .silent hline (ih (number_behind_line _ _ _ ▸ hmore))
  | send hline _ ih => exact .send hline (ih (number_behind_line _ _ _ ▸ hmore))
  | delay hline _ ih => exact .delay hline (ih (number_behind_line _ _ _ ▸ hmore))
  | @loop n raw last count inside rest body b hline hinside hlast _ _ ih =>
    have hall := loop hline hinside hlast (ih (number_behind_loop _ _ _ _ _ ▸ hmore))
    rwa [List.cons_append, List.append_assoc, List.cons_append]

/-- Reading lines that write a tree puts the tree behind what a draft has already. -/
theorem readAll (h : Writes n lines b) (stack : List Opening) (before : Block)
    (more : List (List Char)) :
    (draftOf stack before).readAll n (lines ++ more) =
      (draftOf stack (before.append b)).readAll (n + lines.length) more := by
  induction h generalizing stack before more with
  | nil => rw [Block.append_done, List.nil_append, List.length_nil, Nat.add_zero]
  | silent hline _ ih =>
    rw [List.cons_append, Draft.readAll_cons (Draft.read_silent hline), ih, number_behind_line]
  | @send n raw data rest b hline _ ih =>
    have hread : (draftOf stack before).read n raw =
        .ok (draftOf stack (before.append (.send (String.ofList data) n .done))) := by
      rw [Draft.read_tells hline, draftOf_append]
      rfl
    rw [List.cons_append, Draft.readAll_cons hread, ih, Block.append_assoc, number_behind_line]
    rfl
  | @delay n raw ms rest b hline _ ih =>
    have hread : (draftOf stack before).read n raw =
        .ok (draftOf stack (before.append (.delay ms n .done))) := by
      rw [Draft.read_tells hline, draftOf_append]
      rfl
    rw [List.cons_append, Draft.readAll_cons hread, ih, Block.append_assoc, number_behind_line]
    rfl
  | @loop n raw last count inside rest body b hline _ hlast _ ihbody ihrest =>
    -- the LOOP is open while its body is read
    have hread : (draftOf stack before).read n raw =
        .ok (draftOf (⟨before, count, n⟩ :: stack) .done) := Draft.read_tells hline
    have hinside := ihbody (⟨before, count, n⟩ :: stack) .done (last :: rest ++ more)
    have hclose : (draftOf (⟨before, count, n⟩ :: stack) body).read (n + inside.length + 1) last =
        .ok (draftOf stack (before.append
          (.loop count n body (n + inside.length + 1) .done))) := by
      rw [Draft.read_tells hlast, draftOf_close]
    rw [Nat.add_right_comm] at hinside
    rw [List.cons_append, List.append_assoc, Draft.readAll_cons hread, hinside, Block.append,
      List.cons_append, Draft.readAll_cons hclose, ihrest, Block.append_assoc, number_behind_loop]
    rfl

end Writes

/-! ## Open LOOPs -/

/-- The lines, of which the first one has the number 1, leave LOOPs open: what stands in front of
each, the innermost first, and the tree behind the innermost one. -/
inductive Unclosed : List (List Char) → List Opening → Block → Prop where
  | closed {lines : List (List Char)} {b : Block} : Writes 1 lines b → Unclosed lines [] b
  | opened {front behind : List (List Char)} {raw : List Char} {outer : List Opening} {count : Int}
      {before b : Block} :
      Unclosed front outer before → Tells raw (some (.loop count)) →
        Writes (front.length + 2) behind b →
          Unclosed (front ++ raw :: behind) (⟨before, count, front.length + 1⟩ :: outer) b

namespace Unclosed

variable {lines more : List (List Char)} {stack outer : List Opening} {o : Opening} {b c : Block}

theorem writes (h : Unclosed lines [] b) : Writes 1 lines b := by
  cases h with
  | closed hlines => exact hlines

theorem append (h : Unclosed lines stack b) (hmore : Writes (lines.length + 1) more c) :
    Unclosed (lines ++ more) stack (b.append c) := by
  cases h with
  | closed hlines => exact .closed (hlines.append (Nat.add_comm _ _ ▸ hmore))
  | @opened front behind raw outer count before b hfront hraw hbehind =>
    have hnumber : (front ++ raw :: behind).length + 1 = front.length + 2 + behind.length := by
      rw [List.length_append, List.length_cons]
      omega
    rw [List.append_assoc, List.cons_append]
    exact .opened hfront hraw (hbehind.append (hnumber ▸ hmore))

/-- An END closes the innermost open LOOP. -/
theorem close {raw : List Char} (h : Unclosed lines (o :: outer) b)
    (hraw : Tells raw (some .loopEnd)) :
    Unclosed (lines ++ [raw]) outer
      (o.before.append (.loop o.count o.line b (lines.length + 1) .done)) := by
  cases h with
  | @opened front behind first outer count before b hfront hfirst hbehind =>
    have hloop := hfront.append (.loop hfirst hbehind hraw .nil)
    rwa [show front.length + 1 + behind.length + 1 = (front ++ first :: behind).length + 1 by
      rw [List.length_append, List.length_cons]; omega, ← List.cons_append, ← List.append_assoc]
      at hloop

theorem readAll (h : Unclosed lines stack b) (more : List (List Char)) :
    Draft.readAll {} 1 (lines ++ more) =
      (draftOf stack b).readAll (lines.length + 1) more := by
  induction h generalizing more with
  | closed hlines =>
    have hall := hlines.readAll [] .done more
    rwa [Nat.add_comm] at hall
  | @opened front behind raw outer count before b _ hraw hbehind ih =>
    have hread : (draftOf outer before).read (front.length + 1) raw =
        .ok (draftOf (⟨before, count, front.length + 1⟩ :: outer) .done) := Draft.read_tells hraw
    rw [List.append_assoc, List.cons_append, ih, Draft.readAll_cons hread, hbehind.readAll,
      Block.append, List.length_append, List.length_cons]
    congr 1
    omega

end Unclosed

/-- A statement that a draft takes, in lines that leave it. -/
theorem unclosed_step {lines : List (List Char)} {raw : List Char} {stack : List Opening}
    {b : Block} {next : Draft} (h : Unclosed lines stack b)
    (hread : (draftOf stack b).read (lines.length + 1) raw = .ok next) :
    ∃ stack' b', Unclosed (lines ++ [raw]) stack' b' ∧ next = draftOf stack' b' := by
  rcases Draft.tells_of_read hread with ⟨hsilent, rfl⟩ | ⟨statement, htells, hadd⟩
  · exact ⟨stack, _, h.append (.silent hsilent .nil), by rw [Block.append_done]⟩
  · cases statement with
    | send data =>
      refine ⟨stack, _, h.append (.send htells .nil), ?_⟩
      rw [draftOf_append]
      exact (Except.ok.inj hadd).symm
    | delay ms =>
      refine ⟨stack, _, h.append (.delay htells .nil), ?_⟩
      rw [draftOf_append]
      exact (Except.ok.inj hadd).symm
    | loop count => exact ⟨_, .done, .opened h htells .nil, (Except.ok.inj hadd).symm⟩
    | loopEnd =>
      cases stack with
      | nil => cases hadd
      | cons o outer =>
        rw [draftOf_close] at hadd
        exact ⟨outer, _, h.close htells, (Except.ok.inj hadd).symm⟩

/-- Lines are read exactly if they write trees with open LOOPs between them, and the draft is the
layout of these. -/
theorem readAll_eq_ok_iff {lines : List (List Char)} {draft : Draft} :
    Draft.readAll {} 1 lines = .ok draft ↔
      ∃ stack b, Unclosed lines stack b ∧ draft = draftOf stack b := by
  constructor
  · intro h
    have hall := Draft.readAll_induct
      (P := fun n d => ∃ stack b, Unclosed (lines.take (n - 1)) stack b ∧ d = draftOf stack b)
      h ⟨[], .done, .closed .nil, rfl⟩ ?_
    · rwa [Nat.add_sub_cancel_left, List.take_length] at hall
    · rintro k _ next raw hraw ⟨stack, b, hunclosed, rfl⟩ hread
      have hk : k < lines.length := (List.getElem?_eq_some_iff.1 hraw).1
      have hlength : (lines.take k).length + 1 = 1 + k := by
        rw [List.length_take, Nat.min_eq_left (Nat.le_of_lt hk), Nat.add_comm]
      rw [Nat.add_sub_cancel_left] at hunclosed
      rw [show 1 + k + 1 - 1 = k + 1 by omega, List.take_add_one, hraw]
      exact unclosed_step hunclosed (hlength ▸ hread)
  · rintro ⟨stack, b, h, rfl⟩
    have hall := h.readAll []
    rwa [List.append_nil, Draft.readAll] at hall

/-! ## Parsing -/

/-- What is left to say of the LOOPs that are open at the end of a script. -/
def closing (b : Block) : List Opening → Except Fault (List Command)
  | [] => .ok (b.commands 0)
  | o :: outer => .error (.scriptLine o.line (.unclosedLoops (outer.length + 1) o.line))

theorem opened_draftOf_length (stack : List Opening) (b : Block) :
    (draftOf stack b).opened.length = stack.length := by
  induction stack generalizing b with
  | nil => rfl
  | cons o outer ih => rw [draftOf, List.length_cons, ih, List.length_cons]

/-- The innermost open LOOP is where the draft says. -/
theorem loop_draftOf (o : Opening) (outer : List Opening) (b : Block) :
    (draftOf (o :: outer) b).commands[(draftOf outer o.before).commands.length]? =
      some (.loop o.count (-1) o.line) := by
  rw [draftOf, List.getElem?_append_right (Nat.le_refl _), Nat.sub_self, List.getElem?_cons_zero]

theorem finish_draftOf (stack : List Opening) (b : Block) :
    (draftOf stack b).finish = closing b stack := by
  cases stack with
  | nil => rfl
  | cons o outer =>
    have hloop := loop_draftOf o outer b
    have hlength := opened_draftOf_length (o :: outer) b
    simp only [Draft.finish, closing]
    rw [hlength]
    simp only [draftOf] at hloop ⊢
    rw [hloop]
    rfl

theorem parse_of_not_blank {script : List Char} (h : ¬ Blank script) :
    parse script = (Draft.readAll {} 1 (splitAt '\n' script)).bind Draft.finish := by
  have hempty : (trim script).isEmpty = false := by simpa [trim_eq_nil_iff] using h
  rw [parse, hempty]
  cases Draft.readAll {} 1 (splitAt '\n' script) <;> rfl

theorem Unclosed.parse {script : List Char} {stack : List Opening} {b : Block}
    (hblank : ¬ Blank script) (h : Unclosed (splitAt '\n' script) stack b) :
    parse script = closing b stack := by
  rw [parse_of_not_blank hblank, readAll_eq_ok_iff.2 ⟨stack, b, h, rfl⟩]
  exact finish_draftOf stack b

/-- A script is accepted exactly if it is not blank and its lines write a tree. -/
theorem parse_eq_ok_iff {script : List Char} {commands : List Command} :
    parse script = .ok commands ↔
      ¬ Blank script ∧ ∃ b, Writes 1 (splitAt '\n' script) b ∧ commands = b.commands 0 := by
  constructor
  · intro h
    have hblank : ¬ Blank script := by
      intro hblank
      rw [Script.parse, (trim_eq_nil_iff script).2 hblank] at h
      cases h
    refine ⟨hblank, ?_⟩
    obtain ⟨stack, b, hunclosed, -⟩ := readAll_eq_ok_iff.1 (parse_cases h)
    rw [hunclosed.parse hblank] at h
    cases stack with
    | nil => exact ⟨b, hunclosed.writes, (Except.ok.inj h).symm⟩
    | cons o outer => cases h
  · rintro ⟨hblank, b, hlines, rfl⟩
    exact (Unclosed.closed hlines).parse hblank

end SerialConsole.Script
