import SerialConsole.Proofs.Script.Remarks
import SerialConsole.Proofs.Script.Spelling

set_option autoImplicit false

/-!
# Where parsing fails

A line that cannot be read fails the script whatever stands behind it, and what stands before it can
be gone on with: the LOOPs that are open get their ENDs. So the line of such a fault is the first
one behind which no script is accepted. The LOOPs that a script leaves open are its lines
`OpenLoops`; they are what ENDs behind it close, one by one (`parse_unclosed`).
-/
namespace SerialConsole

/-- Whether the problem is that LOOPs are open at the end. -/
def LineProblem.isUnclosed : LineProblem → Bool
  | .unclosedLoops _ _ => true
  | _ => false

namespace Script

open Text

/-! ## What a line is refused for -/

/-- What a line is read as does not depend on its number, and a fault of it has this number. -/
inductive Uniform {α : Type} (reading : Nat → Except Fault α) : Prop where
  | read (value : α) (h : ∀ line, reading line = .ok value)
  | refused (problem : LineProblem) (hproblem : problem.isUnclosed = false)
    (h : ∀ line, reading line = .error (.scriptLine line problem))
  | long (digits : Nat) (h : ∀ line, reading line = .error (.longNumber digits))

theorem readNumber_uniform (role : NumberRole) (argument : List Char) :
    Uniform fun line => readNumber role line argument := by
  unfold readNumber
  split
  case isTrue => exact .refused _ rfl fun _ => rfl
  case isFalse =>
    let malformed := LineProblem.invalidNumber role (String.ofList argument)
    generalize Whole.splitSign argument = sign
    dsimp only
    split
    case isTrue => exact .refused malformed rfl fun _ => rfl
    case isFalse =>
      cases Whole.digits? sign.2 with
      | none => exact .refused malformed rfl fun _ => rfl
      | some digits =>
        dsimp only
        cases Whole.ofDigits sign.1 digits with
        | ok n => exact .read n fun _ => rfl
        | error problem =>
          cases problem with
          | tooLong count => exact .long count fun _ => rfl
          | malformed => exact .refused malformed rfl fun _ => rfl

/-- A number and its check. -/
theorem number_uniform (role : NumberRole) (argument : List Char) (statement : Int → Statement)
    {check : Int → Except LineProblem Int}
    (hcheck : ∀ n problem, check n = .error problem → problem.isUnclosed = false) :
    Uniform fun line => (do
      let n ← readNumber role line argument
      match check n with
      | .ok n => .ok (statement n)
      | .error problem => .error (.scriptLine line problem) : Except Fault Statement) := by
  cases readNumber_uniform role argument with
  | refused problem hproblem h => exact .refused problem hproblem fun line => by rw [h]; rfl
  | long digits h => exact .long digits fun line => by rw [h]; rfl
  | read n h =>
    cases hn : check n with
    | ok n' => exact .read (statement n') fun line => by rw [h]; simp only [bind, Except.bind, hn]
    | error problem =>
      exact .refused problem (hcheck n problem hn) fun line => by
        rw [h]; simp only [bind, Except.bind, hn]

/-- No check is about open LOOPs. -/
theorem isUnclosed_of_isRange {problem : LineProblem} (h : problem.isRange = true) :
    problem.isUnclosed = false := by
  cases problem <;> first | rfl | cases h

theorem readStatement_uniform (text : List Char) :
    Uniform fun line => readStatement line text := by
  unfold readStatement
  split
  case isTrue => exact .read _ fun _ => rfl
  case isFalse =>
    cases splitKeyword? text with
    | none => exact .refused (.unknownCommand (String.ofList text)) rfl fun _ => rfl
    | some found =>
      obtain ⟨keyword, argument⟩ := found
      cases keyword with
      | send =>
        cases hdata : readData argument with
        | ok value => exact .read (.send value) fun _ => by simp only [hdata]
        | error problem =>
          refine .refused problem ?_ fun _ => by simp only [hdata]
          unfold readData at hdata
          split at hdata
          · cases hdata
            rfl
          · split at hdata <;> cases hdata
            rfl
      | delay =>
        refine number_uniform .delay argument .delay fun ms problem h => ?_
        rcases checkDelay_cases ms with ⟨-, hok⟩ | ⟨-, other, hrange, herror⟩
        · cases hok.symm.trans h
        · cases herror.symm.trans h
          exact isUnclosed_of_isRange hrange
      | loop =>
        refine number_uniform .loopCount argument .loop fun count problem h => ?_
        rcases checkCount_cases count with ⟨-, hok⟩ | ⟨-, other, hrange, herror⟩
        · cases hok.symm.trans h
        · cases herror.symm.trans h
          exact isUnclosed_of_isRange hrange

namespace Draft

/-- A line is refused with its own number, and not for what stands behind it. -/
theorem read_refused {draft : Draft} {line number : Nat} {raw : List Char} {problem : LineProblem}
    (h : draft.read line raw = .error (.scriptLine number problem)) :
    number = line ∧ problem.isUnclosed = false := by
  rw [read] at h
  cases hsilent : isSilent (trim raw) with
  | true =>
    rw [hsilent] at h
    cases h
  | false =>
    simp only [hsilent, Bool.false_eq_true, if_false] at h
    cases readStatement_uniform (trim raw) with
    | read statement hread =>
      simp only [hread] at h
      cases add_fault h
      exact ⟨rfl, rfl⟩
    | refused other hother hread =>
      simp only [hread] at h
      cases h
      exact ⟨rfl, hother⟩
    | long digits hread =>
      simp only [hread] at h
      cases h

theorem readAll_append (draft : Draft) (n : Nat) (lines more : List (List Char)) :
    draft.readAll n (lines ++ more) =
      (draft.readAll n lines).bind fun next => next.readAll (n + lines.length) more := by
  simp only [readAll_eq, numbered_append, List.foldlM_append]
  rfl

/-- A fault of reading comes from the first line that cannot be read. -/
theorem readAll_error {draft : Draft} {n : Nat} {lines : List (List Char)} {fault : Fault}
    (h : draft.readAll n lines = .error fault) :
    ∃ front raw rest next, lines = front ++ raw :: rest ∧ draft.readAll n front = .ok next ∧
      next.read (n + front.length) raw = .error fault := by
  induction lines generalizing draft n with
  | nil => cases h
  | cons raw rest ih =>
    cases hread : draft.read n raw with
    | error other =>
      rw [readAll, hread] at h
      cases h
      exact ⟨[], raw, rest, draft, rfl, rfl, hread⟩
    | ok next =>
      rw [readAll_cons hread] at h
      obtain ⟨front, last, behind, final, rfl, hfront, hlast⟩ := ih h
      refine ⟨raw :: front, last, behind, final, rfl, by rw [readAll_cons hread, hfront], ?_⟩
      rwa [number_behind_line]

theorem readAll_of_error {draft next : Draft} {n : Nat} {front rest : List (List Char)}
    {raw : List Char} {fault : Fault} (hfront : draft.readAll n front = .ok next)
    (hraw : next.read (n + front.length) raw = .error fault) :
    draft.readAll n (front ++ raw :: rest) = .error fault := by
  rw [readAll_append, hfront, Except.bind, readAll, hraw]

theorem exists_readAll_take {draft final : Draft} {n : Nat} {lines : List (List Char)}
    (h : draft.readAll n lines = .ok final) (k : Nat) :
    ∃ next, draft.readAll n (lines.take k) = .ok next := by
  rw [← List.take_append_drop k lines, readAll_append] at h
  cases hstart : draft.readAll n (lines.take k) with
  | ok next => exact ⟨next, rfl⟩
  | error fault =>
    rw [hstart] at h
    cases h

theorem not_blank_of_read {draft : Draft} {line : Nat} {raw : List Char} {fault : Fault}
    (h : draft.read line raw = .error fault) : ¬ Blank raw := by
  intro hblank
  rw [read_silent (tells_none_iff.2 (by rw [(trim_eq_nil_iff raw).2 hblank]; rfl))] at h
  cases h

end Draft

/-- Parsing fails for a blank script, at a line, or for LOOPs that are open at the end. -/
theorem parse_eq_error {script : List Char} {fault : Fault} (h : parse script = .error fault) :
    fault = .emptyScript ∨ ¬ Blank script ∧
      (Draft.readAll {} 1 (splitAt '\n' script) = .error fault ∨
        ∃ o outer b, Unclosed (splitAt '\n' script) (o :: outer) b ∧
          fault = .scriptLine o.line (.unclosedLoops (outer.length + 1) o.line)) := by
  by_cases hblank : Blank script
  · rw [parse, (trim_eq_nil_iff script).2 hblank] at h
    cases h
    exact Or.inl rfl
  refine Or.inr ⟨hblank, ?_⟩
  cases hread : Draft.readAll {} 1 (splitAt '\n' script) with
  | error other =>
    rw [parse_of_not_blank hblank, hread] at h
    cases h
    exact Or.inl rfl
  | ok draft =>
    obtain ⟨stack, b, hunclosed, -⟩ := readAll_eq_ok_iff.1 hread
    rw [hunclosed.parse hblank] at h
    cases stack with
    | nil => cases h
    | cons o outer =>
      cases h
      exact Or.inr ⟨o, outer, b, hunclosed, rfl⟩

/-! ## Open LOOPs -/

/-- The numbers of the lines whose LOOPs are open behind the lines, the innermost first: what stands
before the first of them, between two of them and behind the last one is balanced. -/
inductive OpenLoops : List (List Char) → List Nat → Prop where
  | balanced {lines : List (List Char)} : Scans 0 lines 0 → OpenLoops lines []
  | opened {front behind : List (List Char)} {raw : List Char} {count : Int} {outer : List Nat} :
      OpenLoops front outer → LineSays raw (some (.loop count)) → Scans 0 behind 0 →
        OpenLoops (front ++ raw :: behind) ((front.length + 1) :: outer)

namespace Scans

variable {depth middle final : Nat} {lines more : List (List Char)}

theorem append (h : Scans depth lines middle) (hmore : Scans middle more final) :
    Scans depth (lines ++ more) final := by
  induction lines generalizing depth with
  | nil => rwa [scans_nil.1 h] at hmore
  | cons raw rest ih =>
    obtain ⟨said, d, hline, hd, hrest⟩ := scans_cons.1 h
    exact scans_cons.2 ⟨said, d, hline, hd, ih hrest⟩

/-- What can stand behind some open LOOPs can stand behind more of them. -/
theorem deeper (h : Scans depth lines final) (k : Nat) : Scans (depth + k) lines (final + k) := by
  obtain ⟨said, hlines, hstart, htotal⟩ := h
  refine ⟨said, hlines, fun i => ?_, by omega⟩
  have := hstart i
  omega

end Scans

theorem OpenLoops.scans {lines : List (List Char)} {numbers : List Nat}
    (h : OpenLoops lines numbers) : Scans 0 lines numbers.length := by
  induction h with
  | balanced hlines => exact hlines
  | @opened front behind raw count outer _ hraw hbehind ih =>
    have hmore := hbehind.deeper (outer.length + 1)
    rw [Nat.zero_add] at hmore
    exact ih.append (scans_cons.2 ⟨_, _, hraw, rfl, hmore⟩)

theorem Writes.scans {n : Nat} {lines : List (List Char)} {b : Block} (h : Writes n lines b) :
    Scans 0 lines 0 := by
  induction h with
  | nil => exact scans_nil.2 rfl
  | silent hline _ ih | send hline _ ih | delay hline _ ih =>
    exact scans_cons.2 ⟨_, _, hline.1, rfl, ih⟩
  | loop hline _ hlast _ ihbody ihrest =>
    exact scans_cons.2 ⟨_, _, hline.1, rfl, (ihbody.deeper 1).append
      (scans_cons.2 ⟨_, _, hlast.1, rfl, ihrest⟩)⟩

namespace Unclosed

variable {lines : List (List Char)} {stack : List Opening} {b : Block}

theorem openLoops (h : Unclosed lines stack b) : OpenLoops lines (stack.map Opening.line) := by
  induction h with
  | closed hlines => exact .balanced hlines.scans
  | opened _ hraw hbehind ih => exact .opened ih hraw.1 hbehind.scans

/-- ENDs close the innermost open LOOPs. -/
theorem closeSome (h : Unclosed lines stack b) {k : Nat} (hk : k ≤ stack.length) :
    ∃ c, Unclosed (lines ++ List.replicate k endLine) (stack.drop k) c := by
  induction k with
  | zero => exact ⟨b, by simpa using h⟩
  | succ k ih =>
    obtain ⟨c, hc⟩ := ih (Nat.le_of_lt hk)
    rw [List.drop_eq_getElem_cons hk] at hc
    have hclosed := hc.close tells_end
    rw [List.append_assoc, ← List.replicate_succ'] at hclosed
    exact ⟨_, hclosed⟩

end Unclosed

/-- The script with so many lines `END` behind it. -/
def withEnds (script : List Char) : Nat → List Char
  | 0 => script
  | k + 1 => withEnds script k ++ '\n' :: endLine

theorem splitAt_withEnds (script : List Char) (k : Nat) :
    splitAt '\n' (withEnds script k) = splitAt '\n' script ++ List.replicate k endLine := by
  induction k with
  | zero => rw [withEnds, List.replicate_zero, List.append_nil]
  | succ k ih =>
    have hend : '\n' ∉ endLine := by decide
    rw [withEnds, splitAt_append_cons, ih, splitAt_of_not_mem hend, List.append_assoc,
      List.replicate_succ']

theorem not_blank_withEnds {script : List Char} (h : ¬ Blank script) (k : Nat) :
    ¬ Blank (withEnds script k) := by
  induction k with
  | zero => exact h
  | succ k ih => exact fun hall => ih (blank_append.1 hall).1

theorem parse_withEnds {script : List Char} {stack : List Opening} {b : Block}
    (hblank : ¬ Blank script) (h : Unclosed (splitAt '\n' script) stack b) {k : Nat}
    (hk : k ≤ stack.length) : ∃ c, parse (withEnds script k) = closing c (stack.drop k) := by
  obtain ⟨c, hc⟩ := h.closeSome hk
  rw [← splitAt_withEnds] at hc
  exact ⟨c, hc.parse (not_blank_withEnds hblank k)⟩

/-! ## The first line without a continuation -/

/-- The first `k` lines of the other script are those of the script. -/
def SameStart (k : Nat) (script other : List Char) : Prop :=
  (splitAt '\n' other).take k = (splitAt '\n' script).take k

/-- ENDs for so many open LOOPs, and a DELAY, as the lines before may all be blank. -/
def conclusion (k : Nat) : List (List Char) :=
  List.replicate k endLine ++ [Keyword.delay.line (decimal 0)]

theorem newline_not_mem_conclusion {k : Nat} {line : List Char} (h : line ∈ conclusion k) :
    '\n' ∉ line := by
  rcases List.mem_append.1 h with hend | hdelay
  · rw [List.eq_of_mem_replicate hend]
    decide
  · rw [List.mem_singleton.1 hdelay]
    exact Keyword.newline_not_mem_line (newline_not_mem_decimal (Int.le_refl 0))

theorem Unclosed.conclude {lines : List (List Char)} {stack : List Opening} {b : Block}
    (h : Unclosed lines stack b) : ∃ c, Writes 1 (lines ++ conclusion stack.length) c := by
  obtain ⟨c, hclosed⟩ := h.closeSome (Nat.le_refl _)
  rw [List.drop_length] at hclosed
  have hall := hclosed.append (.delay (tells_delay (Int.le_refl 0) (by decide)) .nil)
  rw [List.append_assoc] at hall
  exact ⟨_, hall.writes⟩

/-- Lines that are read begin a script that is accepted. -/
theorem exists_continuation {lines : List (List Char)} {draft : Draft}
    (h : Draft.readAll {} 1 lines = .ok draft) (hlines : ∀ line ∈ lines, '\n' ∉ line) :
    ∃ other commands, (splitAt '\n' other).take lines.length = lines ∧
      parse other = .ok commands := by
  obtain ⟨stack, b, hunclosed, -⟩ := readAll_eq_ok_iff.1 h
  obtain ⟨c, hc⟩ := hunclosed.conclude
  have hsome : lines ++ conclusion stack.length ≠ [] := by simp [conclusion]
  have hsplit := splitAt_joinWith hsome
    (List.forall_mem_append.2 ⟨hlines, fun _ => newline_not_mem_conclusion⟩)
  refine ⟨joinWith ['\n'] (lines ++ conclusion stack.length), c.commands 0,
    by rw [hsplit, List.take_left], parse_eq_ok_iff.2 ⟨fun hblank => ?_, c, hsplit.symm ▸ hc, rfl⟩⟩
  have hdelay : Keyword.delay.line (decimal 0) ∈ lines ++ conclusion stack.length := by
    simp [conclusion]
  exact Keyword.not_blank_line (blank_of_mem_splitAt hblank (hsplit.symm ▸ hdelay))

/-- The lines of a script that fails at a line: those before it are read, and it is not. -/
theorem lines_of_refused {script : List Char} {line : Nat} {problem : LineProblem}
    (h : parse script = .error (.scriptLine line problem)) (hproblem : problem.isUnclosed = false) :
    ∃ front raw rest next, splitAt '\n' script = front ++ raw :: rest ∧ line = front.length + 1 ∧
      Draft.readAll {} 1 front = .ok next ∧
      next.read (1 + front.length) raw = .error (.scriptLine line problem) := by
  rcases parse_eq_error h with hempty | ⟨-, hread | ⟨o, outer, b, -, hfault⟩⟩
  · cases hempty
  · obtain ⟨front, raw, rest, next, hlines, hfront, hraw⟩ := Draft.readAll_error hread
    have hline := (Draft.read_refused hraw).1
    exact ⟨front, raw, rest, next, hlines, by omega, hfront, hraw⟩
  · cases hfault
    cases hproblem

/-- A line that is refused is refused in every script that begins with it and the lines before. -/
theorem parse_sameStart {script other : List Char} {line : Nat} {problem : LineProblem}
    (h : parse script = .error (.scriptLine line problem)) (hproblem : problem.isUnclosed = false)
    (hsame : SameStart line script other) : parse other = .error (.scriptLine line problem) := by
  obtain ⟨front, raw, rest, next, hlines, rfl, hfront, hraw⟩ := lines_of_refused h hproblem
  have hother : splitAt '\n' other =
      front ++ raw :: (splitAt '\n' other).drop (front.length + 1) := by
    have hstart : (front ++ raw :: rest).take (front.length + 1) = front ++ [raw] := by
      rw [List.take_length_add_append, List.take_succ_cons, List.take_zero]
    rw [SameStart, hlines, hstart] at hsame
    rw [← List.singleton_append, ← List.append_assoc, ← hsame, List.take_append_drop]
  have hblank : ¬ Blank other := fun hblank => by
    refine Draft.not_blank_of_read hraw (blank_of_mem_splitAt hblank ?_)
    rw [hother]
    simp
  rw [parse_of_not_blank hblank, hother, Draft.readAll_of_error hfront hraw]
  rfl

/-- What stands before the line of a fault can be gone on with, and what ends with it cannot. -/
theorem continuable_iff {script : List Char} {line : Nat} {problem : LineProblem}
    (h : parse script = .error (.scriptLine line problem)) (hproblem : problem.isUnclosed = false)
    (k : Nat) :
    (∃ other commands, SameStart k script other ∧ parse other = .ok commands) ↔ k < line := by
  constructor
  · rintro ⟨other, commands, hsame, hparse⟩
    refine Nat.lt_of_not_le fun hle => ?_
    have hstart : SameStart line script other := by
      have htake := congrArg (List.take line) hsame
      rwa [List.take_take, List.take_take, Nat.min_eq_left hle] at htake
    cases hparse.symm.trans (parse_sameStart h hproblem hstart)
  · intro hk
    obtain ⟨front, raw, rest, next, hlines, rfl, hfront, -⟩ := lines_of_refused h hproblem
    have hlength : (front.take k).length = k := by
      rw [List.length_take]
      omega
    obtain ⟨middle, hmiddle⟩ := Draft.exists_readAll_take hfront k
    obtain ⟨other, commands, hother, hparse⟩ := exists_continuation hmiddle fun line hline =>
      not_mem_of_mem_splitAt (hlines ▸ List.mem_append_left _ (List.mem_of_mem_take hline))
    refine ⟨other, commands, ?_, hparse⟩
    rw [SameStart, hlines, List.take_append_of_le_length (Nat.le_of_lt_succ hk), ← hother, hlength]

/-- The LOOPs that a script leaves open are closed by as many ENDs, and by no fewer. -/
theorem parse_unclosed {script : List Char} {line n loopLine : Nat}
    (h : parse script = .error (.scriptLine line (.unclosedLoops n loopLine))) :
    loopLine = line ∧ Scans 0 (splitAt '\n' script) n ∧ ∃ outer,
      OpenLoops (splitAt '\n' script) (line :: outer) ∧ n = outer.length + 1 ∧
      (∃ commands, parse (withEnds script n) = .ok commands) ∧
      ∀ k innermost, (line :: outer)[k]? = some innermost →
        parse (withEnds script k) =
          .error (.scriptLine innermost (.unclosedLoops (n - k) innermost)) := by
  rcases parse_eq_error h with hempty | ⟨hblank, hread | ⟨o, outer, b, hunclosed, hfault⟩⟩
  · cases hempty
  · obtain ⟨front, raw, rest, next, -, -, hraw⟩ := Draft.readAll_error hread
    cases (Draft.read_refused hraw).2
  · cases hfault
    have hscans := hunclosed.openLoops.scans
    rw [List.length_map] at hscans
    refine ⟨rfl, hscans, outer.map Opening.line, hunclosed.openLoops, by rw [List.length_map], ?_,
      ?_⟩
    · obtain ⟨c, hc⟩ := parse_withEnds hblank hunclosed (Nat.le_refl _)
      rw [List.drop_length] at hc
      exact ⟨c.commands 0, hc⟩
    · intro k innermost hk
      rw [← List.map_cons, List.getElem?_map] at hk
      obtain ⟨p, hp, rfl⟩ := Option.map_eq_some_iff.1 hk
      obtain ⟨hlt, rfl⟩ := List.getElem?_eq_some_iff.1 hp
      obtain ⟨c, hc⟩ := parse_withEnds hblank hunclosed (Nat.le_of_lt hlt)
      have hleft : outer.length - k + 1 = outer.length + 1 - k :=
        (Nat.succ_sub (Nat.le_of_lt_succ hlt)).symm
      rw [hc, List.drop_eq_getElem_cons hlt, closing, List.length_drop, List.length_cons,
        Nat.succ_sub_succ, hleft]

/-- A fault at a line is that of every script with the same lines up to there, and what stands
before the line, and no more, can be gone on with. A script with open LOOPs names how many there are
and the innermost one; as many ENDs behind it make it accepted, and fewer leave the others open. -/
theorem fault_lines_exact :
    (∀ script line problem, parse script = .error (.scriptLine line problem) →
      problem.isUnclosed = false →
        (∀ other, SameStart line script other → parse other = .error (.scriptLine line problem)) ∧
        ∀ k, (∃ other commands, SameStart k script other ∧ parse other = .ok commands) ↔ k < line) ∧
    ∀ script line n loopLine, parse script = .error (.scriptLine line (.unclosedLoops n loopLine)) →
      loopLine = line ∧ Scans 0 (splitAt '\n' script) n ∧ ∃ outer,
        OpenLoops (splitAt '\n' script) (line :: outer) ∧ n = outer.length + 1 ∧
        (∃ commands, parse (withEnds script n) = .ok commands) ∧
        ∀ k innermost, (line :: outer)[k]? = some innermost →
          parse (withEnds script k) =
            .error (.scriptLine innermost (.unclosedLoops (n - k) innermost)) :=
  ⟨fun _ _ _ h hproblem => ⟨fun _ => parse_sameStart h hproblem, continuable_iff h hproblem⟩,
    fun _ _ _ _ => parse_unclosed⟩

/-- An END too many behind a loop, and two LOOPs that are open around a third one. -/
theorem fault_lines_exact_loops :
    parse "LOOP 2\nEND\n\nEND\nSEND".toList = .error (.scriptLine 4 .unmatchedEnd) ∧
      parse "LOOP 2\nEND\n\nEND".toList = .error (.scriptLine 4 .unmatchedEnd) ∧
      (∃ other commands, SameStart 3 "LOOP 2\nEND\n\nEND\nSEND".toList other ∧
        parse other = .ok commands) ∧
      parse "LOOP 2\nLOOP 3\nEND\nLOOP 4\nSEND a".toList =
        .error (.scriptLine 4 (.unclosedLoops 2 4)) ∧
      OpenLoops (splitAt '\n' "LOOP 2\nLOOP 3\nEND\nLOOP 4\nSEND a".toList) [4, 1] ∧
      parse "LOOP 2\nLOOP 3\nEND\nLOOP 4\nSEND a\nEND".toList =
        .error (.scriptLine 1 (.unclosedLoops 1 1)) ∧
      ∃ commands, parse "LOOP 2\nLOOP 3\nEND\nLOOP 4\nSEND a\nEND\nEND".toList = .ok commands := by
  have hstray : parse "LOOP 2\nEND\n\nEND\nSEND".toList = .error (.scriptLine 4 .unmatchedEnd) := by
    rfl
  have hopen : parse "LOOP 2\nLOOP 3\nEND\nLOOP 4\nSEND a".toList =
      .error (.scriptLine 4 (.unclosedLoops 2 4)) := by rfl
  obtain ⟨hsame, hcontinuable⟩ := fault_lines_exact.1 _ _ _ hstray rfl
  obtain ⟨-, -, outer, hloops, hlength, haccepted, hfewer⟩ := fault_lines_exact.2 _ _ _ _ hopen
  obtain ⟨innermost, rfl⟩ := List.length_eq_one_iff.1 (Nat.succ.inj hlength).symm
  have hone : parse "LOOP 2\nLOOP 3\nEND\nLOOP 4\nSEND a\nEND".toList =
      .error (.scriptLine innermost (.unclosedLoops 1 innermost)) := hfewer 1 innermost rfl
  have hfirst : parse "LOOP 2\nLOOP 3\nEND\nLOOP 4\nSEND a\nEND".toList =
      .error (.scriptLine 1 (.unclosedLoops 1 1)) := by rfl
  cases hfirst.symm.trans hone
  exact ⟨hstray, hsame _ rfl, (hcontinuable 3).2 (by decide), hopen, hloops, hone, haccepted⟩

end Script

end SerialConsole
