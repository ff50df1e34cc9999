import SerialConsole.Proofs.Script.Grammar
import SerialConsole.Script.Parser

set_option autoImplicit false

/-!
# Verdicts

A verdict reports what parsing a script comes to (`Verdict.Reports`). The one thing that is no
verdict is a number of more than 4300 digits: `MeetsLongNumber` says in the words of the grammar
when a script is read up to such a number, and the fault of parsing then goes through.
-/
namespace SerialConsole.Script

open Text

/-! ## Lines with a number that is too long -/

/-- A trimmed DELAY or LOOP line with a well-formed number of more than 4300 digits. -/
def LongNumber (text : List Char) (digits : Nat) : Prop :=
  4300 < digits ∧ ∃ keyword argument values n, keyword ≠ Keyword.send ∧
    keyword.Takes text argument ∧ Numeral argument values n ∧ values.length = digits

theorem not_shortNumber_iff {text : List Char} :
    ¬ ShortNumber text ↔ ∃ digits, LongNumber text digits := by
  constructor
  · intro h
    simp only [ShortNumber, not_forall] at h
    obtain ⟨keyword, argument, values, n, hkeyword, htakes, hn, hlong⟩ := h
    exact ⟨values.length, Nat.lt_of_not_le hlong, keyword, argument, values, n, hkeyword, htakes,
      hn, rfl⟩
  · rintro ⟨digits, hlong, keyword, argument, values, n, hkeyword, htakes, hn, rfl⟩ hshort
    exact Nat.not_le_of_lt hlong (hshort keyword argument values n hkeyword htakes hn)

theorem LongNumber.not_silent {text : List Char} {digits : Nat} (h : LongNumber text digits) :
    isSilent text = false := by
  obtain ⟨_, keyword, _, _, _, _, ⟨_, _, gap, _, _, rfl⟩, _⟩ := h
  cases keyword <;> rfl

theorem readNumber_long_iff {role : NumberRole} {line digits : Nat} {argument : List Char} :
    readNumber role line argument = .error (.longNumber digits) ↔
      Whole.digitLimit < digits ∧ ∃ values n, Numeral argument values n ∧ values.length = digits := by
  rcases readNumber_cases role line argument with
    ⟨values, n, hn, hshort, hread⟩ | ⟨values, n, hn, hlong, hread⟩ | ⟨hno, problem, _, hread⟩
  · rw [hread]
    refine ⟨nofun, fun ⟨hlong, values', n', hn', hlength⟩ => ?_⟩
    obtain ⟨rfl, _⟩ := hn.unique hn'
    omega
  · rw [hread]
    constructor
    · intro h
      cases h
      exact ⟨hlong, values, n, hn, rfl⟩
    · rintro ⟨_, values', n', hn', rfl⟩
      rw [(hn.unique hn').1]
  · rw [hread]
    exact ⟨nofun, fun ⟨_, values, n, hn, _⟩ => (hno values n hn).elim⟩

/-- The keywords with a number meet a long one in the same way, whatever their check. -/
theorem number_long_iff {role : NumberRole} {line digits : Nat} {argument : List Char}
    {statement : Int → Statement} {check : Int → Except LineProblem Int} :
    (do
      let n ← readNumber role line argument
      match check n with
      | .ok n => .ok (statement n)
      | .error problem => .error (.scriptLine line problem)) =
        (.error (.longNumber digits) : Except Fault Statement) ↔
      readNumber role line argument = .error (.longNumber digits) := by
  cases readNumber role line argument with
  | error fault => simp only [bind, Except.bind, Except.error.injEq]
  | ok n =>
    simp only [bind, Except.bind]
    cases check n <;> exact ⟨nofun, nofun⟩

theorem readStatement_long_iff (line : Nat) {digits : Nat} {text : List Char} (hbare : Bare text) :
    readStatement line text = .error (.longNumber digits) ↔ LongNumber text digits := by
  constructor
  · intro h
    rw [readStatement] at h
    split at h
    · cases h
    · have hlong : ∀ {keyword role argument}, splitKeyword? text = some (keyword, argument) →
          keyword ≠ .send → readNumber role line argument = .error (.longNumber digits) →
          LongNumber text digits := by
        intro keyword role argument hsplit hkeyword hread
        obtain ⟨hdigits, values, n, hn, hlength⟩ := readNumber_long_iff.1 hread
        exact ⟨hdigits, keyword, argument, values, n, hkeyword,
          takes_of_ne_nil hbare hsplit (numeral_ne_nil hn), hn, hlength⟩
      split at h
      case h_1 => cases h
      case h_2 argument _ =>
        cases hdata : readData argument with
        | ok value =>
          rw [hdata] at h
          cases h
        | error problem =>
          rw [hdata] at h
          cases h
      case h_3 hsplit => exact hlong hsplit (by decide) (number_long_iff.1 h)
      case h_4 hsplit => exact hlong hsplit (by decide) (number_long_iff.1 h)
  · rintro ⟨hdigits, keyword, argument, values, n, hkeyword, htakes, hn, hlength⟩
    have hread : ∀ role, readNumber role line argument = .error (.longNumber digits) :=
      fun role => readNumber_long_iff.2 ⟨hdigits, values, n, hn, hlength⟩
    rw [readStatement, if_neg htakes.ne_end, htakes.split hbare]
    cases keyword with
    | send => exact absurd rfl hkeyword
    | delay => exact number_long_iff.2 (hread .delay)
    | loop => exact number_long_iff.2 (hread .loopCount)

/-! ## Scripts that are read up to a long number -/

/-- Behind `depth` open LOOPs, the lines are read up to one with a number of so many digits. -/
def ReachesLong (depth : Nat) (lines : List (List Char)) (digits : Nat) : Prop :=
  ∃ k raw, lines[k]? = some raw ∧ LongNumber (trim raw) digits ∧
    (∃ final, Scans depth (lines.take k) final) ∧
    ∀ earlier ∈ lines.take k, ShortNumber (trim earlier)

/-- Some line has a number of so many digits, more than 4300, and all lines before it can stand
where they stand and have shorter ones. -/
def MeetsLongNumber (script : List Char) (digits : Nat) : Prop :=
  ReachesLong 0 (splitAt '\n' script) digits

theorem Draft.add_fault {draft : Draft} {line : Nat} {statement : Statement} {fault : Fault}
    (h : draft.add line statement = .error fault) : fault = .scriptLine line .unmatchedEnd := by
  rcases draft.add_cases line statement with ⟨next, hadd, _⟩ | ⟨_, _, hadd⟩
  · rw [hadd] at h
    cases h
  · rw [hadd] at h
    cases h
    rfl

theorem Draft.read_long_iff {draft : Draft} {line digits : Nat} {raw : List Char} :
    draft.read line raw = .error (.longNumber digits) ↔ LongNumber (trim raw) digits := by
  rw [← readStatement_long_iff line (bare_trim raw), Draft.read]
  cases hsilent : isSilent (trim raw) with
  | true =>
    refine ⟨fun h => (by cases h), fun h => ?_⟩
    rw [((readStatement_long_iff line (bare_trim raw)).1 h).not_silent] at hsilent
    cases hsilent
  | false =>
    simp only [Bool.false_eq_true, if_false]
    cases hread : readStatement line (trim raw) with
    | error fault => simp only [Except.error.injEq]
    | ok statement => exact ⟨fun h => (by cases add_fault h), fun h => (by cases h)⟩

/-- A line is read exactly if it can stand where it stands and its number is short. -/
theorem Draft.read_ok_iff {draft : Draft} {line depth : Nat} {raw : List Char} :
    (∃ next, draft.read line raw = .ok next ∧ next.opened.length = depth) ↔
      (∃ said, LineSays raw said ∧ depthAfter draft.opened.length said = some depth) ∧
        ShortNumber (trim raw) := by
  constructor
  · rintro ⟨next, hread, rfl⟩
    have hshort : ShortNumber (trim raw) := Classical.byContradiction fun hlong => by
      obtain ⟨digits, hdigits⟩ := not_shortNumber_iff.1 hlong
      cases hread.symm.trans (read_long_iff.2 hdigits)
    have hline := read_line draft line raw hshort
    rw [hread] at hline
    cases hline with
    | @read _ said hspoken hdepth => exact ⟨⟨said, hspoken, hdepth⟩, hshort⟩
  · rintro ⟨⟨said, hspoken, hdepth⟩, hshort⟩
    have hline := read_line draft line raw hshort
    cases hread : draft.read line raw with
    | ok next =>
      rw [hread] at hline
      cases hline with
      | @read _ other hother hnext =>
        rw [hother.unique hspoken, hdepth] at hnext
        exact ⟨next, rfl, (Option.some.inj hnext).symm⟩
    | error fault =>
      rw [hread] at hline
      cases hline with
      | outOfRange hout _ => exact absurd hout hspoken.not_outOfRange
      | refused hno _ _ => exact absurd hdepth (hno said depth hspoken)

theorem not_reachesLong_nil (depth digits : Nat) : ¬ ReachesLong depth [] digits := by
  rintro ⟨k, raw, hraw, _⟩
  cases hraw

/-- The long number is in the first line, or the first line is read and it is behind that. -/
theorem reachesLong_cons_iff {depth digits : Nat} {raw : List Char} {rest : List (List Char)} :
    ReachesLong depth (raw :: rest) digits ↔ LongNumber (trim raw) digits ∨
      ShortNumber (trim raw) ∧ ∃ said d, LineSays raw said ∧ depthAfter depth said = some d ∧
        ReachesLong d rest digits := by
  constructor
  · rintro ⟨k, line, hline, hlong, ⟨final, hscan⟩, hshort⟩
    cases k with
    | zero =>
      cases hline
      exact Or.inl hlong
    | succ k =>
      rw [List.take_succ_cons] at hscan hshort
      obtain ⟨said, d, hspoken, hd, hrest⟩ := scans_cons.1 hscan
      exact Or.inr ⟨hshort raw List.mem_cons_self, said, d, hspoken, hd, k, line, hline, hlong,
        ⟨final, hrest⟩, fun earlier hmem => hshort earlier (List.mem_cons_of_mem raw hmem)⟩
  · rintro (hlong | ⟨hshort, said, d, hspoken, hd, k, line, hline, hlong, ⟨final, hscan⟩, hrest⟩)
    · exact ⟨0, raw, rfl, hlong, ⟨depth, scans_nil.2 rfl⟩, nofun⟩
    · refine ⟨k + 1, line, hline, hlong, ⟨final, ?_⟩, ?_⟩
      · rw [List.take_succ_cons]
        exact scans_cons.2 ⟨said, d, hspoken, hd, hscan⟩
      · rw [List.take_succ_cons]
        exact List.forall_mem_cons.2 ⟨hshort, hrest⟩

theorem Draft.readAll_long_iff (draft : Draft) (line : Nat) {digits : Nat}
    {lines : List (List Char)} :
    draft.readAll line lines = .error (.longNumber digits) ↔
      ReachesLong draft.opened.length lines digits := by
  induction lines generalizing draft line with
  | nil => exact ⟨nofun, fun h => (not_reachesLong_nil _ _ h).elim⟩
  | cons raw rest ih =>
    rw [Draft.readAll, reachesLong_cons_iff]
    cases hread : draft.read line raw with
    | ok next =>
      obtain ⟨⟨said, hspoken, hdepth⟩, hshort⟩ := read_ok_iff.1 ⟨next, hread, rfl⟩
      have hnot : ¬ LongNumber (trim raw) digits :=
        fun hlong => not_shortNumber_iff.2 ⟨digits, hlong⟩ hshort
      refine (ih next (line + 1)).trans ⟨fun h => Or.inr ⟨hshort, said, _, hspoken, hdepth, h⟩, fun h => ?_⟩
      obtain ⟨_, other, d, hother, hd, hrest⟩ := h.resolve_left hnot
      rw [hother.unique hspoken, hdepth] at hd
      exact Option.some.inj hd ▸ hrest
    | error fault =>
      refine ⟨fun h => Or.inl (read_long_iff.1 (hread.trans h)), fun h => ?_⟩
      rcases h with hlong | ⟨hshort, said, d, hspoken, hd, _⟩
      · exact hread.symm.trans (read_long_iff.2 hlong)
      · obtain ⟨next, hnext, _⟩ := read_ok_iff.2 ⟨⟨said, hspoken, hd⟩, hshort⟩
        cases hread.symm.trans hnext

/-- Parsing fails for a long number exactly if the script is read up to one. -/
theorem parse_long_iff {script : List Char} {digits : Nat} :
    parse script = .error (.longNumber digits) ↔ MeetsLongNumber script digits := by
  rw [MeetsLongNumber, parse]
  by_cases hblank : Blank script
  · rw [(trim_eq_nil_iff script).2 hblank]
    refine ⟨fun h => (by cases h), ?_⟩
    rintro ⟨k, raw, hraw, hlong, _⟩
    have hsilent := hlong.not_silent
    rw [(trim_eq_nil_iff raw).2 (blank_of_mem_splitAt hblank (List.mem_of_getElem? hraw))] at hsilent
    cases hsilent
  · have hempty : (trim script).isEmpty = false := by
      simpa [trim_eq_nil_iff] using hblank
    simp only [hempty, Bool.false_eq_true, if_false]
    refine Iff.trans ?_ (Draft.readAll_long_iff {} 1)
    cases Draft.readAll {} 1 (splitAt '\n' script) with
    | error fault => simp only [Except.error.injEq]
    | ok draft =>
      refine ⟨fun h => ?_, fun h => (by cases h)⟩
      simp only [Draft.finish] at h
      split at h <;> cases h

/-! ## The verdict -/

/-- What a verdict says agrees with what parsing comes to. -/
def Verdict.Reports (verdict : Verdict) : Except Fault (List Command) → Prop
  | .ok commands =>
    verdict.isValid = true ∧ verdict.line = none ∧ verdict.commands = commands.length
  | .error fault => verdict.isValid = false ∧ verdict.reason = some fault.message ∧
    verdict.line = fault.line? ∧ verdict.commands = 0

/-- Every other fault of reading a line is the console's own. -/
theorem Draft.read_fault {draft : Draft} {line : Nat} {raw : List Char} {fault : Fault}
    (h : draft.read line raw = .error fault) :
    fault.isOwn = true ∨ ∃ digits, fault = .longNumber digits := by
  by_cases hshort : ShortNumber (trim raw)
  · have hline := read_line draft line raw hshort
    rw [h] at hline
    cases hline with
    | outOfRange _ hkind | refused _ _ hkind => exact Or.inl (by rw [Fault.isOwn, hkind]; rfl)
  · obtain ⟨digits, hlong⟩ := not_shortNumber_iff.1 hshort
    exact Or.inr ⟨digits, Except.error.inj (h.symm.trans (read_long_iff.2 hlong))⟩

theorem Draft.readAll_fault {draft : Draft} {line : Nat} {lines : List (List Char)} {fault : Fault}
    (h : draft.readAll line lines = .error fault) :
    fault.isOwn = true ∨ ∃ digits, fault = .longNumber digits := by
  induction lines generalizing draft line with
  | nil => cases h
  | cons raw rest ih =>
    rw [Draft.readAll] at h
    cases hread : draft.read line raw with
    | ok next =>
      rw [hread] at h
      exact ih h
    | error other =>
      rw [hread] at h
      cases h
      exact read_fault hread

theorem parse_fault {script : List Char} {fault : Fault} (h : parse script = .error fault) :
    fault.isOwn = true ∨ ∃ digits, fault = .longNumber digits := by
  rw [parse] at h
  split at h
  · cases h
    exact Or.inl rfl
  · cases hread : Draft.readAll {} 1 (splitAt '\n' script) with
    | error other =>
      rw [hread] at h
      cases h
      exact Draft.readAll_fault hread
    | ok draft =>
      rw [hread] at h
      simp only [Draft.finish] at h
      split at h
      · cases h
      · cases h
        exact Or.inl rfl

/-- A script has a verdict exactly if it is not read up to a number of more than 4300 digits, and
the verdict reports what parsing comes to. Otherwise there is no verdict, and the fault of parsing
goes through. -/
theorem validate_reports_iff (script : List Char) :
    ((∃ verdict, validate script = .ok verdict ∧ verdict.Reports (parse script)) ↔
      ∀ digits, ¬ MeetsLongNumber script digits) ∧
    ∀ digits, validate script = .error (.longNumber digits) ↔ MeetsLongNumber script digits := by
  simp only [← parse_long_iff]
  rw [validate]
  cases hparse : parse script with
  | ok commands => exact ⟨⟨fun _ => nofun, fun _ => ⟨_, rfl, rfl, rfl, rfl⟩⟩, fun _ => ⟨nofun, nofun⟩⟩
  | error fault =>
    rcases parse_fault hparse with hown | ⟨digits, rfl⟩
    · have hnot : ∀ digits, fault ≠ .longNumber digits := by
        rintro digits rfl
        cases hown
      simp only [hown, if_true]
      exact ⟨⟨fun _ digits h => hnot digits (Except.error.inj h), fun _ => ⟨_, rfl, rfl, rfl, rfl, rfl⟩⟩,
        fun digits => ⟨nofun, fun h => (hnot digits (Except.error.inj h)).elim⟩⟩
    · have hown : (Fault.longNumber digits).isOwn = false := rfl
      simp only [hown, Bool.false_eq_true, if_false, Except.error.injEq]
      refine ⟨⟨?_, fun h => (h digits rfl).elim⟩, fun _ => trivial⟩
      rintro ⟨verdict, h, _⟩
      cases h

/-! ## A delay that is too long to read -/

/-- A DELAY of so many ones. -/
def delayOfOnes (digits : Nat) : List Char :=
  Keyword.delay.spelling ++ [' '] ++ List.replicate digits '1'

theorem longNumber_delayOfOnes {digits : Nat} (h : 4300 < digits) :
    LongNumber (delayOfOnes digits) digits := by
  have hne : List.replicate digits '1' ≠ [] := by
    simp only [ne_eq, List.replicate_eq_nil_iff]
    omega
  have hones : ∀ c ∈ List.replicate digits '1', isBlank c = false := by
    intro c hc
    rw [List.eq_of_mem_replicate hc]
    rfl
  have hbare : Bare (List.replicate digits '1') :=
    ⟨fun c hc => hones c (List.mem_of_mem_head? hc), fun c hc => hones c (List.mem_of_getLast? hc)⟩
  have hdigits : Digits (List.replicate digits '1') (List.replicate digits 1) := by
    refine ⟨hne, ?_⟩
    rw [List.map_replicate, List.map_replicate]
    rfl
  exact ⟨h, .delay, _, _, _, by decide, ⟨hne, hbare, [' '], by decide,
      blank_cons.2 ⟨rfl, blank_nil⟩, rfl⟩,
    .plain hdigits, List.length_replicate⟩

theorem parse_delayOfOnes (digits : Nat) (h : 4300 < digits) :
    parse (delayOfOnes digits) = .error (.longNumber digits) := by
  have hlong := longNumber_delayOfOnes h
  have hline : '\n' ∉ delayOfOnes digits := by
    intro hmem
    rcases List.mem_append.1 hmem with hmem | hmem
    · exact absurd hmem (by decide)
    · exact absurd (List.eq_of_mem_replicate hmem) (by decide)
  have htrim : trim (delayOfOnes digits) = delayOfOnes digits := by
    refine trimmed_iff.1 ⟨⟨?_, ?_⟩, [], [], by simp, blank_nil, blank_nil⟩
    · intro c hc
      cases hc
      rfl
    · intro c hc
      have hzero : digits ≠ 0 := by omega
      rw [delayOfOnes, List.getLast?_append, List.getLast?_replicate, if_neg hzero] at hc
      cases hc
      rfl
  rw [parse_long_iff, MeetsLongNumber, splitAt_of_not_mem hline, reachesLong_cons_iff, htrim]
  exact Or.inl hlong

/-- A delay of 4301 digits has no verdict. -/
theorem validate_long_delay :
    validate (delayOfOnes 4301) = .error (.longNumber 4301) ∧
      ¬ ∃ verdict, validate (delayOfOnes 4301) = .ok verdict ∧
        verdict.Reports (parse (delayOfOnes 4301)) := by
  have hparse := parse_delayOfOnes 4301 (by decide)
  have hfails : validate (delayOfOnes 4301) = .error (.longNumber 4301) := by
    rw [validate, hparse]
    rfl
  refine ⟨hfails, ?_⟩
  rintro ⟨verdict, hverdict, _⟩
  cases hfails.symm.trans hverdict

end SerialConsole.Script
