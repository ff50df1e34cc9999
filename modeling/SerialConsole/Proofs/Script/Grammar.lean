import Mathlib.Data.List.Forall2
import SerialConsole.Proofs.Script.Block
import SerialConsole.Proofs.Script.Statement

set_option autoImplicit false

/-!
# The grammar of scripts

A script is accepted when it is not blank, each of its lines says something or nothing, and its
LOOP and END lines balance; the scripts that are not accepted have a first line that cannot stand,
or are left with an open LOOP. Reading is followed by the number of open LOOPs alone:
`readAll_lines` gives what reading comes to after some of the lines.
-/
namespace SerialConsole.Script

open Text

/-! ## Balance -/

/-- Whether a line opens a loop. -/
def isOpening : Option Statement → Bool
  | some (.loop _) => true
  | _ => false

/-- The number of LOOPs that are said. -/
def opens (said : List (Option Statement)) : Nat := said.countP isOpening

/-- The number of ENDs that are said. -/
def closes (said : List (Option Statement)) : Nat := said.count (some .loopEnd)

def LineSays (raw : List Char) (said : Option Statement) : Prop :=
  ∃ text, Trimmed raw text ∧ Says text said

/-- Lines that all say something or nothing, with no END too many after `depth` open LOOPs, and
the number of LOOPs that are open behind them. -/
def Scans (depth : Nat) (lines : List (List Char)) (final : Nat) : Prop :=
  ∃ said, List.Forall₂ LineSays lines said ∧
    (∀ k, closes (said.take k) ≤ depth + opens (said.take k)) ∧
    final + closes said = depth + opens said

/-- A script that is not blank, whose lines all say something or nothing, and in which LOOPs and
ENDs balance: no start of it has more ENDs than LOOPs, and the whole has as many. -/
def Accepted (script : List Char) : Prop :=
  ¬ Blank script ∧ ∃ said, List.Forall₂ LineSays (splitAt '\n' script) said ∧
    (∀ k, closes (said.take k) ≤ opens (said.take k)) ∧ closes said = opens said

/-- Behind `depth` open LOOPs, line `k`, counted from zero, is the first one that cannot stand where
it stands: it says nothing that a line can say, or it is an END without an open LOOP. -/
def FirstOffending (depth : Nat) (lines : List (List Char)) (k : Nat) : Prop :=
  k < lines.length ∧ (∃ final, Scans depth (lines.take k) final) ∧
    ¬ ∃ final, Scans depth (lines.take (k + 1)) final

/-- The first line that cannot stand where it stands has a well-formed number out of range. -/
def FirstOutOfRange (script : List Char) : Prop :=
  ∃ k raw text, FirstOffending 0 (splitAt '\n' script) k ∧ (splitAt '\n' script)[k]? = some raw ∧
    Trimmed raw text ∧ OutOfRange text

/-- The number of open LOOPs behind a line, if the line can stand there. -/
def depthAfter (depth : Nat) : Option Statement → Option Nat
  | some (.loop _) => some (depth + 1)
  | some .loopEnd => if depth = 0 then none else some (depth - 1)
  | _ => some depth

/-- The number of loops that a line opens. -/
def rise (said : Option Statement) : Nat := if isOpening said then 1 else 0

/-- The number of loops that a line closes. -/
def fall (said : Option Statement) : Nat := if said = some .loopEnd then 1 else 0

theorem opens_cons (said : Option Statement) (rest : List (Option Statement)) :
    opens (said :: rest) = rise said + opens rest := by
  rw [opens, List.countP_cons, Nat.add_comm]
  rfl

theorem closes_cons (said : Option Statement) (rest : List (Option Statement)) :
    closes (said :: rest) = fall said + closes rest := by
  rw [closes, List.count_cons, Nat.add_comm, fall]
  simp [closes]

theorem depthAfter_eq_some_iff {depth d : Nat} {said : Option Statement} :
    depthAfter depth said = some d ↔ d + fall said = depth + rise said := by
  rcases said with _ | _ | _ | _ | _
  case some.loopEnd =>
    by_cases hzero : depth = 0 <;> simp [depthAfter, fall, rise, isOpening, hzero]
    omega
  all_goals simp [depthAfter, fall, rise, isOpening, eq_comm]

theorem balance_cons (depth final : Nat) (said : Option Statement)
    (rest : List (Option Statement)) :
    ((∀ k, closes ((said :: rest).take k) ≤ depth + opens ((said :: rest).take k)) ∧
        final + closes (said :: rest) = depth + opens (said :: rest)) ↔
      ∃ d, depthAfter depth said = some d ∧
        (∀ k, closes (rest.take k) ≤ d + opens (rest.take k)) ∧
        final + closes rest = d + opens rest := by
  simp only [depthAfter_eq_some_iff, opens_cons, closes_cons]
  constructor
  · rintro ⟨hstart, htotal⟩
    have hnext : ∀ k, fall said + closes (rest.take k) ≤
        depth + (rise said + opens (rest.take k)) := fun k => by
      have := hstart (k + 1)
      rwa [List.take_succ_cons, opens_cons, closes_cons] at this
    have hfirst : fall said ≤ depth + rise said := by simpa [closes, opens] using hnext 0
    refine ⟨depth + rise said - fall said, by omega, fun k => ?_, by omega⟩
    have := hnext k
    omega
  · rintro ⟨d, hd, hstart, htotal⟩
    refine ⟨fun k => ?_, by omega⟩
    cases k with
    | zero => simp [closes]
    | succ k =>
      have := hstart k
      rw [List.take_succ_cons, opens_cons, closes_cons]
      omega

theorem scans_nil {depth final : Nat} : Scans depth [] final ↔ final = depth := by
  constructor
  · rintro ⟨said, hsaid, _, htotal⟩
    cases hsaid
    simpa [closes, opens] using htotal
  · rintro rfl
    exact ⟨[], .nil, by simp [closes, opens], by simp [closes, opens]⟩

theorem scans_cons {depth final : Nat} {raw : List Char} {rest : List (List Char)} :
    Scans depth (raw :: rest) final ↔
      ∃ said d, LineSays raw said ∧ depthAfter depth said = some d ∧ Scans d rest final := by
  constructor
  · rintro ⟨_, hlines, hbalance⟩
    cases hlines with
    | @cons _ said _ tail hline hrest =>
      obtain ⟨d, hd, hbalance⟩ := (balance_cons depth final said tail).1 hbalance
      exact ⟨said, d, hline, hd, tail, hrest, hbalance⟩
  · rintro ⟨said, d, hline, hd, tail, hrest, hbalance⟩
    have hall := (balance_cons depth final said tail).2 ⟨d, hd, hbalance⟩
    exact ⟨said :: tail, .cons hline hrest, hall⟩

/-! ## What a line says -/

theorem lineSays_iff {raw : List Char} {said : Option Statement} :
    LineSays raw said ↔ Says (trim raw) said := by
  simp only [LineSays, trimmed_iff, exists_eq_left']

theorem LineSays.unique {raw : List Char} {said other : Option Statement}
    (h : LineSays raw said) (h' : LineSays raw other) : said = other := by
  rw [lineSays_iff] at h h'
  cases said with
  | none =>
    cases other with
    | none => rfl
    | some statement =>
      have hsilent := says_none_iff.1 h
      rw [h'.not_silent] at hsilent
      cases hsilent
  | some statement =>
    cases other with
    | none =>
      have hsilent := says_none_iff.1 h'
      rw [h.not_silent] at hsilent
      cases hsilent
    | some statement' => rw [h.unique (bare_trim raw) h']

theorem LineSays.not_outOfRange {raw : List Char} {said : Option Statement}
    (h : LineSays raw said) : ¬ OutOfRange (trim raw) := by
  intro hout
  rw [lineSays_iff] at h
  cases said with
  | none =>
    have hsilent := says_none_iff.1 h
    rw [hout.not_silent] at hsilent
    cases hsilent
  | some statement => exact h.not_outOfRange (bare_trim raw) hout

/-! ## The first line that cannot stand -/

theorem firstOffending_zero {depth : Nat} {raw : List Char} {rest : List (List Char)}
    (h : ∀ said d, LineSays raw said → depthAfter depth said ≠ some d) :
    FirstOffending depth (raw :: rest) 0 := by
  refine ⟨Nat.succ_pos _, ⟨depth, scans_nil.2 rfl⟩, ?_⟩
  rintro ⟨final, hscan⟩
  rw [List.take_succ_cons, scans_cons] at hscan
  obtain ⟨said, d, hline, hd, _⟩ := hscan
  exact h said d hline hd

theorem firstOffending_succ {depth d k : Nat} {raw : List Char} {rest : List (List Char)}
    {said : Option Statement} (hline : LineSays raw said) (hd : depthAfter depth said = some d)
    (h : FirstOffending d rest k) : FirstOffending depth (raw :: rest) (k + 1) := by
  obtain ⟨hk, ⟨final, hright⟩, hwrong⟩ := h
  refine ⟨Nat.succ_lt_succ hk, ⟨final, ?_⟩, ?_⟩
  · rw [List.take_succ_cons]
    exact scans_cons.2 ⟨said, d, hline, hd, hright⟩
  · rintro ⟨final', hscan⟩
    rw [List.take_succ_cons, scans_cons] at hscan
    obtain ⟨said', d', hline', hd', hscan'⟩ := hscan
    rw [hline'.unique hline, hd] at hd'
    cases hd'
    exact hwrong ⟨final', hscan'⟩

theorem Scans.take {depth final : Nat} {lines : List (List Char)} (h : Scans depth lines final)
    (k : Nat) : ∃ mid, Scans depth (lines.take k) mid := by
  induction lines generalizing depth k with
  | nil => exact ⟨depth, by simp [scans_nil]⟩
  | cons raw rest ih =>
    cases k with
    | zero => exact ⟨depth, by simp [scans_nil]⟩
    | succ k =>
      obtain ⟨said, d, hline, hd, hrest⟩ := scans_cons.1 h
      obtain ⟨mid, hmid⟩ := ih hrest k
      exact ⟨mid, scans_cons.2 ⟨said, d, hline, hd, hmid⟩⟩

theorem FirstOffending.unique {depth k k' : Nat} {lines : List (List Char)}
    (h : FirstOffending depth lines k) (h' : FirstOffending depth lines k') : k = k' := by
  have hle : ∀ {i j}, FirstOffending depth lines i → FirstOffending depth lines j → j ≤ i := by
    intro i j hi hj
    refine Nat.le_of_not_lt fun hlt => hi.2.2 ?_
    obtain ⟨final, hscan⟩ := hj.2.1
    have := hscan.take (i + 1)
    rwa [List.take_take, Nat.min_eq_left hlt] at this
  exact Nat.le_antisymm (hle h' h) (hle h h')

theorem FirstOffending.not_scans {depth k final : Nat} {lines : List (List Char)}
    (h : FirstOffending depth lines k) : ¬ Scans depth lines final :=
  fun hscan => h.2.2 (hscan.take (k + 1))

/-! ## Reading -/

/-- What reading a line behind `depth` open LOOPs can come to. -/
inductive LineReading (depth : Nat) (raw : List Char) : Except Fault Draft → Prop where
  | read {next : Draft} {said : Option Statement} (h : LineSays raw said)
    (hdepth : depthAfter depth said = some next.opened.length) : LineReading depth raw (.ok next)
  | outOfRange {fault : Fault} (h : OutOfRange (trim raw)) (hkind : fault.kind = .scriptRange) :
    LineReading depth raw (.error fault)
  | refused {fault : Fault} (h : ∀ said d, LineSays raw said → depthAfter depth said ≠ some d)
    (hout : ¬ OutOfRange (trim raw)) (hkind : fault.kind = .scriptSyntax) :
    LineReading depth raw (.error fault)

/-- What reading lines behind `depth` open LOOPs can come to. -/
inductive LinesReading (depth : Nat) (lines : List (List Char)) : Except Fault Draft → Prop where
  | read {final : Draft} (h : Scans depth lines final.opened.length) :
    LinesReading depth lines (.ok final)
  | outOfRange {fault : Fault} {k : Nat} {raw : List Char} (h : FirstOffending depth lines k)
    (hraw : lines[k]? = some raw) (hout : OutOfRange (trim raw))
    (hkind : fault.kind = .scriptRange) : LinesReading depth lines (.error fault)
  | refused {fault : Fault} {k : Nat} {raw : List Char} (h : FirstOffending depth lines k)
    (hraw : lines[k]? = some raw) (hout : ¬ OutOfRange (trim raw))
    (hkind : fault.kind = .scriptSyntax) : LinesReading depth lines (.error fault)

theorem Draft.add_cases (draft : Draft) (line : Nat) (statement : Statement) :
    (∃ next, draft.add line statement = .ok next ∧
      depthAfter draft.opened.length (some statement) = some next.opened.length) ∨
    (statement = .loopEnd ∧ draft.opened = [] ∧
      draft.add line statement = .error (.scriptLine line .unmatchedEnd)) := by
  cases statement with
  | send value | delay ms | loop count => exact Or.inl ⟨_, rfl, rfl⟩
  | loopEnd =>
    rw [Draft.add]
    cases draft.opened with
    | nil => exact Or.inr ⟨rfl, rfl, rfl⟩
    | cons start outer => exact Or.inl ⟨_, rfl, by simp [depthAfter]⟩

theorem read_line (draft : Draft) (line : Nat) (raw : List Char) (short : ShortNumber (trim raw)) :
    LineReading draft.opened.length raw (draft.read line raw) := by
  rw [Draft.read]
  cases hsilent : isSilent (trim raw) with
  | true =>
    simp only [if_true]
    exact .read (lineSays_iff.2 (says_none_iff.2 hsilent)) rfl
  | false =>
    have hsome : ∀ said, LineSays raw said → ∃ statement, said = some statement := by
      intro said hline
      cases said with
      | some statement => exact ⟨statement, rfl⟩
      | none => simp [says_none_iff.1 (lineSays_iff.1 hline)] at hsilent
    simp only [Bool.false_eq_true, if_false]
    have hreading := readStatement_reading line (bare_trim raw)
    cases hread : readStatement line (trim raw) with
    | ok statement =>
      rw [hread] at hreading
      cases hreading with
      | read hsaid =>
        have hline : LineSays raw (some statement) := lineSays_iff.2 hsaid
        rcases draft.add_cases line statement with ⟨next, hadd, hdepth⟩ | ⟨rfl, hopened, hadd⟩
        · simp only [hadd]
          exact .read hline hdepth
        · simp only [hadd]
          refine .refused (fun said d hother => ?_) hline.not_outOfRange rfl
          rw [hother.unique hline, hopened]
          simp [depthAfter]
    | error fault =>
      rw [hread] at hreading
      cases hreading with
      | @outOfRange problem hout hrange =>
        exact .outOfRange hout (by simp [Fault.kind, hrange])
      | long digits hlong => exact absurd short hlong
      | @malformed problem hno hout hrange =>
        refine .refused (fun said d hsaid => ?_) hout (by simp [Fault.kind, hrange])
        obtain ⟨statement, rfl⟩ := hsome said hsaid
        exact absurd (lineSays_iff.1 hsaid) (hno statement)

theorem readAll_lines (draft : Draft) (line : Nat) (lines : List (List Char))
    (short : ∀ raw ∈ lines, ShortNumber (trim raw)) :
    LinesReading draft.opened.length lines (draft.readAll line lines) := by
  induction lines generalizing draft line with
  | nil => exact .read (scans_nil.2 rfl)
  | cons raw rest ih =>
    rw [Draft.readAll]
    have hfirst := read_line draft line raw (short raw List.mem_cons_self)
    cases hread : draft.read line raw with
    | ok next =>
      rw [hread] at hfirst
      cases hfirst with
      | @read _ said hline hdepth =>
        have hrest := ih next (line + 1) fun r hr => short r (List.mem_cons_of_mem raw hr)
        simp only
        cases hall : next.readAll (line + 1) rest with
        | ok final =>
          rw [hall] at hrest
          cases hrest with
          | read hscan => exact .read (scans_cons.2 ⟨said, _, hline, hdepth, hscan⟩)
        | error fault =>
          rw [hall] at hrest
          cases hrest with
          | outOfRange hk hraw hout hkind =>
            exact .outOfRange (firstOffending_succ hline hdepth hk) hraw hout hkind
          | refused hk hraw hout hkind =>
            exact .refused (firstOffending_succ hline hdepth hk) hraw hout hkind
    | error fault =>
      rw [hread] at hfirst
      cases hfirst with
      | outOfRange hout hkind =>
        refine .outOfRange (firstOffending_zero fun said d hline _ => ?_) rfl hout hkind
        exact hline.not_outOfRange hout
      | refused hno hout hkind => exact .refused (firstOffending_zero hno) rfl hout hkind

/-- What parsing can come to. -/
inductive ScriptReading (script : List Char) : Except Fault (List Command) → Prop where
  | empty (h : Blank script) : ScriptReading script (.error .emptyScript)
  | accepted {commands : List Command} (h : Accepted script) : ScriptReading script (.ok commands)
  | outOfRange {fault : Fault} (h : FirstOutOfRange script) (hkind : fault.kind = .scriptRange) :
    ScriptReading script (.error fault)
  | refused {fault : Fault} (hblank : ¬ Blank script) (h : ¬ Accepted script)
    (hout : ¬ FirstOutOfRange script) (hkind : fault.kind = .scriptSyntax) :
    ScriptReading script (.error fault)

theorem accepted_iff {script : List Char} :
    Accepted script ↔ ¬ Blank script ∧ Scans 0 (splitAt '\n' script) 0 := by
  simp only [Accepted, Scans, Nat.zero_add]

theorem Scans.final_unique {depth final final' : Nat} {lines : List (List Char)}
    (h : Scans depth lines final) (h' : Scans depth lines final') : final = final' := by
  induction lines generalizing depth with
  | nil => rw [scans_nil.1 h, scans_nil.1 h']
  | cons raw rest ih =>
    obtain ⟨said, d, hline, hd, hrest⟩ := scans_cons.1 h
    obtain ⟨said', d', hline', hd', hrest'⟩ := scans_cons.1 h'
    rw [hline'.unique hline, hd] at hd'
    cases hd'
    exact ih hrest hrest'

/-- A script whose lines can all stand has no line that is out of range. -/
theorem Scans.not_firstOutOfRange {script : List Char} {final : Nat}
    (h : Scans 0 (splitAt '\n' script) final) : ¬ FirstOutOfRange script := by
  rintro ⟨k, raw, text, hfirst, _⟩
  exact hfirst.not_scans h

theorem parse_reading (script : List Char)
    (short : ∀ raw ∈ splitAt '\n' script, ShortNumber (trim raw)) :
    ScriptReading script (parse script) := by
  rw [parse]
  by_cases hblank : Blank script
  · rw [(trim_eq_nil_iff script).2 hblank]
    exact .empty hblank
  · have hempty : (trim script).isEmpty = false := by
      simpa [trim_eq_nil_iff] using hblank
    simp only [hempty, Bool.false_eq_true, if_false]
    have hlines := readAll_lines {} 1 (splitAt '\n' script) short
    cases hread : Draft.readAll {} 1 (splitAt '\n' script) with
    | ok final =>
      rw [hread] at hlines
      cases hlines with
      | read hscan =>
        simp only [Draft.finish]
        cases hopened : final.opened with
        | nil =>
          rw [hopened] at hscan
          exact .accepted (accepted_iff.2 ⟨hblank, hscan⟩)
        | cons start outer =>
          rw [hopened] at hscan
          refine .refused hblank (fun haccepted => ?_) hscan.not_firstOutOfRange rfl
          cases hscan.final_unique (accepted_iff.1 haccepted).2
    | error fault =>
      rw [hread] at hlines
      cases hlines with
      | outOfRange hfirst hraw hout hkind =>
        exact .outOfRange ⟨_, _, _, hfirst, hraw, trimmed_trim _, hout⟩ hkind
      | refused hfirst hraw hout hkind =>
        refine .refused hblank (fun haccepted => ?_) ?_ hkind
        · exact hfirst.not_scans (accepted_iff.1 haccepted).2
        · rintro ⟨k, raw, text, hother, hraw', htext, hout'⟩
          rw [hother.unique hfirst, hraw] at hraw'
          cases hraw'
          exact hout (trimmed_iff.1 htext ▸ hout')

theorem FirstOutOfRange.not_accepted {script : List Char} (h : FirstOutOfRange script) :
    ¬ Accepted script :=
  fun haccepted => (accepted_iff.1 haccepted).2.not_firstOutOfRange h

theorem blank_of_mem_splitAt {script raw : List Char} (h : Blank script)
    (hraw : raw ∈ splitAt '\n' script) : Blank raw := by
  induction script generalizing raw with
  | nil =>
    obtain rfl : raw = [] := by simpa [splitAt] using hraw
    exact blank_nil
  | cons c rest ih =>
    obtain ⟨hc, hrest⟩ := blank_cons.1 h
    rw [splitAt] at hraw
    split at hraw
    case isTrue =>
      rcases List.mem_cons.1 hraw with rfl | hmem
      · exact blank_nil
      · exact ih hrest hmem
    case isFalse =>
      cases hcut : splitAt '\n' rest with
      | nil => exact absurd hcut (splitAt_ne_nil _ rest)
      | cons first others =>
        rw [hcut] at hraw
        rcases List.mem_cons.1 hraw with rfl | hmem
        · exact blank_cons.2 ⟨hc, ih hrest (by rw [hcut]; exact List.mem_cons_self)⟩
        · exact ih hrest (by rw [hcut]; exact List.mem_cons_of_mem _ hmem)

theorem FirstOutOfRange.not_blank {script : List Char} (h : FirstOutOfRange script) :
    ¬ Blank script := by
  intro hblank
  obtain ⟨k, raw, text, _, hraw, htext, hout⟩ := h
  have hnil : trim raw = [] :=
    (trim_eq_nil_iff raw).2 (blank_of_mem_splitAt hblank (List.mem_of_getElem? hraw))
  obtain rfl : text = [] := (trimmed_iff.1 htext).symm.trans hnil
  cases hout.not_silent

/-- `parse` accepts exactly the scripts of the grammar, calls exactly the blank ones empty, and
tells a number out of range in the first line that cannot stand from all other mistakes. A number
of more than 4300 digits is not read at all, so no line has one here. -/
theorem parse_accepts_iff (script : List Char)
    (short : ∀ raw ∈ splitAt '\n' script, ∀ text, Trimmed raw text → ShortNumber text) :
    ((∃ commands, parse script = .ok commands) ↔ Accepted script) ∧
    ((∃ fault, parse script = .error fault ∧ fault.kind = .emptyScript) ↔ Blank script) ∧
    ((∃ fault, parse script = .error fault ∧ fault.kind = .scriptRange) ↔
      FirstOutOfRange script) ∧
    ((∃ fault, parse script = .error fault ∧ fault.kind = .scriptSyntax) ↔
      ¬ Accepted script ∧ ¬ Blank script ∧ ¬ FirstOutOfRange script) := by
  have hreading := parse_reading script fun raw hraw => short raw hraw _ (trimmed_trim raw)
  cases hparse : parse script with
  | ok commands =>
    rw [hparse] at hreading
    cases hreading with
    | accepted haccepted =>
      have hblank := haccepted.1
      have hrange : ¬ FirstOutOfRange script := fun h => h.not_accepted haccepted
      simp [haccepted, hblank, hrange]
  | error fault =>
    rw [hparse] at hreading
    cases hreading with
    | empty hblank =>
      have haccepted : ¬ Accepted script := fun h => h.1 hblank
      have hrange : ¬ FirstOutOfRange script := fun h => h.not_blank hblank
      simp [haccepted, hblank, hrange, Fault.kind]
    | outOfRange hrange hkind =>
      have haccepted := hrange.not_accepted
      have hblank := hrange.not_blank
      simp [haccepted, hblank, hrange, hkind]
    | refused hblank haccepted hrange hkind => simp [haccepted, hblank, hrange, hkind]

theorem short_of_lines {script : List Char}
    (h : ∀ raw ∈ splitAt '\n' script, raw.length ≤ 4300) :
    ∀ raw ∈ splitAt '\n' script, ∀ text, Trimmed raw text → ShortNumber text := by
  rintro raw hraw text ⟨_, before, after, rfl, _, _⟩
  have hlength := h _ hraw
  simp only [List.length_append] at hlength
  exact shortNumber_of_length (by omega)

/-- The delay is too long by one, in a line that is reached with a LOOP open. -/
theorem parse_accepts_iff_long_delay :
    (∀ raw ∈ splitAt '\n' "LOOP 2\n# wait\n DELAY +60001".toList, ∀ text, Trimmed raw text →
        ShortNumber text) ∧
      FirstOutOfRange "LOOP 2\n# wait\n DELAY +60001".toList := by
  have short : ∀ raw ∈ splitAt '\n' "LOOP 2\n# wait\n DELAY +60001".toList, ∀ text,
      Trimmed raw text → ShortNumber text := short_of_lines (by decide)
  exact ⟨short, (parse_accepts_iff _ short).2.2.1.1 ⟨.scriptLine 3 (.longDelay 60001), rfl, rfl⟩⟩

end SerialConsole.Script
