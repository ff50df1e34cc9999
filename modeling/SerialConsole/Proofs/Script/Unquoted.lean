import SerialConsole.Proofs.Script.ErrorLines

set_option autoImplicit false

/-!
# Data without quote marks

The data of a SEND that does not start with a quote mark. `unquoted_send_sent` says that it is sent
as it is wherever the line stands, but for one quote mark at its end, which is lost.
-/
namespace SerialConsole.Script

open Text

/-! ## What a script is accepted for -/

/-- Lines are read exactly if they can stand behind the LOOPs that are open and their numbers are
short. -/
theorem Draft.readAll_ok_iff {draft : Draft} {n depth : Nat} {lines : List (List Char)} :
    (∃ next, draft.readAll n lines = .ok next ∧ next.opened.length = depth) ↔
      Scans draft.opened.length lines depth ∧ ∀ raw ∈ lines, ShortNumber (trim raw) := by
  induction lines generalizing draft n with
  | nil => simp [readAll, scans_nil, eq_comm]
  | cons raw rest ih =>
    constructor
    · rintro ⟨final, hread, hfinal⟩
      cases hline : draft.read n raw with
      | error fault =>
        rw [readAll, hline] at hread
        cases hread
      | ok next =>
        rw [readAll_cons hline] at hread
        obtain ⟨⟨said, hsaid, hdepth⟩, hshort⟩ := read_ok_iff.1 ⟨next, hline, rfl⟩
        obtain ⟨hrest, hothers⟩ := ih.1 ⟨final, hread, hfinal⟩
        exact ⟨scans_cons.2 ⟨said, _, hsaid, hdepth, hrest⟩, List.forall_mem_cons.2 ⟨hshort, hothers⟩⟩
    · rintro ⟨hscan, hshort⟩
      obtain ⟨said, d, hsaid, hdepth, hrest⟩ := scans_cons.1 hscan
      obtain ⟨hfirst, hothers⟩ := List.forall_mem_cons.1 hshort
      obtain ⟨next, hline, rfl⟩ := read_ok_iff.2 ⟨⟨said, hsaid, hdepth⟩, hfirst⟩
      rw [readAll_cons hline]
      exact ih.2 ⟨hrest, hothers⟩

theorem parse_ok_iff {script : List Char} (hblank : ¬ Blank script) :
    (∃ commands, parse script = .ok commands) ↔
      Scans 0 (splitAt '\n' script) 0 ∧ ∀ raw ∈ splitAt '\n' script, ShortNumber (trim raw) := by
  refine Iff.trans ?_ (@Draft.readAll_ok_iff {} 1 0 (splitAt '\n' script))
  constructor
  · rintro ⟨commands, hparse⟩
    exact ⟨_, parse_cases hparse, rfl⟩
  · rintro ⟨draft, hread, hclosed⟩
    refine ⟨draft.commands, ?_⟩
    rw [parse_of_not_blank hblank, hread, Except.bind, Draft.finish,
      List.length_eq_zero_iff.1 hclosed]

theorem scans_append {depth final : Nat} {lines more : List (List Char)} :
    Scans depth (lines ++ more) final ↔
      ∃ middle, Scans depth lines middle ∧ Scans middle more final := by
  constructor
  · intro h
    induction lines generalizing depth with
    | nil => exact ⟨depth, scans_nil.2 rfl, h⟩
    | cons raw rest ih =>
      obtain ⟨said, d, hsaid, hdepth, hrest⟩ := scans_cons.1 h
      obtain ⟨middle, hlines, hmore⟩ := ih hrest
      exact ⟨middle, scans_cons.2 ⟨said, d, hsaid, hdepth, hlines⟩, hmore⟩
  · rintro ⟨middle, hlines, hmore⟩
    exact hlines.append hmore

/-- A statement that neither opens nor closes a LOOP, or none at all. -/
def Level (said : Option Statement) : Prop :=
  ∀ depth, depthAfter depth said = some depth

/-- A line without LOOP and END does not matter to the others. -/
theorem scans_level {depth final : Nat} {front behind : List (List Char)} {raw : List Char}
    {said : Option Statement} (hsaid : LineSays raw said) (hlevel : Level said) :
    Scans depth (front ++ raw :: behind) final ↔ Scans depth (front ++ behind) final := by
  simp only [scans_append, scans_cons]
  constructor
  · rintro ⟨middle, hfront, other, d, hother, hdepth, hbehind⟩
    rw [hother.unique hsaid, hlevel] at hdepth
    exact ⟨middle, hfront, Option.some.inj hdepth ▸ hbehind⟩
  · rintro ⟨middle, hfront, hbehind⟩
    exact ⟨middle, hfront, said, middle, hsaid, hlevel middle, hbehind⟩

/-- The script of some lines. -/
def scriptOf (lines : List (List Char)) : List Char :=
  joinWith ['\n'] lines

/-- A script with a line that is not blank and has no LOOP or END is accepted exactly if the other
lines are fine. -/
theorem parse_ok_level {front behind : List (List Char)} {raw : List Char}
    {said : Option Statement} (hlines : ∀ line ∈ front ++ raw :: behind, '\n' ∉ line)
    (hblank : ¬ Blank raw) (htells : Tells raw said) (hlevel : Level said) :
    (∃ commands, parse (scriptOf (front ++ raw :: behind)) = .ok commands) ↔
      Scans 0 (front ++ behind) 0 ∧ ∀ line ∈ front ++ behind, ShortNumber (trim line) := by
  have hsplit : splitAt '\n' (scriptOf (front ++ raw :: behind)) = front ++ raw :: behind :=
    splitAt_joinWith (by simp) hlines
  have hscript : ¬ Blank (scriptOf (front ++ raw :: behind)) := fun h =>
    hblank (blank_of_mem_splitAt h (by rw [hsplit]; simp))
  rw [parse_ok_iff hscript, hsplit, scans_level htells.1 hlevel]
  refine and_congr_right fun _ => ?_
  simp only [List.forall_mem_append, List.forall_mem_cons, htells.2, true_and]

/-! ## The command of a line -/

variable {commands : List Command}

theorem Draft.add_keeps {draft next : Draft} {line i number : Nat} {statement : Statement}
    {value : String} (h : draft.add line statement = .ok next)
    (hsend : draft.commands[i]? = some (.send value number)) :
    next.commands[i]? = some (.send value number) := by
  have hold : i < draft.commands.length := (List.getElem?_eq_some_iff.1 hsend).1
  cases statement with
  | send data | delay ms | loop count =>
    cases h
    rwa [List.getElem?_append_left hold]
  | loopEnd =>
    simp only [add] at h
    split at h
    case h_1 => cases h
    case h_2 start outer _ =>
      -- the end is put into the LOOP that it closes, and a SEND is no LOOP
      cases h
      rw [List.getElem?_append_left (by rwa [List.length_modify]), List.getElem?_modify, hsend]
      split <;> rfl

theorem Draft.readAll_keeps {draft final : Draft} {n i number : Nat} {lines : List (List Char)}
    {value : String} (h : draft.readAll n lines = .ok final)
    (hsend : draft.commands[i]? = some (.send value number)) :
    final.commands[i]? = some (.send value number) := by
  induction lines generalizing draft n with
  | nil =>
    cases h
    exact hsend
  | cons raw rest ih =>
    cases hline : draft.read n raw with
    | error fault =>
      rw [readAll, hline] at h
      cases h
    | ok next =>
      rw [readAll_cons hline] at h
      rcases tells_of_read hline with ⟨_, rfl⟩ | ⟨statement, _, hadd⟩
      · exact ih h hsend
      · exact ih h (add_keeps hadd hsend)

/-- Among commands with rising line numbers, a command is the only one of its line. -/
theorem filter_line {c : Command} (h : commands.Pairwise fun a b => a.line < b.line)
    (hc : c ∈ commands) : commands.filter (fun other => other.line = c.line) = [c] := by
  induction h with
  | nil => cases hc
  | @cons first rest hfirst _ ih =>
    rcases List.mem_cons.1 hc with rfl | hrest
    · have hnone : rest.filter (fun other => other.line = c.line) = [] := by
        refine List.filter_eq_nil_iff.2 fun other hother => ?_
        have := hfirst other hother
        simp only [decide_eq_true_eq]
        omega
      rw [List.filter_cons_of_pos (by simp), hnone]
    · have := hfirst c hrest
      rw [List.filter_cons_of_neg (by simp only [decide_eq_true_eq]; omega), ih hrest]

theorem parse_send {front behind : List (List Char)} {raw data : List Char}
    (hlines : ∀ line ∈ front ++ raw :: behind, '\n' ∉ line) (htells : Tells raw (some (.send data)))
    (h : parse (scriptOf (front ++ raw :: behind)) = .ok commands) :
    commands.filter (fun c => c.line = front.length + 1) =
      [.send (String.ofList data) (front.length + 1)] := by
  have hrising : commands.Pairwise fun a b => a.line < b.line := by
    rw [← List.pairwise_map, numbers_of_parse h, List.pairwise_map]
    exact numbered_rising 1 _
  have hread := parse_cases h
  rw [scriptOf, splitAt_joinWith (by simp) hlines, Draft.readAll_append] at hread
  cases hfront : Draft.readAll {} 1 front with
  | error fault =>
    rw [hfront] at hread
    cases hread
  | ok draft =>
    have hline : draft.read (1 + front.length) raw = draft.add (1 + front.length) (.send data) :=
      Draft.read_tells htells
    rw [hfront, Except.bind, Draft.readAll_cons hline] at hread
    have hkept := Draft.readAll_keeps hread (List.getElem?_concat_length ..)
    rw [Nat.add_comm] at hkept
    exact filter_line hrising (List.mem_of_getElem? hkept)

/-! ## Unquoted data -/

/-- A line that says nothing. -/
def comment : List Char := ['#']

theorem tells_comment : Tells comment none :=
  tells_none_iff.2 (by decide)

theorem not_blank_comment : ¬ Blank comment :=
  not_blank_of_all (by decide)

/-- Data without a quote mark at its start loses at most the one at its end. -/
theorem tells_unquoted {raw data : List Char} (htakes : Keyword.send.Takes (trim raw) data)
    (hplain : ∀ c, data.head? = some c → isQuote c = false) :
    ∃ value, DropsLastQuote data value ∧ Tells raw (some (.send value)) := by
  have hdrops : DropsLastQuote data (dropLastQuote data) := dropsLastQuote_iff.2 rfl
  have hsome : dropLastQuote data ≠ [] := by
    rcases hdrops with ⟨q, hq, hdata⟩ | ⟨hsame, _⟩
    · intro hnone
      rw [hnone, List.nil_append] at hdata
      rw [hplain q (by rw [hdata]; rfl)] at hq
      cases hq
    · rw [hsame]
      exact htakes.1
  have hsays : LineSays raw (some (.send (dropLastQuote data))) :=
    lineSays_iff.2 (.send htakes ⟨data, Or.inr ⟨rfl, hplain⟩, hdrops⟩ hsome)
  exact ⟨_, hdrops, hsays, htakes.shortNumber (bare_trim raw)⟩

theorem not_blank_of_takes {keyword : Keyword} {raw data : List Char}
    (h : keyword.Takes (trim raw) data) : ¬ Blank raw := by
  obtain ⟨_, _, gap, _, _, hline⟩ := h
  intro hblank
  rw [(trim_eq_nil_iff raw).2 hblank] at hline
  cases keyword <;> cases hline

/-- Data with quote marks in it. -/
def markedInside : List Char := "say \"a\" and 'b'!".toList

end SerialConsole.Script
