import SerialConsole.Proofs.Script.LineEnds
import SerialConsole.Proofs.Script.Pairing

set_option autoImplicit false

/-!
# Remarks

The remarks of a script are its lines that say something, each with its number. They decide what
parsing gives (`parse_congr`). An accepted script that is read back from a file gives the same
commands exactly if it has the same remarks (`parse_unifyLineEnds_iff`).
-/
namespace SerialConsole.Script

open Text

/-- What a script says, line by line. -/
def remarks (script : List Char) : List (Nat × List Char) :=
  numbered 1 (splitAt '\n' script)

/-! ## Reading remarks -/

namespace Draft

/-- Reads a remark onto a draft. -/
def hear (draft : Draft) (remark : Nat × List Char) : Except Fault Draft := do
  draft.add remark.1 (← readStatement remark.1 remark.2)

theorem hear_eq_ok {draft next : Draft} {line : Nat} {text : List Char} (hbare : Bare text) :
    draft.hear (line, text) = .ok next → ∃ statement, readStatement line text = .ok statement ∧
      Says text (some statement) ∧ draft.add line statement = .ok next := by
  intro h
  have hreading := readStatement_reading line hbare
  unfold hear at h
  cases hread : readStatement line text with
  | error fault =>
    rw [hread] at h
    cases h
  | ok statement =>
    rw [hread] at h hreading
    cases hreading with
    | read hsaid => exact ⟨statement, rfl, hsaid, h⟩

theorem readAll_eq (draft : Draft) (n : Nat) (lines : List (List Char)) :
    draft.readAll n lines = (numbered n lines).foldlM hear draft := by
  induction lines generalizing draft n with
  | nil => rfl
  | cons raw rest ih =>
    rw [readAll, read]
    cases hspoken : isSilent (trim raw) with
    | true =>
      rw [numbered_silent hspoken, ← ih]
      rfl
    | false =>
      rw [numbered_speaking hspoken, List.foldlM_cons, hear]
      cases hread : readStatement n (trim raw) with
      | error fault => simp [bind, Except.bind]
      | ok statement =>
        cases hadd : draft.add n statement with
        | error fault => simp [bind, Except.bind, hadd]
        | ok next => simp [bind, Except.bind, hadd, ih]

/-- The last command is a SEND exactly if the last statement was one. -/
theorem getLast?_add {draft next : Draft} {line : Nat} {statement : Statement}
    (h : draft.add line statement = .ok next) (value : List Char) :
    next.commands.getLast? = some (.send (String.ofList value) line) ↔ statement = .send value := by
  cases statement with
  | send other =>
    cases h
    rw [List.getLast?_concat, Option.some.injEq, Command.send.injEq, String.ofList_inj]
    simp
  | delay ms | loop count =>
    cases h
    simp
  | loopEnd =>
    rw [add] at h
    split at h
    case h_1 => cases h
    case h_2 =>
      cases h
      simp

theorem lines_hear {draft next : Draft} {remark : Nat × List Char}
    (h : draft.hear remark = .ok next) :
    next.commands.map Command.line = draft.commands.map Command.line ++ [remark.1] := by
  unfold hear at h
  cases hread : readStatement remark.1 remark.2 with
  | error fault =>
    rw [hread] at h
    cases h
  | ok statement =>
    rw [hread] at h
    exact add_lines h

/-- The commands have the numbers of the remarks that they come from. -/
theorem lines_foldlM {draft final : Draft} {said : List (Nat × List Char)}
    (h : said.foldlM hear draft = .ok final) :
    final.commands.map Command.line = draft.commands.map Command.line ++ said.map Prod.fst := by
  induction said generalizing draft with
  | nil =>
    cases h
    simp
  | cons remark rest ih =>
    rw [List.foldlM_cons] at h
    cases hnext : draft.hear remark with
    | error fault =>
      rw [hnext] at h
      cases h
    | ok next =>
      rw [hnext] at h
      rw [ih h, lines_hear hnext, List.map_cons, List.append_assoc, List.singleton_append]

end Draft

/-- Only the remarks of a script matter, and whether it is blank. -/
theorem parse_congr {script other : List Char} (hblank : Blank script ↔ Blank other)
    (h : remarks script = remarks other) : parse script = parse other := by
  have hempty : (trim script).isEmpty = (trim other).isEmpty := by
    rw [Bool.eq_iff_iff, List.isEmpty_iff, List.isEmpty_iff, trim_eq_nil_iff, trim_eq_nil_iff, hblank]
  unfold remarks at h
  rw [parse, parse, hempty, Draft.readAll_eq, Draft.readAll_eq, h]

theorem parse_eq_ok {script : List Char} {commands : List Command}
    (h : parse script = .ok commands) :
    ∃ draft, (remarks script).foldlM Draft.hear {} = .ok draft ∧ draft.commands = commands := by
  rw [parse] at h
  split at h
  case isTrue => cases h
  case isFalse =>
    rw [Draft.readAll_eq] at h
    split at h
    case h_1 draft hread =>
      refine ⟨draft, hread, ?_⟩
      unfold Draft.finish at h
      split at h
      · exact Except.ok.inj h
      · cases h
    case h_2 => cases h

theorem numbers_of_parse {script : List Char} {commands : List Command}
    (h : parse script = .ok commands) :
    commands.map Command.line = (remarks script).map Prod.fst := by
  obtain ⟨draft, hread, rfl⟩ := parse_eq_ok h
  simpa using Draft.lines_foldlM hread

/-! ## A line that is cut -/

theorem mem_unquote {c : Char} {argument : List Char} (h : c ∈ argument)
    (hquote : isQuote c = false) : c ∈ unquote argument := by
  obtain ⟨rest, hfirst, hlast⟩ := unquotes_iff.2 (rfl : unquote argument = unquote argument)
  have hrest : c ∈ rest := by
    rcases hfirst with ⟨q, hq, rfl⟩ | ⟨rfl, _⟩
    · refine (List.mem_cons.1 h).resolve_left ?_
      rintro rfl
      rw [hquote] at hq
      cases hq
    · exact h
  rcases hlast with ⟨q, hq, hsplit⟩ | ⟨hsame, _⟩
  · rw [hsplit] at hrest
    refine (List.mem_append.1 hrest).resolve_right fun hmem => ?_
    rw [List.mem_singleton.1 hmem, hq] at hquote
    cases hquote
  · exact hsame ▸ hrest

theorem Numeral.no_return {argument : List Char} {values : List Nat} {n : Int}
    (h : Numeral argument values n) : '\r' ∉ argument := by
  have hdigits : ∀ {text : List Char}, Digits text values → '\r' ∉ text := by
    rintro text ⟨_, hmap⟩ hmem
    have hnone : digitValue? '\r' = none := by decide
    have hvalue := List.mem_map_of_mem (f := digitValue?) hmem
    rw [hmap, hnone] at hvalue
    obtain ⟨_, _, hsome⟩ := List.mem_map.1 hvalue
    cases hsome
  cases h with
  | plain h => exact hdigits h
  | plus h | minus h =>
    intro hmem
    exact hdigits h ((List.mem_cons.1 hmem).resolve_left (by decide))

/-- A keyword alone says nothing that can be read. -/
theorem not_says_spelling (keyword : Keyword) (statement : Statement) :
    ¬ Says keyword.spelling (some statement) := by
  have hlong : ∀ other argument, ¬ Keyword.Takes other keyword.spelling argument := by
    rintro other argument ⟨hargument, _, gap, hgap, _, htext⟩
    have hlength := congrArg List.length htext
    have hgap := List.length_pos_of_ne_nil hgap
    have hargument := List.length_pos_of_ne_nil hargument
    simp only [List.length_append] at hlength
    cases keyword <;> cases other <;> simp [Keyword.spelling] at hlength <;> omega
  intro h
  generalize htext : keyword.spelling = text at h hlong
  cases h with
  | loopEnd => cases keyword <;> cases htext
  | send takes | delay takes | loop takes => exact hlong _ _ takes

/-- A line that is cut at its first carriage return loses its argument, or the carriage return is a
part of that. -/
theorem Keyword.Takes.cut {keyword : Keyword} {start rest argument : List Char}
    (h : keyword.Takes (start ++ '\r' :: rest) argument) (hstart : '\r' ∉ start) :
    trim start = keyword.spelling ∨ '\r' ∈ argument := by
  obtain ⟨_, _, gap, _, hgap, htext⟩ := h
  by_cases hargument : '\r' ∈ argument
  · exact Or.inr hargument
  · have hspelling : '\r' ∉ keyword.spelling := by cases keyword <;> decide
    have hmem : '\r' ∈ gap := by
      have hthere : '\r' ∈ keyword.spelling ++ gap ++ argument := by rw [← htext]; simp
      simpa [hspelling, hargument] using hthere
    obtain ⟨before, after, rfl, hbefore⟩ := List.eq_append_cons_of_mem hmem
    have hsplit : start ++ '\r' :: rest = (keyword.spelling ++ before) ++ '\r' :: (after ++ argument) := by
      simpa using htext
    have hcut := congrArg (splitAt '\r') hsplit
    rw [splitAt_append _ hstart, splitAt_append _ (by simp [hspelling, hbefore])] at hcut
    rw [(List.cons.inj hcut).1, trim_append_blank (blank_append.1 hgap).1]
    refine Or.inl (trimmed_iff.1 ⟨?_, [], [], by simp, blank_nil, blank_nil⟩)
    cases keyword <;> exact ⟨by simp [Keyword.spelling]; decide, by simp [Keyword.spelling]; decide⟩

/-- A line that is cut at a carriage return never says what the whole line says. -/
theorem Draft.hear_cut {draft next other : Draft} {line : Nat} {start rest : List Char}
    (hbare : Bare (start ++ '\r' :: rest)) (hstart : '\r' ∉ start)
    (hwhole : draft.hear (line, start ++ '\r' :: rest) = .ok next)
    (hcut : draft.hear (line, trim start) = .ok other) : next.commands ≠ other.commands := by
  obtain ⟨whole, _, hspoken, hadd⟩ := hear_eq_ok hbare hwhole
  obtain ⟨part, _, hspoken', hadd'⟩ := hear_eq_ok (bare_trim start) hcut
  have hargument : ∀ {keyword argument}, Keyword.Takes keyword (start ++ '\r' :: rest) argument →
      '\r' ∈ argument := by
    intro keyword argument takes
    refine (takes.cut hstart).resolve_left fun halone => ?_
    rw [halone] at hspoken'
    exact not_says_spelling keyword part hspoken'
  intro hsame
  generalize htext : start ++ '\r' :: rest = text at hspoken hargument
  cases hspoken with
  | loopEnd =>
    have hthere : '\r' ∈ ['E', 'N', 'D'] := htext ▸ List.mem_append_right _ List.mem_cons_self
    exact absurd hthere (by decide)
  | delay takes numeral | loop takes numeral => exact numeral.no_return (hargument takes)
  | @send _ argument data takes unquotes =>
    -- The carriage return is sent by the whole line only.
    have hdata : '\r' ∈ data := by
      rw [← unquotes_iff.1 unquotes]
      exact mem_unquote (hargument takes) (by decide)
    have hlast := (getLast?_add hadd data).2 rfl
    rw [hsame, getLast?_add hadd'] at hlast
    subst hlast
    suffices hmem : '\r' ∈ trim start from hstart (mem_of_mem_trim hmem)
    generalize trim start = kept at hspoken'
    cases hspoken' with
    | send takes' unquotes' =>
      obtain ⟨_, _, gap, _, _, rfl⟩ := takes'
      rw [← unquotes_iff.1 unquotes'] at hdata
      exact List.mem_append_right _ (mem_of_mem_unquote hdata)

/-! ## Scripts that are read back -/

/-- An accepted script that is read back from a file gives the same commands exactly if it makes the
same remarks. -/
theorem parse_unifyLineEnds_iff {script : List Char} {commands : List Command}
    (h : parse script = .ok commands) :
    parse (unifyLineEnds script) = .ok commands ↔
      remarks (unifyLineEnds script) = remarks script := by
  constructor
  · intro hfile
    have hnumbers := (numbers_of_parse hfile).symm.trans (numbers_of_parse h)
    obtain ⟨draft, hread, hdraft⟩ := parse_eq_ok h
    obtain ⟨draft', hread', hdraft'⟩ := parse_eq_ok hfile
    unfold remarks at hnumbers hread hread' ⊢
    rw [splitAt_unifyLineEnds] at hnumbers hread' ⊢
    refine (numbered_fileLines hnumbers).resolve_right ?_
    rintro ⟨front, m, start, rest, hwhole, hcut, hstart⟩
    have hbare : Bare (start ++ '\r' :: rest) := by
      have hmem : (m, start ++ '\r' :: rest) ∈ numbered 1 (splitAt '\n' script) := by
        rw [hwhole]
        exact List.mem_append_right _ List.mem_cons_self
      exact bare_of_mem_numbered hmem
    rw [hwhole] at hread
    rw [hcut] at hread'
    simp only [List.foldlM_append, List.foldlM_cons, List.foldlM_nil, bind_pure] at hread hread'
    cases hfront : front.foldlM Draft.hear {} with
    | error fault =>
      rw [hfront] at hread
      cases hread
    | ok middle =>
      rw [hfront] at hread hread'
      have hlast : middle.hear (m, start ++ '\r' :: rest) = .ok draft := hread
      exact Draft.hear_cut hbare hstart hlast hread' (hdraft.trans hdraft'.symm)
  · intro hsame
    rw [parse_congr (blank_unifyLineEnds script) hsame, h]

/-- Carriage returns at the ends of lines are no part of the remarks. -/
theorem remarks_unifyLineEnds {script : List Char}
    (h : ∀ line ∈ splitAt '\n' script, '\r' ∉ withoutReturn line) :
    remarks (unifyLineEnds script) = remarks script := by
  unfold remarks
  rw [splitAt_unifyLineEnds, numbered_fileLines_of_ends h]

end SerialConsole.Script
