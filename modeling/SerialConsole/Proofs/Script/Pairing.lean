import SerialConsole.Proofs.Script.Block
import SerialConsole.Proofs.Script.Statement

set_option autoImplicit false

/-!
# What a parsed script looks like

The LOOPs and ENDs of a parsed script are paired, their intervals are nested or apart, its numbers
and texts are in range, and its commands come from the lines that say something, one from each. The
pairing is a property of the layout of a tree; the ranges and the lines are kept by every line that
is read.
-/
namespace SerialConsole.Script

open Text

/-- A command whose number or text is allowed. -/
def Command.InRange : Command → Prop
  | .send value _ => value ≠ "" ∧ '\n' ∉ value.toList
  | .delay ms _ => 0 ≤ ms ∧ ms ≤ 60000
  | .loop count _ _ => 1 ≤ count ∧ count ≤ 10000
  | .loopEnd _ _ => True
  | .unknown _ => False

/-- Line `n` of a script, counted from one, is neither blank nor a comment. -/
def SpeakingLine (script : List Char) (n : Nat) : Prop :=
  1 ≤ n ∧ ∃ raw text, (splitAt '\n' script)[n - 1]? = some raw ∧ Trimmed raw text ∧
    text ≠ [] ∧ text.head? ≠ some '#'

/-- The commands of a script: paired, nested, in range, and one for each line that says
something. -/
structure WellFormed (script : List Char) (commands : List Command) : Prop where
  loop_closed : ∀ (i : Nat) (count endAt : Int) (line : Nat),
    commands[i]? = some (.loop count endAt line) →
      ∃ j : Nat, endAt = j ∧ i < j ∧ ∃ endLine, commands[j]? = some (.loopEnd i endLine)
  end_opened : ∀ (j : Nat) (startAt : Int) (line : Nat),
    commands[j]? = some (.loopEnd startAt line) →
      ∃ i : Nat, startAt = i ∧ ∃ count loopLine, commands[i]? = some (.loop count j loopLine)
  nested_or_apart : ∀ (i i' : Nat) (count count' endAt endAt' : Int) (line line' : Nat), i < i' →
    commands[i]? = some (.loop count endAt line) →
      commands[i']? = some (.loop count' endAt' line') → endAt < i' ∨ endAt' < endAt
  in_range : ∀ c ∈ commands, c.InRange
  lines_increase : (commands.map Command.line).Pairwise (· < ·)
  line_iff : ∀ n, n ∈ commands.map Command.line ↔ SpeakingLine script n

namespace Block

/-- Where a command of a LOOP node stands: it is the LOOP, in the body, the END or behind it. -/
theorem getElem?_loop {count : Int} {line endLine start i : Nat} {body rest : Block} {c : Command}
    (h : ((loop count line body endLine rest).commands start)[i]? = some c) :
    (i = 0 ∧ c = .loop count ((start + body.size + 1 : Nat) : Int) line) ∨
    (∃ k, i = k + 1 ∧ k < body.size ∧ (body.commands (start + 1))[k]? = some c) ∨
    (i = body.size + 1 ∧ c = .loopEnd start endLine) ∨
    ∃ k, i = body.size + 2 + k ∧ (rest.commands (start + body.size + 2))[k]? = some c := by
  rw [commands] at h
  cases i with
  | zero => exact Or.inl ⟨rfl, (Option.some.inj h).symm⟩
  | succ k =>
    rw [List.getElem?_cons_succ] at h
    by_cases hbody : k < body.size
    · rw [List.getElem?_append_left (by simpa using hbody)] at h
      exact Or.inr (Or.inl ⟨k, rfl, hbody, h⟩)
    · rw [List.getElem?_append_right (by simpa using hbody), commands_length] at h
      cases hk : k - body.size with
      | zero =>
        rw [hk] at h
        exact Or.inr (Or.inr (Or.inl ⟨by omega, (Option.some.inj h).symm⟩))
      | succ m =>
        rw [hk, List.getElem?_cons_succ] at h
        exact Or.inr (Or.inr (Or.inr ⟨m, by omega, h⟩))

theorem getElem?_body {count : Int} {line endLine start k : Nat} {body rest : Block} {c : Command}
    (h : (body.commands (start + 1))[k]? = some c) :
    ((loop count line body endLine rest).commands start)[k + 1]? = some c := by
  have hk : k < (body.commands (start + 1)).length := (List.getElem?_eq_some_iff.1 h).1
  rw [commands, List.getElem?_cons_succ, List.getElem?_append_left hk, h]

theorem getElem?_end {count : Int} {line endLine start : Nat} {body rest : Block} :
    ((loop count line body endLine rest).commands start)[body.size + 1]? =
      some (.loopEnd start endLine) := by
  rw [commands, List.getElem?_cons_succ, List.getElem?_append_right (by simp)]
  simp

theorem getElem?_rest {count : Int} {line endLine start k : Nat} {body rest : Block} {c : Command}
    (h : (rest.commands (start + body.size + 2))[k]? = some c) :
    ((loop count line body endLine rest).commands start)[body.size + 2 + k]? = some c := by
  rw [commands, show body.size + 2 + k = (body.size + (k + 1)) + 1 by omega,
    List.getElem?_cons_succ, List.getElem?_append_right (by simp), commands_length,
    Nat.add_sub_cancel_left, List.getElem?_cons_succ, h]

theorem loop_closed (b : Block) (start i : Nat) (count endAt : Int) (line : Nat)
    (h : (b.commands start)[i]? = some (.loop count endAt line)) :
    ∃ j : Nat, endAt = ((start + j : Nat) : Int) ∧ i < j ∧
      ∃ endLine, (b.commands start)[j]? = some (.loopEnd ((start + i : Nat) : Int) endLine) := by
  induction b generalizing start i with
  | done => simp [commands] at h
  | send value line rest ih | delay ms line rest ih =>
    cases i with
    | zero => simp [commands] at h
    | succ k =>
      obtain ⟨j, hj, hlt, endLine, hend⟩ := ih (start + 1) k (by simpa [commands] using h)
      refine ⟨j + 1, by omega, by omega, endLine, ?_⟩
      rw [commands, List.getElem?_cons_succ, hend, show start + 1 + k = start + (k + 1) by omega]
  | loop n l body endLine rest ihb ihr =>
    rcases getElem?_loop h with ⟨rfl, hc⟩ | ⟨k, rfl, _, hc⟩ | ⟨_, hc⟩ | ⟨k, rfl, hc⟩
    · cases hc
      exact ⟨body.size + 1, by omega, by omega, endLine, getElem?_end⟩
    · obtain ⟨j, hj, hlt, last, hend⟩ := ihb (start + 1) k hc
      refine ⟨j + 1, by omega, by omega, last, ?_⟩
      rw [getElem?_body hend, show start + 1 + k = start + (k + 1) by omega]
    · cases hc
    · obtain ⟨j, hj, hlt, last, hend⟩ := ihr (start + body.size + 2) k hc
      refine ⟨body.size + 2 + j, by omega, by omega, last, ?_⟩
      rw [getElem?_rest hend, show start + body.size + 2 + k = start + (body.size + 2 + k) by omega]

theorem end_opened (b : Block) (start j : Nat) (startAt : Int) (line : Nat)
    (h : (b.commands start)[j]? = some (.loopEnd startAt line)) :
    ∃ i : Nat, startAt = ((start + i : Nat) : Int) ∧
      ∃ count loopLine, (b.commands start)[i]? =
        some (.loop count ((start + j : Nat) : Int) loopLine) := by
  induction b generalizing start j with
  | done => simp [commands] at h
  | send value line rest ih | delay ms line rest ih =>
    cases j with
    | zero => simp [commands] at h
    | succ k =>
      obtain ⟨i, hi, count, loopLine, hloop⟩ := ih (start + 1) k (by simpa [commands] using h)
      refine ⟨i + 1, by omega, count, loopLine, ?_⟩
      rw [commands, List.getElem?_cons_succ, hloop, show start + 1 + k = start + (k + 1) by omega]
  | loop n l body endLine rest ihb ihr =>
    rcases getElem?_loop h with ⟨_, hc⟩ | ⟨k, rfl, _, hc⟩ | ⟨rfl, hc⟩ | ⟨k, rfl, hc⟩
    · cases hc
    · obtain ⟨i, hi, count, loopLine, hloop⟩ := ihb (start + 1) k hc
      refine ⟨i + 1, by omega, count, loopLine, ?_⟩
      rw [getElem?_body hloop, show start + 1 + k = start + (k + 1) by omega]
    · cases hc
      exact ⟨0, by omega, n, l, by rw [commands, List.getElem?_cons_zero, Nat.add_assoc]⟩
    · obtain ⟨i, hi, count, loopLine, hloop⟩ := ihr (start + body.size + 2) k hc
      refine ⟨body.size + 2 + i, by omega, count, loopLine, ?_⟩
      rw [getElem?_rest hloop,
        show start + body.size + 2 + k = start + (body.size + 2 + k) by omega]

theorem end_place_lt (b : Block) {start i : Nat} {count endAt : Int} {line : Nat}
    (h : (b.commands start)[i]? = some (.loop count endAt line)) :
    endAt < ((start + b.size : Nat) : Int) := by
  obtain ⟨j, rfl, _, endLine, hend⟩ := b.loop_closed start i count endAt line h
  have hj : j < (b.commands start).length := (List.getElem?_eq_some_iff.1 hend).1
  rw [commands_length] at hj
  omega

theorem nested_or_apart (b : Block) (start i i' : Nat) (count count' endAt endAt' : Int)
    (line line' : Nat) (hlt : i < i') (h : (b.commands start)[i]? = some (.loop count endAt line))
    (h' : (b.commands start)[i']? = some (.loop count' endAt' line')) :
    endAt < ((start + i' : Nat) : Int) ∨ endAt' < endAt := by
  induction b generalizing start i i' with
  | done => simp [commands] at h
  | send value line rest ih | delay ms line rest ih =>
    cases i with
    | zero => simp [commands] at h
    | succ k =>
      cases i' with
      | zero => omega
      | succ k' =>
        have hnext := ih (start + 1) k k' (by omega) (by simpa [commands] using h)
          (by simpa [commands] using h')
        omega
  | loop n l body endLine rest ihb ihr =>
    rcases getElem?_loop h' with ⟨hi', _⟩ | ⟨k', rfl, hk', hc'⟩ | ⟨_, hc'⟩ | ⟨k', rfl, hc'⟩
    · omega
    · -- the later LOOP is in the body, so the earlier one is the LOOP of the node or in the body
      have hinner := end_place_lt body hc'
      rcases getElem?_loop h with ⟨_, hc⟩ | ⟨k, rfl, _, hc⟩ | ⟨hi, _⟩ | ⟨k, hi, _⟩
      · cases hc
        exact Or.inr (by omega)
      · have hbody := ihb (start + 1) k k' (by omega) hc hc'
        omega
      · omega
      · omega
    · cases hc'
    · rcases getElem?_loop h with ⟨_, hc⟩ | ⟨k, rfl, _, hc⟩ | ⟨_, hc⟩ | ⟨k, rfl, hc⟩
      · cases hc
        exact Or.inl (by omega)
      · have hinner := end_place_lt body hc
        exact Or.inl (by omega)
      · cases hc
      · have hrest := ihr (start + body.size + 2) k k' (by omega) hc hc'
        omega

end Block

/-! ## Ranges -/

/-- A statement whose number or text is allowed. -/
def Statement.InRange : Statement → Prop
  | .send data => data ≠ [] ∧ '\n' ∉ data
  | .delay ms => 0 ≤ ms ∧ ms ≤ 60000
  | .loop count => 1 ≤ count ∧ count ≤ 10000
  | .loopEnd => True

theorem Says.inRange {text : List Char} {statement : Statement} (h : Says text (some statement))
    (hline : '\n' ∉ text) : statement.InRange := by
  cases h with
  | loopEnd => trivial
  | send takes unquotes some_data =>
    refine ⟨some_data, fun hdata => hline ?_⟩
    obtain ⟨_, _, gap, _, _, rfl⟩ := takes
    rw [← unquotes_iff.1 unquotes] at hdata
    exact List.mem_append_right _ (mem_of_mem_unquote hdata)
  | delay takes numeral range => exact range
  | loop takes numeral range => exact range

theorem Command.closeAt_inRange {c : Command} (place : Nat) (h : c.InRange) :
    (c.closeAt place).InRange := by
  cases c <;> exact h

theorem Command.line_closeAt (c : Command) (place : Nat) : (c.closeAt place).line = c.line := by
  cases c <;> rfl

theorem mem_modify {α : Type} {l : List α} {i : Nat} {f : α → α} {x : α} (h : x ∈ l.modify i f) :
    x ∈ l ∨ ∃ y ∈ l, x = f y := by
  obtain ⟨k, hk⟩ := List.mem_iff_getElem?.1 h
  rw [List.getElem?_modify] at hk
  obtain ⟨y, hy, hx⟩ := Option.map_eq_some_iff.1 hk
  have hmem : y ∈ l := List.mem_of_getElem? hy
  by_cases hki : i = k
  · exact Or.inr ⟨y, hmem, by simpa [hki] using hx.symm⟩
  · refine Or.inl ?_
    rw [← hx, if_neg hki]
    exact hmem

theorem Draft.add_inRange {draft next : Draft} {line : Nat} {statement : Statement}
    (h : draft.add line statement = .ok next) (hs : statement.InRange)
    (hd : ∀ c ∈ draft.commands, c.InRange) : ∀ c ∈ next.commands, c.InRange := by
  cases statement with
  | send data =>
    cases h
    have hnew : (Command.send (String.ofList data) line).InRange :=
      ⟨by simpa [String.ext_iff] using hs.1, by simpa using hs.2⟩
    exact List.forall_mem_append.2 ⟨hd, List.forall_mem_singleton.2 hnew⟩
  | delay ms =>
    cases h
    exact List.forall_mem_append.2 ⟨hd, List.forall_mem_singleton.2 hs⟩
  | loop count =>
    cases h
    exact List.forall_mem_append.2 ⟨hd, List.forall_mem_singleton.2 hs⟩
  | loopEnd =>
    rw [Draft.add] at h
    cases hopened : draft.opened with
    | nil =>
      rw [hopened] at h
      cases h
    | cons start outer =>
      rw [hopened] at h
      cases h
      refine List.forall_mem_append.2 ⟨fun c hc => ?_, by simp [Command.InRange]⟩
      rcases mem_modify hc with hold | ⟨old, hold, rfl⟩
      · exact hd c hold
      · exact Command.closeAt_inRange _ (hd old hold)

/-! ## Lines -/

theorem Draft.add_lines {draft next : Draft} {line : Nat} {statement : Statement}
    (h : draft.add line statement = .ok next) :
    next.commands.map Command.line = draft.commands.map Command.line ++ [line] := by
  cases statement with
  | send data | delay ms | loop count =>
    cases h
    rw [List.map_append]
    rfl
  | loopEnd =>
    rw [Draft.add] at h
    cases hopened : draft.opened with
    | nil =>
      rw [hopened] at h
      cases h
    | cons start outer =>
      rw [hopened] at h
      cases h
      have hclose : (draft.commands.modify start (Command.closeAt draft.commands.length)).map
          Command.line = draft.commands.map Command.line := by
        apply List.ext_getElem?
        intro k
        rw [List.getElem?_map, List.getElem?_modify, List.getElem?_map]
        cases draft.commands[k]? with
        | none => rfl
        | some c => by_cases hk : start = k <;> simp [hk, Command.line_closeAt]
      simp only [List.map_append, hclose]
      rfl

theorem isSilent_eq_false_iff {text : List Char} :
    isSilent text = false ↔ text ≠ [] ∧ text.head? ≠ some '#' := by
  cases text with
  | nil => simp [isSilent]
  | cons c rest => simp [isSilent]

theorem speakingLine_iff {script : List Char} {k : Nat} {raw : List Char}
    (h : (splitAt '\n' script)[k]? = some raw) :
    SpeakingLine script (1 + k) ↔ isSilent (trim raw) = false := by
  rw [isSilent_eq_false_iff]
  constructor
  · rintro ⟨_, raw', text, hraw, htext, hspeaks⟩
    rw [Nat.add_sub_cancel_left, h] at hraw
    cases hraw
    rw [trimmed_iff.1 htext]
    exact hspeaks
  · intro hspeaks
    exact ⟨by omega, raw, trim raw, by rw [Nat.add_sub_cancel_left, h], trimmed_trim raw, hspeaks⟩

/-- The draft after the lines before line `n`: its commands are in range, come from lines before
`n`, and there is one for each of those lines that says something. -/
structure ReadUpTo (script : List Char) (n : Nat) (draft : Draft) : Prop where
  in_range : ∀ c ∈ draft.commands, c.InRange
  increase : (draft.commands.map Command.line).Pairwise (· < ·)
  before : ∀ m ∈ draft.commands.map Command.line, m < n
  line_iff : ∀ m, m < n → (m ∈ draft.commands.map Command.line ↔ SpeakingLine script m)

theorem readUpTo_start (script : List Char) : ReadUpTo script 1 {} where
  in_range := by simp
  increase := by simp
  before := by simp
  line_iff m hm := by
    simp only [List.map_nil, List.not_mem_nil, false_iff]
    rintro ⟨hpos, _⟩
    omega

theorem readUpTo_silent {script : List Char} {n : Nat} {draft : Draft}
    (h : ReadUpTo script n draft) (hsilent : ¬ SpeakingLine script n) :
    ReadUpTo script (n + 1) draft where
  in_range := h.in_range
  increase := h.increase
  before m hm := Nat.lt_succ_of_lt (h.before m hm)
  line_iff m hm := by
    by_cases hmn : m = n
    · subst hmn
      exact ⟨fun hmem => absurd (h.before m hmem) (Nat.lt_irrefl m), fun hs => absurd hs hsilent⟩
    · exact h.line_iff m (by omega)

theorem readUpTo_add {script : List Char} {n : Nat} {draft next : Draft} {statement : Statement}
    (h : ReadUpTo script n draft) (hspeaks : SpeakingLine script n) (hs : statement.InRange)
    (hadd : draft.add n statement = .ok next) : ReadUpTo script (n + 1) next where
  in_range := Draft.add_inRange hadd hs h.in_range
  increase := by
    rw [Draft.add_lines hadd]
    exact List.pairwise_append.2 ⟨h.increase, List.pairwise_singleton _ _, by simpa using h.before⟩
  before m hm := by
    rw [Draft.add_lines hadd, List.mem_append, List.mem_singleton] at hm
    rcases hm with hold | rfl
    · exact Nat.lt_succ_of_lt (h.before m hold)
    · exact Nat.lt_succ_self m
  line_iff m hm := by
    rw [Draft.add_lines hadd, List.mem_append, List.mem_singleton]
    by_cases hmn : m = n
    · subst hmn
      simp [hspeaks]
    · rw [h.line_iff m (by omega)]
      simp [hmn]

theorem readUpTo_parse {script : List Char} {commands : List Command}
    (h : parse script = .ok commands) :
    ReadUpTo script (1 + (splitAt '\n' script).length) ⟨commands, []⟩ := by
  refine Draft.readAll_induct (parse_cases h) (readUpTo_start script) ?_
  intro k draft next raw hraw hdraft hread
  rcases Draft.read_cases hread with ⟨hsilent, rfl⟩ | ⟨statement, hspeaks, hstatement, hadd⟩
  · refine readUpTo_silent hdraft fun hs => ?_
    rw [(speakingLine_iff hraw).1 hs] at hsilent
    cases hsilent
  · have hsaid : Says (trim raw) (some statement) := by
      have hreading := readStatement_reading (1 + k) (bare_trim raw)
      rw [hstatement] at hreading
      cases hreading with
      | read hsaid => exact hsaid
    have hline : '\n' ∉ trim raw := fun hm =>
      not_mem_of_mem_splitAt (List.mem_of_getElem? hraw) (mem_of_mem_trim hm)
    exact readUpTo_add hdraft ((speakingLine_iff hraw).2 hspeaks) (hsaid.inRange hline) hadd

/-- The commands of an accepted script are well formed. -/
theorem parse_wellFormed {script : List Char} {commands : List Command}
    (h : parse script = .ok commands) : WellFormed script commands := by
  obtain ⟨b, hb⟩ := parse_eq_commands h
  have hread := readUpTo_parse h
  refine ⟨?_, ?_, ?_, hread.in_range, hread.increase, ?_⟩
  · intro i count endAt line hi
    rw [hb] at hi ⊢
    simpa using b.loop_closed 0 i count endAt line hi
  · intro j startAt line hj
    rw [hb] at hj ⊢
    simpa using b.end_opened 0 j startAt line hj
  · intro i i' count count' endAt endAt' line line' hlt hi hi'
    rw [hb] at hi hi'
    simpa using b.nested_or_apart 0 i i' count count' endAt endAt' line line' hlt hi hi'
  · intro n
    by_cases hn : n < 1 + (splitAt '\n' script).length
    · exact hread.line_iff n hn
    · constructor
      · exact fun hmem => absurd (hread.before n hmem) hn
      · rintro ⟨_, raw, _, hraw, _⟩
        have := (List.getElem?_eq_some_iff.1 hraw).1
        omega

/-- Two loops, one in the other, with a comment and a blank line between them. -/
theorem parse_wellFormed_nested :
    parse "# twice\nLOOP +2\n  LOOP 3\n\nSEND \"A\"\nEND\nDELAY 5\nEND".toList =
        .ok [.loop 2 5 2, .loop 3 3 3, .send "A" 5, .loopEnd 1 6, .delay 5 7, .loopEnd 0 8] ∧
      WellFormed "# twice\nLOOP +2\n  LOOP 3\n\nSEND \"A\"\nEND\nDELAY 5\nEND".toList
        [.loop 2 5 2, .loop 3 3 3, .send "A" 5, .loopEnd 1 6, .delay 5 7, .loopEnd 0 8] :=
  ⟨by rfl, parse_wellFormed (by rfl)⟩

end SerialConsole.Script
