import SerialConsole.Proofs.Text.Trimming
import SerialConsole.Script.Statement

set_option autoImplicit false

/-!
# The grammar of a line

`Says` is the grammar of a trimmed line, written without the functions that read lines, and
`OutOfRange` are the lines with a number that is well formed and not allowed. A line is at most one
of them and says at most one thing. `readStatement_reading` gives what `readStatement` does with
every line.
-/
namespace SerialConsole.Script

open Text

/-! ## Quote marks -/

/-- `rest` is the text without the quote mark at its start, if there is one. -/
def DropsFirstQuote (text rest : List Char) : Prop :=
  (∃ q, isQuote q = true ∧ text = q :: rest) ∨
    (rest = text ∧ ∀ q, text.head? = some q → isQuote q = false)

/-- `rest` is the text without the quote mark at its end, if there is one. -/
def DropsLastQuote (text rest : List Char) : Prop :=
  (∃ q, isQuote q = true ∧ text = rest ++ [q]) ∨
    (rest = text ∧ ∀ q, text.getLast? = some q → isQuote q = false)

/-- `data` is the argument without one quote mark at its start and then one at its end. -/
def Unquotes (argument data : List Char) : Prop :=
  ∃ rest, DropsFirstQuote argument rest ∧ DropsLastQuote rest data

theorem dropsFirstQuote_iff {text rest : List Char} :
    DropsFirstQuote text rest ↔ dropQuote text = rest := by
  cases text with
  | nil => exact ⟨by rintro (⟨_, _, h⟩ | ⟨rfl, _⟩) <;> trivial, fun h => Or.inr ⟨h.symm, by simp⟩⟩
  | cons c tail =>
    cases hc : isQuote c with
    | true =>
      have hdrop : dropQuote (c :: tail) = tail := by simp [dropQuote, hc]
      rw [hdrop]
      constructor
      · rintro (⟨q, _, h⟩ | ⟨_, h⟩)
        · exact (List.cons.inj h).2
        · simp [h c rfl] at hc
      · rintro rfl
        exact Or.inl ⟨c, hc, rfl⟩
    | false =>
      have hdrop : dropQuote (c :: tail) = c :: tail := by simp [dropQuote, hc]
      rw [hdrop]
      constructor
      · rintro (⟨q, hq, h⟩ | ⟨h, _⟩)
        · simp [(List.cons.inj h).1, hq] at hc
        · exact h.symm
      · rintro rfl
        exact Or.inr ⟨rfl, fun q hq => Option.some.inj hq ▸ hc⟩

theorem dropLastQuote_append (text : List Char) (q : Char) :
    dropLastQuote (text ++ [q]) = if isQuote q then text else text ++ [q] := by
  induction text with
  | nil => cases hq : isQuote q <;> simp [dropLastQuote, hq]
  | cons c tail ih =>
    have hne : tail ++ [q] ≠ [] := by simp
    rw [List.cons_append, dropLastQuote, ih]
    · split <;> rfl
    · exact hne

theorem dropsLastQuote_iff {text rest : List Char} :
    DropsLastQuote text rest ↔ dropLastQuote text = rest := by
  rcases List.eq_nil_or_concat text with rfl | ⟨front, c, rfl⟩
  · exact ⟨by rintro (⟨_, _, h⟩ | ⟨rfl, _⟩) <;> simp_all [dropLastQuote],
      fun h => Or.inr ⟨h.symm, by simp⟩⟩
  · rw [List.concat_eq_append, dropLastQuote_append]
    cases hc : isQuote c with
    | true =>
      constructor
      · rintro (⟨q, _, h⟩ | ⟨_, h⟩)
        · exact (List.append_inj' h rfl).1
        · simp [h c] at hc
      · rintro rfl
        exact Or.inl ⟨c, hc, rfl⟩
    | false =>
      constructor
      · rintro (⟨q, hq, h⟩ | ⟨h, _⟩)
        · simp [(List.cons.inj (List.append_inj' h rfl).2).1, hq] at hc
        · exact h.symm
      · rintro rfl
        exact Or.inr ⟨rfl, fun q hq => by simp_all⟩

theorem unquotes_iff {argument data : List Char} :
    Unquotes argument data ↔ unquote argument = data := by
  simp [Unquotes, unquote, dropsFirstQuote_iff, dropsLastQuote_iff]

theorem mem_of_mem_unquote {c : Char} {argument : List Char} (h : c ∈ unquote argument) :
    c ∈ argument := by
  obtain ⟨rest, hfirst, hlast⟩ := unquotes_iff.2 (rfl : unquote argument = unquote argument)
  have hrest : c ∈ rest := by
    rcases hlast with ⟨q, _, hr⟩ | ⟨hr, _⟩
    · rw [hr]
      exact List.mem_append_left _ h
    · exact hr ▸ h
  rcases hfirst with ⟨q, _, ha⟩ | ⟨ha, _⟩
  · rw [ha]
    exact List.mem_cons_of_mem _ hrest
  · exact ha ▸ hrest

/-! ## Numbers -/

/-- A text of decimal digits of any script, at least one, with their values. -/
def Digits (text : List Char) (values : List Nat) : Prop :=
  text ≠ [] ∧ text.map digitValue? = values.map some

/-- A whole number with an optional sign: its text, the values of its digits and itself. -/
inductive Numeral : List Char → List Nat → Int → Prop where
  | plain {text : List Char} {values : List Nat} (h : Digits text values) :
    Numeral text values (digitsValue values)
  | plus {text : List Char} {values : List Nat} (h : Digits text values) :
    Numeral ('+' :: text) values (digitsValue values)
  | minus {text : List Char} {values : List Nat} (h : Digits text values) :
    Numeral ('-' :: text) values (-(digitsValue values : Int))

theorem digits?_eq_some_iff {text : List Char} {values : List Nat} :
    Whole.digits? text = some values ↔ text.map digitValue? = values.map some := by
  induction text generalizing values with
  | nil => cases values <;> simp [Whole.digits?]
  | cons c rest ih =>
    rw [Whole.digits?, List.mapM_cons]
    cases hc : digitValue? c with
    | none => cases values <;> simp [hc]
    | some v =>
      cases hrest : List.mapM digitValue? rest with
      | none =>
        have hno : ∀ vs : List Nat, rest.map digitValue? ≠ vs.map some := fun vs hvs => by
          have := ih.2 hvs
          rw [Whole.digits?, hrest] at this
          cases this
        cases values with
        | nil => simp
        | cons w ws => simpa [hc] using fun _ => hno ws
      | some vs =>
        have hvs : rest.map digitValue? = vs.map some := ih.1 hrest
        cases values with
        | nil => simp
        | cons w ws => simp [hc, hvs, List.map_inj_right]

theorem digitValue?_minus : digitValue? '-' = none := by decide

theorem digitValue?_plus : digitValue? '+' = none := by decide

theorem numeral_iff {argument : List Char} {values : List Nat} {n : Int} :
    Numeral argument values n ↔ Digits (Whole.splitSign argument).2 values ∧
      n = if (Whole.splitSign argument).1 then -(digitsValue values : Int)
        else digitsValue values := by
  constructor
  · rintro (⟨⟨hne, hvalues⟩⟩ | ⟨h⟩ | ⟨h⟩)
    · have hsign : Whole.splitSign argument = (false, argument) := by
        unfold Whole.splitSign
        split
        · cases values <;> simp [digitValue?_minus] at hvalues
        · cases values <;> simp [digitValue?_plus] at hvalues
        · rfl
      rw [hsign]
      exact ⟨⟨hne, hvalues⟩, rfl⟩
    · exact ⟨h, rfl⟩
    · exact ⟨h, rfl⟩
  · unfold Whole.splitSign
    split
    · rintro ⟨h, rfl⟩
      exact .minus h
    · rintro ⟨h, rfl⟩
      exact .plus h
    · rintro ⟨h, rfl⟩
      exact .plain h

theorem Numeral.unique {argument : List Char} {values values' : List Nat} {n n' : Int}
    (h : Numeral argument values n) (h' : Numeral argument values' n') :
    values = values' ∧ n = n' := by
  obtain ⟨⟨_, hd⟩, hn⟩ := numeral_iff.1 h
  obtain ⟨⟨_, hd'⟩, hn'⟩ := numeral_iff.1 h'
  have hvalues : values = values' :=
    List.map_inj_right (fun _ _ => Option.some.inj) |>.1 (hd.symm.trans hd')
  subst hvalues
  exact ⟨rfl, hn.trans hn'.symm⟩

theorem numeral_ne_nil {argument : List Char} {values : List Nat} {n : Int}
    (h : Numeral argument values n) : argument ≠ [] := by
  rintro rfl
  exact (numeral_iff.1 h).1.1 rfl

/-- Reading a number: it is one, or it has too many digits, or it is none at all. -/
theorem readNumber_cases (role : NumberRole) (line : Nat) (argument : List Char) :
    (∃ values n, Numeral argument values n ∧ values.length ≤ Whole.digitLimit ∧
      readNumber role line argument = .ok n) ∨
    (∃ values n, Numeral argument values n ∧ Whole.digitLimit < values.length ∧
      readNumber role line argument = .error (.longNumber values.length)) ∨
    ((∀ values n, ¬ Numeral argument values n) ∧ ∃ problem, problem.isRange = false ∧
      readNumber role line argument = .error (.scriptLine line problem)) := by
  cases hempty : argument.isEmpty with
  | true =>
    refine Or.inr (Or.inr ⟨?_, .missingNumber role, rfl, by simp [readNumber, hempty]⟩)
    intro values n h
    obtain rfl : argument = [] := List.isEmpty_iff.1 hempty
    exact (numeral_iff.1 h).1.1 rfl
  | false =>
    by_cases hrest : (Whole.splitSign argument).2 = []
    · refine Or.inr (Or.inr ⟨?_, .invalidNumber role (String.ofList argument), rfl, ?_⟩)
      · exact fun values n h => (numeral_iff.1 h).1.1 hrest
      · simp [readNumber, hempty, hrest]
    · cases hdigits : Whole.digits? (Whole.splitSign argument).2 with
      | none =>
        refine Or.inr (Or.inr ⟨?_, .invalidNumber role (String.ofList argument), rfl, ?_⟩)
        · intro values n h
          have hvalues := digits?_eq_some_iff.2 (numeral_iff.1 h).1.2
          rw [hdigits] at hvalues
          cases hvalues
        · simp [readNumber, hempty, hrest, hdigits]
      | some digits =>
        have hnumeral := numeral_iff.2 ⟨⟨hrest, digits?_eq_some_iff.1 hdigits⟩, rfl⟩
        by_cases hlong : Whole.digitLimit < digits.length
        · refine Or.inr (Or.inl ⟨digits, _, hnumeral, hlong, ?_⟩)
          simp [readNumber, hempty, hrest, hdigits, Whole.ofDigits, hlong]
        · refine Or.inl ⟨digits, _, hnumeral, Nat.le_of_not_lt hlong, ?_⟩
          simp [readNumber, hempty, hrest, hdigits, Whole.ofDigits, hlong]

/-! ## Lines -/

/-- A trimmed line that starts with a keyword and has an argument after white space. -/
def Keyword.Takes (keyword : Keyword) (text argument : List Char) : Prop :=
  argument ≠ [] ∧ Bare argument ∧
    ∃ gap, gap ≠ [] ∧ Blank gap ∧ text = keyword.spelling ++ gap ++ argument

/-- What a trimmed line says; a blank line and a comment say nothing. -/
inductive Says : List Char → Option Statement → Prop where
  | blank : Says [] none
  | comment (rest : List Char) : Says ('#' :: rest) none
  | loopEnd : Says ['E', 'N', 'D'] (some .loopEnd)
  | send {text argument data : List Char} (takes : Keyword.send.Takes text argument)
    (unquotes : Unquotes argument data) (some_data : data ≠ []) : Says text (some (.send data))
  | delay {text argument : List Char} {values : List Nat} {ms : Int}
    (takes : Keyword.delay.Takes text argument) (numeral : Numeral argument values ms)
    (range : 0 ≤ ms ∧ ms ≤ 60000) : Says text (some (.delay ms))
  | loop {text argument : List Char} {values : List Nat} {count : Int}
    (takes : Keyword.loop.Takes text argument) (numeral : Numeral argument values count)
    (range : 1 ≤ count ∧ count ≤ 10000) : Says text (some (.loop count))

/-- A trimmed DELAY or LOOP line with a well-formed number that is not allowed. -/
inductive OutOfRange : List Char → Prop where
  | delay {text argument : List Char} {values : List Nat} {ms : Int}
    (takes : Keyword.delay.Takes text argument) (numeral : Numeral argument values ms)
    (range : ¬ (0 ≤ ms ∧ ms ≤ 60000)) : OutOfRange text
  | loop {text argument : List Char} {values : List Nat} {count : Int}
    (takes : Keyword.loop.Takes text argument) (numeral : Numeral argument values count)
    (range : ¬ (1 ≤ count ∧ count ≤ 10000)) : OutOfRange text

/-- The number of a trimmed DELAY or LOOP line, if it has one, has at most 4300 digits. -/
def ShortNumber (text : List Char) : Prop :=
  ∀ keyword argument values n, keyword ≠ Keyword.send → keyword.Takes text argument →
    Numeral argument values n → values.length ≤ 4300

theorem not_bare_append_blank {text gap : List Char} (hne : gap ≠ []) (hblank : Blank gap) :
    ¬ Bare (text ++ gap) := by
  intro h
  have hlast := h.2 (gap.getLast hne)
    (by rw [List.getLast?_append, List.getLast?_eq_some_getLast hne]; rfl)
  rw [hblank _ (List.getLast_mem hne)] at hlast
  cases hlast

theorem Keyword.argument?_iff {keyword : Keyword} {text argument : List Char} (hbare : Bare text) :
    keyword.argument? text = some argument ↔
      (text = keyword.spelling ∧ argument = []) ∨ keyword.Takes text argument := by
  constructor
  · intro h
    rw [Keyword.argument?] at h
    split at h
    case isFalse => cases h
    case isTrue hstarts =>
      obtain ⟨tail, rfl⟩ := List.isPrefixOf_iff_prefix.1 hstarts
      rw [List.drop_left] at h
      cases tail with
      | nil =>
        obtain rfl : [] = argument := Option.some.inj h
        exact Or.inl ⟨List.append_nil _, rfl⟩
      | cons c rest =>
        cases hc : isBlank c with
        | false => simp [hc] at h
        | true =>
          have htrim : trim rest = argument := by simpa [hc] using h
          obtain ⟨hargument, before, after, rfl, hbefore, hafter⟩ := trimmed_iff.2 htrim
          have hgap : Blank (c :: before) := blank_cons.2 ⟨hc, hbefore⟩
          have hnil : after = [] := Classical.byContradiction fun hne => by
            rw [← List.cons_append, ← List.append_assoc] at hbare
            exact not_bare_append_blank hne hafter hbare
          subst hnil
          refine Or.inr ⟨?_, hargument, c :: before, by simp, hgap, by simp⟩
          rintro rfl
          rw [List.append_nil, List.append_nil] at hbare
          exact not_bare_append_blank (by simp) hgap hbare
  · rintro (⟨rfl, rfl⟩ | ⟨hne, hargument, gap, hgap, hblank, rfl⟩)
    · simp [Keyword.argument?, List.isPrefixOf_iff_prefix.2 (List.prefix_refl _)]
    · cases gap with
      | nil => exact absurd rfl hgap
      | cons c before =>
        obtain ⟨hc, hbefore⟩ := blank_cons.1 hblank
        have htrim : trim (before ++ argument) = argument :=
          trimmed_iff.1 ⟨hargument, before, [], by simp, hbefore, blank_nil⟩
        have hstarts : keyword.spelling.isPrefixOf
            (keyword.spelling ++ c :: before ++ argument) = true :=
          List.isPrefixOf_iff_prefix.2 (by rw [List.append_assoc]; exact List.prefix_append _ _)
        rw [Keyword.argument?, if_pos hstarts, List.append_assoc, List.drop_left]
        simp [hc, htrim]

theorem Keyword.head_of_argument? {keyword : Keyword} {text argument : List Char}
    (h : keyword.argument? text = some argument) : text.head? = keyword.spelling.head? := by
  rw [Keyword.argument?] at h
  split at h
  case isFalse => cases h
  case isTrue hstarts =>
    obtain ⟨tail, rfl⟩ := List.isPrefixOf_iff_prefix.1 hstarts
    cases keyword <;> rfl

theorem Keyword.eq_of_head {keyword other : Keyword}
    (h : keyword.spelling.head? = other.spelling.head?) : keyword = other := by
  cases keyword <;> cases other <;> simp_all [Keyword.spelling]

/-- No line starts with two keywords. -/
theorem splitKeyword?_iff {keyword : Keyword} {text argument : List Char} :
    splitKeyword? text = some (keyword, argument) ↔ keyword.argument? text = some argument := by
  have honly : ∀ other found, other.argument? text = some found →
      keyword.argument? text = some argument → other = keyword := fun other found ho hk =>
    Keyword.eq_of_head ((Keyword.head_of_argument? ho).symm.trans (Keyword.head_of_argument? hk))
  rw [splitKeyword?]
  cases hsend : Keyword.send.argument? text with
  | some found =>
    constructor
    · intro h
      cases h
      exact hsend
    · intro h
      obtain rfl := honly _ _ hsend h
      rw [hsend] at h
      cases h
      rfl
  | none =>
    cases hdelay : Keyword.delay.argument? text with
    | some found =>
      constructor
      · intro h
        cases h
        exact hdelay
      · intro h
        obtain rfl := honly _ _ hdelay h
        rw [hdelay] at h
        cases h
        rfl
    | none =>
      cases keyword <;> simp_all

theorem Keyword.Takes.split {keyword : Keyword} {text argument : List Char} (hbare : Bare text)
    (h : keyword.Takes text argument) : splitKeyword? text = some (keyword, argument) :=
  splitKeyword?_iff.2 ((Keyword.argument?_iff hbare).2 (Or.inr h))

theorem Keyword.Takes.unique {keyword other : Keyword} {text argument found : List Char}
    (hbare : Bare text) (h : keyword.Takes text argument) (h' : other.Takes text found) :
    keyword = other ∧ argument = found := by
  have hpair := (h.split hbare).symm.trans (h'.split hbare)
  cases hpair
  exact ⟨rfl, rfl⟩

theorem Keyword.Takes.ne_end {keyword : Keyword} {text argument : List Char}
    (h : keyword.Takes text argument) : text ≠ ['E', 'N', 'D'] := by
  obtain ⟨_, _, gap, _, _, rfl⟩ := h
  cases keyword <;> simp [Keyword.spelling]

theorem Says.unique {text : List Char} {statement other : Statement} (hbare : Bare text)
    (h : Says text (some statement)) (h' : Says text (some other)) : statement = other := by
  cases h with
  | loopEnd =>
    cases h' with
    | loopEnd => rfl
    | send takes | delay takes | loop takes => exact absurd rfl takes.ne_end
  | send takes unquotes _ =>
    cases h' with
    | loopEnd => exact absurd rfl takes.ne_end
    | send takes' unquotes' _ =>
      obtain ⟨_, rfl⟩ := takes.unique hbare takes'
      rw [← unquotes_iff.1 unquotes, unquotes_iff.1 unquotes']
    | delay takes' | loop takes' => cases (takes.unique hbare takes').1
  | delay takes numeral _ =>
    cases h' with
    | loopEnd => exact absurd rfl takes.ne_end
    | delay takes' numeral' _ =>
      obtain ⟨_, rfl⟩ := takes.unique hbare takes'
      rw [(numeral.unique numeral').2]
    | send takes' | loop takes' => cases (takes.unique hbare takes').1
  | loop takes numeral _ =>
    cases h' with
    | loopEnd => exact absurd rfl takes.ne_end
    | loop takes' numeral' _ =>
      obtain ⟨_, rfl⟩ := takes.unique hbare takes'
      rw [(numeral.unique numeral').2]
    | send takes' | delay takes' => cases (takes.unique hbare takes').1

theorem Says.not_outOfRange {text : List Char} {statement : Statement} (hbare : Bare text)
    (h : Says text (some statement)) : ¬ OutOfRange text := by
  intro hout
  cases hout with
  | delay takes numeral range =>
    cases h with
    | loopEnd => exact takes.ne_end rfl
    | delay takes' numeral' range' =>
      obtain ⟨_, rfl⟩ := takes.unique hbare takes'
      exact range ((numeral.unique numeral').2 ▸ range')
    | send takes' | loop takes' => cases (takes.unique hbare takes').1
  | loop takes numeral range =>
    cases h with
    | loopEnd => exact takes.ne_end rfl
    | loop takes' numeral' range' =>
      obtain ⟨_, rfl⟩ := takes.unique hbare takes'
      exact range ((numeral.unique numeral').2 ▸ range')
    | send takes' | delay takes' => cases (takes.unique hbare takes').1

theorem says_none_iff {text : List Char} : Says text none ↔ isSilent text = true := by
  constructor
  · rintro (_ | ⟨rest⟩) <;> rfl
  · cases text with
    | nil => exact fun _ => .blank
    | cons c rest =>
      intro h
      obtain rfl : c = '#' := by simpa [isSilent] using h
      exact .comment rest

theorem Says.not_silent {text : List Char} {statement : Statement}
    (h : Says text (some statement)) : isSilent text = false := by
  cases h with
  | loopEnd => rfl
  | send takes | delay takes | loop takes =>
    obtain ⟨_, _, gap, _, _, rfl⟩ := takes
    rfl

theorem OutOfRange.not_silent {text : List Char} (h : OutOfRange text) : isSilent text = false := by
  cases h with
  | delay takes | loop takes =>
    obtain ⟨_, _, gap, _, _, rfl⟩ := takes
    rfl

/-- What reading a trimmed line can come to. -/
inductive Reading (line : Nat) (text : List Char) : Except Fault Statement → Prop where
  | read {statement : Statement} (h : Says text (some statement)) :
    Reading line text (.ok statement)
  | outOfRange {problem : LineProblem} (h : OutOfRange text) (hrange : problem.isRange = true) :
    Reading line text (.error (.scriptLine line problem))
  | long (digits : Nat) (h : ¬ ShortNumber text) : Reading line text (.error (.longNumber digits))
  | malformed {problem : LineProblem} (h : ∀ statement, ¬ Says text (some statement))
    (hout : ¬ OutOfRange text) (hrange : problem.isRange = false) :
    Reading line text (.error (.scriptLine line problem))

theorem checkDelay_cases (ms : Int) :
    ((0 ≤ ms ∧ ms ≤ 60000) ∧ checkDelay ms = .ok ms) ∨
      (¬ (0 ≤ ms ∧ ms ≤ 60000) ∧ ∃ problem, problem.isRange = true ∧
        checkDelay ms = .error problem) := by
  unfold checkDelay maxDelay
  split
  case isTrue h => exact Or.inr ⟨by omega, _, rfl, rfl⟩
  case isFalse =>
    split
    case isTrue => exact Or.inr ⟨by omega, _, rfl, rfl⟩
    case isFalse => exact Or.inl ⟨by omega, rfl⟩

theorem checkCount_cases (count : Int) :
    ((1 ≤ count ∧ count ≤ 10000) ∧ checkCount count = .ok count) ∨
      (¬ (1 ≤ count ∧ count ≤ 10000) ∧ ∃ problem, problem.isRange = true ∧
        checkCount count = .error problem) := by
  unfold checkCount minCount maxCount
  split
  case isTrue h => exact Or.inr ⟨by omega, _, rfl, rfl⟩
  case isFalse =>
    split
    case isTrue => exact Or.inr ⟨by omega, _, rfl, rfl⟩
    case isFalse => exact Or.inl ⟨by omega, rfl⟩

/-- A line with a keyword takes no argument of another one. -/
theorem takes_of_split {keyword other : Keyword} {text argument found : List Char}
    (hbare : Bare text) (hsplit : splitKeyword? text = some (keyword, argument))
    (h : other.Takes text found) : other = keyword ∧ found = argument := by
  have hpair := (h.split hbare).symm.trans hsplit
  cases hpair
  exact ⟨rfl, rfl⟩

theorem takes_of_ne_nil {keyword : Keyword} {text argument : List Char}
    (hbare : Bare text) (hsplit : splitKeyword? text = some (keyword, argument))
    (hne : argument ≠ []) : keyword.Takes text argument :=
  ((Keyword.argument?_iff hbare).1 (splitKeyword?_iff.1 hsplit)).resolve_left fun h => hne h.2

theorem readStatement_send {line : Nat} {text argument : List Char} (hbare : Bare text)
    (hsplit : splitKeyword? text = some (.send, argument)) (hend : text ≠ ['E', 'N', 'D']) :
    Reading line text (readStatement line text) := by
  have hrefused : unquote argument = [] → (∀ statement, ¬ Says text (some statement)) ∧
      ¬ OutOfRange text := by
    intro hempty
    refine ⟨fun statement h => ?_, fun h => ?_⟩
    · cases h with
      | loopEnd => exact hend rfl
      | send takes unquotes hdata =>
        obtain ⟨_, rfl⟩ := takes_of_split hbare hsplit takes
        exact hdata ((unquotes_iff.1 unquotes).symm.trans hempty)
      | delay takes | loop takes => cases (takes_of_split hbare hsplit takes).1
    · cases h with
      | delay takes | loop takes => cases (takes_of_split hbare hsplit takes).1
  by_cases hne : argument = []
  · subst hne
    have h := hrefused rfl
    have hread : readStatement line text = .error (.scriptLine line .missingData) := by
      simp [readStatement, hend, hsplit, readData]
    rw [hread]
    exact .malformed h.1 h.2 rfl
  · by_cases hdata : unquote argument = []
    · have h := hrefused hdata
      have hread : readStatement line text = .error (.scriptLine line .emptyData) := by
        simp [readStatement, hend, hsplit, readData, List.isEmpty_iff, hne, hdata]
      rw [hread]
      exact .malformed h.1 h.2 rfl
    · have hread : readStatement line text = .ok (.send (unquote argument)) := by
        simp [readStatement, hend, hsplit, readData, List.isEmpty_iff, hne, hdata]
      rw [hread]
      exact .read (.send (takes_of_ne_nil hbare hsplit hne) (unquotes_iff.2 rfl) hdata)

/-- The keywords with a number differ in their check and in what they say. -/
theorem number_reading {line : Nat} {text argument : List Char} {keyword : Keyword}
    {role : NumberRole} {statement : Int → Statement} {check : Int → Except LineProblem Int}
    {inRange : Int → Prop} (hbare : Bare text)
    (hsplit : splitKeyword? text = some (keyword, argument)) (hkeyword : keyword ≠ .send)
    (hcheck : ∀ n, (inRange n ∧ check n = .ok n) ∨
      (¬ inRange n ∧ ∃ problem, problem.isRange = true ∧ check n = .error problem))
    (hgood : ∀ {values n}, keyword.Takes text argument → Numeral argument values n → inRange n →
      Says text (some (statement n)))
    (hout : ∀ {values n}, keyword.Takes text argument → Numeral argument values n →
      ¬ inRange n → OutOfRange text)
    (hnumeral : (∃ said, Says text (some said)) ∨ OutOfRange text →
      ∃ values n, Numeral argument values n) :
    Reading line text (do
      let n ← readNumber role line argument
      match check n with
      | .ok n => .ok (statement n)
      | .error problem => .error (.scriptLine line problem)) := by
  rcases readNumber_cases role line argument with
    ⟨values, n, hn, _, hread⟩ | ⟨values, n, hn, hlong, hread⟩ | ⟨hno, problem, hrange, hread⟩
  · have takes := takes_of_ne_nil hbare hsplit (numeral_ne_nil hn)
    rw [hread]
    rcases hcheck n with ⟨hin, hok⟩ | ⟨hnot, problem, hrange, herror⟩
    · simp only [bind, Except.bind, hok]
      exact .read (hgood takes hn hin)
    · simp only [bind, Except.bind, herror]
      exact .outOfRange (hout takes hn hnot) hrange
  · have takes := takes_of_ne_nil hbare hsplit (numeral_ne_nil hn)
    rw [hread]
    refine .long _ fun hshort => ?_
    exact absurd (hshort keyword argument values n hkeyword takes hn) (Nat.not_le_of_lt hlong)
  · have hnone : ¬ ((∃ said, Says text (some said)) ∨ OutOfRange text) := by
      intro h
      obtain ⟨values, n, hn⟩ := hnumeral h
      exact hno values n hn
    rw [hread]
    exact .malformed (fun said h => hnone (Or.inl ⟨said, h⟩)) (fun h => hnone (Or.inr h)) hrange

theorem readStatement_delay {line : Nat} {text argument : List Char} (hbare : Bare text)
    (hsplit : splitKeyword? text = some (.delay, argument)) (hend : text ≠ ['E', 'N', 'D']) :
    Reading line text (readStatement line text) := by
  rw [readStatement, if_neg hend, hsplit]
  refine number_reading hbare hsplit (by decide) checkDelay_cases .delay .delay ?_
  rintro (⟨said, h⟩ | h)
  · cases h with
    | loopEnd => exact absurd rfl hend
    | delay takes numeral =>
      obtain ⟨_, rfl⟩ := takes_of_split hbare hsplit takes
      exact ⟨_, _, numeral⟩
    | send takes | loop takes => cases (takes_of_split hbare hsplit takes).1
  · cases h with
    | delay takes numeral =>
      obtain ⟨_, rfl⟩ := takes_of_split hbare hsplit takes
      exact ⟨_, _, numeral⟩
    | loop takes => cases (takes_of_split hbare hsplit takes).1

theorem readStatement_loop {line : Nat} {text argument : List Char} (hbare : Bare text)
    (hsplit : splitKeyword? text = some (.loop, argument)) (hend : text ≠ ['E', 'N', 'D']) :
    Reading line text (readStatement line text) := by
  rw [readStatement, if_neg hend, hsplit]
  refine number_reading hbare hsplit (by decide) checkCount_cases .loop .loop ?_
  rintro (⟨said, h⟩ | h)
  · cases h with
    | loopEnd => exact absurd rfl hend
    | loop takes numeral =>
      obtain ⟨_, rfl⟩ := takes_of_split hbare hsplit takes
      exact ⟨_, _, numeral⟩
    | send takes | delay takes => cases (takes_of_split hbare hsplit takes).1
  · cases h with
    | loop takes numeral =>
      obtain ⟨_, rfl⟩ := takes_of_split hbare hsplit takes
      exact ⟨_, _, numeral⟩
    | delay takes => cases (takes_of_split hbare hsplit takes).1

/-- Reading a line agrees with the grammar of lines, whatever the line. -/
theorem readStatement_reading (line : Nat) {text : List Char} (hbare : Bare text) :
    Reading line text (readStatement line text) := by
  by_cases hend : text = ['E', 'N', 'D']
  · subst hend
    exact .read .loopEnd
  · cases hsplit : splitKeyword? text with
    | some found =>
      obtain ⟨keyword, argument⟩ := found
      cases keyword with
      | send => exact readStatement_send hbare hsplit hend
      | delay => exact readStatement_delay hbare hsplit hend
      | loop => exact readStatement_loop hbare hsplit hend
    | none =>
      have hno : ∀ keyword argument, ¬ Keyword.Takes keyword text argument := by
        intro keyword argument takes
        rw [takes.split hbare] at hsplit
        cases hsplit
      have hresult : readStatement line text =
          .error (.scriptLine line (.unknownCommand (String.ofList text))) := by
        simp only [readStatement, hend, if_false, hsplit]
      rw [hresult]
      refine .malformed (fun statement h => ?_) (fun h => ?_) rfl
      · cases h with
        | loopEnd => exact hend rfl
        | send takes | delay takes | loop takes => exact hno _ _ takes
      · cases h with
        | delay takes | loop takes => exact hno _ _ takes

/-- Only a line of more than 4300 characters has a number of more than 4300 digits. -/
theorem shortNumber_of_length {text : List Char} (h : text.length ≤ 4300) : ShortNumber text := by
  rintro keyword argument values n _ ⟨_, _, gap, _, _, rfl⟩ hn
  have hvalues : values.length ≤ argument.length := by
    cases hn with
    | plain h =>
      have hmap := congrArg List.length h.2
      simp only [List.length_map] at hmap
      omega
    | plus h | minus h =>
      have hmap := congrArg List.length h.2
      simp only [List.length_map] at hmap
      simp only [List.length_cons]
      omega
  simp only [List.length_append] at h
  omega

end SerialConsole.Script
