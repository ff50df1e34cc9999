import SerialConsole.Proofs.Script.Pairing
import SerialConsole.Proofs.Script.Writing
import SerialConsole.Proofs.Text.Lines

set_option autoImplicit false

/-!
# How commands are written

Every command has a line that tells it (`Command.text`): a keyword and a number in decimal, a text
in double quotes, or END. Nothing in a quoted text has a meaning of its own, as the quote marks are
dropped at the two ends only.
-/
namespace SerialConsole.Script

open Text

/-! ## Decimal numbers -/

theorem digitValue?_digitChar : ∀ d < 10, digitValue? (Nat.digitChar d) = some d := by decide

theorem digitsValue_concat (values : List Nat) (d : Nat) :
    digitsValue (values ++ [d]) = 10 * digitsValue values + d := by
  simp [digitsValue]

theorem exists_digits (n : Nat) :
    ∃ values, Digits (Nat.toDigits 10 n) values ∧ digitsValue values = n := by
  induction n using Nat.strongRecOn with
  | ind n ih =>
    rw [Nat.toDigits_eq_if (by decide)]
    split
    case isTrue h =>
      refine ⟨[n], ⟨by simp, ?_⟩, by simp [digitsValue]⟩
      rw [List.map_singleton, List.map_singleton, digitValue?_digitChar n h]
    case isFalse h =>
      obtain ⟨values, ⟨_, hmap⟩, hvalue⟩ := ih (n / 10) (by omega)
      refine ⟨values ++ [n % 10], ⟨by simp, ?_⟩, ?_⟩
      · rw [List.map_append, List.map_append, hmap, List.map_singleton, List.map_singleton,
          digitValue?_digitChar _ (Nat.mod_lt n (by decide))]
      · rw [digitsValue_concat, hvalue]
        omega

/-- A number is written in decimal. -/
def decimal (n : Int) : List Char := (toString n).toList

theorem decimal_natCast (n : Nat) : decimal n = Nat.toDigits 10 n := by
  simp [decimal, Int.repr_eq_if]

theorem numeral_decimal {n : Int} (h : 0 ≤ n) : ∃ values, Numeral (decimal n) values n := by
  obtain ⟨k, rfl⟩ := Int.eq_ofNat_of_zero_le h
  obtain ⟨values, hdigits, hvalue⟩ := exists_digits k
  have hn := Numeral.plain hdigits
  rw [hvalue] at hn
  exact ⟨values, decimal_natCast k ▸ hn⟩

theorem isBlank_of_isDigit {c : Char} (h : c.isDigit = true) : isBlank c = false := by
  have hrange : 48 ≤ c.toNat ∧ c.toNat ≤ 57 := by
    simpa [Char.isDigit, UInt32.le_iff_toNat_le] using h
  simp only [isBlank, Bool.or_eq_false_iff, Bool.and_eq_false_iff, decide_eq_false_iff_not,
    beq_eq_false_iff_ne]
  omega

theorem isBlank_of_mem_decimal {n : Int} (h : 0 ≤ n) {c : Char} (hc : c ∈ decimal n) :
    isBlank c = false := by
  obtain ⟨k, rfl⟩ := Int.eq_ofNat_of_zero_le h
  rw [decimal_natCast] at hc
  exact isBlank_of_isDigit (Nat.isDigit_of_mem_toDigits (by decide) (by decide) hc)

theorem bare_decimal {n : Int} (h : 0 ≤ n) : Bare (decimal n) :=
  ⟨fun _ hc => isBlank_of_mem_decimal h (List.mem_of_mem_head? hc),
    fun _ hc => isBlank_of_mem_decimal h (List.mem_of_getLast? hc)⟩

theorem newline_not_mem_decimal {n : Int} (h : 0 ≤ n) : '\n' ∉ decimal n := fun hmem => by
  cases isBlank_of_mem_decimal h hmem

theorem decimal_ne_nil {n : Int} (h : 0 ≤ n) : decimal n ≠ [] := by
  obtain ⟨k, rfl⟩ := Int.eq_ofNat_of_zero_le h
  rw [decimal_natCast]
  exact Nat.toDigits_ne_nil

theorem decimal_length_le {n : Int} (hlow : 0 ≤ n) (hhigh : n ≤ 60000) :
    (decimal n).length ≤ 5 := by
  obtain ⟨k, rfl⟩ := Int.eq_ofNat_of_zero_le hlow
  rw [decimal_natCast, Nat.length_toDigits_le_iff (by decide) (by decide)]
  omega

/-! ## Lines -/

namespace Keyword

/-- A line of the keyword and its argument. -/
def line (keyword : Keyword) (argument : List Char) : List Char :=
  keyword.spelling ++ ' ' :: argument

variable {keyword : Keyword} {argument : List Char}

theorem takes_line (hsome : argument ≠ []) (hbare : Bare argument) :
    keyword.Takes (keyword.line argument) argument :=
  ⟨hsome, hbare, [' '], by simp, blank_cons.2 ⟨by decide, blank_nil⟩, by simp [line]⟩

theorem bare_line (hsome : argument ≠ []) (hbare : Bare argument) :
    Bare (keyword.line argument) := by
  constructor
  · intro c hc
    cases keyword <;> cases hc <;> decide
  · intro c hc
    rw [line, List.getLast?_append_of_ne_nil _ (by simp), List.getLast?_cons_of_ne_nil hsome] at hc
    exact hbare.2 c hc

theorem newline_not_mem_line (h : '\n' ∉ argument) : '\n' ∉ keyword.line argument := by
  have hspelling : '\n' ∉ keyword.spelling := by cases keyword <;> decide
  simp [line, hspelling, h]

theorem not_blank_line : ¬ Blank (keyword.line argument) := by
  have hspelling : ¬ Blank keyword.spelling := not_blank_of_all (by cases keyword <;> rfl)
  exact fun h => hspelling (blank_append.1 h).1

end Keyword

/-- A line with a number that has a meaning tells it. -/
theorem tells_number {keyword : Keyword} {n : Int} {statement : Statement} (hlow : 0 ≤ n)
    (hhigh : n ≤ 60000) (h : ∀ {text argument values}, keyword.Takes text argument →
      Numeral argument values n → Says text (some statement)) :
    Tells (keyword.line (decimal n)) (some statement) := by
  obtain ⟨values, hn⟩ := numeral_decimal hlow
  have hsome := decimal_ne_nil hlow
  have hbare := bare_decimal hlow
  have hlength : (keyword.line (decimal n)).length ≤ 4300 := by
    have hdigits := decimal_length_le hlow hhigh
    have hspelling : keyword.spelling.length ≤ 5 := by cases keyword <;> decide
    rw [Keyword.line, List.length_append, List.length_cons]
    omega
  rw [Tells, lineSays_iff, trim_of_bare (Keyword.bare_line hsome hbare)]
  exact ⟨h (Keyword.takes_line hsome hbare) hn, shortNumber_of_length hlength⟩

theorem tells_delay {ms : Int} (hlow : 0 ≤ ms) (hhigh : ms ≤ 60000) :
    Tells (Keyword.delay.line (decimal ms)) (some (.delay ms)) :=
  tells_number hlow hhigh fun takes hn => .delay takes hn ⟨hlow, hhigh⟩

theorem tells_loop {count : Int} (hlow : 1 ≤ count) (hhigh : count ≤ 10000) :
    Tells (Keyword.loop.line (decimal count)) (some (.loop count)) :=
  tells_number (by omega) (by omega) fun takes hn => .loop takes hn ⟨hlow, hhigh⟩

/-- A SEND has no number, however long its text is. -/
theorem Keyword.Takes.shortNumber {text argument : List Char} (hbare : Bare text)
    (h : Keyword.send.Takes text argument) : ShortNumber text :=
  fun _ _ _ _ hkeyword hother _ => absurd (hother.unique hbare h).1 hkeyword

/-- The text between two double quotes. -/
def quoted (data : List Char) : List Char := '"' :: (data ++ ['"'])

theorem bare_quoted (data : List Char) : Bare (quoted data) := by
  constructor
  · intro c hc
    cases hc
    decide
  · intro c hc
    rw [quoted, ← List.cons_append, List.getLast?_concat] at hc
    cases hc
    decide

theorem unquotes_quoted (data : List Char) : Unquotes (quoted data) data :=
  ⟨data ++ ['"'], Or.inl ⟨'"', by decide, rfl⟩, Or.inl ⟨'"', by decide, rfl⟩⟩

theorem tells_send {data : List Char} (hsome : data ≠ []) :
    Tells (Keyword.send.line (quoted data)) (some (.send data)) := by
  have hquoted : quoted data ≠ [] := by simp [quoted]
  have hbare : Bare (Keyword.send.line (quoted data)) :=
    Keyword.bare_line hquoted (bare_quoted data)
  have takes : Keyword.send.Takes (Keyword.send.line (quoted data)) (quoted data) :=
    Keyword.takes_line hquoted (bare_quoted data)
  rw [Tells, lineSays_iff, trim_of_bare hbare]
  exact ⟨.send takes (unquotes_quoted data) hsome, takes.shortNumber hbare⟩

/-- The line of an END. -/
def endLine : List Char := ['E', 'N', 'D']

theorem tells_end : Tells endLine (some .loopEnd) := by
  have htrim : trim endLine = endLine := by decide
  rw [Tells, lineSays_iff, htrim]
  exact ⟨.loopEnd, shortNumber_of_length (by decide)⟩

/-! ## Commands -/

/-- The line that a command is written in. The language has no line for an unknown command. -/
def Command.text : Command → List Char
  | .send value _ => Keyword.send.line (quoted value.toList)
  | .delay ms _ => Keyword.delay.line (decimal ms)
  | .loop count _ _ => Keyword.loop.line (decimal count)
  | .loopEnd _ _ => endLine
  | .unknown _ => []

theorem Command.newline_not_mem_text {c : Command} (h : c.InRange) : '\n' ∉ c.text := by
  cases c with
  | send value line => exact Keyword.newline_not_mem_line (by simp [quoted, h.2])
  | delay ms line => exact Keyword.newline_not_mem_line (newline_not_mem_decimal h.1)
  | loop count endAt line =>
    exact Keyword.newline_not_mem_line (newline_not_mem_decimal (Int.le_trans (by decide) h.1))
  | loopEnd startAt line => exact (by decide : '\n' ∉ endLine)
  | unknown name => exact h.elim

theorem Command.not_blank_text {c : Command} (h : c.InRange) : ¬ Blank c.text := by
  cases c with
  | send | delay | loop => exact Keyword.not_blank_line
  | loopEnd startAt line => exact not_blank_of_all rfl
  | unknown name => exact h.elim

end SerialConsole.Script
