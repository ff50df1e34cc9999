import SerialConsole.Timestamp
import SerialConsole.Proofs.Numeral.Rounding

set_option autoImplicit false

/-!
# The time of day

What is shown of a moment is a time of day to the millisecond, in twelve characters
(`clockFace_eq`). Rounding to microseconds may reach the next second but never passes it
(`micros_splitUnits`), so that three digits are enough for the milliseconds.
-/
namespace SerialConsole

/-- A time of day, to the millisecond. -/
structure TimeOfDay where
  hour : Nat
  minute : Nat
  second : Nat
  milli : Nat
  hour_lt : hour < 24
  minute_lt : minute < 60
  second_lt : second < 60
  milli_lt : milli < 1000

/-- The time of day as `HH:MM:SS.mmm`. -/
def TimeOfDay.text (time : TimeOfDay) : List Char :=
  [Nat.digitChar (time.hour / 10), Nat.digitChar (time.hour % 10), ':',
    Nat.digitChar (time.minute / 10), Nat.digitChar (time.minute % 10), ':',
    Nat.digitChar (time.second / 10), Nat.digitChar (time.second % 10), '.',
    Nat.digitChar (time.milli / 100), Nat.digitChar (time.milli / 10 % 10),
    Nat.digitChar (time.milli % 10)]

theorem TimeOfDay.length_text (time : TimeOfDay) : time.text.length = 12 := rfl

theorem digitChar_ne_newline : ∀ n < 10, Nat.digitChar n ≠ '\n' := by decide

theorem TimeOfDay.newline_not_mem_text (time : TimeOfDay) : '\n' ∉ time.text := by
  intro hmem
  have hhour := time.hour_lt
  have hminute := time.minute_lt
  have hsecond := time.second_lt
  have hmilli := time.milli_lt
  simp only [text, List.mem_cons, List.not_mem_nil, or_false] at hmem
  rcases hmem with h | h | h | h | h | h | h | h | h | h | h | h
  case inr.inr.inl | inr.inr.inr.inr.inr.inl | inr.inr.inr.inr.inr.inr.inr.inr.inl => cases h
  all_goals exact absurd h.symm (digitChar_ne_newline _ (by omega))

namespace Timestamp

/-! ## Digits -/

theorem padded_one {n : Nat} (h : n < 10) : padded 1 n = [Nat.digitChar n] := by
  simp [padded, Nat.toDigits_of_lt_base h]

/-- A number of more than one digit is written as its tenth and its last digit. -/
theorem padded_succ (width n : Nat) :
    padded (width + 2) n = padded (width + 1) (n / 10) ++ [Nat.digitChar (n % 10)] := by
  have htoString : ∀ n : Nat, (toString n).toList = Nat.toDigits 10 n := by simp
  simp only [padded, htoString]
  by_cases h : n < 10
  · have htenth : n / 10 = 0 := by omega
    have hzero : Nat.toDigits 10 0 = ['0'] := rfl
    rw [htenth, hzero, Nat.toDigits_of_lt_base h, Nat.mod_eq_of_lt h]
    simp only [List.length_singleton, Nat.add_sub_cancel]
    rw [show width + 2 - 1 = width + 1 by omega, List.replicate_succ']
  · rw [Nat.toDigits_eq_if (by decide), if_neg h, List.length_append, List.length_singleton,
      ← List.append_assoc]
    congr 3
    omega

theorem padded_two {n : Nat} (h : n < 100) :
    padded 2 n = [Nat.digitChar (n / 10), Nat.digitChar (n % 10)] := by
  rw [padded_succ 0, padded_one (by omega)]
  rfl

theorem padded_three {n : Nat} (h : n < 1000) : padded 3 n =
    [Nat.digitChar (n / 100), Nat.digitChar (n / 10 % 10), Nat.digitChar (n % 10)] := by
  rw [padded_succ 1, padded_two (by omega), Nat.div_div_eq_div_mul]
  rfl

/-! ## Microseconds -/

theorem fits_million : Double.Fits (1000000 * Double.one) := by
  refine ⟨1000000, 1074, ?_, by decide⟩
  unfold Double.one
  rfl

/-- A fraction of a second that was scaled to microseconds, as a whole number of them. -/
def wholeMicros : Double → Nat
  | .finite _ part => Double.roundHalfEven part Double.one
  | _ => 0

theorem units_of_ofUnits {sign negative : Bool} {num den units : Nat}
    (h : Double.ofUnits sign num den = .finite negative units) :
    units = Double.roundUnits num den := by
  by_cases hfinite : Double.roundUnits num den < Double.limit
  · simp only [Double.ofUnits, hfinite, if_true] at h
    cases h
    rfl
  · simp only [Double.ofUnits, hfinite, if_false] at h
    cases h

/-- A fraction of a second is rounded to a second at most. -/
theorem wholeMicros_le (units : Nat) :
    wholeMicros (Double.ofUnits false (units % Double.one * 1000000) 1) ≤ 1000000 := by
  have hone : 0 < Double.one := Nat.lt_of_lt_of_le (by decide) Double.one_large
  have hbelow : units % Double.one * 1000000 ≤ 1000000 * Double.one :=
    Nat.le_trans (Nat.mul_le_mul_right 1000000 (Nat.le_of_lt (Nat.mod_lt units hone)))
      (Nat.le_of_eq (Nat.mul_comm Double.one 1000000))
  have hround := Double.roundUnits_le fits_million hbelow
  generalize hfraction : Double.ofUnits false (units % Double.one * 1000000) 1 = fraction
  cases fraction with
  | nan | infinite negative => exact Nat.zero_le _
  | finite negative part =>
    rw [← units_of_ofUnits hfraction] at hround
    exact @Double.roundHalfEven_le_of_le part Double.one 1000000 hone hround

theorem micros_splitUnits (negative : Bool) (units : Nat) :
    (splitUnits negative units).micros < 1000000 := by
  have hcarry : ∀ micros whole : Nat, micros ≤ 1000000 →
      (if negative then
        if micros = 0 then (⟨-(whole : Int), 0⟩ : Instant)
        else if micros = 1000000 then ⟨-(whole : Int) - 1, 0⟩
        else ⟨-(whole : Int) - 1, 1000000 - micros⟩
      else if micros = 1000000 then ⟨(whole : Int) + 1, 0⟩
      else ⟨whole, micros⟩).micros < 1000000 := by
    intro micros whole hle
    split
    · split
      · exact Nat.zero_lt_succ _
      · split
        · exact Nat.zero_lt_succ _
        · change 1000000 - micros < 1000000
          omega
    · split
      · exact Nat.zero_lt_succ _
      · change micros < 1000000
        omega
  have hle := wholeMicros_le units
  unfold splitUnits
  generalize Double.ofUnits false (units % Double.one * 1000000) 1 = fraction at hle ⊢
  generalize units / Double.one = whole
  cases fraction with
  | nan | infinite _ => exact hcarry 0 whole (Nat.zero_le _)
  | finite _ part => exact hcarry (Double.roundHalfEven part Double.one) whole hle

theorem micros_instant {moment : Timestamp} {parts : Instant} (h : moment.instant = .ok parts) :
    parts.micros < 1000000 := by
  cases moment with
  | whole seconds =>
    rw [instant] at h
    split at h
    · cases h
      exact Nat.zero_lt_succ _
    · cases h
  | real seconds =>
    cases seconds with
    | nan | infinite negative => cases h
    | finite negative units =>
      simp only [instant] at h
      split at h
      · cases h
        exact micros_splitUnits negative units
      · cases h

/-! ## The clock -/

/-- The time of day of an instant. -/
def Instant.timeOfDay (parts : Instant) (h : parts.micros < 1000000) : TimeOfDay where
  hour := (Int.fmod parts.seconds 86400).toNat / 3600
  minute := (Int.fmod parts.seconds 86400).toNat / 60 % 60
  second := (Int.fmod parts.seconds 86400).toNat % 60
  milli := parts.micros / 1000
  hour_lt := by
    have hday := Int.fmod_lt_of_pos parts.seconds (show (0 : Int) < 86400 by decide)
    omega
  minute_lt := Nat.mod_lt _ (by decide)
  second_lt := Nat.mod_lt _ (by decide)
  milli_lt := by omega

theorem clockFace_eq (parts : Instant) (h : parts.micros < 1000000) :
    clockFace parts = (parts.timeOfDay h).text := by
  have hhour := (parts.timeOfDay h).hour_lt
  have hminute := (parts.timeOfDay h).minute_lt
  have hsecond := (parts.timeOfDay h).second_lt
  have hmilli := (parts.timeOfDay h).milli_lt
  simp only [Instant.timeOfDay] at hhour hminute hsecond hmilli
  simp only [clockFace]
  rw [padded_two (by omega), padded_two (by omega), padded_two (by omega), padded_three hmilli]
  rfl

/-- What is shown of a moment is the time of day of its instant. -/
theorem format_eq {moment : Timestamp} {shown : List Char} (h : moment.format = .ok shown) :
    ∃ parts, ∃ hmicros : parts.micros < 1000000, moment.instant = .ok parts ∧
      shown = (parts.timeOfDay hmicros).text := by
  rw [format] at h
  cases hinstant : moment.instant with
  | error fault =>
    rw [hinstant] at h
    cases h
  | ok parts =>
    rw [hinstant] at h
    have hmicros := micros_instant hinstant
    refine ⟨parts, hmicros, rfl, ?_⟩
    cases hyear : checkYear parts.seconds with
    | error fault =>
      simp only [bind, Except.bind, hyear] at h
      cases h
    | ok _ =>
      simp only [bind, Except.bind, hyear] at h
      cases h
      exact clockFace_eq parts hmicros

-- rounding to microseconds reaches the next second
example : (Timestamp.real (Double.ofFraction false 599999999 10000000)).format.toOption =
    some "00:01:00.000".toList := by decide +kernel

end Timestamp

end SerialConsole
