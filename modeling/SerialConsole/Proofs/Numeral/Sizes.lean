import Mathlib.Algebra.Order.Field.Rat
import Mathlib.Data.Nat.Find
import Mathlib.Tactic.Linarith
import Mathlib.Tactic.NormNum
import Mathlib.Tactic.Ring
import SerialConsole.Size
import SerialConsole.Proofs.Numeral.Rounding
import SerialConsole.Proofs.Script.Spelling

set_option autoImplicit false

/-!
# What the text of a size stands for

A size is shown by a number and a unit, and reading these back gives a number of bytes again
(`value?`). Below 2 to the power 53 the quotient by the unit is a double, so the only rounding is
that to hundredths (`shown_eq`). Hence the number of bytes that is shown is off by half a hundredth
of the unit at most, and a larger size is never shown as fewer bytes, not even where the unit
changes (`format_monotone_accurate`).
-/
namespace SerialConsole.Size

open Text
open Script (exists_digits digitValue?_digitChar digitsValue_concat digits?_eq_some_iff)

/-! ## Reading a size -/

/-- The number that a row of decimal digits shows, with a point in it or without one. -/
def number? (text : List Char) : Option ℚ :=
  match splitAt '.' text with
  | [whole] => (Whole.digits? whole).map fun digits => (digitsValue digits : ℚ)
  | [whole, part] =>
    (Whole.digits? (whole ++ part)).map fun digits => (digitsValue digits : ℚ) / 10 ^ part.length
  | _ => none

/-- The power of 1024 that a unit is. -/
def unitPower? : List Char → Option Nat
  | ['B'] => some 0
  | ['K', 'B'] => some 1
  | ['M', 'B'] => some 2
  | ['G', 'B'] => some 3
  | _ => none

/-- The number of bytes that a number with a unit stands for. -/
def value? (text : List Char) : Option ℚ :=
  match splitAt ' ' text with
  | [number, unit] => do
    let amount ← number? number
    let power ← unitPower? unit
    some (amount * 1024 ^ power)
  | _ => none

/-- The number of bytes that a size is shown as. -/
def shown? (size : Int) : Option ℚ :=
  (format size).toOption.bind fun text => value? text.toList

/-- The largest power up to three of 1024 that a size reaches, zero if it reaches none. -/
def magnitude (size : Int) : Nat :=
  Nat.findGreatest (fun power => 1024 ^ power ≤ size) 3

theorem value?_of_parts {number unit : List Char} {amount : ℚ} {power : Nat}
    (hnumber : number? number = some amount) (hunit : unitPower? unit = some power)
    (hnumberBlank : ' ' ∉ number) (hunitBlank : ' ' ∉ unit) :
    value? (number ++ ' ' :: unit) = some (amount * 1024 ^ power) := by
  rw [value?, splitAt_append unit hnumberBlank, splitAt_of_not_mem hunitBlank]
  simp only [hnumber, hunit]
  rfl

/-! ## Numbers in decimal -/

theorem not_mem_toDigits {c : Char} (hc : c.isDigit = false) (n : Nat) :
    c ∉ Nat.toDigits 10 n := fun hmem => by
  have hdigit := Nat.isDigit_of_mem_toDigits (by decide) (by decide) hmem
  rw [hc] at hdigit
  cases hdigit

theorem number?_toDigits (n : Nat) : number? (Nat.toDigits 10 n) = some (n : ℚ) := by
  obtain ⟨values, ⟨_, hvalues⟩, rfl⟩ := exists_digits n
  rw [number?, splitAt_of_not_mem (not_mem_toDigits (by decide) _)]
  simp only [digits?_eq_some_iff.2 hvalues, Option.map_some]

/-- A number of hundredths, with a point before the last two digits. -/
def pointed (count : Nat) : List Char :=
  Nat.toDigits 10 (count / 100) ++
    '.' :: [Nat.digitChar (count / 10 % 10), Nat.digitChar (count % 10)]

theorem not_mem_two {c : Char} (hc : c.isDigit = false) (count : Nat) :
    c ∉ [Nat.digitChar (count / 10 % 10), Nat.digitChar (count % 10)] := by
  have hne : ∀ d < 10, c ≠ Nat.digitChar d := fun d hd => by
    have hmem := not_mem_toDigits hc d
    rwa [Nat.toDigits_of_lt_base hd, List.mem_singleton] at hmem
  simp only [List.mem_cons, List.not_mem_nil, or_false, not_or]
  exact ⟨hne _ (Nat.mod_lt _ (by decide)), hne _ (Nat.mod_lt _ (by decide))⟩

theorem not_mem_pointed {c : Char} (hc : c.isDigit = false) (hpoint : c ≠ '.') (count : Nat) :
    c ∉ pointed count := by
  intro hmem
  rcases List.mem_append.1 hmem with hwhole | hpart
  · exact not_mem_toDigits hc _ hwhole
  · rcases List.mem_cons.1 hpart with heq | hdigits
    · exact hpoint heq
    · exact not_mem_two hc count hdigits

theorem number?_pointed (count : Nat) : number? (pointed count) = some ((count : ℚ) / 100) := by
  obtain ⟨values, ⟨_, hvalues⟩, hvalue⟩ := exists_digits (count / 100)
  have hdigits : Whole.digits? (Nat.toDigits 10 (count / 100) ++
      [Nat.digitChar (count / 10 % 10), Nat.digitChar (count % 10)]) =
        some (values ++ [count / 10 % 10] ++ [count % 10]) := by
    rw [digits?_eq_some_iff]
    simp [hvalues, digitValue?_digitChar _ (Nat.mod_lt _ (by decide : 0 < 10))]
  have hcount : digitsValue (values ++ [count / 10 % 10] ++ [count % 10]) = count := by
    rw [digitsValue_concat, digitsValue_concat, hvalue]
    omega
  rw [number?, pointed, splitAt_append _ (not_mem_toDigits (by decide) _),
    splitAt_of_not_mem (not_mem_two (by decide) count)]
  simp only [hdigits, hcount, Option.map_some, List.length_cons, List.length_nil]
  norm_num

theorem toList_digit {d : Nat} (h : d < 10) : (toString d).toList = [Nat.digitChar d] := by
  simp [Nat.toDigits_of_lt_base h]

theorem toList_hundredths (num den : Nat) :
    (hundredths false num den).toList = pointed (Double.roundHalfEven (num * 100) den) := by
  generalize hcount : Double.roundHalfEven (num * 100) den = count
  have htenths : count % 100 / 10 = count / 10 % 10 := by omega
  have hlast : count % 100 % 10 = count % 10 := by omega
  have hdigits := toList_digit (Nat.mod_lt (count / 10) (by decide : 0 < 10))
  have hdigit := toList_digit (Nat.mod_lt count (by decide : 0 < 10))
  simp only [hundredths, hcount, htenths, hlast, String.toList_append, hdigits, hdigit, pointed]
  simp

/-! ## Quotients without rounding -/

theorem pow_eq_mul {a b power : Nat} (h : a = b + 10 * power) :
    Nat.pow 2 a = 2 ^ b * 1024 ^ power := by
  have hunit : (1024 : Nat) = 2 ^ 10 := rfl
  rw [h, Nat.pow_eq, hunit, ← Nat.pow_mul, ← Nat.pow_add]

/-- One is so many units that they can be divided by each of the four units of a size. -/
theorem one_eq_mul {power : Nat} (h : power ≤ 3) :
    Double.one = 2 ^ (1074 - 10 * power) * 1024 ^ power := by
  unfold Double.one
  apply pow_eq_mul
  omega

/-- The quotient of a size needs no more bits than the size. -/
theorem quotient_exact {size power : Nat} (hsize : size < 2 ^ 53) (hpower : power ≤ 3)
    (negative : Bool) : Double.ofFraction negative size (Nat.pow 1024 power) =
      .finite negative (size * 2 ^ (1074 - 10 * power)) := by
  have hone := one_eq_mul hpower
  have hfits : Double.Fits (size * 2 ^ (1074 - 10 * power)) := ⟨size, _, rfl, Nat.le_of_lt hsize⟩
  have hlarge : size * 2 ^ (1074 - 10 * power) ≤ 2 ^ 53 * Double.one := by
    rw [hone]
    exact Nat.mul_le_mul (Nat.le_of_lt hsize) (Nat.le_mul_of_pos_right _ (Nat.pow_pos (by decide)))
  have hlimit : size * 2 ^ (1074 - 10 * power) < Double.limit := by
    have hbelow := Double.one_below_limit
    have hpositive := Double.one_large
    simp only [Nat.pow_eq] at hbelow hpositive
    omega
  refine Double.ofFraction_of_fits hfits hlimit (Nat.pow_pos (by decide)) ?_
  rw [hone, Nat.pow_eq, Nat.mul_assoc]

/-! ## Magnitudes -/

theorem exponent_eq_magnitude (size : Int) : exponent size = magnitude size := by
  simp only [exponent, magnitude, Nat.findGreatest]
  split_ifs <;> omega

theorem magnitude_le (size : Int) : magnitude size ≤ 3 := Nat.findGreatest_le 3

theorem pow_magnitude_le {size : Int} (h : magnitude size ≠ 0) : 1024 ^ magnitude size ≤ size :=
  Nat.findGreatest_of_ne_zero rfl h

theorem lt_pow_succ_magnitude {size : Int} (h : magnitude size < 3) :
    size < 1024 ^ (magnitude size + 1) :=
  not_le.1 (Nat.findGreatest_is_greatest (Nat.lt_succ_self (magnitude size)) h)

theorem magnitude_mono {m n : Int} (h : m ≤ n) : magnitude m ≤ magnitude n :=
  Nat.findGreatest_mono (fun _ hm => le_trans hm h) (Nat.le_refl 3)

theorem magnitude_of_lt {size : Int} (h : size < 1024) : magnitude size = 0 := by
  rw [← exponent_eq_magnitude, exponent, if_pos h]

/-! ## What is shown -/

/-- The hundredths of its unit that a size is rounded to. -/
def count (size : Nat) : Nat :=
  Double.roundHalfEven (size * 100) (1024 ^ magnitude size)

theorem unit_spec : ∀ power ≤ 3, unitPower? (units.getD power "").toList = some power ∧
    ' ' ∉ (units.getD power "").toList := by
  decide

theorem format_of_two_le {size : Nat} (hlow : 2 ≤ size) (hhigh : size < 2 ^ 53) :
    format size = .ok (hundredths false (size * 2 ^ (1074 - 10 * magnitude size)) Double.one ++
      " " ++ units.getD (magnitude size) "") := by
  have hnegative : decide ((size : Int) < 0) = false := decide_eq_false (by omega)
  rw [format, if_neg (by omega), if_neg (by omega)]
  simp only [hnegative, Int.natAbs_natCast, exponent_eq_magnitude,
    quotient_exact hhigh (magnitude_le size)]

theorem count_eq (size : Nat) : count size =
    Double.roundHalfEven (size * 2 ^ (1074 - 10 * magnitude size) * 100) Double.one := by
  rw [one_eq_mul (magnitude_le size), Nat.mul_right_comm, Nat.mul_comm (2 ^ _) (1024 ^ _),
    Double.roundHalfEven_mul_right _ _ (Nat.pow_pos (by decide))]
  rfl

theorem shown_of_format {size : Int} {text : String} {number unit : List Char} {amount : ℚ}
    {power : Nat} (hformat : format size = .ok text) (htext : text.toList = number ++ ' ' :: unit)
    (hnumber : number? number = some amount) (hunit : unitPower? unit = some power)
    (hnumberBlank : ' ' ∉ number) (hunitBlank : ' ' ∉ unit) :
    shown? size = some (amount * 1024 ^ power) := by
  rw [shown?, hformat]
  change value? text.toList = _
  rw [htext, value?_of_parts hnumber hunit hnumberBlank hunitBlank]

/-- The first two sizes are shown without a point, and as what they are. -/
theorem format_of_lt_two {size : Nat} (h : size < 2) : ∃ text, format size = .ok text ∧
    text.toList = Nat.toDigits 10 size ++ ' ' :: ['B'] := by
  obtain rfl | rfl : size = 0 ∨ size = 1 := by omega
  · exact ⟨"0 B", rfl, rfl⟩
  · exact ⟨"1 B", rfl, rfl⟩

/-- A size is rounded to hundredths of its unit, and in no other way. -/
theorem shown_eq {size : Nat} (h : size < 2 ^ 53) :
    shown? size = some ((count size : ℚ) / 100 * 1024 ^ magnitude size) := by
  -- the first two sizes have no hundredths in their texts
  rcases Nat.lt_or_ge size 2 with hsmall | hlarge
  · obtain ⟨text, hformat, htext⟩ := format_of_lt_two hsmall
    have hmagnitude : magnitude size = 0 := magnitude_of_lt (by omega)
    have hcount : count size = size * 100 :=
      calc count size
          = Double.roundHalfEven (size * 100 * 1) 1 := by
            rw [count, hmagnitude, Nat.pow_zero, Nat.mul_one (size * 100)]
        _ = size * 100 := Double.roundHalfEven_mul _ Nat.one_pos
    have hamount : (count size : ℚ) / 100 = size := by
      rw [hcount]
      push_cast
      ring
    rw [hamount, hmagnitude]
    exact shown_of_format hformat htext (number?_toDigits size) rfl
      (not_mem_toDigits (by decide) size) (by decide)
  · obtain ⟨hunit, hunitBlank⟩ := unit_spec _ (magnitude_le size)
    refine shown_of_format (format_of_two_le hlarge h) ?_ (number?_pointed (count size)) hunit
      (not_mem_pointed (by decide) (by decide) _) hunitBlank
    rw [String.toList_append, String.toList_append, toList_hundredths, ← count_eq]
    simp

/-! ## How far off it is -/

theorem shown_accurate (size : Nat) :
    |(count size : ℚ) / 100 * 1024 ^ magnitude size - size| ≤ 0.005 * 1024 ^ magnitude size := by
  obtain ⟨hle, hge⟩ :=
    Double.roundHalfEven_bounds (size * 100) (Nat.pow_pos (by decide) : 0 < 1024 ^ magnitude size)
  have habove : 2 * ((count size : ℚ) * 1024 ^ magnitude size) ≤
      2 * (size * 100) + 1024 ^ magnitude size := by exact_mod_cast hle
  have hbelow : 2 * ((size : ℚ) * 100) ≤
      2 * (count size * 1024 ^ magnitude size) + 1024 ^ magnitude size := by exact_mod_cast hge
  rw [abs_le]
  constructor <;> linarith

/-! ## Order -/

/-- The number shown reaches that of the next unit at most. -/
theorem count_le {size : Nat} (h : magnitude size < 3) : count size ≤ 100 * 1024 := by
  have hlt : size < 1024 ^ (magnitude size + 1) := by exact_mod_cast lt_pow_succ_magnitude h
  apply Double.roundHalfEven_le_of_le (Nat.pow_pos (by decide))
  rw [Nat.pow_succ] at hlt
  omega

example : (format 1048575).toOption = some "1024.00 KB" := by decide +kernel

/-- Beyond the first unit the number shown is one at least. -/
theorem le_count {size : Nat} (h : magnitude size ≠ 0) : 100 ≤ count size := by
  have hle : 1024 ^ magnitude size ≤ size := by exact_mod_cast pow_magnitude_le h
  calc 100
      = Double.roundHalfEven (100 * 1024 ^ magnitude size) (1024 ^ magnitude size) :=
        (Double.roundHalfEven_mul 100 (Nat.pow_pos (by decide))).symm
    _ ≤ count size := Double.roundHalfEven_mono _ (by omega)

theorem scaled_mono {m n : Nat} (h : m ≤ n) :
    count m * 1024 ^ magnitude m ≤ count n * 1024 ^ magnitude n := by
  have hmagnitude : magnitude m ≤ magnitude n := magnitude_mono (by exact_mod_cast h)
  rcases Nat.eq_or_lt_of_le hmagnitude with heq | hlt
  · rw [count, count, heq]
    exact Nat.mul_le_mul_right _ (Double.roundHalfEven_mono _ (Nat.mul_le_mul_right 100 h))
  · -- the smaller size is at most one of the next unit, the larger one at least one of its own
    have hsmall : magnitude m < 3 := Nat.lt_of_lt_of_le hlt (magnitude_le n)
    calc count m * 1024 ^ magnitude m
        ≤ 100 * 1024 * 1024 ^ magnitude m := Nat.mul_le_mul_right _ (count_le hsmall)
      _ = 100 * 1024 ^ (magnitude m + 1) := by
          rw [Nat.mul_assoc, Nat.pow_succ, Nat.mul_comm 1024]
      _ ≤ 100 * 1024 ^ magnitude n :=
          Nat.mul_le_mul_left 100 (Nat.pow_le_pow_right (by decide) hlt)
      _ ≤ count n * 1024 ^ magnitude n :=
          Nat.mul_le_mul_right _ (le_count (Nat.ne_of_gt (Nat.zero_lt_of_lt hlt)))

theorem shown_mono {m n : Nat} (h : m ≤ n) :
    (count m : ℚ) / 100 * 1024 ^ magnitude m ≤ (count n : ℚ) / 100 * 1024 ^ magnitude n := by
  have hscaled : (count m : ℚ) * 1024 ^ magnitude m ≤ count n * 1024 ^ magnitude n := by
    exact_mod_cast scaled_mono h
  linarith

/-- Below 2 to the power 53 every size is shown as a number of bytes that is off by half a hundredth
of the unit at most, and a larger size is not shown as fewer bytes. -/
theorem format_monotone_accurate {m n : Int} (hm : 0 ≤ m) (hmn : m ≤ n) (hn : n < 2 ^ 53) :
    ∃ x y, shown? m = some x ∧ shown? n = some y ∧ x ≤ y ∧
      |x - m| ≤ 0.005 * 1024 ^ magnitude m ∧ |y - n| ≤ 0.005 * 1024 ^ magnitude n := by
  obtain ⟨m, rfl⟩ := Int.eq_ofNat_of_zero_le hm
  obtain ⟨n, rfl⟩ := Int.eq_ofNat_of_zero_le (le_trans hm hmn)
  exact ⟨_, _, shown_eq (by omega), shown_eq (by omega), shown_mono (by omega), shown_accurate m,
    shown_accurate n⟩

/-- The unit changes between two neighbouring sizes. -/
theorem format_monotone_accurate_units :
    (0 : Int) ≤ 1048575 ∧ (1048575 : Int) ≤ 1048576 ∧ (1048576 : Int) < 2 ^ 53 ∧
      ∃ x y, shown? 1048575 = some x ∧ shown? 1048576 = some y ∧ x ≤ y ∧
        |x - (1048575 : Int)| ≤ 0.005 * 1024 ^ magnitude 1048575 ∧
        |y - (1048576 : Int)| ≤ 0.005 * 1024 ^ magnitude 1048576 :=
  ⟨by decide, by decide, by decide,
    format_monotone_accurate (by decide) (by decide) (by decide)⟩

end SerialConsole.Size
