import Mathlib.Algebra.Group.Nat.Defs
import Mathlib.Tactic.SplitIfs
import SerialConsole.Numeral.Double

set_option autoImplicit false

/-!
# How far rounding is off

Rounding a quotient of units is off by at most half a unit or by one part in 2 to the power 53. It
keeps the order of what is rounded (`roundHalfEven_mono`) and does not change what fits fifty-three
bits (`roundUnits_of_fits`). What was rounded fits (`fits_roundUnits`), so taking something from it
and rounding again either changes nothing or takes half of it at least (`roundUnits_sub`).
-/
namespace SerialConsole.Double

theorem excessBits_spec (quotient : Nat) :
    excessBits quotient = 0 ∨ 2 ^ (excessBits quotient + 52) ≤ quotient := by
  unfold excessBits
  split
  case isTrue => exact Or.inl rfl
  case isFalse h =>
    have hpos : quotient ≠ 0 := by rintro rfl; exact h (by decide)
    have hlog : 53 ≤ quotient.log2 := (Nat.le_log2 hpos).2 (Nat.le_of_not_lt h)
    refine Or.inr ?_
    rw [Nat.sub_add_cancel (by omega)]
    exact Nat.log2_self_le hpos

theorem roundHalfEven_bounds (num : Nat) {den : Nat} (hden : 0 < den) :
    2 * (roundHalfEven num den * den) ≤ 2 * num + den ∧
      2 * num ≤ 2 * (roundHalfEven num den * den) + den := by
  have hdiv : num / den * den + num % den = num := by
    rw [Nat.mul_comm]
    exact Nat.div_add_mod num den
  have hmod : num % den < den := Nat.mod_lt num hden
  unfold roundHalfEven
  simp only
  split
  · omega
  · split
    · rw [Nat.add_mul]
      omega
    · have htie : 2 * (num % den) = den := by omega
      rcases Nat.mod_two_eq_zero_or_one (num / den) with heven | hodd
      · rw [heven, Nat.add_zero]
        omega
      · rw [hodd, Nat.add_mul]
        omega

/-- The rounded number of units is off by at most half of `slack`, which is a unit or at most one
part in 2 to the power 52. -/
theorem roundUnits_bounds (num : Nat) {den : Nat} (hden : 0 < den) :
    ∃ slack, 2 * (roundUnits num den * den) ≤ 2 * num + slack ∧
      2 * num ≤ 2 * (roundUnits num den * den) + slack ∧
      (slack = den ∨ 2 ^ 52 * slack ≤ num) := by
  have hpow : 0 < Nat.pow 2 (excessBits (num / den)) := Nat.pow_pos (by omega)
  obtain ⟨hle, hge⟩ := roundHalfEven_bounds num (Nat.mul_pos hden hpow)
  have hunits : roundUnits num den * den =
      roundHalfEven num (den * Nat.pow 2 (excessBits (num / den))) *
        (den * Nat.pow 2 (excessBits (num / den))) := by
    rw [roundUnits, Nat.mul_assoc, Nat.mul_comm _ den]
  refine ⟨_, hunits ▸ hle, hunits ▸ hge, ?_⟩
  rcases excessBits_spec (num / den) with hzero | hlarge
  · exact Or.inl (by rw [hzero]; exact Nat.mul_one den)
  · refine Or.inr ?_
    calc 2 ^ 52 * (den * Nat.pow 2 (excessBits (num / den)))
        = 2 ^ (excessBits (num / den) + 52) * den := by
          rw [Nat.pow_add, Nat.mul_comm den, ← Nat.mul_assoc, Nat.mul_comm (2 ^ 52)]
          rfl
      _ ≤ num / den * den := Nat.mul_le_mul_right den hlarge
      _ ≤ num := Nat.div_mul_le_self num den

/-- Rounding to whole units a number that is one already is off by one part in 2 to the power 53. -/
theorem roundUnits_one_le (units : Nat) : 2 ^ 53 * roundUnits units 1 ≤ (2 ^ 53 + 1) * units := by
  by_cases hsmall : units < Nat.pow 2 53
  · have hexact : roundUnits units 1 = units := by
      simp [roundUnits, excessBits, hsmall, roundHalfEven, Nat.mod_one]
    rw [hexact]
    omega
  · have hlarge : 2 ^ 53 ≤ units := Nat.le_of_not_lt hsmall
    obtain ⟨slack, hle, _, hslack⟩ := roundUnits_bounds units Nat.one_pos
    omega

theorem pow_le_pow {a b : Nat} (h : a ≤ b) : Nat.pow 2 a ≤ Nat.pow 2 b :=
  Nat.pow_le_pow_right (by decide) h

theorem pow_mul_pow_le {a b c : Nat} (h : a + b ≤ c) :
    Nat.pow 2 a * Nat.pow 2 b ≤ Nat.pow 2 c := by
  have hsum : Nat.pow 2 (a + b) = Nat.pow 2 a * Nat.pow 2 b := Nat.pow_add 2 a b
  rw [← hsum]
  exact pow_le_pow h

theorem one_large : Nat.pow 2 60 ≤ one := by
  unfold one
  apply pow_le_pow
  decide

theorem one_below_limit : Nat.pow 2 60 * one ≤ limit := by
  unfold one limit
  apply pow_mul_pow_le
  decide

/-- A fraction below 2 to the power 50 is a finite double. It is off by at most a unit and one part
in 2 to the power 52. -/
theorem ofFraction_bounds {num den : Nat} (hden : 0 < den) (hnum : num ≤ 2 ^ 50 * den) :
    ∃ units, ofFraction false num den = .finite false units ∧
      2 ^ 52 * (units * den) ≤ (2 ^ 52 + 1) * (num * one) + 2 ^ 52 * den ∧
      2 ^ 52 * (num * one) ≤ 2 ^ 52 * (units * den) + num * one + 2 ^ 52 * den := by
  obtain ⟨slack, hle, hge, hslack⟩ := roundUnits_bounds (num * one) hden
  have hlarge := one_large
  have hlimit := one_below_limit
  have hfinite : roundUnits (num * one) den < limit := by
    have hscaled : num * one ≤ 2 ^ 50 * one * den := by
      rw [Nat.mul_right_comm]
      exact Nat.mul_le_mul_right one hnum
    have htwice : 2 * roundUnits (num * one) den * den ≤ (3 * (2 ^ 50 * one) + 1) * den := by
      rw [Nat.add_mul, Nat.mul_assoc 3, Nat.mul_assoc 2]
      omega
    have hunits := Nat.le_of_mul_le_mul_right htwice hden
    simp only [Nat.pow_eq] at hlarge hlimit
    omega
  refine ⟨roundUnits (num * one) den, ?_, by omega, by omega⟩
  rw [ofFraction, ofUnits]
  simp only [hfinite, if_true]

/-! ## The order of what is rounded -/

/-- A quotient is rounded down or up. -/
theorem roundHalfEven_eq (num den : Nat) :
    roundHalfEven num den = num / den ∨ roundHalfEven num den = num / den + 1 := by
  unfold roundHalfEven
  simp only
  split
  · exact Or.inl rfl
  · split
    · exact Or.inr rfl
    · omega

theorem roundHalfEven_le (num den : Nat) : roundHalfEven num den ≤ num / den + 1 := by
  rcases roundHalfEven_eq num den with h | h <;> omega

theorem le_roundHalfEven (num den : Nat) : num / den ≤ roundHalfEven num den := by
  rcases roundHalfEven_eq num den with h | h <;> omega

/-- A multiple of the divisor needs no rounding. -/
theorem roundHalfEven_mul (k : Nat) {den : Nat} (hden : 0 < den) :
    roundHalfEven (k * den) den = k := by
  rw [roundHalfEven, Nat.mul_div_cancel k hden, Nat.mul_mod_left, Nat.mul_zero]
  simp only [hden, if_true]

/-- A common factor does not matter to rounding. -/
theorem roundHalfEven_mul_right (num den : Nat) {factor : Nat} (hfactor : 0 < factor) :
    roundHalfEven (num * factor) (den * factor) = roundHalfEven num den := by
  simp only [roundHalfEven, Nat.mul_div_mul_right num den hfactor, Nat.mul_mod_mul_right,
    ← Nat.mul_assoc, Nat.mul_lt_mul_right hfactor]

/-- Rounding keeps the order of what is rounded. -/
theorem roundHalfEven_mono {a b : Nat} (den : Nat) (h : a ≤ b) :
    roundHalfEven a den ≤ roundHalfEven b den := by
  rcases Nat.lt_or_eq_of_le (Nat.div_le_div_right h : a / den ≤ b / den) with hlt | heq
  · calc roundHalfEven a den
        ≤ a / den + 1 := roundHalfEven_le a den
      _ ≤ b / den := hlt
      _ ≤ roundHalfEven b den := le_roundHalfEven b den
  · -- the whole parts agree, so what is left over decides
    have hmod : a % den ≤ b % den := by
      have ha := Nat.div_add_mod a den
      have hb := Nat.div_add_mod b den
      rw [heq] at ha
      omega
    unfold roundHalfEven
    simp only [heq]
    split_ifs <;> omega

theorem roundHalfEven_le_of_le {num den bound : Nat} (hden : 0 < den) (h : num ≤ bound * den) :
    roundHalfEven num den ≤ bound :=
  calc roundHalfEven num den
      ≤ roundHalfEven (bound * den) den := roundHalfEven_mono den h
    _ = bound := roundHalfEven_mul bound hden

/-! ## Numbers that need no rounding -/

/-- A number of units that is at most fifty-three bits, moved to the left. -/
def Fits (units : Nat) : Prop :=
  ∃ bits shift, units = bits * Nat.pow 2 shift ∧ bits ≤ Nat.pow 2 53

theorem lt_excessBits (quotient : Nat) : quotient < 2 ^ (excessBits quotient + 53) := by
  unfold excessBits
  split
  case isTrue h =>
    rw [Nat.zero_add]
    exact h
  case isFalse h =>
    have hpos : quotient ≠ 0 := by
      rintro rfl
      exact h (by decide)
    have hlog : 53 ≤ quotient.log2 := (Nat.le_log2 hpos).2 (Nat.le_of_not_lt h)
    rw [show quotient.log2 - 52 + 53 = quotient.log2 + 1 by omega]
    exact Nat.lt_log2_self

/-- What was rounded fits. -/
theorem fits_roundUnits (num den : Nat) : Fits (roundUnits num den) := by
  refine ⟨_, excessBits (num / den), rfl, ?_⟩
  have hle := roundHalfEven_le num (den * Nat.pow 2 (excessBits (num / den)))
  have hlt : num / (den * Nat.pow 2 (excessBits (num / den))) < 2 ^ 53 := by
    rw [← Nat.div_div_eq_div_mul]
    apply Nat.div_lt_of_lt_mul
    have hquotient := lt_excessBits (num / den)
    rwa [Nat.pow_add] at hquotient
  exact Nat.le_trans hle hlt

/-- A number that fits is a multiple of any power of two that is small beside it. -/
theorem Fits.dvd {units shift : Nat} (h : Fits units)
    (hlarge : 2 ^ (shift + 52) < units) : 2 ^ shift ∣ units := by
  obtain ⟨bits, e, rfl, hbits⟩ := h
  by_cases he : shift ≤ e
  · exact Nat.dvd_trans (Nat.pow_dvd_pow 2 he) (Nat.dvd_mul_left _ bits)
  · have hsmall : bits * Nat.pow 2 e ≤ 2 ^ (53 + e) := by
      rw [Nat.pow_add]
      exact Nat.mul_le_mul_right _ hbits
    have hpow : 2 ^ (53 + e) ≤ 2 ^ (shift + 52) := Nat.pow_le_pow_right (by decide) (by omega)
    omega

/-- A number that fits is on the grid that a number below it is rounded to. -/
theorem Fits.grid_dvd {units bound : Nat} (h : Fits bound) (hle : units ≤ bound) :
    2 ^ excessBits units ∣ bound := by
  rcases excessBits_spec units with hzero | hlarge
  · rw [hzero]
    exact Nat.one_dvd bound
  · rcases Nat.eq_or_lt_of_le (Nat.le_trans hlarge hle) with heq | hlt
    · rw [← heq]
      exact Nat.pow_dvd_pow 2 (Nat.le_add_right _ 52)
    · exact h.dvd hlt

/-- Rounding does not pass a number that fits. -/
theorem roundUnits_le {units bound : Nat} (h : Fits bound) (hle : units ≤ bound) :
    roundUnits units 1 ≤ bound := by
  obtain ⟨k, rfl⟩ := h.grid_dvd hle
  have hround : roundHalfEven units (2 ^ excessBits units) ≤ k :=
    roundHalfEven_le_of_le (Nat.pow_pos (by decide)) (Nat.mul_comm k _ ▸ hle)
  rw [roundUnits, Nat.div_one, Nat.one_mul, Nat.mul_comm]
  exact Nat.mul_le_mul_left _ hround

/-- A quotient that fits is not changed by rounding. -/
theorem roundUnits_of_fits {units den : Nat} (h : Fits units) (hden : 0 < den) :
    roundUnits (units * den) den = units := by
  obtain ⟨k, hk⟩ := h.grid_dvd (Nat.le_refl units)
  have hgrid : 0 < den * 2 ^ excessBits units := Nat.mul_pos hden (Nat.pow_pos (by decide))
  have hnum : units * den = k * (den * 2 ^ excessBits units) :=
    calc units * den
        = 2 ^ excessBits units * k * den := by rw [← hk]
      _ = k * (den * 2 ^ excessBits units) := by
          rw [Nat.mul_comm _ k, Nat.mul_assoc, Nat.mul_comm _ den]
  rw [roundUnits, Nat.mul_div_cancel units hden, hnum, Nat.pow_eq, roundHalfEven_mul k hgrid,
    Nat.mul_comm, ← hk]

/-- A fraction whose number of units fits is a double. -/
theorem ofFraction_of_fits {negative : Bool} {num den units : Nat} (h : Fits units)
    (hlimit : units < limit) (hden : 0 < den) (hunits : num * one = units * den) :
    ofFraction negative num den = .finite negative units := by
  rw [ofFraction, ofUnits, hunits, roundUnits_of_fits h hden]
  simp only [hlimit, if_true]

/-- What is left when something is taken from a number that fits is rounded back to that number, or
at least half of what was taken is gone. -/
theorem roundUnits_sub {units taken : Nat} (h : Fits units) (hpos : 0 < taken)
    (hlt : taken < units) :
    roundUnits (units - taken) 1 = units ∨
      2 * roundUnits (units - taken) 1 + taken ≤ 2 * units := by
  obtain ⟨grid, hgrid⟩ : ∃ grid, grid = Nat.pow 2 (excessBits (units - taken)) := ⟨_, rfl⟩
  have hgridpos : 0 < grid := by
    rw [hgrid]
    exact Nat.pow_pos (by decide)
  have hround : roundUnits (units - taken) 1 = roundHalfEven (units - taken) grid * grid := by
    rw [roundUnits, Nat.div_one, Nat.one_mul, hgrid]
  obtain ⟨hle, -⟩ := roundHalfEven_bounds (units - taken) hgridpos
  rw [hround]
  by_cases hfine : grid ≤ taken
  · exact Or.inr (by omega)
  -- the grid is coarser than what is taken, and the number that fits is on it
  have hlarge : 2 ^ (excessBits (units - taken) + 52) ≤ units - taken := by
    rcases excessBits_spec (units - taken) with hzero | hlarge
    · rw [hzero] at hgrid
      have hone : Nat.pow 2 0 = 1 := rfl
      omega
    · exact hlarge
  obtain ⟨j, hj⟩ := h.dvd (Nat.lt_of_le_of_lt hlarge (Nat.sub_lt (by omega) hpos))
  have hunits : units = j * grid := by
    rw [hgrid, Nat.mul_comm]
    exact hj
  generalize roundHalfEven (units - taken) grid = k at hle
  rcases Nat.lt_or_ge k j with hkj | hjk
  · have hbelow : (k + 1) * grid ≤ j * grid := Nat.mul_le_mul_right grid hkj
    rw [Nat.add_mul] at hbelow
    exact Or.inr (by omega)
  · rcases Nat.eq_or_lt_of_le hjk with rfl | habove
    · exact Or.inl hunits.symm
    · have hover : (j + 1) * grid ≤ k * grid := Nat.mul_le_mul_right grid habove
      rw [Nat.add_mul] at hover
      omega

end SerialConsole.Double
