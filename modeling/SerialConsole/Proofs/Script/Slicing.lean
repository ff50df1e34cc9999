import SerialConsole.Proofs.Numeral.Rounding
import SerialConsole.Script.Execution

set_option autoImplicit false

/-!
# The slices of a delay

A delay is slept in slices, and what remains is a rounded difference. Every slice of a script's
delay takes at least a twenty-fifth of a second off, so a delay of `ms` milliseconds has at most
`(ms + 40) / 40` slices. A delay of any length is slept in slices for ever, or each slice takes off
half of its length at least (`Sliced.le_of_seconds`).
-/
namespace SerialConsole.Script

open Double

/-- After `n` slices, and no fewer, nothing remains of a delay. -/
inductive Sliced : Nat → Double → Prop where
  | spent {remaining : Double} : remaining.isPositive = false → Sliced 0 remaining
  | slice {n : Nat} {remaining : Double} : remaining.isPositive = true →
      Sliced n (remaining.sub (Double.min remaining sliceSeconds)) → Sliced (n + 1) remaining

theorem isPositive_finite (units : Nat) :
    (Double.finite false units).isPositive = decide (0 < units) := by
  simp [isPositive, Double.lt, Double.zero]

theorem min_finite (m n : Nat) :
    Double.min (.finite false m) (.finite false n) = .finite false (Nat.min m n) := by
  by_cases h : n < m
  · have hmin : Nat.min m n = n := Nat.min_eq_right (Nat.le_of_lt h)
    simp [Double.min, Double.lt, h, hmin]
  · have hmin : Nat.min m n = m := Nat.min_eq_left (Nat.le_of_not_lt h)
    simp [Double.min, Double.lt, h, hmin]

theorem sub_finite_self (m : Nat) :
    (Double.finite false m).sub (.finite false m) = .finite false 0 := by
  simp [Double.sub, Double.neg, Double.add]

theorem sub_finite_lt {m n : Nat} (h : n < m) :
    (Double.finite false m).sub (.finite false n) = ofUnits false (m - n) 1 := by
  simp [Double.sub, Double.neg, Double.add, h]

/-- The longest slice is a finite double, close to a twentieth of a second. -/
theorem sliceSeconds_bounds :
    ∃ units, sliceSeconds = .finite false units ∧ 49 * one ≤ 1000 * units := by
  obtain ⟨units, hslice, _, hge⟩ := @ofFraction_bounds 5 100 (by decide) (by decide)
  refine ⟨units, hslice, ?_⟩
  have hlarge := one_large
  simp only [Nat.pow_eq] at hlarge
  omega

theorem seconds_bounds {ms : Int} (hlow : 0 ≤ ms) (hhigh : ms ≤ 60000) :
    ∃ units, seconds ms = .finite false units ∧
      1000 * units ≤ (ms.toNat + 1) * one ∧ units ≤ 61 * one := by
  obtain ⟨n, rfl⟩ := Int.eq_ofNat_of_zero_le hlow
  obtain ⟨units, hseconds, hle, _⟩ := @ofFraction_bounds n 1000 (by decide) (by omega)
  have hlarge := one_large
  simp only [Nat.pow_eq] at hlarge
  have hone : n * one ≤ 60000 * one := Nat.mul_le_mul_right one (by omega)
  refine ⟨units, ?_, ?_, ?_⟩
  · rw [seconds, decide_eq_false (by omega : ¬ (n : Int) < 0)]
    exact hseconds
  · rw [Int.toNat_natCast, Nat.add_mul]
    omega
  · omega

theorem isFinite_seconds {ms : Int} (hlow : 0 ≤ ms) (hhigh : ms ≤ 60000) :
    (seconds ms).isFinite = true := by
  obtain ⟨units, hseconds, _⟩ := seconds_bounds hlow hhigh
  rw [hseconds]
  rfl

theorem slice_bounds {m s : Nat} (hslice : 49 * one ≤ 1000 * s) (hlt : s < m)
    (hm : m ≤ 61 * one) :
    ∃ next, ofUnits false (m - s) 1 = .finite false next ∧ 25 * next + one ≤ 25 * m := by
  have hround := roundUnits_one_le (m - s)
  have hlarge := one_large
  have hlimit := one_below_limit
  simp only [Nat.pow_eq] at hlarge hlimit
  have hfinite : roundUnits (m - s) 1 < limit := by omega
  refine ⟨roundUnits (m - s) 1, ?_, by omega⟩
  rw [ofUnits]
  simp only [hfinite, if_true]

/-- Each slice takes a twenty-fifth of a second at least. -/
theorem sliced_of_le {n m : Nat} (hn : 25 * m ≤ n * one) (hm : m ≤ 61 * one) :
    ∃ k, k ≤ n ∧ Sliced k (.finite false m) := by
  induction n generalizing m with
  | zero =>
    have hzero : m = 0 := by omega
    refine ⟨0, Nat.le_refl 0, Sliced.spent ?_⟩
    rw [isPositive_finite, hzero]
    rfl
  | succ n ih =>
    by_cases hpos : 0 < m
    · have hpositive : (Double.finite false m).isPositive = true := by
        rw [isPositive_finite]
        exact decide_eq_true hpos
      obtain ⟨s, hs, hslice⟩ := sliceSeconds_bounds
      by_cases hlt : s < m
      · obtain ⟨next, hnext, hless⟩ := slice_bounds hslice hlt hm
        rw [Nat.add_mul] at hn
        obtain ⟨k, hk, hsliced⟩ := ih (m := next) (by omega) (by omega)
        refine ⟨k + 1, by omega, Sliced.slice hpositive ?_⟩
        have hmin : Nat.min m s = s := Nat.min_eq_right (Nat.le_of_lt hlt)
        rw [hs, min_finite, hmin, sub_finite_lt hlt, hnext]
        exact hsliced
      · refine ⟨1, by omega, Sliced.slice hpositive ?_⟩
        have hmin : Nat.min m s = m := Nat.min_eq_left (Nat.le_of_not_lt hlt)
        rw [hs, min_finite, hmin, sub_finite_self]
        exact Sliced.spent rfl
    · refine ⟨0, Nat.zero_le _, Sliced.spent ?_⟩
      rw [isPositive_finite]
      exact decide_eq_false hpos

/-- A delay in range has a number of slices, at most one for each 40 milliseconds begun. -/
theorem sliced_seconds {ms : Int} (hlow : 0 ≤ ms) (hhigh : ms ≤ 60000) :
    ∃ n, n ≤ (ms.toNat + 40) / 40 ∧ Sliced n (seconds ms) := by
  obtain ⟨units, hseconds, hunits, hle⟩ := seconds_bounds hlow hhigh
  have hslices : ms.toNat + 1 ≤ 40 * ((ms.toNat + 40) / 40) := by omega
  have hscaled : (ms.toNat + 1) * one ≤ 40 * ((ms.toNat + 40) / 40) * one :=
    Nat.mul_le_mul_right one hslices
  rw [Nat.mul_assoc] at hscaled
  rw [hseconds]
  exact sliced_of_le (by omega) hle

/-! ## Delays of any length -/

theorem Sliced.unique {n m : Nat} {remaining : Double} (h : Sliced n remaining)
    (h' : Sliced m remaining) : n = m := by
  induction h generalizing m with
  | spent hspent =>
    cases h' with
    | spent _ => rfl
    | slice hpositive _ =>
      rw [hspent] at hpositive
      cases hpositive
  | slice hpositive _ ih =>
    cases h' with
    | spent hspent =>
      rw [hpositive] at hspent
      cases hspent
    | slice _ hrest => rw [ih hrest]

/-- An infinite delay is never over. -/
theorem not_sliced_infinite (n : Nat) : ¬ Sliced n (.infinite false) := by
  intro h
  generalize hremaining : Double.infinite false = remaining at h
  induction h with
  | spent hspent =>
    subst hremaining
    cases hspent
  | @slice n remaining _ _ ih =>
    subst hremaining
    obtain ⟨units, hslice, _⟩ := sliceSeconds_bounds
    refine ih ?_
    rw [hslice]
    rfl

/-- If the slices of a delay come to an end, each of them takes at least half of its length off. -/
theorem Sliced.length_le {n units slice : Nat} (h : Sliced n (.finite false units))
    (hslice : sliceSeconds = .finite false slice) (hpos : 0 < slice) (hfits : Fits units) :
    n * slice ≤ 2 * units + slice := by
  induction n generalizing units with
  | zero => omega
  | succ n ih =>
    have hwhole := h
    cases h with
    | slice hpositive hrest =>
      rw [hslice, min_finite] at hrest
      by_cases hlt : slice < units
      · have hmin : Nat.min units slice = slice := Nat.min_eq_right (Nat.le_of_lt hlt)
        rw [hmin, sub_finite_lt hlt, ofUnits] at hrest
        split at hrest
        · have hbound := ih hrest (fits_roundUnits _ _)
          rcases roundUnits_sub hfits hpos hlt with hsame | hless
          · rw [hsame] at hrest
            have hcount := hrest.unique hwhole
            omega
          · rw [Nat.succ_mul]
            omega
        · exact absurd hrest (not_sliced_infinite n)
      · have hmin : Nat.min units slice = units := Nat.min_eq_left (Nat.le_of_not_lt hlt)
        rw [hmin, sub_finite_self] at hrest
        have hnone := hrest.unique (.spent rfl)
        subst hnone
        omega

theorem not_isPositive_negative (num den : Nat) : (ofUnits true num den).isPositive = false := by
  rw [ofUnits]
  split
  · simp only [isPositive, Double.lt, Double.zero, decide_eq_false_iff_not]
    simp only [Bool.false_eq_true, if_false, if_true]
    omega
  · rfl

/-- A delay whose slices come to an end has at most one for each 20 milliseconds, and two. -/
theorem Sliced.le_of_seconds {n : Nat} {ms : Int} (h : Sliced n (seconds ms)) :
    n ≤ ms.toNat / 20 + 2 := by
  by_cases hnegative : ms < 0
  · have hspent : (seconds ms).isPositive = false := by
      rw [seconds, decide_eq_true hnegative]
      exact not_isPositive_negative _ _
    have hnone := h.unique (.spent hspent)
    omega
  · obtain ⟨k, rfl⟩ := Int.eq_ofNat_of_zero_le (Int.not_lt.1 hnegative)
    have hseconds : seconds (k : Int) = ofUnits false (k * one) 1000 := by
      rw [seconds, decide_eq_false (by omega : ¬ (k : Int) < 0)]
      rfl
    obtain ⟨slice, hslice, hlength⟩ := sliceSeconds_bounds
    obtain ⟨slack, hle, -, hslack⟩ := @roundUnits_bounds (k * one) 1000 (by decide)
    have hlarge := one_large
    simp only [Nat.pow_eq] at hlarge
    rw [hseconds, ofUnits] at h
    split at h
    · have hbound := h.length_le hslice (by omega) (fits_roundUnits _ _)
      generalize roundUnits (k * one) 1000 = units at hle hbound
      cases n with
      | zero => omega
      | succ j =>
        rw [Nat.succ_mul] at hbound
        have hslices : j * (49 * one) ≤ j * (1000 * slice) := Nat.mul_le_mul_left j hlength
        rw [Nat.mul_left_comm j 1000] at hslices
        have hscaled : 784 * j * one ≤ (33 * k + 16) * one := by
          rw [Nat.add_mul, Nat.mul_assoc 33, Nat.mul_assoc 784]
          rw [Nat.mul_left_comm j 49] at hslices
          omega
        have hcount := Nat.le_of_mul_le_mul_right hscaled (by omega)
        rw [Int.toNat_natCast]
        omega
    · exact absurd h (not_sliced_infinite n)

end SerialConsole.Script
