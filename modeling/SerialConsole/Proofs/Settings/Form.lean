import SerialConsole.Proofs.Numeral.Rounding
import SerialConsole.Settings.Document

set_option autoImplicit false

/-!
# The form of a settings document

What a document says that passes the checks. Each check has one lemma for what it lets through; a
document with the right form then gives settings field by field.
-/
namespace SerialConsole

namespace Double

theorem one_pos : 0 < one := by
  have hlarge := one_large
  have hpow : 0 < Nat.pow 2 60 := by decide
  omega

/-- A double that is a whole number of ones is that number. -/
theorem toInt?_of_units {x : Double} {n : Int} (h : x.signedUnits? = some (n * one)) :
    x.toInt? = some n := by
  have hpos := one_pos
  unfold toInt?
  unfold signedUnits? at h
  generalize one = u at h hpos
  have hu : (u : Int) ≠ 0 := by omega
  cases x with
  | nan => simp at h
  | infinite negative => simp at h
  | finite negative units =>
    cases negative with
    | false =>
      have hunits : (units : Int) = n * u := by simpa using h
      simp [hunits, Int.mul_ediv_cancel n hu]
    | true =>
      have hunits : (units : Int) = -n * u := by
        have hneg : -(units : Int) = n * u := by simpa using h
        rw [Int.neg_mul, ← hneg, Int.neg_neg]
      have hdiv : ((units / u : Nat) : Int) = -n := by
        rw [Int.natCast_ediv, hunits, Int.mul_ediv_cancel (-n) hu]
      simp only [hdiv, if_true, Int.neg_neg]

/-- A whole double is the number that its units make. -/
theorem units_of_isWhole {x : Double} (h : x.isWhole = true) :
    ∃ n : Int, x.signedUnits? = some (n * one) := by
  unfold isWhole at h
  unfold signedUnits?
  generalize one = u at h
  cases x with
  | nan => simp at h
  | infinite negative => simp at h
  | finite negative units =>
    obtain ⟨k, rfl⟩ : u ∣ units := Nat.dvd_of_mod_eq_zero (by simpa using h)
    cases negative with
    | false => exact ⟨k, by simp [Int.mul_comm]⟩
    | true =>
      refine ⟨-k, ?_⟩
      simp only [if_true, Int.natCast_mul, Int.neg_mul, Int.mul_comm (u : Int)]

end Double

namespace Settings

open Yaml Check

variable {objects : Objects} {value : Value} {key : String} {check : Check}

/-! ## Checks -/

theorem all_eq_none {checks : List Check} :
    all checks objects value = none ↔ ∀ check ∈ checks, check objects value = none :=
  List.findSome?_eq_none_iff

theorem property_eq_none (h : property key check objects value = none) {inner : Value}
    (hinner : valueAt? objects value key = some inner) : check objects inner = none := by
  simpa [property, hinner] using h

theorem requires_eq_none (h : requires key objects value = none) :
    ∃ inner, valueAt? objects value key = some inner := by
  unfold requires at h
  split at h
  · exact Option.isSome_iff_exists.1 ‹_›
  · cases h

theorem firstIn_eq_none {index : Nat} {items : List Value}
    (h : firstIn check objects index items = none) {item : Value} (hitem : item ∈ items) :
    check objects item = none := by
  induction items generalizing index with
  | nil => cases hitem
  | cons first rest ih =>
    unfold firstIn at h
    split at h
    · cases h
    · rcases List.mem_cons.1 hitem with rfl | hrest
      · assumption
      · exact ih h hrest

theorem ofShape_string (h : ofShape .string objects value = none) : ∃ s, value = .text s := by
  unfold ofShape Shape.holds wrong at h
  cases value with
  | text s => exact ⟨s, rfl⟩
  | _ => simp at h

theorem someText_eq_none (h : someText objects value = none) : ∃ s, value = .text s ∧ s ≠ "" := by
  rw [someText, all_eq_none] at h
  obtain ⟨s, rfl⟩ := ofShape_string (h _ (by simp))
  have hsome : nonEmpty objects (.text s) = none := h _ (by simp)
  refine ⟨s, rfl, ?_⟩
  rintro rfl
  simp [nonEmpty, wrong] at hsome

theorem oneOf_eq_none {choices : List Value} (h : oneOf choices objects value = none) :
    ∃ choice ∈ choices, isSame choice value = true := by
  unfold oneOf wrong at h
  split at h
  case isTrue hany => exact List.any_eq_true.1 hany
  case isFalse => cases h

theorem text_of_isSame {word : String} (h : isSame (.text word) value = true) :
    value = .text word := by
  cases value with
  | text s =>
    have hword : word = s := by simpa [isSame, Value.isSameKey, Value.units?] using h
    rw [hword]
  | float x => cases hunits : x.signedUnits? <;> simp [isSame, Value.isSameKey, Value.units?, hunits] at h
  | _ => cases h

theorem oneWord_eq_none {choices : List String} (h : oneWord choices objects value = none) :
    ∃ word ∈ choices, value = .text word := by
  obtain ⟨choice, hchoice, hsame⟩ := oneOf_eq_none h
  obtain ⟨word, hword, rfl⟩ := List.mem_map.1 hchoice
  exact ⟨word, hword, text_of_isSame hsame⟩

/-- A number that is written with a point counts as the whole number that it equals. -/
theorem wholeOf_of_isSame {n : Int} (h : isSame (.int n) value = true) : wholeOf? value = some n := by
  have hpos := Double.one_pos
  cases value with
  | int m =>
    have hunits : n * (Double.one : Int) = m * Double.one := by
      simpa only [isSame, Value.isSameKey, Value.units?, beq_iff_eq] using h
    rw [wholeOf?, Int.eq_of_mul_eq_mul_right (by omega) hunits]
  | float x =>
    have hunits : x.signedUnits? = some (n * Double.one) := by
      cases hx : x.signedUnits? with
      | none => simp only [isSame, Value.isSameKey, Value.units?, hx, Bool.false_eq_true] at h
      | some m =>
        have hm : n * (Double.one : Int) = m := by
          simpa only [isSame, Value.isSameKey, Value.units?, hx, beq_iff_eq] using h
        rw [hm]
    exact Double.toInt?_of_units hunits
  | truth b => cases h
  | _ => cases h

theorem oneNumber_eq_none {choices : List Int} (h : oneNumber choices objects value = none) :
    ∃ n ∈ choices, wholeOf? value = some n := by
  obtain ⟨choice, hchoice, hsame⟩ := oneOf_eq_none h
  obtain ⟨n, hn, rfl⟩ := List.mem_map.1 hchoice
  exact ⟨n, hn, wholeOf_of_isSame hsame⟩

/-- A whole number is a multiple of one, whichever way it is written. -/
theorem units_of_integer (h : ofShape .integer objects value = none) :
    ∃ n : Int, wholeOf? value = some n ∧ value.units? = some (n * Double.one) := by
  unfold ofShape Shape.holds wrong at h
  cases value with
  | int n => exact ⟨n, rfl, rfl⟩
  | float x =>
    have hwhole : x.isWhole = true := by simpa using h
    obtain ⟨n, hn⟩ := Double.units_of_isWhole hwhole
    exact ⟨n, Double.toInt?_of_units hn, hn⟩
  | _ => simp at h

theorem positive_eq_none {n : Int} (h : positive objects value = none)
    (hunits : value.units? = some (n * Double.one)) : 0 < n := by
  have hpos : 0 < (Double.one : Int) := by exact_mod_cast Double.one_pos
  unfold positive wrong at h
  rw [hunits] at h
  have hleast : ¬ n * (Double.one : Int) < Double.one := fun hless => by
    simp only [hless, if_true, reduceCtorEq] at h
  rcases Int.lt_or_le 0 n with hn | hn
  · exact hn
  · have hnot : n * (Double.one : Int) ≤ 0 :=
      Int.mul_nonpos_of_nonpos_of_nonneg hn (Int.le_of_lt hpos)
    omega

/-! ## Parts of a document -/

variable {document : Document}

/-- The text that a value holds is one of the choices, or there is none. -/
theorem word_of_property {choices : List String} (usual : String) (husual : usual ∈ choices)
    (h : property key (oneWord choices) document.objects value = none) :
    ((part? document value key).bind textOf?).getD usual ∈ choices := by
  cases hpart : part? document value key with
  | none => simpa using husual
  | some inner =>
    obtain ⟨word, hword, rfl⟩ := oneWord_eq_none (property_eq_none h hpart)
    simpa [textOf?] using hword

theorem number_of_property {choices : List Int} (usual : Int) (husual : usual ∈ choices)
    (h : property key (oneNumber choices) document.objects value = none) :
    ((part? document value key).bind wholeOf?).getD usual ∈ choices := by
  cases hpart : part? document value key with
  | none => simpa using husual
  | some inner =>
    obtain ⟨n, hn, hwhole⟩ := oneNumber_eq_none (property_eq_none h hpart)
    simpa [hwhole] using hn

theorem positive_of_property (usual : Int) (husual : 0 < usual)
    (h : property key (all [ofShape .integer, positive]) document.objects value = none) :
    0 < ((part? document value key).bind wholeOf?).getD usual := by
  cases hpart : part? document value key with
  | none => simpa using husual
  | some inner =>
    have hinner := all_eq_none.1 (property_eq_none h hpart)
    obtain ⟨n, hwhole, hunits⟩ := units_of_integer (hinner _ (by simp))
    have hn : 0 < n := positive_eq_none (hinner positive (by simp)) hunits
    simpa [hwhole] using hn

/-- A part that has to be there and to be some text. -/
theorem text_of_property (hthere : requires key document.objects value = none)
    (h : property key someText document.objects value = none) :
    ∃ s, s ≠ "" ∧ (part? document value key).bind textOf? = some s := by
  obtain ⟨inner, hinner⟩ := requires_eq_none hthere
  obtain ⟨s, rfl, hs⟩ := someText_eq_none (property_eq_none h hinner)
  exact ⟨s, hs, by simp [part?, hinner, textOf?]⟩

end Settings

end SerialConsole
