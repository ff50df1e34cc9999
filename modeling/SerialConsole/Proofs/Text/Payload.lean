import SerialConsole.Payload

set_option autoImplicit false

/-!
# Payloads

What can be encoded, and that something comes of it. Validation of hexadecimal text looks at what is
left without the blanks and reading looks at the digits alone; of a valid text these are the same.
-/
namespace SerialConsole

namespace Hex

theorem digit_range {c : Char} (h : isDigit c = true) :
    48 ≤ c.toNat ∧ c.toNat ≤ 57 ∨ 65 ≤ c.toNat ∧ c.toNat ≤ 70 ∨ 97 ≤ c.toNat ∧ c.toNat ≤ 102 := by
  simp only [isDigit, digitValue?, Bool.and_eq_true, decide_eq_true_eq] at h
  split at h
  · exact Or.inl ‹_›
  · split at h
    · exact Or.inr (Or.inl ‹_›)
    · split at h
      · exact Or.inr (Or.inr ‹_›)
      · cases h

theorem not_blank_of_digit {c : Char} (h : isDigit c = true) : Text.isBlank c = false := by
  have hrange := digit_range h
  simp only [Text.isBlank, Bool.or_eq_false_iff, Bool.and_eq_false_iff, decide_eq_false_iff_not,
    beq_eq_false_iff_ne]
  omega

/-- The digits of a text that has nothing else but blanks. -/
theorem length_digits {text : List Char}
    (h : (text.filter fun c => !Text.isBlank c).all isDigit = true) :
    (digits text).length = (text.filter fun c => !Text.isBlank c).length := by
  induction text with
  | nil => rfl
  | cons c rest ih =>
    cases hblank : Text.isBlank c with
    | true =>
      have hnone : digitValue? c = none := by
        cases hvalue : digitValue? c with
        | none => rfl
        | some n =>
          have hdigit : isDigit c = true := by rw [isDigit, hvalue, Option.isSome_some]
          rw [not_blank_of_digit hdigit] at hblank
          cases hblank
      rw [List.filter_cons_of_neg (by simp [hblank])] at h ⊢
      rw [digits, List.filterMap_cons_none hnone]
      exact ih h
    | false =>
      rw [List.filter_cons_of_pos (by simp [hblank])] at h ⊢
      rw [List.all_cons, Bool.and_eq_true] at h
      obtain ⟨n, hvalue⟩ := Option.isSome_iff_exists.1 h.1
      rw [digits, List.filterMap_cons_some hvalue, List.length_cons, List.length_cons]
      exact congrArg (· + 1) (ih h.2)

theorem pairUp_ne_nil {found : List Nat} (hsome : found ≠ []) (heven : found.length % 2 = 0) :
    pairUp found ≠ [] := by
  cases found with
  | nil => exact absurd rfl hsome
  | cons high rest =>
    cases rest with
    | nil => simp at heven
    | cons low rest =>
      rw [pairUp]
      exact List.cons_ne_nil _ _

/-- A valid text can be read, and has at least one byte. -/
theorem decode_of_isValid {text : List Char} (h : isValid text = true) :
    ∃ bytes, decode text = .ok bytes ∧ bytes ≠ [] := by
  simp only [isValid, Bool.and_eq_true, Bool.not_eq_true', List.isEmpty_eq_false_iff,
    beq_iff_eq] at h
  obtain ⟨⟨hsome, heven⟩, hdigits⟩ := h
  have hlength := length_digits hdigits
  have hfound : digits text ≠ [] := by
    intro hnone
    rw [hnone] at hlength
    exact hsome (List.eq_nil_of_length_eq_zero hlength.symm)
  have htext : text ≠ [] := by
    rintro rfl
    exact hsome rfl
  rw [← hlength] at heven
  refine ⟨pairUp (digits text), ?_, pairUp_ne_nil hfound heven⟩
  rw [decode]
  simp [htext, hfound, heven]

end Hex

theorem textToBytes_ne_nil {text : String} (h : text ≠ "") : textToBytes text ≠ [] := by
  rw [textToBytes, Utf8.encode]
  cases hchars : text.toList with
  | nil => exact absurd (String.toList_eq_nil_iff.1 hchars) h
  | cons c rest =>
    rw [List.flatMap_cons]
    intro hnone
    have hlength := String.length_utf8EncodeChar c
    rw [(List.append_eq_nil_iff.1 hnone).1] at hlength
    exact absurd hlength.symm (Nat.ne_of_gt (Char.utf8Size_pos c))

namespace Payload

variable {data format ending : String} {bytes : Bytes}

theorem encode_hex (data ending : String) : encode data "hex" ending =
    if Hex.isValid data.toList then Hex.decode data.toList else .error (.hexPayload data) :=
  if_pos rfl

theorem encode_hex_valid (ending : String) (h : Hex.isValid data.toList = true) :
    ∃ bytes, encode data "hex" ending = .ok bytes ∧ bytes ≠ [] := by
  rw [encode_hex, if_pos h]
  exact Hex.decode_of_isValid h

theorem encode_hex_invalid (ending : String) (h : Hex.isValid data.toList = false) :
    encode data "hex" ending = .error (.hexPayload data) := by
  rw [encode_hex, h, if_neg Bool.false_ne_true]

theorem encode_text (data : String) {suffix : String} (h : lineEnding? ending = some suffix) :
    encode data "text" ending = .ok (textToBytes (data ++ suffix)) := by
  rw [encode, if_neg (by decide), if_pos rfl, h]

/-- With a known line ending, text can always be encoded and hexadecimal data if it is valid. -/
theorem encode_accepted (hending : ending ∈ ["none", "LF", "CR", "CRLF"])
    (hdata : format = "text" ∨ format = "hex" ∧ Hex.isValid data.toList = true) :
    ∃ bytes, encode data format ending = .ok bytes := by
  rcases hdata with rfl | ⟨rfl, hvalid⟩
  · have hsuffix : ∃ suffix, lineEnding? ending = some suffix := by
      simp only [List.mem_cons, List.not_mem_nil, or_false] at hending
      rcases hending with rfl | rfl | rfl | rfl <;> exact ⟨_, rfl⟩
    obtain ⟨suffix, hsuffix⟩ := hsuffix
    exact ⟨_, encode_text data hsuffix⟩
  · obtain ⟨bytes, hencode, _⟩ := encode_hex_valid ending hvalid
    exact ⟨bytes, hencode⟩

/-- Something comes of every text that is not empty. -/
theorem encode_ne_nil (hdata : data ≠ "") (h : encode data format ending = .ok bytes) :
    bytes ≠ [] := by
  rw [encode] at h
  split at h
  · split at h
    case isTrue hvalid =>
      obtain ⟨read, hread, hsome⟩ := Hex.decode_of_isValid hvalid
      rw [hread] at h
      cases h
      exact hsome
    case isFalse => cases h
  · split at h
    · split at h
      case h_1 suffix _ =>
        cases h
        refine textToBytes_ne_nil fun hnone => hdata ?_
        exact (String.append_eq_empty_iff.1 hnone).1
      case h_2 => cases h
    · cases h

end Payload

end SerialConsole
