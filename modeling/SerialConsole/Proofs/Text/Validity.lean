import SerialConsole.Proofs.Text.Hex

set_option autoImplicit false

/-!
# Valid hexadecimal text

Validation takes the blanks out of a text and wants all of the rest to be digits, reading takes the
digits out of it and ignores all of the rest. Where every character is a blank or a digit the two
agree, so a hexadecimal payload is what its text is read as (`payload_agrees`).
-/
namespace SerialConsole.Hex

variable {text : List Char} {bytes : Bytes}

theorem isDigit_iff {c : Char} : isDigit c = true ↔ c ∈ numerals := by
  have hvalue := map_digit_value c
  rw [isDigit, ← Option.isSome_map (f := digit), hvalue]
  split <;> simpa

/-- Nothing but blanks and digits. -/
def Clean (text : List Char) : Prop :=
  ∀ c ∈ text, Text.isBlank c = true ∨ c ∈ numerals

/-- How many digits a text has. -/
def count (text : List Char) : Nat :=
  (text.filter (· ∈ numerals)).length

theorem clean_iff : Clean text ↔ (text.filter fun c => !Text.isBlank c).all isDigit = true := by
  rw [List.all_eq_true]
  constructor
  · intro hclean c hc
    obtain ⟨hmem, hblank⟩ := List.mem_filter.1 hc
    exact isDigit_iff.2 ((hclean c hmem).resolve_left (by simpa using hblank))
  · intro hdigits c hmem
    cases hblank : Text.isBlank c with
    | true => exact Or.inl rfl
    | false => exact Or.inr (isDigit_iff.1 (hdigits c (List.mem_filter.2 ⟨hmem, by simp [hblank]⟩)))

theorem count_eq (text : List Char) : count text = (digits text).length := by
  rw [← length_capitals, capitals, List.length_map, count]

theorem isValid_iff : isValid text = true ↔ Clean text ∧ count text ≠ 0 ∧ count text % 2 = 0 := by
  rw [isValid, Bool.and_eq_true, Bool.and_eq_true, Bool.not_eq_true', ← clean_iff, beq_iff_eq,
    List.isEmpty_eq_false_iff, ← List.length_pos_iff, count_eq]
  constructor
  · rintro ⟨⟨hsome, heven⟩, hclean⟩
    rw [length_digits (clean_iff.1 hclean)]
    exact ⟨hclean, Nat.ne_of_gt hsome, heven⟩
  · rintro ⟨hclean, hsome, heven⟩
    rw [length_digits (clean_iff.1 hclean)] at hsome heven
    exact ⟨⟨Nat.pos_of_ne_zero hsome, heven⟩, hclean⟩

/-- Two digits are read as one byte. -/
theorem count_of_decode (h : decode text = .ok bytes) : count text = 2 * bytes.length := by
  have hcapitals := congrArg List.length (capitals_of_decode h).2
  have hpairs : ∀ b ∈ bytes, (pair b).length = 2 := fun _ _ => rfl
  rw [length_capitals, ← List.flatMap_def, List.length_flatMap, List.map_congr_left hpairs,
    List.map_const', List.sum_replicate_nat] at hcapitals
  rw [count_eq, hcapitals, Nat.mul_comm]

theorem decode_some_iff :
    (∃ bytes, decode text = .ok bytes ∧ bytes ≠ []) ↔ count text ≠ 0 ∧ count text % 2 = 0 := by
  constructor
  · rintro ⟨bytes, hread, hsome⟩
    have hlength := List.length_pos_iff.2 hsome
    rw [count_of_decode hread]
    omega
  · rintro ⟨hsome, heven⟩
    have haccepted : ¬ Refused text := by
      rintro ⟨_, hcount⟩
      rw [length_capitals, ← count_eq] at hcount
      omega
    rw [count_eq] at hsome
    obtain ⟨heven, hread⟩ := decode_accepted haccepted
    have hfound : digits text ≠ [] := fun hnone => hsome (congrArg List.length hnone)
    exact ⟨_, hread, pairUp_ne_nil hfound heven⟩

/-- A text is valid exactly if all its characters are blanks or digits and it is read as at least one
byte. Whatever the line ending, a valid text is encoded as the bytes that it is read as, any other is
refused as no hexadecimal text, and a payload is never empty and has half as many bytes as the text
has digits. -/
theorem payload_agrees (data ending : String) :
    (isValid data.toList = true ↔
      (∀ c ∈ data.toList, Text.isBlank c = true ∨ c ∈ numerals) ∧
        ∃ bytes, decode data.toList = .ok bytes ∧ bytes ≠ []) ∧
      (isValid data.toList = true →
        ∃ bytes, decode data.toList = .ok bytes ∧ Payload.encode data "hex" ending = .ok bytes) ∧
      (isValid data.toList = false →
        ∃ fault, Payload.encode data "hex" ending = .error fault ∧ fault.kind = .hexFormat) ∧
      ∀ bytes, Payload.encode data "hex" ending = .ok bytes →
        bytes ≠ [] ∧ (data.toList.filter (· ∈ numerals)).length = 2 * bytes.length := by
  refine ⟨?_, fun hvalid => ?_, fun hinvalid => ?_, fun bytes hencode => ?_⟩
  · rw [decode_some_iff]
    exact isValid_iff
  · obtain ⟨bytes, hread, _⟩ := decode_of_isValid hvalid
    exact ⟨bytes, hread, by rw [Payload.encode, if_pos rfl, if_pos hvalid, hread]⟩
  · exact ⟨_, Payload.encode_hex_invalid ending hinvalid, rfl⟩
  · cases hvalid : isValid data.toList with
    | false =>
      rw [Payload.encode_hex_invalid ending hvalid] at hencode
      cases hencode
    | true =>
      obtain ⟨read, hread, hsome⟩ := decode_of_isValid hvalid
      rw [Payload.encode, if_pos rfl, if_pos hvalid, hread] at hencode
      cases hencode
      exact ⟨hsome, count_of_decode hread⟩

theorem payload_agrees_spaced :
    isValid " 1f\tA0\n".toList = true ∧ isValid "1f, A0".toList = false ∧
      (∃ bytes, decode " 1f\tA0\n".toList = .ok bytes ∧
        Payload.encode " 1f\tA0\n" "hex" "CRLF" = .ok bytes) ∧
      (∃ fault, Payload.encode "1f, A0" "hex" "CRLF" = .error fault ∧ fault.kind = .hexFormat) ∧
      (" 1f\tA0\n".toList.filter (· ∈ numerals)).length = 2 * [(0x1F : UInt8), 0xA0].length := by
  have hvalid : isValid " 1f\tA0\n".toList = true := by decide
  have hinvalid : isValid "1f, A0".toList = false := by decide
  obtain ⟨_, hread, _, hlength⟩ := payload_agrees " 1f\tA0\n" "CRLF"
  obtain ⟨_, _, hrefused, _⟩ := payload_agrees "1f, A0" "CRLF"
  exact ⟨hvalid, hinvalid, hread hvalid, hrefused hinvalid, (hlength [0x1F, 0xA0] rfl).2⟩

end SerialConsole.Hex
