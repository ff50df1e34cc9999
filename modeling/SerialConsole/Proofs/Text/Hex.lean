import SerialConsole.Proofs.Text.Payload

set_option autoImplicit false

/-!
# Hexadecimal text and bytes

Bytes that are written and read again are the same bytes, and a text that is read and written again
comes out in normal form: its digits in capital letters, two by two, with a space between each two
pairs (`decode_normalises`). The normal form is said of the text alone, without bytes.
-/
namespace SerialConsole

namespace Text

theorem joinWith_eq_intercalate (separator : List Char) (pieces : List (List Char)) :
    joinWith separator pieces = separator.intercalate pieces := by
  induction pieces with
  | nil => rfl
  | cons piece rest ih =>
    cases rest with
    | nil => simp [joinWith]
    | cons next others =>
      rw [List.intercalate_cons_cons, ← ih]
      rfl

end Text

namespace Hex

def numerals : List Char :=
  ['0', '1', '2', '3', '4', '5', '6', '7', '8', '9', 'A', 'B', 'C', 'D', 'E', 'F',
   'a', 'b', 'c', 'd', 'e', 'f']

/-- The hexadecimal digits of a text in order, in capital letters. -/
def capitals (text : List Char) : List Char :=
  (text.filter (· ∈ numerals)).map Char.toUpper

def twoByTwo : List Char → List (List Char)
  | high :: low :: rest => [high, low] :: twoByTwo rest
  | _ => []

/-- The normal form of a hexadecimal text. -/
def normal (text : List Char) : List Char :=
  [' '].intercalate (twoByTwo (capitals text))

/-! ## Digits and their values -/

theorem value_lt {c : Char} {n : Nat} (h : digitValue? c = some n) : n < 16 := by
  have hrange := digit_range (by rw [isDigit, h, Option.isSome_some])
  simp only [digitValue?, Bool.and_eq_true, decide_eq_true_eq] at h
  split at h
  · cases h
    omega
  · split at h
    · cases h
      omega
    · split at h
      · cases h
        omega
      · cases h

theorem value_digit {n : Nat} (h : n < 16) : digitValue? (digit n) = some n := by
  revert n
  decide

theorem map_digit_value (c : Char) :
    (digitValue? c).map digit = if c ∈ numerals then some c.toUpper else none := by
  by_cases hascii : c.toNat < 128
  · have hall : ∀ n, n < 128 → (digitValue? (Char.ofNat n)).map digit =
        if Char.ofNat n ∈ numerals then some (Char.ofNat n).toUpper else none := by
      decide
    have hc := hall c.toNat hascii
    rwa [Char.ofNat_toNat] at hc
  · have hall : numerals.all (fun d => d.toNat < 128) = true := by decide
    have hother : c ∉ numerals := fun hmem =>
      hascii (of_decide_eq_true (List.all_eq_true.1 hall c hmem))
    cases hvalue : digitValue? c with
    | none => rw [if_neg hother, Option.map_none]
    | some n =>
      have hrange := digit_range (by rw [isDigit, hvalue, Option.isSome_some])
      omega

theorem map_digit_digits (text : List Char) : (digits text).map digit = capitals text := by
  induction text with
  | nil => rfl
  | cons c rest ih =>
    have hc := map_digit_value c
    rw [capitals] at ih ⊢
    split at hc
    case isTrue hmem =>
      obtain ⟨n, hvalue, hdigit⟩ := Option.map_eq_some_iff.1 hc
      rw [digits, List.filterMap_cons_some hvalue, List.filter_cons_of_pos (by simpa using hmem),
        List.map_cons, List.map_cons, hdigit, ← ih, digits]
    case isFalse hother =>
      rw [digits, List.filterMap_cons_none (Option.map_eq_none_iff.1 hc),
        List.filter_cons_of_neg (by simpa using hother), ← ih, digits]

theorem length_capitals (text : List Char) : (capitals text).length = (digits text).length := by
  rw [← map_digit_digits, List.length_map]

theorem digits_lt {text : List Char} {n : Nat} (h : n ∈ digits text) : n < 16 := by
  obtain ⟨c, _, hc⟩ := List.mem_filterMap.1 h
  exact value_lt hc

/-! ## Pairs of digits -/

theorem pair_ofNat {high low : Nat} (hhigh : high < 16) (hlow : low < 16) :
    pair (UInt8.ofNat (16 * high + low)) = [digit high, digit low] := by
  have hbyte : (UInt8.ofNat (16 * high + low)).toNat = 16 * high + low := by
    rw [UInt8.toNat_ofNat']
    omega
  have hdiv : (16 * high + low) / 16 = high := by omega
  have hmod : (16 * high + low) % 16 = low := by omega
  rw [pair, hbyte, hdiv, hmod]

/-- Two digits are read as the byte that is written as the same two digits. -/
theorem map_pair_pairUp {found : List Nat} (h : ∀ n ∈ found, n < 16) :
    (pairUp found).map pair = twoByTwo (found.map digit) := by
  induction found using pairUp.induct with
  | case1 high low rest ih =>
    have hrest := ih fun n hn => h n (List.mem_cons_of_mem _ (List.mem_cons_of_mem _ hn))
    have hpair := pair_ofNat (h high (by simp)) (h low (by simp))
    rw [pairUp, List.map_cons, hpair, hrest, List.map_cons, List.map_cons, twoByTwo]
  | case2 found hshort =>
    cases found with
    | nil => rfl
    | cons high rest =>
      cases rest with
      | nil => rfl
      | cons low rest => exact absurd rfl (hshort high low rest)

theorem flatten_twoByTwo {text : List Char} (heven : text.length % 2 = 0) :
    (twoByTwo text).flatten = text := by
  induction text using twoByTwo.induct with
  | case1 high low rest ih =>
    have hrest : rest.length % 2 = 0 := by
      simp only [List.length_cons] at heven
      omega
    rw [twoByTwo, List.flatten_cons, ih hrest]
    rfl
  | case2 text hshort =>
    cases text with
    | nil => rfl
    | cons high rest =>
      cases rest with
      | nil => simp at heven
      | cons low rest => exact absurd rfl (hshort high low rest)

theorem encode_eq (bytes : Bytes) : encode bytes = [' '].intercalate (bytes.map pair) :=
  Text.joinWith_eq_intercalate _ _

/-- Nothing is written but digits and spaces. -/
theorem mem_encode {bytes : Bytes} {c : Char} (h : c ∈ encode bytes) :
    c = ' ' ∨ ∃ n, n < 16 ∧ c = digit n := by
  have hpair : ∀ b : UInt8, c ∈ pair b → ∃ n, n < 16 ∧ c = digit n := by
    intro b hb
    have hbyte : b.toNat < 256 := b.toNat_lt
    simp only [pair, List.mem_cons, List.not_mem_nil, or_false] at hb
    rcases hb with rfl | rfl
    · exact ⟨b.toNat / 16, by omega, rfl⟩
    · exact ⟨b.toNat % 16, by omega, rfl⟩
  rw [encode_eq] at h
  induction bytes with
  | nil => cases h
  | cons b rest ih =>
    cases rest with
    | nil => exact Or.inr (hpair b (by simpa using h))
    | cons next others =>
      rw [List.map_cons, List.map_cons, List.intercalate_cons_cons, List.mem_append,
        List.mem_append, List.mem_singleton] at h
      rcases h with (hb | hspace) | hothers
      · exact Or.inr (hpair b hb)
      · exact Or.inl hspace
      · exact ih (by rwa [List.map_cons])

theorem digits_append (a b : List Char) : digits (a ++ b) = digits a ++ digits b :=
  List.filterMap_append

/-- The values of the two digits of a byte. -/
def halves (b : UInt8) : List Nat :=
  [b.toNat / 16, b.toNat % 16]

theorem digits_pair (b : UInt8) : digits (pair b) = halves b := by
  have hbyte : b.toNat < 256 := b.toNat_lt
  have hhigh := value_digit (show b.toNat / 16 < 16 by omega)
  have hlow := value_digit (show b.toNat % 16 < 16 by omega)
  simp [digits, pair, halves, hhigh, hlow]

theorem digits_encode (bytes : Bytes) : digits (encode bytes) = bytes.flatMap halves := by
  rw [encode_eq]
  induction bytes with
  | nil => rfl
  | cons b rest ih =>
    cases rest with
    | nil => simpa using digits_pair b
    | cons next others =>
      have hspace : digits [' '] = [] := by decide
      rw [List.map_cons, List.map_cons, List.intercalate_cons_cons, digits_append, digits_append,
        digits_pair, hspace, List.append_nil, List.flatMap_cons, ← ih, List.map_cons]

theorem length_halves (bytes : Bytes) : (bytes.flatMap halves).length = 2 * bytes.length := by
  induction bytes with
  | nil => rfl
  | cons b rest ih =>
    rw [List.flatMap_cons, List.length_append, ih, List.length_cons]
    change 2 + 2 * rest.length = 2 * (rest.length + 1)
    omega

theorem pairUp_halves (bytes : Bytes) : pairUp (bytes.flatMap halves) = bytes := by
  induction bytes with
  | nil => rfl
  | cons b rest ih =>
    have hbyte : 16 * (b.toNat / 16) + b.toNat % 16 = b.toNat := by omega
    rw [List.flatMap_cons, halves, List.cons_append, List.cons_append, List.nil_append, pairUp,
      hbyte, ih, UInt8.ofNat_toNat]

/-! ## Reading -/

/-- What cannot be read: a text that is not empty and has no digits, or one digit too many. -/
def Refused (text : List Char) : Prop :=
  text ≠ [] ∧ ((capitals text).length = 0 ∨ (capitals text).length % 2 = 1)

theorem decode_refused {text : List Char} (h : Refused text) :
    ∃ fault, decode text = .error fault ∧ fault.kind = .hexFormat := by
  obtain ⟨htext, hcount⟩ := h
  rw [length_capitals] at hcount
  rw [decode, if_neg (by simpa using htext)]
  simp only
  by_cases hnone : (digits text).isEmpty = true
  · rw [if_pos hnone]
    exact ⟨_, rfl, rfl⟩
  · have hodd : (digits text).length % 2 = 1 := by
      rw [List.isEmpty_iff_length_eq_zero] at hnone
      exact hcount.resolve_left hnone
    rw [if_neg hnone, if_pos (by simp [hodd])]
    exact ⟨_, rfl, rfl⟩

theorem decode_accepted {text : List Char} (h : ¬ Refused text) :
    (digits text).length % 2 = 0 ∧ decode text = .ok (pairUp (digits text)) := by
  by_cases htext : text = []
  · subst htext
    exact ⟨rfl, rfl⟩
  · have hdigits : ¬ ((digits text).length = 0 ∨ (digits text).length % 2 = 1) := by
      rw [← length_capitals]
      exact fun hcount => h ⟨htext, hcount⟩
    have hcount : (digits text).length ≠ 0 ∧ (digits text).length % 2 = 0 := by omega
    have hsome : ¬ (digits text).isEmpty = true := by
      rw [List.isEmpty_iff_length_eq_zero]
      exact hcount.1
    refine ⟨hcount.2, ?_⟩
    rw [decode, if_neg (by simpa using htext)]
    simp only
    rw [if_neg hsome, if_neg (by simp [hcount.2])]

theorem decode_error {text : List Char} {fault : Fault} (h : decode text = .error fault) :
    Refused text ∧ fault.kind = .hexFormat := by
  by_cases hrefused : Refused text
  · obtain ⟨found, herror, hkind⟩ := decode_refused hrefused
    rw [h] at herror
    cases herror
    exact ⟨hrefused, hkind⟩
  · rw [(decode_accepted hrefused).2] at h
    cases h

theorem decode_ok {text : List Char} {bytes : Bytes} (h : decode text = .ok bytes) :
    bytes = pairUp (digits text) ∧ (digits text).length % 2 = 0 := by
  have haccepted : ¬ Refused text := by
    intro hrefused
    obtain ⟨fault, herror, _⟩ := decode_refused hrefused
    rw [h] at herror
    cases herror
  obtain ⟨heven, hread⟩ := decode_accepted haccepted
  rw [h] at hread
  exact ⟨Except.ok.inj hread, heven⟩

theorem decode_encode (bytes : Bytes) : decode (encode bytes) = .ok bytes := by
  have hdigits := digits_encode bytes
  have haccepted : ¬ Refused (encode bytes) := by
    rintro ⟨hsome, hcount⟩
    rw [length_capitals, hdigits, length_halves] at hcount
    have hnil : bytes = [] := List.eq_nil_of_length_eq_zero (by omega)
    exact hsome (by rw [hnil]; rfl)
  rw [(decode_accepted haccepted).2, hdigits, pairUp_halves]

/-- The digits of a text are those of the bytes that it is read as. -/
theorem capitals_of_decode {text : List Char} {bytes : Bytes} (h : decode text = .ok bytes) :
    twoByTwo (capitals text) = bytes.map pair ∧ capitals text = (bytes.map pair).flatten := by
  obtain ⟨rfl, heven⟩ := decode_ok h
  rw [map_pair_pairUp fun n => digits_lt, map_digit_digits]
  refine ⟨rfl, (flatten_twoByTwo ?_).symm⟩
  rwa [length_capitals]

theorem encode_of_decode {text : List Char} {bytes : Bytes} (h : decode text = .ok bytes) :
    encode bytes = normal text := by
  rw [encode_eq, normal, (capitals_of_decode h).1]

/-- A text in normal form, if it can be read. -/
def normalise (text : List Char) : Except Fault (List Char) :=
  (decode text).map encode

theorem normalise_twice (text : List Char) : normalise text >>= normalise = normalise text := by
  cases h : decode text with
  | error fault =>
    rw [normalise, h]
    rfl
  | ok bytes =>
    have honce : normalise text = .ok (encode bytes) := by
      rw [normalise, h]
      rfl
    have htwice : normalise (encode bytes) = .ok (encode bytes) := by
      rw [normalise, decode_encode]
      rfl
    rw [honce]
    exact htwice

/-- Bytes are read back as they were written. A text that can be read is written back in normal
form, texts stand for the same bytes if they have the same digits up to case, and once in normal
form a text stays as it is. A text is refused for having no digits or an odd number of them. -/
theorem decode_normalises (bytes : Bytes) (text : List Char) :
    decode (encode bytes) = .ok bytes ∧
      (decode text = .ok bytes → encode bytes = normal text ∧
        ∀ other read, decode other = .ok read → (bytes = read ↔ capitals text = capitals other)) ∧
      normalise text >>= normalise = normalise text ∧
      ((∃ fault, decode text = .error fault ∧ fault.kind = .hexFormat) ↔
        text ≠ [] ∧ ((capitals text).length = 0 ∨ (capitals text).length % 2 = 1)) ∧
      ∀ fault, decode text = .error fault → fault.kind = .hexFormat := by
  refine ⟨decode_encode bytes, fun h => ⟨encode_of_decode h, ?_⟩, normalise_twice text,
    ⟨fun ⟨_, herror, _⟩ => (decode_error herror).1, decode_refused⟩,
    fun fault herror => (decode_error herror).2⟩
  intro other read hother
  constructor
  · rintro rfl
    rw [(capitals_of_decode h).2, (capitals_of_decode hother).2]
  · intro hsame
    have hwritten : encode bytes = encode read := by
      rw [encode_of_decode h, encode_of_decode hother, normal, normal, hsame]
    have hread := decode_encode bytes
    rw [hwritten, decode_encode] at hread
    exact (Except.ok.inj hread).symm

theorem decode_normalises_mixed_case :
    decode "[1f, A0]".toList = .ok [0x1F, 0xA0] ∧ decode "1 F a 0".toList = .ok [0x1F, 0xA0] ∧
      encode [0x1F, 0xA0] = normal "[1f, A0]".toList ∧
      capitals "[1f, A0]".toList = capitals "1 F a 0".toList ∧
      decode "0x1F".toList = .error (.oddHexDigits 3) ∧
      (Fault.oddHexDigits 3).kind = .hexFormat := by
  have htext : decode "[1f, A0]".toList = .ok [0x1F, 0xA0] := by rfl
  have hother : decode "1 F a 0".toList = .ok [0x1F, 0xA0] := by rfl
  have hodd : decode "0x1F".toList = .error (.oddHexDigits 3) := by rfl
  obtain ⟨_, hread, _⟩ := decode_normalises [0x1F, 0xA0] "[1f, A0]".toList
  obtain ⟨hnormal, hsame⟩ := hread htext
  obtain ⟨_, _, _, _, hkind⟩ := decode_normalises [] "0x1F".toList
  exact ⟨htext, hother, hnormal, (hsame _ _ hother).1 rfl, hodd, hkind _ hodd⟩

end Hex

end SerialConsole
