import SerialConsole.Text.Utf8

set_option autoImplicit false

/-!
# Reading and writing UTF-8

`readHead` reads a character exactly where the bytes go on with the encoding of that character
(`readHead_encode`, `encode_of_readHead`). So lenient reading takes back what was written, and bytes
in which it found no flaw are the encoding of what it read. Strict reading accepts exactly what was
written (`decode_eq_ok`).
-/
namespace SerialConsole.Utf8

open String (utf8EncodeChar)

theorem toNat_byte {n : Nat} (h : n < 256) : (UInt8.ofNat n).toNat = n := by
  rw [UInt8.toNat_ofNat']
  omega

theorem byte_eq {n : Nat} {b : UInt8} (h : n = b.toNat) : UInt8.ofNat n = b := by
  rw [h, UInt8.ofNat_toNat]

theorem toNat_char {n : Nat} (h : n < 0xD800 ∨ 0xDFFF < n ∧ n < 0x110000) :
    (Char.ofNat n).toNat = n := by
  rw [Char.ofNat, dif_pos h]
  rfl

theorem char_eq {n : Nat} {c : Char} (h : n = c.toNat) : Char.ofNat n = c := by
  rw [h, Char.ofNat_toNat]

theorem char_valid (c : Char) : c.toNat < 0xD800 ∨ 0xDFFF < c.toNat ∧ c.toNat < 0x110000 :=
  c.valid

/-! ## The four widths -/

section

variable {c : Char}

theorem encode_one (h : c.toNat < 0x80) : utf8EncodeChar c = [UInt8.ofNat c.toNat] := by
  have hle : c.val.toNat ≤ 127 := Nat.le_of_lt_succ h
  rw [utf8EncodeChar, if_pos hle]
  rfl

theorem encode_two (h : 0x80 ≤ c.toNat) (h' : c.toNat < 0x800) :
    utf8EncodeChar c =
      [UInt8.ofNat (c.toNat / 64 % 32 + 192), UInt8.ofNat (c.toNat % 64 + 128)] := by
  have hgt : ¬ c.val.toNat ≤ 127 := Nat.not_le_of_lt h
  have hle : c.val.toNat ≤ 2047 := Nat.le_of_lt_succ h'
  rw [utf8EncodeChar, if_neg hgt, if_pos hle]
  rfl

theorem encode_three (h : 0x800 ≤ c.toNat) (h' : c.toNat < 0x10000) :
    utf8EncodeChar c = [UInt8.ofNat (c.toNat / 4096 % 16 + 224),
      UInt8.ofNat (c.toNat / 64 % 64 + 128), UInt8.ofNat (c.toNat % 64 + 128)] := by
  have hgt : ¬ c.val.toNat ≤ 127 := Nat.not_le_of_lt (Nat.lt_of_lt_of_le (by decide) h)
  have hgt' : ¬ c.val.toNat ≤ 2047 := Nat.not_le_of_lt h
  have hle : c.val.toNat ≤ 65535 := Nat.le_of_lt_succ h'
  rw [utf8EncodeChar, if_neg hgt, if_neg hgt', if_pos hle]
  rfl

theorem encode_four (h : 0x10000 ≤ c.toNat) :
    utf8EncodeChar c = [UInt8.ofNat (c.toNat / 262144 % 8 + 240),
      UInt8.ofNat (c.toNat / 4096 % 64 + 128), UInt8.ofNat (c.toNat / 64 % 64 + 128),
      UInt8.ofNat (c.toNat % 64 + 128)] := by
  have hgt : ¬ c.val.toNat ≤ 127 := Nat.not_le_of_lt (Nat.lt_of_lt_of_le (by decide) h)
  have hgt' : ¬ c.val.toNat ≤ 2047 := Nat.not_le_of_lt (Nat.lt_of_lt_of_le (by decide) h)
  have hgt'' : ¬ c.val.toNat ≤ 65535 := Nat.not_le_of_lt h
  rw [utf8EncodeChar, if_neg hgt, if_neg hgt', if_neg hgt'']
  rfl

end

theorem payload_eq (b : UInt8) : payload b = b.toNat - 0x80 := rfl

theorem isContinuation_iff (b : UInt8) :
    isContinuation b = true ↔ 0x80 ≤ b.toNat ∧ b.toNat < 0xC0 := by
  rw [isContinuation, Bool.and_eq_true, decide_eq_true_eq, decide_eq_true_eq]

theorem fitsThree_iff (first second : UInt8) : fitsThree first second = true ↔
    (0x80 ≤ second.toNat ∧ second.toNat < 0xC0) ∧
      ¬ (second.toNat < 0xA0 ∧ first.toNat = 0xE0) ∧
      ¬ (0xA0 ≤ second.toNat ∧ first.toNat = 0xED) := by
  rw [fitsThree, Bool.and_eq_true, isContinuation_iff]
  split <;> simp <;> omega

theorem fitsFour_iff (first second : UInt8) : fitsFour first second = true ↔
    (0x80 ≤ second.toNat ∧ second.toNat < 0xC0) ∧
      ¬ (second.toNat < 0x90 ∧ first.toNat = 0xF0) ∧
      ¬ (0x90 ≤ second.toNat ∧ first.toNat = 0xF4) := by
  rw [fitsFour, Bool.and_eq_true, isContinuation_iff]
  split <;> simp <;> omega

section

variable {first second third fourth : UInt8} (rest : Bytes)

theorem readHead_one (h : first.toNat < 0x80) :
    readHead first rest = .char (Char.ofNat first.toNat) 1 := by
  rw [readHead, if_pos h]

theorem readHead_two (h : 0xC2 ≤ first.toNat) (h' : first.toNat < 0xE0) :
    readHead first rest = readTwo first rest := by
  rw [readHead, if_neg (by omega), if_neg (by omega), if_pos h']

theorem readHead_three (h : 0xE0 ≤ first.toNat) (h' : first.toNat < 0xF0) :
    readHead first rest = readThree first rest := by
  rw [readHead, if_neg (by omega), if_neg (by omega), if_neg (by omega), if_pos h']

theorem readHead_four (h : 0xF0 ≤ first.toNat) (h' : first.toNat < 0xF5) :
    readHead first rest = readFour first rest := by
  rw [readHead, if_neg (by omega), if_neg (by omega), if_neg (by omega), if_neg (by omega),
    if_pos h']

theorem readTwo_cons (h : isContinuation second = true) : readTwo first (second :: rest) =
    .char (Char.ofNat ((first.toNat - 0xC0) * 64 + payload second)) 2 := by
  rw [readTwo, if_pos h]

theorem readThree_cons (h : fitsThree first second = true) (h' : isContinuation third = true) :
    readThree first (second :: third :: rest) =
      .char (Char.ofNat (((first.toNat - 0xE0) * 64 + payload second) * 64 + payload third)) 3 := by
  simp only [readThree, h, h', if_true]

theorem readFour_cons (h : fitsFour first second = true) (h' : isContinuation third = true)
    (h'' : isContinuation fourth = true) : readFour first (second :: third :: fourth :: rest) =
      .char (Char.ofNat ((((first.toNat - 0xF0) * 64 + payload second) * 64 + payload third) * 64 +
        payload fourth)) 4 := by
  simp only [readFour, h, h', h'', if_true]

end

/-! ## Reading what was written -/

/-- The character that is written comes out, and the bytes behind it are left. -/
theorem readHead_encode (c : Char) (rest : Bytes) :
    ∃ first tail, utf8EncodeChar c = first :: tail ∧
      readHead first (tail ++ rest) = .char c (tail.length + 1) := by
  have hvalid := char_valid c
  by_cases hone : c.toNat < 0x80
  · refine ⟨_, _, encode_one hone, ?_⟩
    have hfirst : (UInt8.ofNat c.toNat).toNat = c.toNat := toNat_byte (by omega)
    rw [readHead_one _ (by omega), hfirst, Char.ofNat_toNat]
    rfl
  by_cases htwo : c.toNat < 0x800
  · refine ⟨_, _, encode_two (by omega) htwo, ?_⟩
    have hfirst := toNat_byte (show c.toNat / 64 % 32 + 192 < 256 by omega)
    have hsecond := toNat_byte (show c.toNat % 64 + 128 < 256 by omega)
    generalize UInt8.ofNat (c.toNat / 64 % 32 + 192) = first at hfirst
    generalize UInt8.ofNat (c.toNat % 64 + 128) = second at hsecond
    rw [readHead_two _ (by omega) (by omega)]
    have hread : readTwo first (second :: rest) = _ :=
      readTwo_cons rest ((isContinuation_iff second).2 (by omega))
    have hvalue : Char.ofNat ((first.toNat - 0xC0) * 64 + payload second) = c :=
      char_eq (by simp only [payload_eq]; omega)
    rw [List.cons_append, List.nil_append, hread, hvalue]
    rfl
  by_cases hthree : c.toNat < 0x10000
  · refine ⟨_, _, encode_three (by omega) hthree, ?_⟩
    have hfirst := toNat_byte (show c.toNat / 4096 % 16 + 224 < 256 by omega)
    have hsecond := toNat_byte (show c.toNat / 64 % 64 + 128 < 256 by omega)
    have hthird := toNat_byte (show c.toNat % 64 + 128 < 256 by omega)
    generalize UInt8.ofNat (c.toNat / 4096 % 16 + 224) = first at hfirst
    generalize UInt8.ofNat (c.toNat / 64 % 64 + 128) = second at hsecond
    generalize UInt8.ofNat (c.toNat % 64 + 128) = third at hthird
    rw [readHead_three _ (by omega) (by omega)]
    have hread := readThree_cons rest ((fitsThree_iff first second).2 (by omega))
      ((isContinuation_iff third).2 (by omega))
    have hvalue : Char.ofNat (((first.toNat - 0xE0) * 64 + payload second) * 64 +
        payload third) = c := char_eq (by simp only [payload_eq]; omega)
    rw [List.cons_append, List.cons_append, List.nil_append, hread, hvalue]
    rfl
  · refine ⟨_, _, encode_four (by omega), ?_⟩
    have hfirst := toNat_byte (show c.toNat / 262144 % 8 + 240 < 256 by omega)
    have hsecond := toNat_byte (show c.toNat / 4096 % 64 + 128 < 256 by omega)
    have hthird := toNat_byte (show c.toNat / 64 % 64 + 128 < 256 by omega)
    have hfourth := toNat_byte (show c.toNat % 64 + 128 < 256 by omega)
    generalize UInt8.ofNat (c.toNat / 262144 % 8 + 240) = first at hfirst
    generalize UInt8.ofNat (c.toNat / 4096 % 64 + 128) = second at hsecond
    generalize UInt8.ofNat (c.toNat / 64 % 64 + 128) = third at hthird
    generalize UInt8.ofNat (c.toNat % 64 + 128) = fourth at hfourth
    rw [readHead_four _ (by omega) (by omega)]
    have hread := readFour_cons rest ((fitsFour_iff first second).2 (by omega))
      ((isContinuation_iff third).2 (by omega)) ((isContinuation_iff fourth).2 (by omega))
    have hvalue : Char.ofNat ((((first.toNat - 0xF0) * 64 + payload second) * 64 +
        payload third) * 64 + payload fourth) = c :=
      char_eq (by simp only [payload_eq]; omega)
    rw [List.cons_append, List.cons_append, List.cons_append, List.nil_append, hread, hvalue]
    rfl

/-! ## Writing what was read -/

theorem encode_of_readTwo {first : UInt8} {rest : Bytes} {c : Char} {width : Nat}
    (h : readTwo first rest = .char c width) (hlow : 0xC2 ≤ first.toNat)
    (hhigh : first.toNat < 0xE0) : first :: rest = utf8EncodeChar c ++ rest.drop (width - 1) := by
  cases rest with
  | nil => cases h
  | cons second rest =>
    rw [readTwo] at h
    split at h
    case isFalse => cases h
    case isTrue hsecond =>
      simp only [isContinuation_iff] at hsecond
      simp only [payload_eq] at h
      have hc := toNat_char (n := (first.toNat - 0xC0) * 64 + (second.toNat - 0x80)) (by omega)
      obtain ⟨rfl, rfl⟩ := Reading.char.inj h
      generalize Char.ofNat _ = c at hc ⊢
      have hfirst : UInt8.ofNat (c.toNat / 64 % 32 + 192) = first := byte_eq (by omega)
      have hsecond : UInt8.ofNat (c.toNat % 64 + 128) = second := byte_eq (by omega)
      rw [encode_two (by omega) (by omega), hfirst, hsecond]
      rfl

theorem encode_of_readThree {first : UInt8} {rest : Bytes} {c : Char} {width : Nat}
    (h : readThree first rest = .char c width) (hlow : 0xE0 ≤ first.toNat)
    (hhigh : first.toNat < 0xF0) : first :: rest = utf8EncodeChar c ++ rest.drop (width - 1) := by
  cases rest with
  | nil => cases h
  | cons second rest =>
    rw [readThree.eq_def] at h
    simp only at h
    split at h
    case isFalse => cases h
    case isTrue hsecond =>
      cases rest with
      | nil => cases h
      | cons third rest =>
        simp only at h
        split at h
        case isFalse => cases h
        case isTrue hthird =>
          simp only [fitsThree_iff] at hsecond
          simp only [isContinuation_iff] at hthird
          simp only [payload_eq] at h
          have hc := toNat_char (n := ((first.toNat - 0xE0) * 64 + (second.toNat - 0x80)) * 64 +
            (third.toNat - 0x80)) (by omega)
          obtain ⟨rfl, rfl⟩ := Reading.char.inj h
          generalize Char.ofNat _ = c at hc ⊢
          have hfirst : UInt8.ofNat (c.toNat / 4096 % 16 + 224) = first := byte_eq (by omega)
          have hsecond : UInt8.ofNat (c.toNat / 64 % 64 + 128) = second := byte_eq (by omega)
          have hthird : UInt8.ofNat (c.toNat % 64 + 128) = third := byte_eq (by omega)
          rw [encode_three (by omega) (by omega), hfirst, hsecond, hthird]
          rfl

theorem encode_of_readFour {first : UInt8} {rest : Bytes} {c : Char} {width : Nat}
    (h : readFour first rest = .char c width) (hlow : 0xF0 ≤ first.toNat)
    (hhigh : first.toNat < 0xF5) : first :: rest = utf8EncodeChar c ++ rest.drop (width - 1) := by
  cases rest with
  | nil => cases h
  | cons second rest =>
    rw [readFour.eq_def] at h
    simp only at h
    split at h
    case isFalse => cases h
    case isTrue hsecond =>
      cases rest with
      | nil => cases h
      | cons third rest =>
        simp only at h
        split at h
        case isFalse => cases h
        case isTrue hthird =>
          cases rest with
          | nil => cases h
          | cons fourth rest =>
            simp only at h
            split at h
            case isFalse => cases h
            case isTrue hfourth =>
              simp only [fitsFour_iff] at hsecond
              simp only [isContinuation_iff] at hthird hfourth
              simp only [payload_eq] at h
              have hc := toNat_char
                (n := (((first.toNat - 0xF0) * 64 + (second.toNat - 0x80)) * 64 +
                  (third.toNat - 0x80)) * 64 + (fourth.toNat - 0x80)) (by omega)
              obtain ⟨rfl, rfl⟩ := Reading.char.inj h
              generalize Char.ofNat _ = c at hc ⊢
              have hfirst : UInt8.ofNat (c.toNat / 262144 % 8 + 240) = first := byte_eq (by omega)
              have hsecond : UInt8.ofNat (c.toNat / 4096 % 64 + 128) = second := byte_eq (by omega)
              have hthird : UInt8.ofNat (c.toNat / 64 % 64 + 128) = third := byte_eq (by omega)
              have hfourth : UInt8.ofNat (c.toNat % 64 + 128) = fourth := byte_eq (by omega)
              rw [encode_four (by omega), hfirst, hsecond, hthird, hfourth]
              rfl

/-- A character that comes out was written in the bytes that it takes. -/
theorem encode_of_readHead {first : UInt8} {rest : Bytes} {c : Char} {width : Nat}
    (h : readHead first rest = .char c width) :
    first :: rest = utf8EncodeChar c ++ rest.drop (width - 1) := by
  by_cases hone : first.toNat < 0x80
  · have hc : (Char.ofNat first.toNat).toNat = first.toNat := toNat_char (by omega)
    rw [readHead_one rest hone] at h
    cases h
    rw [encode_one (by omega), byte_eq hc]
    rfl
  by_cases hstray : first.toNat < 0xC2
  · rw [readHead, if_neg hone, if_pos hstray] at h
    cases h
  by_cases htwo : first.toNat < 0xE0
  · rw [readHead_two rest (by omega) htwo] at h
    exact encode_of_readTwo h (by omega) htwo
  by_cases hthree : first.toNat < 0xF0
  · rw [readHead_three rest (by omega) hthree] at h
    exact encode_of_readThree h (by omega) hthree
  by_cases hfour : first.toNat < 0xF5
  · rw [readHead_four rest (by omega) hfour] at h
    exact encode_of_readFour h (by omega) hfour
  · rw [readHead, if_neg hone, if_neg hstray, if_neg htwo, if_neg hthree, if_neg hfour] at h
    cases h

/-! ## Whole texts -/

theorem encode_cons (c : Char) (text : List Char) :
    encode (c :: text) = utf8EncodeChar c ++ encode text :=
  List.flatMap_cons

/-- Lenient reading takes back what was written. -/
theorem decodeLenient_encode (text : List Char) : decodeLenient (encode text) = text := by
  induction text with
  | nil => rw [encode, List.flatMap_nil, decodeLenient]
  | cons c rest ih =>
    obtain ⟨first, tail, hc, hread⟩ := readHead_encode c (encode rest)
    rw [encode_cons, hc, List.cons_append, decodeLenient, hread]
    simp only [Nat.add_sub_cancel, List.drop_left]
    rw [ih]

/-- Strict reading takes back what was written. -/
theorem decodeFrom_encode (position : Nat) (text : List Char) :
    decodeFrom position (encode text) = .ok text := by
  induction text generalizing position with
  | nil => rw [encode, List.flatMap_nil, decodeFrom]
  | cons c rest ih =>
    obtain ⟨first, tail, hc, hread⟩ := readHead_encode c (encode rest)
    rw [encode_cons, hc, List.cons_append, decodeFrom, hread]
    simp only [Nat.add_sub_cancel, List.drop_left]
    rw [ih]
    rfl

/-- Strict reading accepts only what was written. -/
theorem encode_decodeFrom {position : Nat} {bytes : Bytes} {text : List Char}
    (h : decodeFrom position bytes = .ok text) : encode text = bytes := by
  induction position, bytes using decodeFrom.induct generalizing text with
  | case1 position =>
    rw [decodeFrom] at h
    cases h
    rfl
  | case2 position first rest c width hread ih =>
    rw [decodeFrom, hread] at h
    simp only at h
    cases hrest : decodeFrom (position + width) (rest.drop (width - 1)) with
    | error flaw =>
      rw [hrest] at h
      cases h
    | ok tail =>
      rw [hrest] at h
      cases h
      rw [encode_cons, ih hrest]
      exact (encode_of_readHead hread).symm
  | case3 position first rest width defect hread =>
    rw [decodeFrom, hread] at h
    cases h

theorem decode_eq_ok {bytes : Bytes} {text : List Char} :
    decode bytes = .ok text ↔ bytes = encode text := by
  constructor
  · exact fun h => (encode_decodeFrom h).symm
  · rintro rfl
    exact decodeFrom_encode 0 text

theorem encode_injective {a b : List Char} (h : encode a = encode b) : a = b := by
  have hread := decodeFrom_encode 0 a
  rw [h, decodeFrom_encode] at hread
  exact (Except.ok.inj hread).symm

/-- Bytes in which no flaw was found are the encoding of what was read. -/
theorem encode_decodeLenient {bytes : Bytes} (h : replacement ∉ decodeLenient bytes) :
    encode (decodeLenient bytes) = bytes := by
  induction bytes using decodeLenient.induct with
  | case1 => rw [decodeLenient, encode, List.flatMap_nil]
  | case2 first rest c width hread ih =>
    rw [decodeLenient, hread] at h ⊢
    rw [encode_cons, ih fun hmem => h (List.mem_cons_of_mem c hmem)]
    exact (encode_of_readHead hread).symm
  | case3 first rest width defect hread ih =>
    rw [decodeLenient, hread] at h
    exact absurd List.mem_cons_self h

/-- The byte-order mark. -/
def mark : Char := Char.ofNat 0xFEFF

/-- The text without the byte-order mark at its start. -/
def unmarked : List Char → List Char
  | [] => []
  | c :: rest => if c = mark then rest else c :: rest

theorem dropMark_cases (bytes : Bytes) :
    bytes = 0xEF :: 0xBB :: 0xBF :: dropMark bytes ∨ dropMark bytes = bytes := by
  rw [dropMark.eq_def]
  split
  · exact Or.inl rfl
  · exact Or.inr rfl

theorem dropMark_encode (text : List Char) : dropMark (encode text) = encode (unmarked text) := by
  cases text with
  | nil => rfl
  | cons c rest =>
    rw [unmarked]
    split
    case isTrue hmark =>
      rw [hmark, encode_cons]
      rfl
    case isFalse hother =>
      refine (dropMark_cases _).resolve_left fun hstart => hother ?_
      -- only the byte-order mark itself is read where the three bytes stand
      obtain ⟨first, tail, hc, hread⟩ := readHead_encode c (encode rest)
      rw [encode_cons, hc, List.cons_append, List.cons.injEq] at hstart
      rw [hstart.1, hstart.2] at hread
      have hmark (after : Bytes) : readHead 0xEF (0xBB :: 0xBF :: after) = .char mark 3 := rfl
      rw [hmark] at hread
      exact (Reading.char.inj hread).1.symm

end SerialConsole.Utf8
