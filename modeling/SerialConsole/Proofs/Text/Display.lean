import SerialConsole.Proofs.Text.Hex
import SerialConsole.Proofs.Text.Utf8

set_option autoImplicit false

/-!
# Text that is safe to display

What bytes are shown as disturbs no display, and says what the bytes are: a text that was written is
shown as itself or as its bytes, and bytes without flaws can be got back from what is shown
(`display_safe_and_faithful`).
-/
namespace SerialConsole

open Utf8 (unmarked replacement)

/-- A control character, other than tab and the two line ends. -/
def Disturbs (c : Char) : Prop :=
  c.toNat ≤ 0x08 ∨ 0x0B ≤ c.toNat ∧ c.toNat ≤ 0x0C ∨ 0x0E ≤ c.toNat ∧ c.toNat ≤ 0x1F ∨
    0x7F ≤ c.toNat ∧ c.toNat ≤ 0x9F

instance (c : Char) : Decidable (Disturbs c) :=
  inferInstanceAs (Decidable (_ ∨ _ ∧ _ ∨ _ ∧ _ ∨ _ ∧ _))

theorem isControl_iff (c : Char) : isControl c = true ↔ Disturbs c := by
  simp only [isControl, Disturbs, Bool.or_eq_true, Bool.and_eq_true, decide_eq_true_eq, beq_iff_eq]
  omega

theorem any_isControl_iff (text : List Char) :
    text.any isControl = true ↔ ∃ c ∈ text, Disturbs c := by
  simp only [List.any_eq_true, isControl_iff]

theorem toList_bytesToText (bytes : Bytes) : (bytesToText bytes).toList = displayText bytes :=
  String.toList_ofList

theorem Hex.not_disturbs_of_mem_encode {bytes : Bytes} {c : Char} (h : c ∈ Hex.encode bytes) :
    ¬ Disturbs c := by
  rw [← isControl_iff]
  rcases Hex.mem_encode h with rfl | ⟨n, hn, rfl⟩
  · decide
  · clear h
    revert n
    decide

theorem displayText_undisturbed {bytes : Bytes}
    (h : ¬ ∃ c ∈ Utf8.decodeLenient (Utf8.dropMark bytes), Disturbs c) :
    displayText bytes = Utf8.decodeLenient (Utf8.dropMark bytes) := by
  rw [← any_isControl_iff] at h
  rw [displayText, if_neg h]

theorem displayText_disturbed {bytes : Bytes}
    (h : ∃ c ∈ Utf8.decodeLenient (Utf8.dropMark bytes), Disturbs c) :
    displayText bytes = Hex.encode bytes := by
  rw [← any_isControl_iff] at h
  rw [displayText, if_pos h]

theorem displayText_safe {bytes : Bytes} {c : Char} (h : c ∈ displayText bytes) : ¬ Disturbs c := by
  by_cases hcontrol : ∃ c ∈ Utf8.decodeLenient (Utf8.dropMark bytes), Disturbs c
  · rw [displayText_disturbed hcontrol] at h
    exact Hex.not_disturbs_of_mem_encode h
  · rw [displayText_undisturbed hcontrol] at h
    exact fun hc => hcontrol ⟨c, h, hc⟩

theorem lenient_textToBytes (text : String) :
    Utf8.decodeLenient (Utf8.dropMark (textToBytes text)) = unmarked text.toList := by
  rw [textToBytes, Utf8.dropMark_encode, Utf8.decodeLenient_encode]

/-- Bytes of which a text came without flaws and without control characters are that text, maybe
behind a byte-order mark. -/
theorem bytes_of_displayText {bytes : Bytes}
    (h : ∀ c ∈ Utf8.decodeLenient (Utf8.dropMark bytes), ¬ Disturbs c ∧ c ≠ replacement) :
    bytes = textToBytes (bytesToText bytes) ∨
      bytes = 0xEF :: 0xBB :: 0xBF :: textToBytes (bytesToText bytes) := by
  have hshown := displayText_undisturbed fun ⟨c, hmem, hc⟩ => (h c hmem).1 hc
  have hback := Utf8.encode_decodeLenient fun hmem => (h _ hmem).2 rfl
  rw [textToBytes, toList_bytesToText, hshown, hback]
  exact (Utf8.dropMark_cases bytes).symm.imp_left Eq.symm

/-- What bytes are shown as has no control character but tab and line ends. A text that was written
is shown without a byte-order mark at its start, or as its bytes if it has a control character. From
what is shown of bytes that are a text without control characters the bytes can be got back. -/
theorem display_safe_and_faithful (bytes : Bytes) (text : String) :
    (∀ c ∈ (bytesToText bytes).toList, ¬ Disturbs c) ∧
      ((∀ c ∈ unmarked text.toList, ¬ Disturbs c) →
        (bytesToText (textToBytes text)).toList = unmarked text.toList) ∧
      ((∃ c ∈ unmarked text.toList, Disturbs c) →
        (bytesToText (textToBytes text)).toList = Hex.encode (textToBytes text)) ∧
      ((∀ c ∈ Utf8.decodeLenient (Utf8.dropMark bytes), ¬ Disturbs c ∧ c ≠ replacement) →
        bytes = textToBytes (bytesToText bytes) ∨
          bytes = 0xEF :: 0xBB :: 0xBF :: textToBytes (bytesToText bytes)) := by
  refine ⟨fun c hc => ?_, fun h => ?_, fun h => ?_, bytes_of_displayText⟩
  · rw [toList_bytesToText] at hc
    exact displayText_safe hc
  · rw [toList_bytesToText, displayText_undisturbed, lenient_textToBytes]
    rw [lenient_textToBytes]
    exact fun ⟨c, hmem, hc⟩ => h c hmem hc
  · rw [toList_bytesToText, displayText_disturbed]
    rwa [lenient_textToBytes]

theorem display_safe_and_faithful_marked :
    (∀ c ∈ unmarked "\uFEFFAT\r\n".toList, ¬ Disturbs c) ∧
      (bytesToText (textToBytes "\uFEFFAT\r\n")).toList = "AT\r\n".toList ∧
      (∃ c ∈ unmarked "\uFEFFa\u0085".toList, Disturbs c) ∧
      (bytesToText (textToBytes "\uFEFFa\u0085")).toList = "EF BB BF 61 C2 85".toList ∧
      ([0xEF, 0xBB, 0xBF, 0x41] : Bytes) =
        0xEF :: 0xBB :: 0xBF :: textToBytes (bytesToText [0xEF, 0xBB, 0xBF, 0x41]) := by
  have hall : (unmarked "\uFEFFAT\r\n".toList).all (fun c => ¬ Disturbs c) = true := by decide
  have hplain : ∀ c ∈ unmarked "\uFEFFAT\r\n".toList, ¬ Disturbs c := fun c hc =>
    of_decide_eq_true (List.all_eq_true.1 hall c hc)
  have hcontrol : ∃ c ∈ unmarked "\uFEFFa\u0085".toList, Disturbs c :=
    ⟨Char.ofNat 0x85, by decide, by decide⟩
  obtain ⟨_, hshown, _⟩ := display_safe_and_faithful [] "\uFEFFAT\r\n"
  obtain ⟨_, _, hhex, _⟩ := display_safe_and_faithful [] "\uFEFFa\u0085"
  obtain ⟨_, _, _, hback⟩ := display_safe_and_faithful [0xEF, 0xBB, 0xBF, 0x41] ""
  have hread : Utf8.decodeLenient (Utf8.dropMark [0xEF, 0xBB, 0xBF, 0x41]) = ['A'] := by
    simp [Utf8.dropMark, Utf8.decodeLenient, Utf8.readHead]
  have htext : bytesToText [0xEF, 0xBB, 0xBF, 0x41] = "A" := by
    rw [bytesToText, displayText, hread]
    rfl
  rw [hread, htext] at hback
  refine ⟨hplain, (hshown hplain).trans (by decide), hcontrol, (hhex hcontrol).trans (by decide),
    ?_⟩
  rw [htext]
  exact (hback (List.forall_mem_singleton.2 (by decide))).resolve_left (by decide)

end SerialConsole
