import SerialConsole.Yaml.Writer

set_option autoImplicit false

/-!
# What writing gives

Whatever a text is, what is written for it consists of line feeds and printable ASCII characters.
-/
namespace SerialConsole.Yaml

/-- There are no special characters in a written text. -/
def Clear (text : List Char) : Prop :=
  ∀ c ∈ text, isSpecial c = false

instance (text : List Char) : Decidable (Clear text) :=
  decidable_of_iff (text.all fun c => !isSpecial c) (by simp [Clear])

namespace Clear

variable {a b text : List Char} {c : Char}

theorem nil : Clear [] :=
  fun _ h => absurd h List.not_mem_nil

theorem cons (hc : isSpecial c = false) (h : Clear text) : Clear (c :: text) :=
  List.forall_mem_cons.2 ⟨hc, h⟩

theorem append (ha : Clear a) (hb : Clear b) : Clear (a ++ b) :=
  List.forall_mem_append.2 ⟨ha, hb⟩

theorem replicate (n : Nat) (hc : isSpecial c = false) : Clear (List.replicate n c) := by
  intro d hd
  rwa [List.eq_of_mem_replicate hd]

end Clear

variable {text : List Char}

theorem clear_newLine (indent : Nat) : Clear (newLine indent) :=
  .cons rfl (.replicate indent rfl)

theorem clear_plainFrom (indent column : Nat) (afterSpace : Bool) (h : Clear text) :
    Clear (plainFrom indent column afterSpace text) := by
  fun_induction plainFrom indent column afterSpace text with
  | case1 => exact .nil
  | case2 column afterSpace c rest hbreak ih =>
    exact (clear_newLine indent).append (ih (List.forall_mem_cons.1 h).2)
  | case3 column afterSpace c rest hbreak ih =>
    exact .cons (List.forall_mem_cons.1 h).1 (ih (List.forall_mem_cons.1 h).2)

theorem clear_singleFrom (indent column : Nat) (before : Option Char) (h : Clear text) :
    Clear (singleFrom indent column before text) := by
  fun_induction singleFrom indent column before text with
  | case1 => exact .nil
  | case2 column before c rest hspace hbreak ih =>
    exact (clear_newLine indent).append (ih (List.forall_mem_cons.1 h).2)
  | case3 column before c rest hspace hbreak ih =>
    exact .cons (List.forall_mem_cons.1 h).1 (ih (List.forall_mem_cons.1 h).2)
  | case4 column before c rest hspace hbreak opening closing ih =>
    have hopening : Clear opening := by
      unfold opening
      split
      · exact .nil
      · exact .cons rfl .nil
    have hclosing : Clear closing := by
      unfold closing
      split
      · exact .nil
      · exact .replicate indent rfl
    exact (hopening.append (.cons rfl hclosing)).append (ih (List.forall_mem_cons.1 h).2)
  | case5 column before c rest hspace hbreak hquote ih =>
    exact .cons rfl (.cons rfl (ih (List.forall_mem_cons.1 h).2))
  | case6 column before c rest hspace hbreak hquote ih =>
    exact .cons (List.forall_mem_cons.1 h).1 (ih (List.forall_mem_cons.1 h).2)

/-! ## Double quotes -/

theorem clear_hexLower (width n : Nat) : Clear ((Text.hexLower width n).map Char.toUpper) := by
  have hdigit : ∀ d < 16, isSpecial (Text.hexDigitLower d).toUpper = false := by decide +kernel
  induction width generalizing n with
  | zero => exact .nil
  | succ width ih =>
    rw [Text.hexLower, List.map_append]
    exact (ih (n / 16)).append (.cons (hdigit _ (Nat.mod_lt n (by decide))) .nil)

theorem isSpecial_of_escapeLetter {c letter : Char} (h : escapeLetter? c = some letter) :
    isSpecial letter = false := by
  unfold escapeLetter? at h
  split at h <;> cases h <;> rfl

theorem clear_escapeOf (c : Char) : Clear (escapeOf c) := by
  unfold escapeOf
  split
  case h_1 letter hletter => exact .cons rfl (.cons (isSpecial_of_escapeLetter hletter) .nil)
  case h_2 =>
    split
    · exact .cons rfl (.cons rfl (clear_hexLower 2 _))
    · split
      · exact .cons rfl (.cons rfl (clear_hexLower 4 _))
      · exact .cons rfl (.cons rfl (clear_hexLower 8 _))

theorem clear_doubleBreak (indent : Nat) (next : Option Char) : Clear (doubleBreak indent next) := by
  unfold doubleBreak
  split
  · exact .cons rfl ((clear_newLine indent).append (.cons rfl .nil))
  · exact .cons rfl ((clear_newLine indent).append .nil)

theorem isSpecial_of_not_escaped {c : Char} (h : ¬ isEscaped c = true) : isSpecial c = false := by
  simp only [isEscaped, Bool.or_eq_true, not_or, Bool.not_eq_true, Bool.not_eq_false'] at h
  rw [isSpecial, h.2, Bool.or_true]
  rfl

theorem clear_doubleFrom (indent column : Nat) (first fresh : Bool) (text : List Char) :
    Clear (doubleFrom indent column first fresh text) := by
  fun_induction doubleFrom indent column first fresh text with
  | case1 => exact .nil
  | case2 column first fresh c rest mayBreak start hescaped wider hlong ih =>
    exact ((clear_escapeOf c).append (clear_doubleBreak indent _)).append ih
  | case3 column first fresh c rest mayBreak hescaped wider hshort ih =>
    exact (clear_escapeOf c).append ih
  | case4 column first fresh c rest mayBreak start hplain hlong ih =>
    exact (clear_doubleBreak indent _).append (.cons (isSpecial_of_not_escaped hplain) ih)
  | case5 column first fresh c rest mayBreak hplain hshort ih =>
    exact .cons (isSpecial_of_not_escaped hplain) ih

/-- Special characters are only written as escapes. -/
theorem clear_writeText (column indent : Nat) (text : List Char) :
    Clear (writeText column indent text) := by
  have hfits (h : fitsSingleQuotes text = true) : Clear text := by
    simp only [fitsSingleQuotes, Bool.and_eq_true, Bool.not_eq_true'] at h
    simpa [Clear] using h.1.1
  unfold writeText
  split
  case isTrue hplain =>
    have hsingle : fitsSingleQuotes text = true := by
      simp only [fitsPlain, Bool.and_eq_true] at hplain
      exact hplain.1.1.1.1.2
    exact clear_plainFrom indent column false (hfits hsingle)
  case isFalse =>
    split
    case isTrue hsingle =>
      exact .cons rfl ((clear_singleFrom indent _ none (hfits hsingle)).append (.cons rfl .nil))
    case isFalse => exact .cons rfl ((clear_doubleFrom indent _ true true text).append (.cons rfl .nil))

end SerialConsole.Yaml
