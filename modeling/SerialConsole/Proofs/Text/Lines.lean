import SerialConsole.Proofs.Text.Trimming

set_option autoImplicit false

/-!
# Lines of a text

A text that is made of lines with a separator between each two is cut into these lines again, and a
text behind another one adds its lines to those of the first.
-/
namespace SerialConsole.Text

theorem trim_of_bare {text : List Char} (h : Bare text) : trim text = text :=
  trimmed_iff.1 ⟨h, [], [], by simp, blank_nil, blank_nil⟩

theorem not_blank_of_all {text : List Char} (h : text.all isBlank = false) : ¬ Blank text := by
  intro hblank
  cases h.symm.trans (List.all_eq_true.2 hblank)

theorem splitAt_append_cons (separator : Char) (front behind : List Char) :
    splitAt separator (front ++ separator :: behind) =
      splitAt separator front ++ splitAt separator behind := by
  induction front with
  | nil => simp [splitAt_cons, splitAt_nil]
  | cons c rest ih =>
    rw [List.cons_append, splitAt_cons, splitAt_cons, ih]
    split
    case isTrue => rfl
    case isFalse =>
      cases hcut : splitAt separator rest with
      | nil => exact absurd hcut (splitAt_ne_nil separator rest)
      | cons first others => rfl

/-- Lines without the separator are found again in the text that they make up. -/
theorem splitAt_joinWith {separator : Char} {lines : List (List Char)} (hsome : lines ≠ [])
    (h : ∀ line ∈ lines, separator ∉ line) :
    splitAt separator (joinWith [separator] lines) = lines := by
  induction lines with
  | nil => exact absurd rfl hsome
  | cons first rest ih =>
    obtain ⟨hfirst, hrest⟩ := List.forall_mem_cons.1 h
    cases rest with
    | nil => exact splitAt_of_not_mem hfirst
    | cons next others =>
      rw [joinWith, List.append_assoc, List.singleton_append, splitAt_append _ hfirst,
        ih (by simp) hrest]
      simp

/-- A text made of pieces, with one more separator behind it, is made of pieces that each have one
behind them. -/
theorem joinWith_append_separator (separator : List Char) {pieces : List (List Char)}
    (hsome : pieces ≠ []) :
    joinWith separator pieces ++ separator = pieces.flatMap (· ++ separator) := by
  induction pieces with
  | nil => exact absurd rfl hsome
  | cons first rest ih =>
    cases rest with
    | nil => simp [joinWith]
    | cons next others =>
      change first ++ separator ++ joinWith separator (next :: others) ++ separator = _
      rw [List.append_assoc, ih (List.cons_ne_nil next others)]
      rfl

/-- A text of blank lines is blank if the separator is. -/
theorem blank_of_splitAt {separator : Char} {text : List Char}
    (hseparator : isBlank separator = true) (h : ∀ line ∈ splitAt separator text, Blank line) :
    Blank text := by
  induction text with
  | nil => exact blank_nil
  | cons c rest ih =>
    rw [splitAt_cons] at h
    split at h
    case isTrue hc => exact blank_cons.2 ⟨hc ▸ hseparator, ih (List.forall_mem_cons.1 h).2⟩
    case isFalse =>
      cases hcut : splitAt separator rest with
      | nil => exact absurd hcut (splitAt_ne_nil separator rest)
      | cons first others =>
        rw [hcut] at h ih
        obtain ⟨hfirst, hothers⟩ := List.forall_mem_cons.1 h
        obtain ⟨hc, hbehind⟩ := blank_cons.1 hfirst
        exact blank_cons.2 ⟨hc, ih (List.forall_mem_cons.2 ⟨hbehind, hothers⟩)⟩

end SerialConsole.Text
