import SerialConsole.Text.Blank

set_option autoImplicit false

/-!
# Trimmed texts and cut lines

`Trimmed` says what trimming is for without saying how it is done, and `trimmed_iff` that `trim`
does it. A text that is cut at a separator has pieces without the separator.
-/
namespace SerialConsole.Text

/-- Every character of a text is white space. -/
def Blank (text : List Char) : Prop := ∀ c ∈ text, isBlank c = true

/-- A text without white space at either end. -/
def Bare (text : List Char) : Prop :=
  (∀ c, text.head? = some c → isBlank c = false) ∧
    ∀ c, text.getLast? = some c → isBlank c = false

/-- `text` is what stands between the white space at the two ends of `raw`. -/
def Trimmed (raw text : List Char) : Prop :=
  Bare text ∧ ∃ before after, raw = before ++ text ++ after ∧ Blank before ∧ Blank after

theorem blank_nil : Blank [] := fun _ h => absurd h List.not_mem_nil

theorem blank_cons {c : Char} {text : List Char} :
    Blank (c :: text) ↔ isBlank c = true ∧ Blank text := List.forall_mem_cons

theorem blank_append {a b : List Char} : Blank (a ++ b) ↔ Blank a ∧ Blank b :=
  List.forall_mem_append

theorem trimEnd_nil : trimEnd [] = [] := rfl

theorem trimEnd_step (c : Char) (rest : List Char) : trimEnd (c :: rest) =
    match trimEnd rest with
    | [] => if isBlank c then [] else [c]
    | kept => c :: kept := rfl

theorem trim_eq (text : List Char) : trim text = trimEnd (text.dropWhile isBlank) := rfl

theorem trimEnd_eq_nil_iff (text : List Char) : trimEnd text = [] ↔ Blank text := by
  induction text with
  | nil => exact ⟨fun _ => blank_nil, fun _ => rfl⟩
  | cons c rest ih =>
    rw [blank_cons, ← ih, trimEnd_step]
    cases trimEnd rest with
    | nil => cases isBlank c <;> simp
    | cons _ _ => simp

theorem trimEnd_cons {c : Char} {rest : List Char} (h : isBlank c = false ∨ ¬ Blank rest) :
    trimEnd (c :: rest) = c :: trimEnd rest := by
  rw [trimEnd_step]
  cases hr : trimEnd rest with
  | nil =>
    have hb : Blank rest := (trimEnd_eq_nil_iff rest).1 hr
    have hc : isBlank c = false := h.resolve_right fun hn => hn hb
    simp [hc]
  | cons _ _ => rfl

/-- Nothing in front of a character that stays is dropped. -/
theorem trimEnd_append {text rest : List Char} (h : ¬ Blank rest) :
    trimEnd (text ++ rest) = text ++ trimEnd rest := by
  induction text with
  | nil => rfl
  | cons c tail ih =>
    have hstop : ¬ Blank (tail ++ rest) := fun hall => h (blank_append.1 hall).2
    rw [List.cons_append, trimEnd_cons (Or.inr hstop), ih, List.cons_append]

/-- What `trimEnd` drops is white space, and what it keeps does not end in any. -/
theorem trimEnd_spec (text : List Char) :
    (∀ c, (trimEnd text).getLast? = some c → isBlank c = false) ∧
      ∃ after, text = trimEnd text ++ after ∧ Blank after := by
  induction text with
  | nil => exact ⟨by simp [trimEnd_nil], [], rfl, blank_nil⟩
  | cons c rest ih =>
    by_cases hall : Blank (c :: rest)
    · rw [(trimEnd_eq_nil_iff _).2 hall]
      exact ⟨by simp, c :: rest, rfl, hall⟩
    · have hstop : isBlank c = false ∨ ¬ Blank rest := by
        cases hc : isBlank c with
        | false => exact Or.inl rfl
        | true => exact Or.inr fun hr => hall (blank_cons.2 ⟨hc, hr⟩)
      obtain ⟨hlast, after, hsplit, hafter⟩ := ih
      rw [trimEnd_cons hstop]
      refine ⟨?_, after, by rw [List.cons_append, ← hsplit], hafter⟩
      intro d hd
      cases hr : trimEnd rest with
      | nil =>
        have hc : isBlank c = false :=
          hstop.resolve_right fun hn => hn ((trimEnd_eq_nil_iff rest).1 hr)
        rw [hr, List.getLast?_singleton, Option.some.injEq] at hd
        exact hd ▸ hc
      | cons x xs =>
        rw [hr, List.getLast?_cons_cons] at hd
        exact hlast d (by rw [hr, hd])

theorem trimEnd_append_blank (text after : List Char) (h : Blank after) :
    trimEnd (text ++ after) = trimEnd text := by
  induction text with
  | nil => exact (trimEnd_eq_nil_iff after).2 h
  | cons c rest ih => rw [List.cons_append, trimEnd_step, ih, trimEnd_step]

theorem trimEnd_of_bare {text : List Char}
    (h : ∀ c, text.getLast? = some c → isBlank c = false) : trimEnd text = text := by
  induction text with
  | nil => rfl
  | cons c rest ih =>
    cases rest with
    | nil => simp [trimEnd_step, trimEnd_nil, h c rfl]
    | cons d tail =>
      have hrest : trimEnd (d :: tail) = d :: tail :=
        ih fun x hx => h x (by rw [List.getLast?_cons_cons, hx])
      rw [trimEnd_step, hrest]

theorem dropWhile_blank_append (before text : List Char) (h : Blank before) :
    (before ++ text).dropWhile isBlank = text.dropWhile isBlank :=
  List.dropWhile_append_of_pos h

theorem trimmed_trim (raw : List Char) : Trimmed raw (trim raw) := by
  obtain ⟨hlast, after, hsplit, hafter⟩ := trimEnd_spec (raw.dropWhile isBlank)
  refine ⟨⟨?_, hlast⟩, raw.takeWhile isBlank, after, ?_, ?_, hafter⟩
  · intro c hc
    have hhead : (raw.dropWhile isBlank).head? = some c := by
      rw [hsplit, List.head?_append]
      exact Option.or_eq_some_iff.2 (Or.inl hc)
    have hstop := List.head?_dropWhile_not isBlank raw
    rw [hhead] at hstop
    exact hstop
  · rw [List.append_assoc, trim_eq, ← hsplit, List.takeWhile_append_dropWhile]
  · exact fun c hc => List.all_eq_true.1 List.all_takeWhile c hc

/-- `trim` gives the one text that stands between the white space at the two ends. -/
theorem trimmed_iff {raw text : List Char} : Trimmed raw text ↔ trim raw = text := by
  constructor
  · rintro ⟨hbare, before, after, rfl, hbefore, hafter⟩
    rw [trim_eq, List.append_assoc, dropWhile_blank_append before _ hbefore]
    cases text with
    | nil =>
      have hall : after.dropWhile isBlank = [] := by
        simpa using dropWhile_blank_append after [] hafter
      rw [List.nil_append, hall, trimEnd_nil]
    | cons c rest =>
      have hc : ¬ isBlank c = true := by simp [hbare.1 c rfl]
      rw [List.cons_append, List.dropWhile_cons_of_neg hc, ← List.cons_append,
        trimEnd_append_blank _ _ hafter, trimEnd_of_bare hbare.2]
  · rintro rfl
    exact trimmed_trim raw

theorem bare_trim (raw : List Char) : Bare (trim raw) := (trimmed_trim raw).1

theorem trim_eq_nil_iff (raw : List Char) : trim raw = [] ↔ Blank raw := by
  rw [← trimmed_iff]
  constructor
  · rintro ⟨_, before, after, rfl, hbefore, hafter⟩
    rw [List.append_nil]
    exact blank_append.2 ⟨hbefore, hafter⟩
  · intro h
    exact ⟨⟨by simp, by simp⟩, raw, [], by simp, h, blank_nil⟩

theorem trim_append_blank {text after : List Char} (h : Blank after) :
    trim (text ++ after) = trim text := by
  obtain ⟨hbare, before, rest, htext, hbefore, hrest⟩ := trimmed_trim text
  refine trimmed_iff.1 ⟨hbare, before, rest ++ after, ?_, hbefore, blank_append.2 ⟨hrest, h⟩⟩
  rw [← List.append_assoc, ← htext]

theorem trim_blank_append {before text : List Char} (h : Blank before) :
    trim (before ++ text) = trim text := by
  rw [trim_eq, dropWhile_blank_append before text h, trim_eq]

/-- Trimming starts at the first character that is no white space. -/
theorem trim_cons {c : Char} (rest : List Char) (h : isBlank c = false) :
    trim (c :: rest) = c :: trimEnd rest := by
  rw [trim_eq, List.dropWhile_cons_of_neg (by simp [h]), trimEnd_cons (Or.inl h)]

theorem mem_of_mem_trim {c : Char} {raw : List Char} (h : c ∈ trim raw) : c ∈ raw := by
  obtain ⟨_, before, after, hraw, _, _⟩ := trimmed_trim raw
  rw [hraw]
  exact List.mem_append_left _ (List.mem_append_right _ h)

theorem splitAt_nil (separator : Char) : splitAt separator [] = [[]] := rfl

theorem splitAt_cons (separator c : Char) (rest : List Char) : splitAt separator (c :: rest) =
    if c = separator then [] :: splitAt separator rest
    else
      match splitAt separator rest with
      | [] => [[c]]
      | piece :: pieces => (c :: piece) :: pieces := rfl

theorem splitAt_ne_nil (separator : Char) (text : List Char) : splitAt separator text ≠ [] := by
  cases text with
  | nil => simp [splitAt_nil]
  | cons c rest =>
    rw [splitAt_cons]
    split
    · simp
    · split <;> simp

/-- A text without the separator is one piece. -/
theorem splitAt_of_not_mem {separator : Char} {text : List Char} (h : separator ∉ text) :
    splitAt separator text = [text] := by
  induction text with
  | nil => rfl
  | cons c rest ih =>
    obtain ⟨hc, hrest⟩ := not_or.1 (mt List.mem_cons.2 h)
    rw [splitAt_cons, if_neg (Ne.symm hc), ih hrest]

/-- A text is cut at its first separator. -/
theorem splitAt_append {separator : Char} {head : List Char} (more : List Char)
    (h : separator ∉ head) :
    splitAt separator (head ++ separator :: more) = head :: splitAt separator more := by
  induction head with
  | nil => rw [List.nil_append, splitAt_cons, if_pos rfl]
  | cons c rest ih =>
    obtain ⟨hc, hrest⟩ := not_or.1 (mt List.mem_cons.2 h)
    rw [List.cons_append, splitAt_cons, if_neg (Ne.symm hc), ih hrest]

/-- No piece of a cut text holds the separator. -/
theorem not_mem_of_mem_splitAt {separator : Char} {text piece : List Char}
    (h : piece ∈ splitAt separator text) : separator ∉ piece := by
  induction text generalizing piece with
  | nil => simp_all [splitAt_nil]
  | cons c rest ih =>
    rw [splitAt_cons] at h
    split at h
    case isTrue =>
      rcases List.mem_cons.1 h with rfl | hrest
      · exact List.not_mem_nil
      · exact ih hrest
    case isFalse hc =>
      cases hcut : splitAt separator rest with
      | nil => exact absurd hcut (splitAt_ne_nil separator rest)
      | cons first others =>
        rw [hcut] at h
        rcases List.mem_cons.1 h with rfl | hrest
        · have hfirst : separator ∉ first := ih (by rw [hcut]; exact List.mem_cons_self)
          exact fun hm => (List.mem_cons.1 hm).elim (fun he => hc he.symm) hfirst
        · exact ih (by rw [hcut]; exact List.mem_cons_of_mem _ hrest)

end SerialConsole.Text
