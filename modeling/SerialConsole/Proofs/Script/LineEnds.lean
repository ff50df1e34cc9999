import SerialConsole.Proofs.Script.Grammar
import SerialConsole.Text.Lines

set_option autoImplicit false

/-!
# Line ends in scripts

A script is cut into lines at line feeds only, but when it is read back from a file a carriage
return ends a line as well (`splitAt_unifyLineEnds`). `numbered` are the lines that say something,
each with its number. If the file has the same numbers as the script, it says the same, but for a
carriage return in the last line that says something (`numbered_fileLines`).
-/
namespace SerialConsole

namespace Text

/-! ## Cutting at both line ends -/

/-- A line without a carriage return at its end. -/
def withoutReturn (line : List Char) : List Char :=
  if line.getLast? = some '\r' then line.dropLast else line

/-- The lines that a file has whose text is made of some lines with a line feed between each two. -/
def fileLines : List (List Char) → List (List Char)
  | [] => []
  | line :: rest =>
    splitAt '\r' (if rest = [] then line else withoutReturn line) ++ fileLines rest

theorem fileLines_cons (line : List Char) (rest : List (List Char)) :
    fileLines (line :: rest) =
      splitAt '\r' (if rest = [] then line else withoutReturn line) ++ fileLines rest := rfl

theorem splitAt_cons_self (separator : Char) (text : List Char) :
    splitAt separator (separator :: text) = [] :: splitAt separator text := by
  rw [splitAt_cons, if_pos rfl]

/-- A character that is no separator belongs to the first piece. -/
theorem splitAt_cons_of_ne {separator c : Char} {text first : List Char} {others : List (List Char)}
    (h : c ≠ separator) (hcut : splitAt separator text = first :: others) :
    splitAt separator (c :: text) = (c :: first) :: others := by
  rw [splitAt_cons, if_neg h, hcut]

theorem exists_splitAt (separator : Char) (text : List Char) :
    ∃ first others, splitAt separator text = first :: others :=
  List.exists_cons_of_ne_nil (splitAt_ne_nil separator text)

theorem withoutReturn_cons {c : Char} {line : List Char} (h : c ≠ '\r' ∨ line ≠ []) :
    withoutReturn (c :: line) = c :: withoutReturn line := by
  unfold withoutReturn
  cases line with
  | nil => simp [h.resolve_right (absurd rfl)]
  | cons d rest =>
    rw [List.getLast?_cons_cons, List.dropLast_cons_cons]
    split <;> rfl

theorem fileLines_cons_of_ne {c : Char} (first : List Char) (others : List (List Char))
    (h : c ≠ '\r') : ∃ piece pieces, fileLines (first :: others) = piece :: pieces ∧
      fileLines ((c :: first) :: others) = (c :: piece) :: pieces := by
  have hline : (if others = [] then c :: first else withoutReturn (c :: first)) =
      c :: if others = [] then first else withoutReturn first := by
    rw [withoutReturn_cons (Or.inl h)]
    split <;> rfl
  rw [fileLines_cons, fileLines_cons, hline]
  obtain ⟨piece, pieces, hcut⟩ :=
    exists_splitAt '\r' (if others = [] then first else withoutReturn first)
  rw [splitAt_cons_of_ne h hcut, hcut]
  exact ⟨piece, pieces ++ fileLines others, rfl, rfl⟩

/-- The lines of a text that was read back from a file. -/
theorem splitAt_unifyLineEnds (text : List Char) :
    splitAt '\n' (unifyLineEnds text) = fileLines (splitAt '\n' text) := by
  induction text using unifyLineEnds.induct with
  | case1 => rfl
  | case2 rest ih =>
    obtain ⟨first, others, hcut⟩ := exists_splitAt '\n' rest
    rw [unifyLineEnds, splitAt_cons_self, ih,
      splitAt_cons_of_ne (by decide) (splitAt_cons_self '\n' rest), fileLines_cons,
      if_neg (splitAt_ne_nil '\n' rest)]
    rfl
  | case3 rest hnext ih =>
    obtain ⟨first, others, hcut⟩ := exists_splitAt '\n' rest
    rw [unifyLineEnds, splitAt_cons_self, ih, splitAt_cons_of_ne (by decide) hcut, hcut]
    · have hline : (if others = [] then '\r' :: first else withoutReturn ('\r' :: first)) =
          '\r' :: if others = [] then first else withoutReturn first := by
        split
        case isTrue => rfl
        case isFalse hmore =>
          refine withoutReturn_cons (Or.inr ?_)
          rintro rfl
          cases rest with
          | nil =>
            cases hcut
            exact hmore rfl
          | cons d tail =>
            have hd : d ≠ '\n' := fun hd => hnext tail (by rw [hd])
            obtain ⟨piece, pieces, htail⟩ := exists_splitAt '\n' tail
            rw [splitAt_cons_of_ne hd htail] at hcut
            cases hcut
      rw [fileLines_cons, fileLines_cons, hline, splitAt_cons_self]
      rfl
    · exact hnext
  | case4 c rest hpair hlone ih =>
    obtain ⟨first, others, hcut⟩ := exists_splitAt '\n' rest
    rw [unifyLineEnds]
    · by_cases hc : c = '\n'
      · subst hc
        rw [splitAt_cons_self, splitAt_cons_self, ih, fileLines_cons,
          if_neg (splitAt_ne_nil '\n' rest)]
        rfl
      · have hreturn : c ≠ '\r' := hlone
        obtain ⟨piece, pieces, hlines, hmore⟩ := fileLines_cons_of_ne first others hreturn
        rw [splitAt_cons_of_ne hc hcut, hmore]
        exact splitAt_cons_of_ne hc (ih.trans (hcut ▸ hlines))
    · exact hpair
    · exact hlone

theorem blank_return : Blank ['\r'] :=
  blank_cons.2 ⟨by decide, blank_nil⟩

theorem trim_withoutReturn (line : List Char) : trim (withoutReturn line) = trim line := by
  unfold withoutReturn
  split
  case isFalse => rfl
  case isTrue hlast =>
    obtain ⟨front, rfl⟩ := List.getLast?_eq_some_iff.1 hlast
    rw [List.dropLast_concat, trim_append_blank blank_return]

theorem blank_unifyLineEnds (text : List Char) : Blank (unifyLineEnds text) ↔ Blank text := by
  have hreturn : isBlank '\r' = true := by decide
  have hfeed : isBlank '\n' = true := by decide
  induction text using unifyLineEnds.induct with
  | case1 => rfl
  | case2 rest ih => simp only [unifyLineEnds, blank_cons, ih, hreturn, hfeed, true_and]
  | case3 rest hnext ih =>
    rw [unifyLineEnds]
    · simp only [blank_cons, ih, hreturn, hfeed, true_and]
    · exact hnext
  | case4 c rest hpair hlone ih =>
    rw [unifyLineEnds]
    · simp only [blank_cons, ih]
    · exact hpair
    · exact hlone

end Text

namespace Script

open Text

/-! ## What a script says -/

/-- The lines that say something, trimmed, each with its number; the first line has number `n`. -/
def numbered (n : Nat) : List (List Char) → List (Nat × List Char)
  | [] => []
  | raw :: rest =>
    if isSilent (trim raw) then numbered (n + 1) rest
    else (n, trim raw) :: numbered (n + 1) rest

theorem numbered_cons (n : Nat) (raw : List Char) (rest : List (List Char)) :
    numbered n (raw :: rest) =
      if isSilent (trim raw) then numbered (n + 1) rest
      else (n, trim raw) :: numbered (n + 1) rest := rfl

theorem numbered_silent {n : Nat} {raw : List Char} {rest : List (List Char)}
    (h : isSilent (trim raw) = true) : numbered n (raw :: rest) = numbered (n + 1) rest := by
  rw [numbered_cons, if_pos h]

theorem numbered_speaking {n : Nat} {raw : List Char} {rest : List (List Char)}
    (h : isSilent (trim raw) = false) :
    numbered n (raw :: rest) = (n, trim raw) :: numbered (n + 1) rest := by
  rw [numbered_cons, if_neg (by simp [h])]

theorem numbered_append (n : Nat) (a b : List (List Char)) :
    numbered n (a ++ b) = numbered n a ++ numbered (n + a.length) b := by
  induction a generalizing n with
  | nil => rfl
  | cons raw rest ih =>
    rw [List.cons_append, numbered_cons, numbered_cons, ih, List.length_cons, Nat.add_right_comm,
      ← Nat.add_assoc]
    split <;> rfl

theorem le_of_mem_numbered {n m : Nat} {text : List Char} {lines : List (List Char)}
    (h : (m, text) ∈ numbered n lines) : n ≤ m := by
  induction lines generalizing n with
  | nil => cases h
  | cons raw rest ih =>
    rw [numbered_cons] at h
    split at h
    case isTrue => exact Nat.le_of_succ_le (ih h)
    case isFalse =>
      rcases List.mem_cons.1 h with hsame | hrest
      · cases hsame
        exact Nat.le_refl _
      · exact Nat.le_of_succ_le (ih hrest)

/-- The numbers of the lines rise. -/
theorem numbered_rising (n : Nat) (lines : List (List Char)) :
    (numbered n lines).Pairwise fun a b => a.1 < b.1 := by
  induction lines generalizing n with
  | nil => exact .nil
  | cons raw rest ih =>
    rw [numbered_cons]
    split
    case isTrue => exact ih (n + 1)
    case isFalse => exact .cons (fun b hb => le_of_mem_numbered hb) (ih (n + 1))

theorem bare_of_mem_numbered {n m : Nat} {text : List Char} {lines : List (List Char)}
    (h : (m, text) ∈ numbered n lines) : Bare text := by
  induction lines generalizing n with
  | nil => cases h
  | cons raw rest ih =>
    rw [numbered_cons] at h
    split at h
    case isTrue => exact ih h
    case isFalse =>
      rcases List.mem_cons.1 h with hsame | hrest
      · cases hsame
        exact bare_trim raw
      · exact ih hrest

theorem mem_numbered {raw : List Char} {lines : List (List Char)} (h : raw ∈ lines)
    (hspoken : isSilent (trim raw) = false) (n : Nat) :
    ∃ m text, n ≤ m ∧ (m, text) ∈ numbered n lines := by
  induction lines generalizing n with
  | nil => cases h
  | cons first rest ih =>
    rw [numbered_cons]
    cases hfirst : isSilent (trim first) with
    | false => exact ⟨n, trim first, Nat.le_refl n, List.mem_cons_self⟩
    | true =>
      have hrest : raw ∈ rest := by
        refine (List.mem_cons.1 h).resolve_left ?_
        rintro rfl
        rw [hfirst] at hspoken
        cases hspoken
      obtain ⟨m, text, hle, hmem⟩ := ih hrest (n + 1)
      exact ⟨m, text, Nat.le_of_succ_le hle, by rwa [if_pos rfl]⟩

/-- A line that says something has a piece that does. -/
theorem exists_speaking_piece {line : List Char} (h : isSilent (trim line) = false) :
    ∃ piece ∈ splitAt '\r' line, isSilent (trim piece) = false := by
  have hblank : ∀ {c : Char} (text : List Char), isBlank c = true → trim (c :: text) = trim text :=
    fun text hc => trim_blank_append (blank_cons.2 ⟨hc, blank_nil⟩)
  induction line with
  | nil => cases h
  | cons c rest ih =>
    by_cases hc : c = '\r'
    · subst hc
      rw [hblank rest (by decide)] at h
      obtain ⟨piece, hmem, hspoken⟩ := ih h
      exact ⟨piece, by rw [splitAt_cons_self]; exact List.mem_cons_of_mem _ hmem, hspoken⟩
    · obtain ⟨first, others, hcut⟩ := exists_splitAt '\r' rest
      rw [splitAt_cons_of_ne hc hcut]
      cases hspace : isBlank c with
      | true =>
        rw [hblank rest hspace] at h
        obtain ⟨piece, hmem, hspoken⟩ := ih h
        rw [hcut] at hmem
        rcases List.mem_cons.1 hmem with rfl | hmem
        · exact ⟨c :: piece, List.mem_cons_self, by rwa [hblank piece hspace]⟩
        · exact ⟨piece, List.mem_cons_of_mem _ hmem, hspoken⟩
      | false =>
        have hstart : ∀ text, isSilent (trim (c :: text)) = (c == '#') := fun text => by
          rw [trim_cons text hspace, isSilent]
        exact ⟨c :: first, List.mem_cons_self, by rw [hstart] at h ⊢; exact h⟩

/-- A line of a file without the carriage return that belongs to its end. -/
theorem trim_fileLine (line : List Char) (rest : List (List Char)) :
    trim (if rest = [] then line else withoutReturn line) = trim line := by
  split
  case isTrue => rfl
  case isFalse => exact trim_withoutReturn line

/-- What stands in a line still stands in the file, no further up than in the script. -/
theorem exists_later {lines : List (List Char)} {n n' m : Nat} {text : List Char}
    (h : (m, text) ∈ numbered n lines) (hle : n ≤ n') :
    ∃ m' text', (m', text') ∈ numbered n' (fileLines lines) ∧ m + n' ≤ m' + n := by
  induction lines generalizing n n' with
  | nil => cases h
  | cons line rest ih =>
    have hrest : (m, text) ∈ numbered (n + 1) rest →
        ∃ m' text', (m', text') ∈ numbered n' (fileLines (line :: rest)) ∧ m + n' ≤ m' + n := by
      intro hmem
      rw [fileLines_cons, numbered_append]
      generalize hpieces : splitAt '\r' _ = pieces
      have hsome : 0 < pieces.length :=
        List.length_pos_of_ne_nil (hpieces ▸ splitAt_ne_nil '\r' _)
      have hbound : n + 1 ≤ n' + pieces.length := by omega
      obtain ⟨m', text', hlater, hfar⟩ := ih hmem hbound
      exact ⟨m', text', List.mem_append_right _ hlater, by omega⟩
    rw [numbered_cons] at h
    cases hspoken : isSilent (trim line) with
    | true =>
      rw [hspoken, if_pos rfl] at h
      exact hrest h
    | false =>
      rw [hspoken, if_neg Bool.false_ne_true] at h
      rcases List.mem_cons.1 h with hsame | hmem
      · cases hsame
        rw [← trim_fileLine line rest] at hspoken
        obtain ⟨piece, hpiece, hspeaks⟩ := exists_speaking_piece hspoken
        obtain ⟨m', text', hfar, hlater⟩ := mem_numbered hpiece hspeaks n'
        rw [fileLines_cons, numbered_append]
        exact ⟨m', text', List.mem_append_left _ hlater, by omega⟩
      · exact hrest hmem

/-- What a carriage return in a line does to the text of the line: either it stood behind the text,
or the text is cut there. -/
theorem trim_cut {head : List Char} (more : List Char) (hhead : trim head ≠ []) :
    trim (head ++ '\r' :: more) = trim head ∨
      ∃ start rest, trim (head ++ '\r' :: more) = start ++ '\r' :: rest ∧
        trim start = trim head ∧ ∀ c ∈ start, c ∈ head := by
  by_cases hmore : Blank more
  · exact Or.inl (trim_append_blank (blank_cons.2 ⟨by decide, hmore⟩))
  · obtain ⟨hbare, before, after, hsplit, hbefore, hafter⟩ := trimmed_trim head
    obtain ⟨c, text, htext⟩ := List.exists_cons_of_ne_nil hhead
    have hc : isBlank c = false := hbare.1 c (by rw [htext]; rfl)
    have hstop : ¬ Blank ('\r' :: more) := fun h => hmore (blank_cons.1 h).2
    refine Or.inr ⟨trim head ++ after, trimEnd more, ?_, ?_, fun d hd => ?_⟩
    · calc trim (head ++ '\r' :: more)
          = trim (before ++ (c :: (text ++ after ++ '\r' :: more))) := by
            rw [hsplit, htext]
            simp only [List.append_assoc, List.cons_append]
        _ = c :: trimEnd (text ++ after ++ '\r' :: more) := by
            rw [trim_blank_append hbefore, trim_cons _ hc]
        _ = trim head ++ after ++ '\r' :: trimEnd more := by
            rw [trimEnd_append hstop, trimEnd_cons (Or.inr hmore), htext]
            simp only [List.append_assoc, List.cons_append]
    · rw [trim_append_blank hafter]
      exact trimmed_iff.1 ⟨hbare, [], [], by simp, blank_nil, blank_nil⟩
    · rw [hsplit]
      simp only [List.append_assoc]
      exact List.mem_append_right _ hd

/-- A line with a carriage return moves everything behind it further down. -/
theorem silent_behind_return {line : List Char} {rest : List (List Char)} {n n' : Nat}
    {moved : List (Nat × List Char)} (hle : n + 2 ≤ n')
    (h : (moved ++ numbered n' (fileLines rest)).map Prod.fst =
      (numbered n (line :: rest)).map Prod.fst) : numbered (n + 1) rest = [] := by
  rcases List.eq_nil_or_concat (numbered (n + 1) rest) with hnone | ⟨init, ⟨m, text⟩, hlast⟩
  · exact hnone
  · rw [List.concat_eq_append] at hlast
    have hrising := numbered_rising (n + 1) rest
    rw [hlast, List.pairwise_append] at hrising
    have hmem : (m, text) ∈ numbered (n + 1) rest := by simp [hlast]
    have hfirst := le_of_mem_numbered hmem
    obtain ⟨m', text', hlater, hfar⟩ := exists_later hmem (Nat.le_of_succ_le hle)
    have hthere : m' ∈ (numbered n (line :: rest)).map Prod.fst := by
      rw [← h]
      exact List.mem_map_of_mem (List.mem_append_right moved hlater)
    obtain ⟨⟨found, text''⟩, hfound, hsame⟩ := List.mem_map.1 hthere
    obtain rfl : found = m' := hsame
    have hbehind : (found, text'') ∈ numbered (n + 1) rest := by
      rw [numbered_cons] at hfound
      split at hfound
      case isTrue => exact hfound
      case isFalse =>
        refine (List.mem_cons.1 hfound).resolve_left fun hsame => ?_
        cases hsame
        omega
    rw [hlast] at hbehind
    rcases List.mem_append.1 hbehind with hinit | hsame
    · have := hrising.2.2 _ hinit _ List.mem_cons_self
      simp only at this
      omega
    · obtain ⟨rfl, _⟩ := Prod.mk.inj (List.mem_singleton.1 hsame)
      omega

/-- Where the file says something on the same lines as the script, it says the same, but for the
last line: that may be cut at a carriage return. -/
theorem numbered_fileLines {lines : List (List Char)} {n : Nat}
    (h : (numbered n (fileLines lines)).map Prod.fst = (numbered n lines).map Prod.fst) :
    numbered n (fileLines lines) = numbered n lines ∨
      ∃ front m start rest, numbered n lines = front ++ [(m, start ++ '\r' :: rest)] ∧
        numbered n (fileLines lines) = front ++ [(m, trim start)] ∧ '\r' ∉ start := by
  induction lines generalizing n with
  | nil => exact Or.inl rfl
  | cons line rest ih =>
    have htrim := trim_fileLine line rest
    rw [fileLines_cons, numbered_append] at h ⊢
    generalize (if rest = [] then line else withoutReturn line) = cut at h htrim ⊢
    by_cases hreturn : '\r' ∈ cut
    · obtain ⟨head, more, rfl, hhead⟩ := List.eq_append_cons_of_mem hreturn
      rw [splitAt_append more hhead] at h ⊢
      have hsome : 0 < (splitAt '\r' more).length :=
        List.length_pos_of_ne_nil (splitAt_ne_nil '\r' more)
      have hrest : numbered (n + 1) rest = [] :=
        silent_behind_return (by rw [List.length_cons]; omega) h
      cases hspoken : isSilent (trim line) with
      | true =>
        rw [numbered_silent hspoken, hrest] at h ⊢
        exact Or.inl (List.map_eq_nil_iff.1 h)
      | false =>
        rw [numbered_speaking hspoken, hrest] at h ⊢
        cases hfirst : isSilent (trim head) with
        | true =>
          -- The text of the line would have moved down.
          rw [numbered_silent hfirst] at h
          have hthere : n ∈ [(n, trim line)].map Prod.fst := List.mem_cons_self
          rw [← h] at hthere
          obtain ⟨⟨_, text⟩, hfound, rfl⟩ := List.mem_map.1 hthere
          rcases List.mem_append.1 hfound with hfound | hfound
          · exact absurd (le_of_mem_numbered hfound) (by simp)
          · exact absurd (le_of_mem_numbered hfound) (by simp)
        | false =>
          rw [numbered_speaking hfirst, List.cons_append] at h ⊢
          have hbehind := List.map_eq_nil_iff.1 (List.cons.inj h).2
          rw [hbehind, ← htrim]
          have hsome : trim head ≠ [] := by
            intro hnone
            rw [hnone] at hfirst
            cases hfirst
          rcases trim_cut more hsome with hsame | ⟨start, tail, hcut, htext, hmem⟩
          · exact Or.inl (by rw [hsame])
          · exact Or.inr ⟨[], n, start, tail, by rw [hcut, List.nil_append],
              by rw [htext, List.nil_append], fun hstart => hhead (hmem _ hstart)⟩
    · rw [splitAt_of_not_mem hreturn] at h ⊢
      cases hspoken : isSilent (trim line) with
      | true =>
        rw [numbered_silent hspoken, numbered_silent (htrim ▸ hspoken)] at h ⊢
        exact ih h
      | false =>
        rw [numbered_speaking hspoken, numbered_speaking (htrim ▸ hspoken), htrim] at h ⊢
        rw [List.length_singleton] at h ⊢
        rcases ih (List.cons.inj h).2 with hsame | ⟨front, m, start, tail, hlines, hfile, hstart⟩
        · exact Or.inl (congrArg ((n, trim line) :: ·) hsame)
        · refine Or.inr ⟨(n, trim line) :: front, m, start, tail, ?_, ?_, hstart⟩
          · rw [hlines, List.cons_append]
          · exact congrArg ((n, trim line) :: ·) hfile

/-- Carriage returns at the ends of lines change nothing. -/
theorem numbered_fileLines_of_ends {lines : List (List Char)}
    (h : ∀ line ∈ lines, '\r' ∉ withoutReturn line) (n : Nat) :
    numbered n (fileLines lines) = numbered n lines := by
  induction lines generalizing n with
  | nil => rfl
  | cons line rest ih =>
    have hline := h line List.mem_cons_self
    have hrest := ih (fun other hother => h other (List.mem_cons_of_mem _ hother)) (n + 1)
    have hone : ∀ cut, '\r' ∉ cut → trim cut = trim line →
        numbered n (splitAt '\r' cut ++ fileLines rest) = numbered n (line :: rest) := by
      intro cut hcut htrim
      rw [splitAt_of_not_mem hcut, List.singleton_append, numbered_cons, numbered_cons, htrim,
        hrest]
    rw [fileLines_cons]
    by_cases hlast : rest = []
    · rw [if_pos hlast]
      by_cases hend : line.getLast? = some '\r'
      · -- The line at the end of the file has an empty one behind it.
        obtain ⟨front, rfl⟩ := List.getLast?_eq_some_iff.1 hend
        have hfront : '\r' ∉ front := by simpa [withoutReturn] using hline
        subst hlast
        rw [splitAt_append [] hfront, fileLines, List.append_nil, numbered_cons, numbered_cons,
          trim_append_blank blank_return]
        rfl
      · exact hone line (by rwa [withoutReturn, if_neg hend] at hline) rfl
    · rw [if_neg hlast]
      exact hone _ hline (trim_withoutReturn line)

end Script

end SerialConsole
