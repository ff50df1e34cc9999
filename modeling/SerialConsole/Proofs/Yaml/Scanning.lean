import Mathlib
import SerialConsole.Yaml.Lexer

set_option autoImplicit false
set_option mvcgen.warning false

/-!
# What scanning refuses

Scanning goes forward in the text, so what is left of it is always an end of it. It refuses a text
as malformed, except for one thing: a character that is given by its code and does not exist. Only
a code of eight digits is that large, so a text with a flaw of another kind has one in it
(`HasHugeCode`).
-/
namespace SerialConsole.Yaml

open Std.Do

/-- The number that hexadecimal digits write. -/
def codeOf (digits : List Nat) : Nat :=
  digits.foldl (fun code digit => 16 * code + digit) 0

/-- A character is given by a code beyond the last character. -/
def HasHugeCode (text : List Char) : Prop :=
  ∃ before digits after values, text = before ++ '\\' :: 'U' :: (digits ++ after) ∧
    digits.mapM hexValue? = some values ∧ values.length = 8 ∧ 0x110000 ≤ codeOf values

/-- A flaw that scanning can find in a text. -/
def Scans (text : List Char) (flaw : Flaw) : Prop :=
  flaw = .malformed ∨ HasHugeCode text

section

variable {rest text : List Char} {flaw : Flaw}

theorem HasHugeCode.of_suffix (h : HasHugeCode rest) (hrest : rest <:+ text) :
    HasHugeCode text := by
  obtain ⟨before, digits, after, values, rfl, hcode⟩ := h
  obtain ⟨earlier, rfl⟩ := hrest
  exact ⟨earlier ++ before, digits, after, values, by simp, hcode⟩

@[grind .]
theorem scans_malformed (text : List Char) : Scans text .malformed :=
  Or.inl rfl

@[grind →]
theorem Scans.of_suffix (h : Scans rest flaw) (hrest : rest <:+ text) : Scans text flaw :=
  h.imp_right fun hcode => hcode.of_suffix hrest

@[grind →]
theorem suffix_trans {earlier : List Char} (h : rest <:+ text) (htext : text <:+ earlier) :
    rest <:+ earlier :=
  h.trans htext

end

/-! ## Places -/

namespace Cursor

variable {c d : Cursor} {x : Char}

theorem rest_next (c : Cursor) : c.next.rest = c.rest.tail := by
  unfold next
  split
  case h_1 h => simp [h]
  case h_2 h => split_ifs <;> simp [h]

theorem rest_of_peek (h : c.peek = some x) : c.rest = x :: c.next.rest := by
  rw [rest_next]
  exact (List.cons_head?_tail h).symm

theorem next_suffix (c : Cursor) : c.next.rest <:+ c.rest :=
  c.rest_next ▸ List.tail_suffix c.rest

theorem skip_suffix (n : Nat) (c : Cursor) : (c.skip n).rest <:+ c.rest := by
  induction n generalizing c with
  | zero => exact List.suffix_rfl
  | succ n ih => exact (ih c.next).trans c.next_suffix

theorem takeWhile_suffix (c : Cursor) (fits : Char → Bool) :
    (c.takeWhile fits).2.rest <:+ c.rest :=
  skip_suffix _ c

theorem skipWhile_suffix (c : Cursor) (fits : Char → Bool) :
    (c.skipWhile fits).rest <:+ c.rest :=
  c.takeWhile_suffix fits

theorem skipSpaces_suffix (c : Cursor) : c.skipSpaces.rest <:+ c.rest :=
  c.skipWhile_suffix _

theorem skipWhites_suffix (c : Cursor) : c.skipWhites.rest <:+ c.rest :=
  c.skipWhile_suffix _

theorem skipComment_suffix (c : Cursor) : c.skipComment.rest <:+ c.rest := by
  unfold skipComment
  split
  case isTrue => exact c.skipWhile_suffix _
  case isFalse => exact List.suffix_rfl

theorem takeBreak_suffix (h : c.takeBreak? = some (x, d)) : d.rest <:+ c.rest := by
  unfold takeBreak? at h
  split at h
  case h_1 => cases h; exact skip_suffix 2 c
  case h_2 => split_ifs at h <;> cases h <;> exact c.next_suffix
  case h_3 => cases h

theorem skipBreak_suffix (c : Cursor) : c.skipBreak.rest <:+ c.rest := by
  unfold skipBreak
  split
  case h_1 h => exact takeBreak_suffix h
  case h_2 => exact List.suffix_rfl

grind_pattern next_suffix => c.next
grind_pattern skip_suffix => c.skip n
grind_pattern takeWhile_suffix => c.takeWhile fits
grind_pattern skipWhile_suffix => c.skipWhile fits
grind_pattern skipSpaces_suffix => c.skipSpaces
grind_pattern skipWhites_suffix => c.skipWhites
grind_pattern skipComment_suffix => c.skipComment
grind_pattern takeBreak_suffix => c.takeBreak?, some (x, d)
grind_pattern skipBreak_suffix => c.skipBreak

end Cursor

/-! ## Results -/

@[spec]
theorem ok_spec {α : Type} {a : α} {Q : PostCond α (.except Flaw .pure)} :
    ⦃Q.1 a⦄ (Except.ok a : Except Flaw α) ⦃Q⦄ :=
  SPred.entails.rfl

@[spec]
theorem error_spec {α : Type} {flaw : Flaw} {Q : PostCond α (.except Flaw .pure)} :
    ⦃Q.2.1 flaw⦄ (Except.error flaw : Except Flaw α) ⦃Q⦄ :=
  SPred.entails.rfl

/-- Reading on from a place leads to a place behind it or to a flaw of the text at the place. -/
abbrev Scanned {α : Type} (c : Cursor) (place : α → Cursor) (result : Except Flaw α) : Prop :=
  ⦃⌜True⌝⦄ result
  ⦃post⟨fun a => ⌜(place a).rest <:+ c.rest⌝, fun flaw => ⌜Scans c.rest flaw⌝⟩⦄

section

variable {α : Type} {c : Cursor} {place : α → Cursor} {result : Except Flaw α}

theorem Scanned.of_ok {a : α} (h : Scanned c place result) (ha : result = .ok a) :
    (place a).rest <:+ c.rest := by
  subst ha
  exact h trivial

theorem Scanned.of_error {flaw : Flaw} (h : Scanned c place result) (hflaw : result = .error flaw) :
    Scans c.rest flaw := by
  subst hflaw
  exact h trivial

end

@[spec]
theorem endLine_scans (c : Cursor) : Scanned c (fun d => d) c.endLine := by
  mvcgen [Cursor.endLine] <;> grind

/-! ## Quoted scalars -/

@[spec]
theorem foldedBreaks_scans (fuel : Nat) (c : Cursor) :
    Scanned c Prod.snd (foldedBreaks fuel c) := by
  induction fuel generalizing c with
  | zero => mvcgen [foldedBreaks]
  | succ fuel ih => mvcgen [foldedBreaks, ih] <;> grind

@[spec]
theorem quotedSpaces_scans (c : Cursor) : Scanned c Prod.snd (quotedSpaces c) := by
  mvcgen [quotedSpaces] <;> grind

theorem hexValue_lt {x : Char} {n : Nat} (h : hexValue? x = some n) : n < 16 := by
  unfold hexValue? at h
  split_ifs at h with hdigit hlower hupper
  all_goals cases h
  · have hle : x.toNat ≤ 57 := (Char.isDigit_iff_toNat.1 hdigit).2
    omega
  · have hle : x.toNat ≤ 102 := hlower.2
    omega
  · have hle : x.toNat ≤ 70 := hupper.2
    omega

theorem codeOf_append (digits more : List Nat) :
    codeOf (digits ++ more) = more.foldl (fun code digit => 16 * code + digit) (codeOf digits) :=
  List.foldl_append

theorem codeOf_lt {digits : List Nat} (h : ∀ digit ∈ digits, digit < 16) :
    codeOf digits < 16 ^ digits.length := by
  induction digits using List.reverseRecOn with
  | nil => decide
  | append_singleton digits last ih =>
    have hdigits := ih fun digit hdigit => h digit (List.mem_append_left _ hdigit)
    have hlast := h last (by simp)
    rw [codeOf_append, List.length_append, List.length_singleton, pow_succ, List.foldl_cons,
      List.foldl_nil]
    omega

theorem hexValues_lt {text : List Char} {values : List Nat}
    (h : text.mapM hexValue? = some values) : ∀ n ∈ values, n < 16 := by
  induction text generalizing values with
  | nil =>
    cases h
    exact fun n hn => absurd hn List.not_mem_nil
  | cons x rest ih =>
    rw [List.mapM_cons] at h
    obtain ⟨first, hfirst, h⟩ := Option.bind_eq_some_iff.1 h
    obtain ⟨others, hothers, h⟩ := Option.bind_eq_some_iff.1 h
    cases h
    exact List.forall_mem_cons.2 ⟨hexValue_lt hfirst, ih hothers⟩

/-- Only eight digits write a code beyond the last character. -/
theorem width_of_huge {x : Char} {width : Nat} {text : List Char} {values : List Nat}
    (hwidth : codeWidth? x = some width) (hvalues : text.mapM hexValue? = some values)
    (hlength : values.length = width) (hhuge : 0x110000 ≤ codeOf values) : x = 'U' := by
  have hlt := codeOf_lt (hexValues_lt hvalues)
  unfold codeWidth? at hwidth
  split at hwidth
  case h_1 => cases hwidth; rw [hlength] at hlt; omega
  case h_2 => cases hwidth; rw [hlength] at hlt; omega
  case h_3 => rfl
  case h_4 => cases hwidth

@[spec]
theorem charOfCode_scans (code : Nat) :
    ⦃⌜True⌝⦄ charOfCode code
    ⦃post⟨fun _ => ⌜True⌝, fun _ => ⌜0x110000 ≤ code⌝⟩⦄ := by
  mvcgen [charOfCode]
  all_goals omega

@[spec]
theorem coded_scans (c : Cursor) (width : Nat) :
    ⦃⌜True⌝⦄ coded c width
    ⦃post⟨fun piece => ⌜piece.2.rest <:+ c.rest⌝,
      fun flaw => ⌜flaw = .malformed ∨ ∃ values, (c.rest.take width).mapM hexValue? = some values ∧
        values.length = width ∧ 0x110000 ≤ codeOf values⌝⟩⦄ := by
  mvcgen [coded]
  case vc1 => exact c.skip_suffix width
  case vc2 values hvalues hlength _ => exact fun hhuge => Or.inr ⟨values, hvalues, hlength, hhuge⟩
  case vc3 => exact Or.inl trivial
  case vc4 => exact Or.inl trivial

@[spec]
theorem escape_scans (c : Cursor) :
    ⦃⌜True⌝⦄ escape c
    ⦃post⟨fun piece => ⌜piece.2.rest <:+ c.rest⌝, fun flaw => ⌜Scans ('\\' :: c.rest) flaw⌝⟩⦄ := by
  mvcgen [escape]
  case vc4 x hx width hwidth _ flaw =>
    rintro (rfl | ⟨values, hvalues, hlength, hhuge⟩)
    · exact scans_malformed _
    · obtain rfl := width_of_huge hwidth hvalues hlength hhuge
      cases hwidth
      refine Or.inr ⟨[], c.next.rest.take 8, c.next.rest.drop 8, values, ?_, hvalues, hlength, hhuge⟩
      rw [List.take_append_drop, Cursor.rest_of_peek hx]
      rfl
  case vc6 => exact fun h => (h.of_suffix c.skipBreak_suffix).of_suffix (List.suffix_cons _ _)
  all_goals grind

@[spec]
theorem quotedRest_scans (quote : Char) (fuel : Nat) (c : Cursor) :
    Scanned c Prod.snd (quotedRest quote fuel c) := by
  induction fuel generalizing c with
  | zero =>
    mvcgen [quotedRest]
    exact scans_malformed _
  | succ fuel ih =>
    mvcgen [quotedRest, ih]
    case vc9 x hx _ _ hslash flaw =>
      have hrest : c.rest = '\\' :: c.next.rest := by grind [Cursor.rest_of_peek]
      rw [hrest]
      exact id
    all_goals grind

@[spec]
theorem quotedScalar_scans (c : Cursor) (quote : Char) :
    Scanned c Prod.snd (quotedScalar c quote) := by
  mvcgen [quotedScalar] <;> grind

/-! ## Block scalars -/

@[spec]
theorem indentDigit_scans (c : Cursor) : Scanned c Prod.snd (indentDigit c) := by
  mvcgen [indentDigit] <;> grind

@[spec]
theorem blockHeader_scans (c : Cursor) : Scanned c (fun header => header.2.2) (blockHeader c) := by
  mvcgen [blockHeader] <;> grind

theorem skipIndent_suffix (c : Cursor) (column : Nat) : (skipIndent c column).rest <:+ c.rest :=
  Cursor.skip_suffix _ c

grind_pattern skipIndent_suffix => skipIndent c column

theorem blockBreaks_suffix (column fuel : Nat) (c : Cursor) :
    (blockBreaks column fuel c).2.rest <:+ c.rest := by
  induction fuel generalizing c with
  | zero => exact List.suffix_rfl
  | succ fuel ih =>
    rw [blockBreaks]
    split <;> grind

grind_pattern blockBreaks_suffix => blockBreaks column fuel c

theorem leadingBreaks_suffix (fuel widest : Nat) (c : Cursor) :
    (leadingBreaks fuel widest c).2.2.rest <:+ c.rest := by
  induction fuel generalizing widest c with
  | zero => exact List.suffix_rfl
  | succ fuel ih =>
    rw [leadingBreaks]
    split <;> grind

grind_pattern leadingBreaks_suffix => leadingBreaks fuel widest c

theorem blockLines_suffix (folded : Bool) (chomping : Chomping) (column fuel : Nat)
    (breaks : List Char) (c : Cursor) :
    (blockLines folded chomping column fuel breaks c).2.rest <:+ c.rest := by
  induction fuel generalizing breaks c with
  | zero => exact List.suffix_rfl
  | succ fuel ih =>
    rw [blockLines]
    grind

grind_pattern blockLines_suffix => blockLines folded chomping column fuel breaks c

@[spec]
theorem blockScalar_scans (c : Cursor) (indent : Int) (folded : Bool) :
    Scanned c Prod.snd (blockScalar c indent folded) := by
  mvcgen [blockScalar] <;> grind

/-! ## Plain scalars -/

theorem plainBreaks_suffix (fuel : Nat) (c : Cursor) : (plainBreaks fuel c).2.rest <:+ c.rest := by
  induction fuel generalizing c with
  | zero => exact List.suffix_rfl
  | succ fuel ih =>
    rw [plainBreaks]
    grind

grind_pattern plainBreaks_suffix => plainBreaks fuel c

theorem plainSpaces_suffix (c : Cursor) : (plainSpaces c).2.2.rest <:+ c.rest := by
  unfold plainSpaces
  grind

grind_pattern plainSpaces_suffix => plainSpaces c

theorem plainWords_suffix (inFlow : Bool) (indent : Int) (fuel : Nat) (spaces : List Char)
    (newLine : Bool) (c : Cursor) :
    (plainWords inFlow indent fuel spaces newLine c).2.2.rest <:+ c.rest := by
  induction fuel generalizing spaces newLine c with
  | zero => exact List.suffix_rfl
  | succ fuel ih =>
    rw [plainWords]
    grind

theorem plainScalar_suffix (c : Cursor) (inFlow : Bool) (indent : Int) :
    (plainScalar c inFlow indent).2.2.rest <:+ c.rest :=
  plainWords_suffix _ _ _ _ _ c

grind_pattern plainScalar_suffix => plainScalar c inFlow indent

namespace Lexer

/-! ## Directives, anchors and tags -/

@[spec]
theorem versionNumber_scans (c : Cursor) : Scanned c Prod.snd (versionNumber c) := by
  mvcgen [versionNumber] <;> grind

@[spec]
theorem versionDirective_scans (c : Cursor) : Scanned c Prod.snd (versionDirective c) := by
  mvcgen [versionDirective]
  all_goals grind

@[spec]
theorem tagHandle_scans (c : Cursor) : Scanned c Prod.snd (tagHandle c) := by
  mvcgen [tagHandle] <;> grind

@[spec]
theorem escapedBytes_scans (fuel : Nat) (c : Cursor) :
    Scanned c Prod.snd (escapedBytes fuel c) := by
  induction fuel generalizing c with
  | zero => mvcgen [escapedBytes]
  | succ fuel ih => mvcgen [escapedBytes, ih] <;> grind

@[spec]
theorem tagText_scans (fuel : Nat) (c : Cursor) : Scanned c Prod.snd (tagText fuel c) := by
  induction fuel generalizing c with
  | zero => mvcgen [tagText]
  | succ fuel ih => mvcgen [tagText, ih] <;> grind

@[spec]
theorem tagSuffix_scans (c : Cursor) : Scanned c Prod.snd (tagSuffix c) := by
  mvcgen [tagSuffix]
  grind

@[spec]
theorem handleDirective_scans (c : Cursor) : Scanned c Prod.snd (handleDirective c) := by
  mvcgen [handleDirective] <;> grind

@[spec]
theorem directive_scans (c : Cursor) : Scanned c Prod.snd (directive c) := by
  mvcgen [directive] <;> grind

@[spec]
theorem anchorName_scans (c : Cursor) : Scanned c Prod.snd (anchorName c) := by
  unfold anchorName
  dsimp only
  split_ifs
  · exact fun _ => scans_malformed _
  · exact fun _ => (c.next.takeWhile_suffix _).trans c.next_suffix
  · exact fun _ => scans_malformed _

@[spec]
theorem tag_scans (c : Cursor) : Scanned c Prod.snd (tag c) := by
  mvcgen [tag] <;> grind

/-! ## Tokens -/

variable {l : Lexer}

theorem toNextToken_suffix (fuel : Nat) (l : Lexer) :
    (toNextToken fuel l).place.rest <:+ l.place.rest := by
  induction fuel generalizing l with
  | zero => exact List.suffix_rfl
  | succ fuel ih =>
    rw [toNextToken]
    grind

grind_pattern toNextToken_suffix => toNextToken fuel l

@[simp, grind =]
theorem place_push (l : Lexer) (token : Token) : (l.push token).place = l.place :=
  rfl

@[simp, grind =]
theorem place_pushOver (l : Lexer) (token : Token) (length : Nat) :
    (l.pushOver token length).place = l.place.skip length :=
  rfl

theorem place_unwind (column : Int) (outer : List Int) (l : Lexer) :
    (unwind column outer l).place = l.place := by
  induction outer generalizing l with
  | nil => rfl
  | cons indent outer ih =>
    rw [unwind]
    split
    case isTrue => exact ih _
    case isFalse => rfl

@[simp, grind =]
theorem place_unwindTo (l : Lexer) (column : Int) : (l.unwindTo column).place = l.place := by
  unfold unwindTo
  split
  case isTrue => rfl
  case isFalse => exact place_unwind _ _ l

theorem place_opensAt {column : Nat} {next : Lexer} (h : l.opensAt column = some next) :
    next.place = l.place := by
  unfold opensAt at h
  split_ifs at h
  cases h
  rfl

@[simp, grind =]
theorem place_openBlock (l : Lexer) (token : Token) : (l.openBlock token).place = l.place := by
  unfold openBlock
  split
  case h_1 next h => exact (place_push next token).trans (place_opensAt h)
  case h_2 => rfl

@[simp, grind =]
theorem place_readValueOf (l : Lexer) (key : KeyPlace) :
    (l.readValueOf key).place = l.place.skip 1 := by
  unfold readValueOf
  dsimp only
  rw [place_pushOver]
  split
  case isTrue => rfl
  case isFalse =>
    split
    case h_1 next h => exact congrArg (Cursor.skip 1) (place_opensAt h :)
    case h_2 => rfl

/-- What `Scanned` says of steps from one state to the next. -/
abbrev Scanned (l : Lexer) (result : Except Flaw Lexer) : Prop :=
  Yaml.Scanned l.place Lexer.place result

@[spec]
theorem dropKey_scans (l : Lexer) : l.Scanned l.dropKey := by
  mvcgen [dropKey]
  grind

@[spec]
theorem dropStale_scans (l : Lexer) : l.Scanned l.dropStale := by
  mvcgen [dropStale]
  grind

@[spec]
theorem markKey_scans (l : Lexer) : l.Scanned l.markKey := by
  mvcgen [markKey]

@[spec]
theorem openFor_scans (l : Lexer) (token : Token) : l.Scanned (l.openFor token) := by
  mvcgen [openFor] <;> grind

@[spec]
theorem finish_scans (l : Lexer) : l.Scanned l.finish := by
  mvcgen [finish] <;> grind

@[spec]
theorem readDirective_scans (l : Lexer) : l.Scanned l.readDirective := by
  mvcgen [readDirective] <;> grind

@[spec]
theorem readMark_scans (l : Lexer) (token : Token) : l.Scanned (l.readMark token) := by
  mvcgen [readMark] <;> grind

@[spec]
theorem openFlow_scans (l : Lexer) (token : Token) : l.Scanned (l.openFlow token) := by
  mvcgen [openFlow]
  grind

@[spec]
theorem closeFlow_scans (l : Lexer) (token : Token) : l.Scanned (l.closeFlow token) := by
  mvcgen [closeFlow] <;> grind

@[spec]
theorem readFlowEntry_scans (l : Lexer) : l.Scanned l.readFlowEntry := by
  mvcgen [readFlowEntry]
  grind

@[spec]
theorem readBlockEntry_scans (l : Lexer) : l.Scanned l.readBlockEntry := by
  mvcgen [readBlockEntry] <;> grind

@[spec]
theorem readKey_scans (l : Lexer) : l.Scanned l.readKey := by
  mvcgen [readKey] <;> grind

@[spec]
theorem readValue_scans (l : Lexer) : l.Scanned l.readValue := by
  mvcgen [readValue] <;> grind

@[spec]
theorem readName_scans (l : Lexer) (token : String → Token) : l.Scanned (l.readName token) := by
  mvcgen [readName] <;> grind

@[spec]
theorem readTag_scans (l : Lexer) : l.Scanned l.readTag := by
  mvcgen [readTag] <;> grind

@[spec]
theorem readBlock_scans (l : Lexer) (folded : Bool) : l.Scanned (l.readBlock folded) := by
  mvcgen [readBlock] <;> grind

@[spec]
theorem readQuoted_scans (l : Lexer) (quote : Char) : l.Scanned (l.readQuoted quote) := by
  mvcgen [readQuoted] <;> grind

@[spec]
theorem readPlain_scans (l : Lexer) : l.Scanned l.readPlain := by
  mvcgen [readPlain]
  grind

@[spec]
theorem readFrom_scans (l : Lexer) (x : Char) : l.Scanned (l.readFrom x) := by
  mvcgen [readFrom]
  grind

@[spec]
theorem step_scans (l : Lexer) : l.Scanned l.step := by
  mvcgen [step] <;> grind

theorem run_scans (fuel : Nat) (l : Lexer) : l.Scanned (run fuel l) := by
  induction fuel generalizing l with
  | zero => mvcgen [run]
  | succ fuel ih =>
    mvcgen [run, ih]
    case vc1 hstep _ => exact fun hrest => hrest.trans ((step_scans l).of_ok hstep)
    case vc2 hstep _ => exact fun hflaw => hflaw.of_suffix ((step_scans l).of_ok hstep)
    case vc3 hstep => exact (step_scans l).of_error hstep

end Lexer

theorem Cursor.ofText_suffix (text : List Char) : (Cursor.ofText text).rest <:+ text := by
  unfold Cursor.ofText
  dsimp only
  split
  case isTrue => exact Cursor.next_suffix _
  case isFalse => exact List.suffix_rfl

/-- A text whose tokens are refused is malformed or has a code in it that is too large. -/
theorem Token.scans_of_error {text : List Char} {flaw : Flaw}
    (h : Token.ofText text = .error flaw) : Scans text flaw := by
  unfold Token.ofText at h
  split at h
  case isFalse => cases h; exact scans_malformed text
  case isTrue =>
    cases hrun : Lexer.run (text.length + 2) { place := Cursor.ofText text } with
    | ok l => rw [hrun] at h; cases h
    | error met =>
      rw [hrun] at h
      cases h
      exact ((Lexer.run_scans _ _).of_error hrun).of_suffix (Cursor.ofText_suffix text)

end SerialConsole.Yaml
