import SerialConsole.Proofs.Log.History

set_option autoImplicit false

/-!
# What a log keeps

Whatever happens to a log, it keeps the latest entries that were added since it was last cleared, as
many as it has room for. Entries are numbered in the order of the adds, and no number comes twice
(`keeps_latest`).
-/
namespace SerialConsole.Log

section

variable {α : Type}

theorem lastOf_nil (n : Nat) : lastOf n ([] : List α) = [] :=
  List.drop_nil

theorem lastOf_suffix (n : Nat) (items : List α) : lastOf n items <:+ items :=
  List.drop_suffix _ items

theorem length_lastOf (n : Nat) (items : List α) :
    (lastOf n items).length = min n items.length := by
  rw [lastOf, List.length_drop]
  omega

/-- The last of a list that goes on can be found among the last. -/
theorem lastOf_concat (n : Nat) (items : List α) (item : α) :
    lastOf n (lastOf n items ++ [item]) = lastOf n (items ++ [item]) := by
  have hsplit : lastOf n items ++ [item] =
      (items ++ [item]).drop (items.length - n) := by
    rw [lastOf, List.drop_append_of_le_length (by omega)]
  rw [hsplit, lastOf, lastOf, List.drop_drop, List.length_drop]
  congr 1
  simp only [List.length_append, List.length_singleton]
  omega

end

def Event.entry? : Event → Option Entry
  | .added _ _ entry => some entry
  | _ => none

def added (events : List Event) : List Entry :=
  events.filterMap Event.entry?

/-- The entries that were added since the log was last cleared. -/
def sinceClear (events : List Event) : List Entry :=
  events.foldl (fun kept event => match event with
    | .added _ _ entry => kept ++ [entry]
    | .cleared => []
    | .returned _ => kept) []

section

variable (events : List Event) (direction : Direction) (data : Bytes) (entry : Entry)

theorem added_add : added (events ++ [.added direction data entry]) = added events ++ [entry] :=
  List.filterMap_append

theorem added_clear : added (events ++ [.cleared]) = added events := by
  simp [added, Event.entry?]

theorem added_return : added (events ++ [.returned entry]) = added events := by
  simp [added, Event.entry?]

theorem sinceClear_add :
    sinceClear (events ++ [.added direction data entry]) = sinceClear events ++ [entry] := by
  simp [sinceClear]

theorem sinceClear_clear : sinceClear (events ++ [.cleared]) = [] := by
  simp [sinceClear]

theorem sinceClear_return : sinceClear (events ++ [.returned entry]) = sinceClear events := by
  simp [sinceClear]

end

/-- How a log goes with what happened to it. -/
structure Keeps (capacity : Nat) (ring : Ring) (events : List Event) : Prop where
  room : ring.capacity = capacity
  entries : ring.entries = lastOf capacity (sinceClear events)
  count : ring.added = (added events).length
  ids : (added events).map Entry.id = List.range' 1 (added events).length
  recent : sinceClear events <:+ added events

namespace Keeps

variable {capacity : Nat} {ring : Ring} {events : List Event}

theorem adds (h : Keeps capacity ring events) (direction : Direction) (data : Bytes) :
    Keeps capacity (ring.append direction data)
      (events ++ [.added direction data (ring.nextEntry direction data)]) where
  room := h.room
  entries := by
    rw [sinceClear_add, ← lastOf_concat, ← h.entries, ← h.room]
    rfl
  count := by
    rw [added_add, List.length_append, ← h.count]
    rfl
  ids := by
    rw [added_add, List.map_append, h.ids, List.length_append, List.length_singleton,
      List.range'_1_concat, List.map_singleton]
    congr 2
    change ring.added + 1 = _
    rw [h.count, Nat.add_comm]
  recent := by
    rw [added_add, sinceClear_add]
    obtain ⟨before, hbefore⟩ := h.recent
    exact ⟨before, by rw [← List.append_assoc, hbefore]⟩

theorem clears (h : Keeps capacity ring events) :
    Keeps capacity ring.clear (events ++ [.cleared]) where
  room := h.room
  entries := by
    rw [sinceClear_clear, lastOf_nil]
    rfl
  count := by
    rw [added_clear]
    exact h.count
  ids := by
    rw [added_clear]
    exact h.ids
  recent := by
    rw [sinceClear_clear]
    exact List.nil_suffix

theorem returns (h : Keeps capacity ring events) (entry : Entry) :
    Keeps capacity ring (events ++ [.returned entry]) := by
  constructor
  case room => exact h.room
  all_goals simp only [added_return, sinceClear_return]
  case entries => exact h.entries
  case count => exact h.count
  case ids => exact h.ids
  case recent => exact h.recent

theorem registers (h : Keeps capacity ring events) (listeners : List Listener) :
    Keeps capacity { ring with listeners } events :=
  ⟨h.room, h.entries, h.count, h.ids, h.recent⟩

/-- The numbers of what is kept are the last of all numbers. -/
theorem numbers (h : Keeps capacity ring events) : ring.entries.map Entry.id =
    List.range' ((added events).length + 1 - ring.size) ring.size := by
  have hsuffix : ring.entries <:+ added events :=
    h.entries ▸ (lastOf_suffix capacity _).trans h.recent
  obtain ⟨before, hbefore⟩ := hsuffix
  have hids := h.ids
  have hlength := congrArg List.length hbefore
  rw [List.length_append] at hlength
  rw [← hbefore, List.map_append, List.length_append, ← List.range'_append_1] at hids
  have hentries := List.append_inj_right hids (by simp)
  rw [hentries, Ring.size]
  congr 1
  omega

end Keeps

theorem History.keeps {σ : Type} {react : Reaction σ} {capacity : Nat} {clock : Clock}
    {d : Delivery σ} {events : List Event} (h : History react capacity clock d events) :
    Keeps capacity d.ring events := by
  induction h with
  | start memory => exact ⟨rfl, (lastOf_nil capacity).symm, rfl, rfl, List.suffix_refl _⟩
  | call memory acts _ ih => exact ih
  | @step d next events _ hstep ih =>
    have hsteps := Delivery.steps_of_step hstep
    generalize d.event? = event at hsteps
    cases hsteps with
    | adds hjobs => exact ih.adds _ _
    | clears hjobs => exact ih.clears
    | returns hjobs => exact ih.returns _
    | hears hjobs | leaves hjobs | fails hjobs =>
      rw [Option.toList_none, List.append_nil]
      exact ih
    | subscribes hjobs | unsubscribes hjobs =>
      rw [Option.toList_none, List.append_nil]
      exact ih.registers _

/-- In every state of a log, also in the middle of deliveries, it keeps the latest entries since it
was last cleared, as many as it has room for. They are numbered one after the other up to the number
of all adds, and the adds of all times are numbered from one. Each add that has returned gave its
own entry. An add that comes now makes an entry of what it is given, with the next number; this
entry is what it returns, and unless entries are added for ever it does return. -/
theorem keeps_latest {σ : Type} {react : Reaction σ} {capacity : Nat} {clock : Clock}
    {d : Delivery σ} {events : List Event} (h : History react capacity clock d events) :
    d.ring.entries <:+ sinceClear events ∧
      d.ring.size = min capacity (sinceClear events).length ∧ d.ring.size ≤ capacity ∧
      d.ring.entries.map Entry.id =
        List.range' ((added events).length + 1 - d.ring.size) d.ring.size ∧
      (∀ entry, d.ring.entries.getLast? = some entry → entry.id = (added events).length) ∧
      (added events).map Entry.id = List.range' 1 (added events).length ∧
      Answered events (d.jobs.filterMap Job.entry?) ∧
      ∀ direction data, ∃ entry, entry.id = (added events).length + 1 ∧
        entry.direction = direction ∧ entry.data = data ∧
        (∀ fuel, (d.add react fuel direction data).1 = entry) ∧
        ((∃ bound, ∀ fuel, (d.add react fuel direction data).2.ring.added ≤ bound) →
          ∃ fuel later, (d.add react fuel direction data).2.jobs = .perform none [] :: d.jobs ∧
            History react capacity clock (d.add react fuel direction data).2
              (events ++ .added direction data entry :: later ++ [.returned entry])) := by
  have hkeeps := h.keeps
  have hsize : d.ring.size = min capacity (sinceClear events).length := by
    rw [Ring.size, hkeeps.entries, length_lastOf]
  refine ⟨hkeeps.entries ▸ lastOf_suffix capacity _, hsize, by omega, hkeeps.numbers, ?_,
    hkeeps.ids, h.answered, fun direction data => ?_⟩
  · intro entry hlast
    have hid := congrArg List.getLast? hkeeps.numbers
    rw [List.getLast?_map, hlast, List.getLast?_range'] at hid
    have hsome : d.ring.size ≠ 0 := fun hnone => by
      rw [Ring.size, List.length_eq_zero_iff] at hnone
      rw [hnone] at hlast
      cases hlast
    have hfits : (sinceClear events).length ≤ (added events).length := hkeeps.recent.length_le
    rw [if_neg hsome, Option.map_some, Option.some.injEq] at hid
    omega
  · refine ⟨d.ring.nextEntry direction data, ?_, rfl, rfl, fun _ => rfl, ?_⟩
    · rw [← hkeeps.count]
      rfl
    · rintro ⟨bound, hfew⟩
      exact h.add_returns direction data hfew

/-- Who hears of the first entry adds two more, with a clear between them, and then fails. -/
def restless : Reaction Nat := fun heard _ _ =>
  (heard + 1, if heard = 0 then [.add .received [5], .clear, .add .sent [6], .fail] else [])

theorem keeps_latest_restless :
    ∃ d events entry, History restless 1 .stopped d events ∧
      (added events).map Entry.data = [[1], [5], [6]] ∧
      (sinceClear events).map Entry.data = [[6]] ∧
      (d.jobs.filterMap Job.entry?).map Entry.data = [[6], [1]] ∧
      d.ring.entries.map Entry.id = List.range' (3 + 1 - 1) 1 ∧
      Answered events (d.jobs.filterMap Job.entry?) ∧
      entry.id = 4 ∧ entry.direction = .sent ∧ entry.data = [7] ∧
      ∃ fuel later, (d.add restless fuel .sent [7]).2.jobs = .perform none [] :: d.jobs ∧
        History restless 1 .stopped (d.add restless fuel .sent [7]).2
          (events ++ .added .sent [7] entry :: later ++ [.returned entry]) := by
  have hhistory := ((History.start 0 : History restless 1 .stopped _ _).call 0
    [.subscribe "a", .subscribe "b", .add .sent [1]]).run 13
  obtain ⟨_, _, _, hids, _, _, hanswered, hadds⟩ := keeps_latest hhistory
  obtain ⟨entry, hid, hdirection, hdata, _, hreturns⟩ := hadds .sent [7]
  refine ⟨_, _, entry, hhistory, rfl, rfl, rfl, hids, hanswered, hid, hdirection, hdata, ?_⟩
  exact hreturns ⟨4, fun fuel => Delivery.added_le_of_ended (n := 30) rfl fuel⟩

end SerialConsole.Log
