import SerialConsole.Proofs.Session.Orders

set_option autoImplicit false

/-!
# The lock of the read loops

When a read loop begins to run, all others are over, so that it gets the reader lock at once; it
gives the lock back when it ends. `Tally` is how often it has done either by then.
-/
namespace SerialConsole.Session

/-- Whether a read loop begins to run. -/
def Move.starts (n : Nat) : Move → Bool
  | .startReading m => m = n
  | _ => false

namespace World

/-- Whether a read loop has the reader lock. -/
def holdsReader (w : World) (n : Nat) : Bool :=
  (w.tasks (.reader n)).use .reader = .holds

/-- Whether a read loop gets the reader lock in a move, at once or because its turn has come. -/
def takesReader (w : World) (n : Nat) : Move → Bool
  | .startReading m => m = n && w.session.isFree .reader
  | .turn c => c = .reader n
  | _ => false

/-- How often a read loop gets the reader lock in the course of some moves. -/
def taken (w : World) (n : Nat) : List Move → Nat
  | [] => 0
  | m :: rest =>
    match w.move m with
    | some next => (w.takesReader n m).toNat + next.taken n rest
    | none => 0

/-- How often a read loop that has the reader lock, or gets it, is without it after the move. -/
def givenBack (w : World) (n : Nat) : List Move → Nat
  | [] => 0
  | m :: rest =>
    match w.move m with
    | some next =>
      ((w.holdsReader n || w.takesReader n m) && !next.holdsReader n).toNat + next.givenBack n rest
    | none => 0

/-- Where a read loop is, whether it has begun to run, and how often it has got the reader lock and
given it back by then. -/
inductive Tally : Status → Bool → Nat → Nat → Prop where
  | absent : Tally .absent false 0 0
  | due {d : Handle} : Tally (.due d) false 0 0
  | reading {d : Handle} {told : Bool} :
    Tally (.rests (.askDevice (.read d) (.reading d)) told) true 1 0
  | over {result : Except Fault Result} {told : Bool} : Tally (.rests (.over result) told) true 1 1
  | neverRead {told : Bool} : Tally (.rests (.over (.error .cancelled)) told) false 0 0

variable {w v next : World} {me c : Caller} {course : Course} {events : List Event} {s : Session}
  {pause : Pause} {n : Nat} {began : Bool} {taken freed : Nat}

theorem Tally.told {before after : Status} (h : Tally before began taken freed)
    (hsame : SameButTold before after) : Tally after began taken freed := by
  rcases hsame with rfl | ⟨pause, told, rfl, rfl⟩
  · exact h
  · cases h with
    | reading => exact .reading
    | «over» => exact .over
    | neverRead => exact .neverRead

/-- Nobody uses the reader lock if the read loops that are not over have not begun to run. -/
theorem Sound.reader_free (h : w.Sound course)
    (hdue : ∀ m, w.Unfinished m → ∃ d, w.tasks (.reader m) = .due d) :
    w.session.readerLock = {} := by
  have hout : ∀ c, (w.tasks c).use .reader = .out := by
    intro c
    cases htask : w.tasks c with
    | absent | due d => rfl
    | rests pause told =>
      have hbusy : ∀ m pause, w.tasks (.reader m) = .rests pause told →
          (∀ result, pause ≠ .over result) → False := by
        intro m pause htask hpause
        have hnone : w.resultOf m = none := by
          refine resultOf_eq_none_iff.2 fun result told' hover => ?_
          rw [htask] at hover
          cases hover
          exact hpause result rfl
        obtain ⟨d, hd⟩ := hdue m ⟨by rw [htask]; nofun, hnone⟩
        rw [hd] at htask
        cases htask
      rcases h.rests c pause told htask with haside | hholding
      · cases haside with
        | readTurn | reading => exact (hbusy _ _ htask fun _ => nofun).elim
        | _ => rfl
      · cases hholding <;> rfl
  have hlock := h.locks .reader
  cases hreader : w.session.readerLock with
  | mk held waiting =>
    have hheld : held = false := by
      refine Bool.eq_false_iff.2 fun hheld => ?_
      obtain ⟨c, hc⟩ := hlock.held_iff.1 (by rw [lock, hreader]; exact hheld)
      rw [hout c] at hc
      cases hc
    have hwaiting : waiting = [] := by
      refine List.eq_nil_iff_forall_not_mem.2 fun c hc => ?_
      obtain ⟨told, huse⟩ := (hlock.waiting_iff c).1 (by rw [lock, hreader]; exact hc)
      rw [hout c] at huse
      cases huse
    rw [hheld, hwaiting]

theorem Reachable.reader_free (h : w.Reachable) {d : Handle} (hdue : w.tasks (.reader n) = .due d) :
    w.session.isFree .reader = true := by
  obtain ⟨course, hsound⟩ := h.sound
  have hn : w.Unfinished n := ⟨by rw [hdue]; nofun, by rw [resultOf, hdue]⟩
  have hlock := hsound.reader_free fun m hm => by
    have hlatest := (h.tended.latest hm).trans (h.tended.latest hn).symm
    obtain rfl : m = n := Nat.succ.inj hlatest
    exact ⟨d, hdue⟩
  rw [isFree, lock, hlock]
  rfl

/-! ## The tally of a run -/

theorem takesReader_of_ne {m : Move} (hm : .reader n ≠ m.caller) : w.takesReader n m = false := by
  cases m with
  | startReading k =>
    have hk : k ≠ n := fun heq => hm (by rw [heq]; rfl)
    simp [takesReader, hk]
  | turn c =>
    have hc : c ≠ .reader n := fun heq => hm heq.symm
    simp [takesReader, hc]
  | _ => rfl

theorem starts_of_ne {m : Move} (hm : .reader n ≠ m.caller) : m.starts n = false := by
  cases m with
  | startReading k =>
    have hk : k ≠ n := fun heq => hm (by rw [heq]; rfl)
    simp [Move.starts, hk]
  | _ => rfl

theorem Tally.holds_iff {status : Status} (h : Tally status began taken freed) :
    status.use .reader = .holds ↔ freed < taken := by
  cases h with
  | absent | due | «over» | neverRead => exact ⟨nofun, fun hlt => by omega⟩
  | reading => exact ⟨fun _ => Nat.zero_lt_one, fun _ => rfl⟩

/-- A read loop does not wait for the reader lock: it reads, or it is over. -/
theorem Reachable.reader_goes_on (h : w.Reachable) {m : Move} (hmove : w.move m = some next)
    (hm : m.caller = .reader n) :
    (∃ d, next.tasks (.reader n) = .rests (.askDevice (.read d) (.reading d)) false) ∨
      ∃ result, next.tasks (.reader n) = .rests (.over result) false := by
  obtain ⟨course, hsound⟩ := h.sound
  obtain ⟨course', hnext⟩ := (h.move hmove).sound
  obtain ⟨events, s, pause, hdeed, hchanges⟩ := hsound.does_move hmove
  rw [hm] at hdeed hchanges
  rcases hnext.rests _ _ _ hchanges.mine with haside | hholding
  · cases haside with
    | readOver | readCancelled => exact Or.inr ⟨_, hchanges.mine⟩
    | readTurn =>
      obtain ⟨hwants, hbusy, _⟩ := hdeed.of_queues
      cases hwants with
      | read hdue =>
        rw [h.reader_free hdue] at hbusy
        cases hbusy
    | reading => exact Or.inl ⟨_, hchanges.mine⟩
  · cases hholding

/-- The tally of a read loop after a move that it makes itself. -/
theorem Tally.goes_on (hreach : w.Reachable) (h : Tally (w.tasks (.reader n)) began taken freed)
    {m : Move} (hmove : w.move m = some next) (hm : m.caller = .reader n) :
    (m.starts n = false ∧ began = false ∧ taken = 0 ∧ freed = 0 ∧ w.takesReader n m = false ∧
        next.tasks (.reader n) = .rests (.over (.error .cancelled)) false) ∨
      (began || m.starts n) = true ∧ taken + (w.takesReader n m).toNat = 1 ∧ freed = 0 := by
  obtain ⟨course, hsound⟩ := hreach.sound
  obtain ⟨events, s, pause, hdeed, _⟩ := hsound.does_move hmove
  rw [hm] at hdeed
  generalize htask : w.tasks (.reader n) = status at h
  cases h with
  | absent =>
    rcases hdeed.canGoOn with ⟨_, id, hid⟩ | ⟨hthere, _⟩
    · cases hid
    · exact absurd htask hthere
  | «over» | neverRead => exact absurd htask hdeed.not_over
  | @due d =>
    cases m with
    | startReading k =>
      cases hm
      refine Or.inr ⟨by simp [Move.starts], ?_, rfl⟩
      simp [takesReader, hreach.reader_free htask]
    | cancelReading k =>
      cases hm
      exact Or.inl ⟨rfl, rfl, rfl, rfl, rfl, hsound.cancelReading_ends hmove⟩
    | begin id operation => cases hm
    | answer c reply | turn c | stopWaiting c | join c =>
      cases hm
      rw [World.move, htask] at hmove
      cases hmove
  | reading =>
    refine Or.inr ⟨rfl, ?_, rfl⟩
    cases m with
    | startReading k | turn c =>
      cases hm
      rw [World.move, htask] at hmove
      cases hmove
    | _ => rfl

theorem Tally.move (hreach : w.Reachable) (h : Tally (w.tasks (.reader n)) began taken freed)
    {m : Move} (hmove : w.move m = some next) :
    Tally (next.tasks (.reader n)) (began || m.starts n) (taken + (w.takesReader n m).toNat)
      (freed + ((w.holdsReader n || w.takesReader n m) && !next.holdsReader n).toNat) := by
  have hholds : w.holdsReader n = decide (freed < taken) := decide_eq_decide.2 h.holds_iff
  by_cases hm : .reader n = m.caller
  · rcases h.goes_on hreach hmove hm.symm with
      ⟨hstarts, rfl, rfl, rfl, htakes, hafter⟩ | ⟨hbegan, htaken, rfl⟩
    · rw [hholds, hstarts, htakes, hafter]
      exact .neverRead
    · have hhad : (w.holdsReader n || w.takesReader n m) = true := by
        rw [hholds]
        cases htakes : w.takesReader n m with
        | true => exact Bool.or_true _
        | false =>
          rw [htakes] at htaken
          have hpos : 0 < taken := by
            rw [Bool.toNat_false] at htaken
            omega
          rw [decide_eq_true hpos]
          rfl
      rw [hbegan, htaken, hhad]
      rcases hreach.reader_goes_on hmove hm.symm with ⟨d, hafter⟩ | ⟨result, hafter⟩
      · have hnext : next.holdsReader n = true := by
          rw [holdsReader, hafter]
          rfl
        rw [hafter, hnext]
        exact .reading
      · have hnext : next.holdsReader n = false := by
          rw [holdsReader, hafter]
          rfl
        rw [hafter, hnext]
        exact .over
  · obtain ⟨course, hsound⟩ := hreach.sound
    obtain ⟨events, s, pause, _, hchanges⟩ := hsound.does_move hmove
    rw [takesReader_of_ne hm, starts_of_ne hm, Bool.or_false, Bool.or_false, Bool.toNat_false]
    have hafter : Tally (next.tasks (.reader n)) began taken freed := by
      rcases hchanges.tasks_of_ne hsound hm with hsame | ⟨_, _, habsent, d, _, hdue⟩
      · exact h.told hsame
      · rw [habsent] at h
        rw [hdue]
        cases h
        exact .due
    have hnext : next.holdsReader n = decide (freed < taken) := decide_eq_decide.2 hafter.holds_iff
    rw [hholds, hnext, Bool.and_not_self]
    exact hafter

theorem Tally.run (hreach : w.Reachable) (h : Tally (w.tasks (.reader n)) began taken freed)
    {moves : List Move} (hrun : w.run moves = some v) :
    Tally (v.tasks (.reader n)) (began || moves.any (Move.starts n)) (taken + w.taken n moves)
      (freed + w.givenBack n moves) := by
  induction moves generalizing w began taken freed with
  | nil =>
    cases hrun
    rw [List.any_nil, Bool.or_false]
    exact h
  | cons m rest ih =>
    obtain ⟨next, hmove, hrest⟩ := run_cons_eq_some.1 hrun
    have hall := ih (hreach.move hmove) (h.move hreach hmove) hrest
    rw [Bool.or_assoc, Nat.add_assoc, Nat.add_assoc] at hall
    rw [World.taken, World.givenBack, hmove, List.any_cons]
    exact hall

/-- A read loop that is over got the reader lock once and gave it back once if it began to run, and
neither if it did not. -/
theorem given_back_once {log : Log.Ring} {closeTimeout : Double} {moves : List Move}
    (hrun : (fresh log closeTimeout).run moves = some w) (hover : w.resultOf n ≠ none) :
    (fresh log closeTimeout).taken n moves = (moves.any (Move.starts n)).toNat ∧
      (fresh log closeTimeout).givenBack n moves = (moves.any (Move.starts n)).toNat := by
  have hfresh : (fresh log closeTimeout).Reachable := ⟨log, closeTimeout, [], rfl⟩
  have htally := Tally.run hfresh (n := n) .absent hrun
  obtain ⟨result, hresult⟩ := Option.ne_none_iff_exists'.1 hover
  rw [resultOf] at hresult
  split at hresult
  case h_1 result' told htask =>
    rw [htask, Bool.false_or, Nat.zero_add, Nat.zero_add] at htally
    generalize moves.any (Move.starts n) = began at htally ⊢
    generalize (fresh log closeTimeout).taken n moves = taken at htally ⊢
    generalize (fresh log closeTimeout).givenBack n moves = freed at htally ⊢
    cases htally <;> exact ⟨rfl, rfl⟩
  case h_2 => cases hresult

end World

end SerialConsole.Session
