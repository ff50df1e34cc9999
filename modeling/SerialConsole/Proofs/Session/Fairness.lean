import Mathlib.Data.Nat.Find
import SerialConsole.Proofs.Session.Orders

set_option autoImplicit false

/-!
# Endless courses

An endless course makes one move at each time, or none. It is fair if nobody who can go on all the
time is left out for ever; nobody has to make a call, and a read may take for ever. In a fair course
every connect, send and disconnect that was begun ends (`Endless.Fair.ends`): what a call rests at
only gets fewer, the first of a row is told when the lock comes free, and who has the writer lock
waits for a device alone, who has the lifecycle lock at most for the writer lock.
-/
namespace SerialConsole.Session

/-- Whether a move that stays possible has to come at some time. -/
def Move.isOwed : Move → Bool
  | .begin _ _ | .answer (.reader _) _ => false
  | _ => true

/-- How many resting places a call has at most before it, this one included. -/
def Point.left : Point → Nat
  | .disconnectTurn => 6
  | .cancelling _ _ => 5
  | .endOfReading _ _ => 4
  | .cancelledReading _ | .connectTurn _ _ => 3
  | .closeTurn _ | .requesting _ | .sendTurn _ | .readTurn _ => 2
  | .closing _ | .opening _ _ | .writing _ _ | .closed | .reading _ => 1

def Pause.left (pause : Pause) : Nat :=
  (pause.point?.map Point.left).getD 0

def Status.left : Status → Nat
  | .absent => 0
  | .due _ => 3
  | .rests pause _ => pause.left

namespace World

variable {w next : World} {me c : Caller} {course : Course} {events : List Event} {s : Session}
  {pause : Pause} {point : Point} {name : LockName}

/-! ## What is left to do -/

theorem left_pos_of_point {told : Bool} (hpoint : pause.point? = some point) :
    0 < (Status.rests pause told).left := by
  rw [Status.left, Pause.left, hpoint]
  cases point <;> exact Nat.zero_lt_succ _

theorem ReadingOver.left {d : Handle} (h : w.ReadingOver c d events) : 2 < (w.tasks c).left := by
  cases h with
  | unread htask | inTime htask _ | joined htask _ =>
    rw [htask]
    simp [Status.left, Pause.left, Pause.point?, Point.left]

theorem Wants.left (h : w.Wants c name point events) (hthere : w.tasks c ≠ .absent) :
    point.left < (w.tasks c).left := by
  cases h with
  | connect habsent | disconnect habsent | send habsent _ _ _ => exact absurd habsent hthere
  | read hdue =>
    rw [hdue]
    exact Nat.lt_succ_self 2
  | close hover _ => exact hover.left

theorem Gets.left (h : w.Gets c name point events) (hthere : w.tasks c ≠ .absent) :
    point.left ≤ (w.tasks c).left := by
  cases h with
  | atOnce hwants _ => exact Nat.le_of_lt (hwants.left hthere)
  | inTurn htask =>
    rw [htask]
    exact Nat.le_refl _

/-- Who goes on has less left to do, a read loop at least after the stop. -/
theorem Deed.left (h : w.Deed me events s pause) (hthere : w.tasks me ≠ .absent)
    (hstop : ∀ n, me = .reader n → w.session.stopReading = true) :
    pause.left < (w.tasks me).left := by
  cases h with
  | queues hwants _ => exact hwants.left hthere
  | busy hgets _ _ | misconfigured hgets _ _ | requests hgets _ _ | writes hgets _ _ | lost hgets _
  | nothingToEnd hgets _ | ends hgets _ _ _ | closes hgets _ | stopsReading hgets _
  | reads hgets _ =>
    refine Nat.lt_of_lt_of_le ?_ (hgets.left hthere)
    simp [Pause.left, Pause.point?, Point.left]
  | unoffered htask _ | opens htask _ | unopened htask _ | connects htask _ | unwritten htask _
  | written htask | waitsForReader htask _ | cancelsReader htask _ _ | closed htask _
  | watched htask _ =>
    rw [htask]
    simp [Status.left, Pause.left, Pause.point?, Point.left]
  | refused habsent _ | watches habsent _ | nothingToWatch habsent _ => exact absurd habsent hthere
  | @hears n d told events s pause htask hhears =>
    rw [htask]
    rcases hhears.pause_cases with rfl | rfl
    · exact Nat.zero_lt_one
    · cases hhears with
      | readsAgain hgoes | receives hgoes _ =>
        rw [hstop n rfl] at hgoes
        cases hgoes
  | @cancelled n hthere' hresult _ =>
    cases htask : w.tasks (.reader n) with
    | absent => exact absurd htask hthere
    | due d => exact Nat.zero_lt_succ 2
    | rests pause told =>
      cases hpoint : pause.point? with
      | some point => exact left_pos_of_point hpoint
      | none =>
        cases pause with
        | «over» result => exact absurd htask (resultOf_eq_none_iff.1 hresult result told)
        | _ => cases hpoint

theorem Deed.not_watches (h : w.Deed me events s pause) (hthere : w.tasks me ≠ .absent) {n : Nat} :
    pause ≠ .watchReader n point := by
  rintro rfl
  cases h with
  | hears _ hhears => cases hhears
  | watches habsent _ => exact hthere habsent

theorem unfinished_stays {n : Nat}
    (hsame : SameButTold (w.tasks (.reader n)) (next.tasks (.reader n))) (h : w.Unfinished n) :
    next.Unfinished n := by
  rcases hsame with heq | ⟨there, told, hbefore, hafter⟩
  · simp only [Unfinished, resultOf, heq]
    exact h
  · refine ⟨by simp [hafter], resultOf_eq_none_iff.2 fun result told' hover => ?_⟩
    rw [hafter] at hover
    cases hover
    exact resultOf_eq_none_iff.1 h.2 result told hbefore

end World

/-! ## Endless courses -/

/-- A course of worlds without end: at each time one move is made, or nothing happens. -/
structure Endless where
  world : Nat → World
  made : Nat → Option Move
  reachable : (world 0).Reachable
  step : ∀ t, (made t = none ∧ world (t + 1) = world t) ∨
    ∃ m, made t = some m ∧ (world t).move m = some (world (t + 1))

namespace World

/-- A move of a task is possible that has to come at some time. -/
def Ready (w : World) (c : Caller) : Prop :=
  ∃ m next, m.caller = c ∧ m.isOwed = true ∧ w.move m = some next

end World

namespace Endless

variable {e : Endless} {t u : Nat} {c : Caller} {pause : Pause} {point : Point} {name : LockName}

/-- Somebody makes a move at a time. -/
def Moves (e : Endless) (t : Nat) (c : Caller) : Prop :=
  ∃ m, e.made t = some m ∧ m.caller = c

/-- Nobody who is ready all the time is left out for ever. -/
def Fair (e : Endless) : Prop :=
  ∀ c t, (∀ u, t ≤ u → (e.world u).Ready c) → ∃ u, t ≤ u ∧ e.Moves u c

theorem reachable_at (e : Endless) (t : Nat) : (e.world t).Reachable := by
  induction t with
  | zero => exact e.reachable
  | succ t ih =>
    rcases e.step t with ⟨_, hsame⟩ | ⟨m, _, hmove⟩
    · rwa [hsame]
    · exact ih.move hmove

theorem sound_at (e : Endless) (t : Nat) : ∃ course, (e.world t).Sound course :=
  (e.reachable_at t).sound

theorem does_at (hmoves : e.Moves t c) : (e.world t).Does c (e.world (t + 1)) := by
  obtain ⟨m, hmade, rfl⟩ := hmoves
  obtain ⟨course, hsound⟩ := e.sound_at t
  rcases e.step t with ⟨hnone, _⟩ | ⟨m', hmade', hmove⟩
  · rw [hmade] at hnone
    cases hnone
  · rw [hmade] at hmade'
    cases hmade'
    exact hsound.does_move hmove

theorem made_or_same (e : Endless) (t : Nat) :
    e.world (t + 1) = e.world t ∨ ∃ me, e.Moves t me := by
  rcases e.step t with ⟨_, hsame⟩ | ⟨m, hmade, _⟩
  · exact Or.inl hsame
  · exact Or.inr ⟨m.caller, m, hmade, rfl⟩

theorem stays_once (hthere : (e.world t).tasks c ≠ .absent) (hidle : ¬ e.Moves t c) :
    World.SameButTold ((e.world t).tasks c) ((e.world (t + 1)).tasks c) := by
  rcases e.made_or_same t with hsame | ⟨me, hmoves⟩
  · rw [hsame]
    exact Or.inl rfl
  · obtain ⟨events, s, pause, _, hchanges⟩ := does_at hmoves
    obtain ⟨course, hsound⟩ := e.sound_at t
    have hc : c ≠ me := fun heq => hidle (heq ▸ hmoves)
    rcases hchanges.tasks_of_ne hsound hc with hsame | ⟨_, _, habsent, _⟩
    · exact hsame
    · exact absurd habsent hthere

/-- Who makes no move stays where it is. -/
theorem stays (hthere : (e.world t).tasks c ≠ .absent) (hu : t ≤ u)
    (hidle : ∀ v, t ≤ v → v < u → ¬ e.Moves v c) :
    World.SameButTold ((e.world t).tasks c) ((e.world u).tasks c) := by
  induction hu with
  | refl => exact Or.inl rfl
  | @step u hu ih =>
    have hsame := ih fun v hv hlt => hidle v hv (Nat.lt_succ_of_lt hlt)
    have hthere' : (e.world u).tasks c ≠ .absent := by
      intro habsent
      rcases hsame with heq | ⟨pause, told, _, heq⟩
      · exact hthere (heq.symm.trans habsent)
      · rw [habsent] at heq
        cases heq
    exact hsame.trans (stays_once hthere' (hidle u hu (Nat.lt_succ_self u)))

/-- Who would be ready from some time on if it stayed where it is goes on from there. -/
theorem Fair.goes_on (hfair : e.Fair) (hthere : (e.world t).tasks c ≠ .absent)
    (hready : (∀ u, t ≤ u → ¬ e.Moves u c) →
      (∀ u, t ≤ u → World.SameButTold ((e.world t).tasks c) ((e.world u).tasks c)) →
        ∃ v, ∀ u, v ≤ u → (e.world u).Ready c) :
    ∃ u, t ≤ u ∧ e.Moves u c ∧ (∀ v, t ≤ v → v < u → ¬ e.Moves v c) ∧
      World.SameButTold ((e.world t).tasks c) ((e.world u).tasks c) := by
  classical
  by_cases hmoves : ∃ u, t ≤ u ∧ e.Moves u c
  · have hfirst := Nat.find_spec hmoves
    have hearlier : ∀ v, t ≤ v → v < Nat.find hmoves → ¬ e.Moves v c := fun v hv hlt hm =>
      Nat.find_min hmoves hlt ⟨hv, hm⟩
    exact ⟨Nat.find hmoves, hfirst.1, hfirst.2, hearlier, stays hthere hfirst.1 hearlier⟩
  · have hidle : ∀ v, t ≤ v → ¬ e.Moves v c := fun v hv hm => hmoves ⟨v, hv, hm⟩
    obtain ⟨v, hv⟩ := hready hidle fun u hu => stays hthere hu fun v hv _ => hidle v hv
    obtain ⟨u, hu, hm⟩ := hfair c (max t v) fun u hu =>
      hv u (Nat.le_trans (Nat.le_max_right t v) hu)
    exact absurd hm (hidle u (Nat.le_trans (Nat.le_max_left t v) hu))

end Endless

namespace World

/-! ## Being ready -/

variable {w next : World} {me c : Caller} {course : Course} {events : List Event} {s : Session}
  {pause : Pause} {point : Point} {name : LockName}

theorem ready_of_told (htask : w.tasks c = .rests (.awaitTurn name point) true) : w.Ready c :=
  ⟨.turn c, _, rfl, rfl, move_turn htask⟩

theorem ready_of_asked {id : Nat} {call : DeviceCall} {told : Bool}
    (htask : w.tasks (.call id) = .rests (.askDevice call point) told) : w.Ready (.call id) :=
  ⟨.answer (.call id) (.failed .emptyScript), _, rfl, rfl,
    move_answer htask (by cases call <;> rfl)⟩

theorem ready_of_timeout {n : Nat} {told : Bool}
    (htask : w.tasks c = .rests (.awaitEndOfReading n point) told) : w.Ready c := by
  refine ⟨.stopWaiting c, w.goOn c point (.readingEnded (w.resultOf n).isSome), rfl, rfl, ?_⟩
  rw [move, htask]

theorem ready_of_joined {n : Nat} {told : Bool}
    (htask : w.tasks c = .rests (.joinReader n point) told) (hover : w.resultOf n ≠ none) :
    w.Ready c := by
  obtain ⟨result, hresult⟩ := Option.ne_none_iff_exists'.1 hover
  refine ⟨.join c, w.goOn c point (.joined result), rfl, rfl, ?_⟩
  rw [move, htask]
  simp only [hresult, Option.map_some]

/-- A read loop that was told to end is ready to do so until it has. -/
theorem ready_of_cancelled {n : Nat} (htold : w.cancelled n = true) (hunfinished : w.Unfinished n) :
    w.Ready (.reader n) := by
  obtain ⟨hthere, hresult⟩ := hunfinished
  cases htask : w.tasks (.reader n) with
  | absent => exact absurd htask hthere
  | due d =>
    refine ⟨.cancelReading n, (w.toldToEnd n).rest (.reader n) (.over (.error .cancelled)), rfl,
      rfl, ?_⟩
    rw [move, if_pos htold, htask]
  | rests pause told =>
    cases hpoint : pause.point? with
    | some point =>
      refine ⟨.cancelReading n, (w.toldToEnd n).goOn (.reader n) point .cancelled, rfl, rfl, ?_⟩
      rw [move, if_pos htold, htask]
      simp only [hpoint, Option.map_some]
    | none =>
      cases pause with
      | «over» result => exact absurd htask (resultOf_eq_none_iff.1 hresult result told)
      | _ => cases hpoint

/-! ## Rows -/

/-- Who waits for a lock is in its row. -/
theorem Sound.mem_waiting (h : w.Sound course) {told : Bool}
    (htask : w.tasks c = .rests (.awaitTurn name point) told) :
    (w.tasks c).use name = .waits told ∧ c ∈ (w.session.lock name).waiting := by
  have huse : (w.tasks c).use name = .waits told := by
    refine Sound.use_awaited htask ?_
    rcases h.rests c _ told htask with haside | hholding
    · cases haside <;> exact List.not_mem_nil
    · cases hholding
      simp [Point.locks]
  exact ⟨huse, ((h.locks name).waiting_iff c).2 ⟨told, huse⟩⟩

end World

namespace Endless

variable {e : Endless} {t u : Nat} {c first : Caller} {pause : Pause} {point : Point}
  {name : LockName} {ahead behind : List Caller}

/-- As long as one of a row waits, no more come before it, and who is before it and does not move
stays there. -/
theorem row_once (hrow : ((e.world t).session.lock name).waiting = ahead ++ c :: behind)
    (hidle : ¬ e.Moves t c) :
    ∃ ahead' behind', ((e.world (t + 1)).session.lock name).waiting = ahead' ++ c :: behind' ∧
      ahead'.length ≤ ahead.length ∧
      (∀ d ∈ ahead, ¬ e.Moves t d → d ∈ ahead') ∧
      ∀ d ∈ ahead, e.Moves t d → ahead'.length < ahead.length := by
  rcases e.step t with ⟨hnone, hsame⟩ | ⟨m, hmade, hmove⟩
  · refine ⟨ahead, behind, by rw [hsame, hrow], Nat.le_refl _, fun d hd _ => hd, ?_⟩
    rintro d _ ⟨m, hmade, _⟩
    rw [hnone] at hmade
    cases hmade
  · obtain ⟨events, s, pause, _, hchanges⟩ := does_at ⟨m, hmade, rfl⟩
    have hc : c ≠ m.caller := fun heq => hidle ⟨m, hmade, heq.symm⟩
    have hrows := hchanges.rows name
    rw [hrow] at hrows
    by_cases hmem : m.caller ∈ ahead
    · rw [List.erase_append_left _ hmem, List.append_assoc, List.cons_append] at hrows
      refine ⟨_, _, hrows, List.length_erase_le, fun d hd hstays => ?_, fun d _ _ => ?_⟩
      · exact (List.mem_erase_of_ne fun heq => hstays ⟨m, hmade, heq.symm⟩).2 hd
      · have hlength := List.length_erase_of_mem hmem
        have hpos := List.length_pos_of_mem hmem
        omega
    · rw [List.erase_append_right _ hmem, List.erase_cons_tail (by simpa using hc),
        List.append_assoc, List.cons_append] at hrows
      refine ⟨_, _, hrows, Nat.le_refl _, fun d hd _ => hd, ?_⟩
      rintro d hd ⟨m', hmade', rfl⟩
      rw [hmade] at hmade'
      cases hmade'
      exact absurd hd hmem

theorem row_stays (hrow : ((e.world t).session.lock name).waiting = ahead ++ c :: behind)
    (hu : t ≤ u) (hidle : ∀ v, t ≤ v → v < u → ¬ e.Moves v c) :
    ∃ ahead' behind', ((e.world u).session.lock name).waiting = ahead' ++ c :: behind' ∧
      ahead'.length ≤ ahead.length ∧
      ∀ d ∈ ahead, (∀ v, t ≤ v → v < u → ¬ e.Moves v d) → d ∈ ahead' := by
  induction hu with
  | refl => exact ⟨ahead, behind, hrow, Nat.le_refl _, fun d hd _ => hd⟩
  | @step u hu ih =>
    obtain ⟨ahead₁, behind₁, hrow₁, hle₁, hmem₁⟩ := ih fun v hv hlt =>
      hidle v hv (Nat.lt_succ_of_lt hlt)
    obtain ⟨ahead₂, behind₂, hrow₂, hle₂, hmem₂, _⟩ :=
      row_once hrow₁ (hidle u hu (Nat.lt_succ_self u))
    refine ⟨ahead₂, behind₂, hrow₂, Nat.le_trans hle₂ hle₁, fun d hd hstays => ?_⟩
    exact hmem₂ d (hmem₁ d hd fun v hv hlt => hstays v hv (Nat.lt_succ_of_lt hlt))
      (hstays u hu (Nat.lt_succ_self u))

theorem same_of_rests {a b : Status} {told : Bool} (ha : a = .rests pause told)
    (hsame : World.SameButTold a b) : ∃ told, b = .rests pause told := by
  rcases hsame with rfl | ⟨pause', told', ha', hb⟩
  · exact ⟨told, ha⟩
  · rw [ha] at ha'
    cases ha'
    exact ⟨true, hb⟩

/-- A lock comes free again and again if everybody who has it goes on. -/
theorem comes_free
    (hholders : ∀ t c pause told, (e.world t).tasks c = .rests pause told → name ∈ pause.locks →
      ∃ u, t ≤ u ∧ e.Moves u c ∧ ∃ told, (e.world u).tasks c = .rests pause told)
    (hcalls : ∀ t c pause told, (e.world t).tasks c = .rests pause told → name ∈ pause.locks →
      ∃ id, c = .call id) (t : Nat) :
    ∃ u, t ≤ u ∧ ((e.world u).session.lock name).held = false := by
  cases hheld : ((e.world t).session.lock name).held with
  | false => exact ⟨t, Nat.le_refl t, hheld⟩
  | true =>
    obtain ⟨course, hsound⟩ := e.sound_at t
    obtain ⟨c, hc⟩ := (hsound.locks name).held_iff.1 hheld
    obtain ⟨pause, told, hrests, hlocks⟩ := Status.use_holds hc
    clear hheld hc hsound course
    -- who has the lock has less and less left to do, and gives it back before it is over
    induction hleft : pause.left using Nat.strongRecOn generalizing t pause told with
    | ind n ih =>
      obtain ⟨u, hu, hmoves, told', hrests'⟩ := hholders t c pause told hrests hlocks
      obtain ⟨id, rfl⟩ := hcalls t c pause told hrests hlocks
      obtain ⟨events, s, pause', hdeed, hchanges⟩ := does_at hmoves
      obtain ⟨course, hsound⟩ := e.sound_at u
      obtain ⟨course', hsound'⟩ := e.sound_at (u + 1)
      have hless : pause'.left < (Status.rests pause told').left := by
        rw [← hrests']
        exact hdeed.left (by rw [hrests']; nofun) nofun
      by_cases hlocks' : name ∈ pause'.locks
      · obtain ⟨v, hv, hfree⟩ := ih pause'.left (by rw [← hleft]; exact hless) (u + 1) pause' false
          hchanges.mine hlocks' rfl
        exact ⟨v, by omega, hfree⟩
      · refine ⟨u + 1, by omega, hchanges.frees hsound hsound' ?_ hlocks'⟩
        rw [hrests', Status.use, if_pos hlocks]

/-- Who waits for ever for a lock that comes free again and again is told so at some time. -/
theorem Fair.is_told (hfair : e.Fair)
    (hfree : ∀ t, ∃ u, t ≤ u ∧ ((e.world u).session.lock name).held = false)
    (hwaits : ∀ u, t ≤ u → ∃ told, (e.world u).tasks c = .rests (.awaitTurn name point) told)
    (hidle : ∀ u, t ≤ u → ¬ e.Moves u c) :
    ∃ u, t ≤ u ∧ (e.world u).tasks c = .rests (.awaitTurn name point) true := by
  obtain ⟨course, hsound⟩ := e.sound_at t
  obtain ⟨told, hrests⟩ := hwaits t (Nat.le_refl t)
  obtain ⟨ahead, behind, hrow⟩ := List.append_of_mem (hsound.mem_waiting hrests).2
  clear hrests hsound course told
  -- the first of the row takes the lock, so that fewer are before this one
  induction hahead : ahead.length using Nat.strongRecOn generalizing t ahead behind with
  | ind n ih =>
    obtain ⟨u, hu, hheld⟩ := hfree t
    obtain ⟨ahead', behind', hrow', hle, _⟩ := row_stays hrow hu fun v hv _ => hidle v hv
    obtain ⟨course, hsound⟩ := e.sound_at u
    cases ahead' with
    | nil =>
      have huse := (hsound.locks name).woken c hheld (by rw [hrow']; rfl)
      obtain ⟨told, hrests⟩ := hwaits u hu
      rw [(hsound.mem_waiting hrests).1] at huse
      cases huse
      exact ⟨u, hu, hrests⟩
    | cons first rest =>
      have huse := (hsound.locks name).woken first hheld (by rw [hrow']; rfl)
      obtain ⟨pause, hfirst, hawaits⟩ := Status.use_waits huse
      cases pause with
      | awaitTurn other there =>
        cases hawaits
        have hthere : (e.world u).tasks first ≠ .absent := by
          intro habsent
          rw [hfirst] at habsent
          cases habsent
        have htold : ∀ v, u ≤ v → World.SameButTold ((e.world u).tasks first)
            ((e.world v).tasks first) → (e.world v).Ready first := by
          intro v _ hsame
          rw [hfirst] at hsame
          rcases hsame with heq | ⟨pause', told', heq', heq⟩
          · exact World.ready_of_told heq
          · cases heq'
            exact World.ready_of_told heq
        obtain ⟨v, hv, hmoves, hearlier, _⟩ := hfair.goes_on hthere fun _ hstays =>
          ⟨u, fun v hv => htold v hv (hstays v hv)⟩
        obtain ⟨ahead₁, behind₁, hrow₁, hle₁, hmem₁⟩ := row_stays hrow' hv fun v' hv' _ =>
          hidle v' (by omega)
        obtain ⟨ahead₂, behind₂, hrow₂, _, _, hless⟩ := row_once hrow₁ (hidle v (by omega))
        have hshorter := hless first (hmem₁ first List.mem_cons_self hearlier) hmoves
        obtain ⟨u', hu', htold'⟩ := ih ahead₂.length (by omega) (fun u' hu' => hwaits u' (by omega))
          (fun u' hu' => hidle u' (by omega)) ahead₂ behind₂ hrow₂ rfl
        exact ⟨u', by omega, htold'⟩
      | _ => cases hawaits

/-- Who waits for a lock that comes free again and again goes on at some time. -/
theorem Fair.gets_turn (hfair : e.Fair)
    (hfree : ∀ t, ∃ u, t ≤ u ∧ ((e.world u).session.lock name).held = false) {told : Bool}
    (hrests : (e.world t).tasks c = .rests (.awaitTurn name point) told) :
    ∃ u, t ≤ u ∧ e.Moves u c ∧
      ∃ told, (e.world u).tasks c = .rests (.awaitTurn name point) told := by
  have hready : (∀ u, t ≤ u → ¬ e.Moves u c) →
      (∀ u, t ≤ u → World.SameButTold ((e.world t).tasks c) ((e.world u).tasks c)) →
        ∃ v, ∀ u, v ≤ u → (e.world u).Ready c := by
    intro hidle hstays
    obtain ⟨v, hv, htold⟩ := hfair.is_told hfree (fun u hu => same_of_rests hrests (hstays u hu))
      hidle
    refine ⟨v, fun u hu => ?_⟩
    have hthere : (e.world v).tasks c ≠ .absent := by simp [htold]
    have hsame := stays hthere hu fun u' hu' _ => hidle u' (by omega)
    rw [htold] at hsame
    rcases hsame with heq | ⟨pause, told, heq', heq⟩
    · exact World.ready_of_told heq
    · cases heq'
      exact World.ready_of_told heq
  obtain ⟨u, hu, hmoves, _, hsame⟩ := hfair.goes_on (by simp [hrests]) hready
  exact ⟨u, hu, hmoves, same_of_rests hrests hsame⟩

/-- Who rests at a place at which it is always ready goes on at some time. -/
theorem Fair.goes_on_from (hfair : e.Fair) {told : Bool}
    (hrests : (e.world t).tasks c = .rests pause told)
    (hready : ∀ u, t ≤ u → ∀ told, (e.world u).tasks c = .rests pause told →
      (e.world u).Ready c) :
    ∃ u, t ≤ u ∧ e.Moves u c ∧ ∃ told, (e.world u).tasks c = .rests pause told := by
  have hthere : (e.world t).tasks c ≠ .absent := by simp [hrests]
  obtain ⟨u, hu, hmoves, _, hsame⟩ := hfair.goes_on hthere fun _ hstays =>
    ⟨t, fun u hu => by
      obtain ⟨told', hrests'⟩ := same_of_rests hrests (hstays u hu)
      exact hready u hu told' hrests'⟩
  exact ⟨u, hu, hmoves, same_of_rests hrests hsame⟩

theorem Fair.is_answered (hfair : e.Fair) {id : Nat} {call : DeviceCall} {told : Bool}
    (hrests : (e.world t).tasks (.call id) = .rests (.askDevice call point) told) :
    ∃ u, t ≤ u ∧ e.Moves u (.call id) ∧
      ∃ told, (e.world u).tasks (.call id) = .rests (.askDevice call point) told :=
  hfair.goes_on_from hrests fun _ _ _ => World.ready_of_asked

end Endless

namespace World

variable {w next : World} {me c : Caller} {course : Course} {pause : Pause} {point : Point}
  {n : Nat}

/-- Who has the writer lock waits for a device. -/
theorem Sound.writer_asks (h : w.Sound course) {told : Bool}
    (hrests : w.tasks c = .rests pause told) (hlocks : .writer ∈ pause.locks) :
    ∃ id call point, c = .call id ∧ pause = .askDevice call point := by
  rcases h.rests c pause told hrests with haside | hholding
  · cases haside with
    | writing => exact ⟨_, _, _, rfl, rfl⟩
    | «over» | connectTurn | disconnectTurn | sendTurn | watching | readOver | readCancelled
    | readTurn | reading => simp [Pause.locks, Pause.point?, Point.locks] at hlocks
  · cases hholding with
    | closing _ => exact ⟨_, _, _, rfl, rfl⟩
    | requesting _ | opening _ | cancelling _ | endOfReading _ | cancelledReading _ | closeTurn _ =>
      simp [Pause.locks, Pause.point?, Point.locks] at hlocks

end World

namespace Endless

variable {e : Endless} {t u : Nat} {c first : Caller} {pause : Pause} {point : Point}
  {name : LockName} {ahead behind : List Caller}

/-- The writer lock comes free again and again: a write or a close is under way. -/
theorem Fair.writer_free (hfair : e.Fair) (t : Nat) :
    ∃ u, t ≤ u ∧ ((e.world u).session.lock .writer).held = false := by
  apply comes_free
  · intro t c pause told hrests hlocks
    obtain ⟨course, hsound⟩ := e.sound_at t
    obtain ⟨id, call, point, rfl, rfl⟩ := hsound.writer_asks hrests hlocks
    exact hfair.is_answered hrests
  · intro t c pause told hrests hlocks
    obtain ⟨course, hsound⟩ := e.sound_at t
    obtain ⟨id, call, point, hc, _⟩ := hsound.writer_asks hrests hlocks
    exact ⟨id, hc⟩

theorem over_once {n : Nat} (hover : (e.world t).resultOf n ≠ none) :
    (e.world (t + 1)).resultOf n ≠ none := by
  rcases e.made_or_same t with hsame | ⟨me, hmoves⟩
  · rwa [hsame]
  · obtain ⟨course, hsound⟩ := e.sound_at t
    obtain ⟨events, s, pause, hdeed, hchanges⟩ := does_at hmoves
    exact hchanges.over_stays hdeed hsound hover

theorem stays_over {n : Nat} (hover : (e.world t).resultOf n ≠ none) (hu : t ≤ u) :
    (e.world u).resultOf n ≠ none := by
  induction hu with
  | refl => exact hover
  | step _ ih => exact over_once ih

theorem left_of_same {a b : Status} (hsame : World.SameButTold a b) : b.left = a.left := by
  rcases hsame with rfl | ⟨there, told, rfl, rfl⟩ <;> rfl

/-- A read loop that was told to end ends at some time after the stop. -/
theorem Fair.reader_ends (hfair : e.Fair) {n : Nat}
    (hborn : (e.world t).tasks (.reader n) ≠ .absent)
    (hstop : ∀ u, t ≤ u → (e.world u).session.stopReading = true)
    (htold : ∀ u, t ≤ u → (e.world u).resultOf n ≠ none ∨ (e.world u).cancelled n = true) :
    ∃ u, t ≤ u ∧ (e.world u).resultOf n ≠ none := by
  induction hleft : ((e.world t).tasks (.reader n)).left using Nat.strongRecOn generalizing t with
  | ind k ih =>
    by_cases hover : (e.world t).resultOf n = none
    · have hready : ∀ u, t ≤ u →
          World.SameButTold ((e.world t).tasks (.reader n)) ((e.world u).tasks (.reader n)) →
          (e.world u).Ready (.reader n) := by
        intro u hu hsame
        have hunfinished : (e.world u).Unfinished n := World.unfinished_stays hsame ⟨hborn, hover⟩
        exact World.ready_of_cancelled ((htold u hu).resolve_left fun h => h hunfinished.2)
          hunfinished
      obtain ⟨u, hu, hmoves, _, hsame⟩ := hfair.goes_on hborn fun _ hstays =>
        ⟨t, fun u hu => hready u hu (hstays u hu)⟩
      obtain ⟨events, s, pause, hdeed, hchanges⟩ := does_at hmoves
      have hthere : (e.world u).tasks (.reader n) ≠ .absent :=
        (World.unfinished_stays hsame ⟨hborn, hover⟩).1
      have hless := hdeed.left hthere fun _ _ => hstop u hu
      rw [left_of_same hsame, hleft] at hless
      have hmine : ((e.world (u + 1)).tasks (.reader n)).left = pause.left := by
        rw [hchanges.mine, Status.left]
      obtain ⟨v, hv, hends⟩ := ih pause.left hless (by simp [hchanges.mine])
        (fun v hv => hstop v (by omega)) (fun v hv => htold v (by omega)) hmine
      exact ⟨v, by omega, hends⟩
    · exact ⟨t, Nat.le_refl t, hover⟩

theorem Fair.joins (hfair : e.Fair) {n : Nat} {told : Bool}
    (hrests : (e.world t).tasks c = .rests (.joinReader n point) told) :
    ∃ u, t ≤ u ∧ e.Moves u c ∧
      ∃ told, (e.world u).tasks c = .rests (.joinReader n point) told := by
  have hclosing : ∀ {u : Nat} {told : Bool},
      (e.world u).tasks c = .rests (.joinReader n point) told →
        (e.world u).session.stopReading = true := by
    intro u told hrests
    obtain ⟨course, hsound⟩ := e.sound_at u
    have hpending : ((e.world u).tasks c).pending = some n := by
      rw [hrests]
      rfl
    exact (e.reachable_at u).closing_stops (hsound.pending_holds hpending).2.1
  have hborn : (e.world t).tasks (.reader n) ≠ .absent := by
    refine (e.reachable_at t).born n ?_
    have hcount := (e.reachable_at t).tended.awaited c n (by rw [hrests]; rfl)
    omega
  have hready : (∀ u, t ≤ u → ¬ e.Moves u c) →
      (∀ u, t ≤ u → World.SameButTold ((e.world t).tasks c) ((e.world u).tasks c)) →
        ∃ v, ∀ u, v ≤ u → (e.world u).Ready c := by
    intro _ hstays
    have hrests' := fun u hu => same_of_rests hrests (hstays u hu)
    obtain ⟨v, hv, hover⟩ := hfair.reader_ends hborn
      (fun u hu => hclosing (hrests' u hu).choose_spec)
      (fun u hu => (e.reachable_at u).ordered (hrests' u hu).choose_spec)
    refine ⟨v, fun u hu => ?_⟩
    obtain ⟨told', hthere⟩ := hrests' u (by omega)
    exact World.ready_of_joined hthere (stays_over hover hu)
  obtain ⟨u, hu, hmoves, _, hsame⟩ := hfair.goes_on (by simp [hrests]) hready
  exact ⟨u, hu, hmoves, same_of_rests hrests hsame⟩

/-- Who has the lifecycle lock goes on. -/
theorem Fair.holder_goes_on (hfair : e.Fair) {course : Course} {told : Bool}
    (hrests : (e.world t).tasks c = .rests pause told)
    (hholding : Holding (e.world t).session course c pause) :
    ∃ u, t ≤ u ∧ e.Moves u c ∧ ∃ told, (e.world u).tasks c = .rests pause told := by
  cases hholding with
  | requesting _ | opening _ | cancelling _ | closing _ => exact hfair.is_answered hrests
  | endOfReading _ => exact hfair.goes_on_from hrests fun _ _ _ => World.ready_of_timeout
  | cancelledReading _ => exact hfair.joins hrests
  | closeTurn _ => exact hfair.gets_turn hfair.writer_free hrests

theorem Fair.lifecycle_free (hfair : e.Fair) (t : Nat) :
    ∃ u, t ≤ u ∧ ((e.world u).session.lock .lifecycle).held = false := by
  have hholder : ∀ t c pause told, (e.world t).tasks c = .rests pause told →
      .lifecycle ∈ pause.locks → ∃ course, Holding (e.world t).session course c pause := by
    intro t c pause told hrests hlocks
    obtain ⟨course, hsound⟩ := e.sound_at t
    rcases hsound.rests c pause told hrests with haside | hholding
    · exact absurd hlocks haside.not_locked
    · exact ⟨course, hholding⟩
  apply comes_free
  · intro t c pause told hrests hlocks
    obtain ⟨course, hholding⟩ := hholder t c pause told hrests hlocks
    exact hfair.holder_goes_on hrests hholding
  · intro t c pause told hrests hlocks
    obtain ⟨course, hholding⟩ := hholder t c pause told hrests hlocks
    cases hholding <;> exact ⟨_, rfl⟩

/-- A call that is not over and does not watch a read loop goes on. -/
theorem Fair.call_goes_on (hfair : e.Fair) {id : Nat} {told : Bool}
    (hrests : (e.world t).tasks (.call id) = .rests pause told)
    (hover : ∀ result, pause ≠ .over result) (hwatch : ∀ n point, pause ≠ .watchReader n point) :
    ∃ u, t ≤ u ∧ e.Moves u (.call id) ∧
      ∃ told, (e.world u).tasks (.call id) = .rests pause told := by
  obtain ⟨course, hsound⟩ := e.sound_at t
  rcases hsound.rests _ _ told hrests with haside | hholding
  · cases haside with
    | «over» => exact absurd rfl (hover _)
    | watching => exact absurd rfl (hwatch _ _)
    | connectTurn | disconnectTurn => exact hfair.gets_turn hfair.lifecycle_free hrests
    | sendTurn => exact hfair.gets_turn hfair.writer_free hrests
    | writing => exact hfair.is_answered hrests
  · exact hfair.holder_goes_on hrests hholding

/-- In a fair course every call ends that does not wait for the end of reading. -/
theorem Fair.ends (hfair : e.Fair) {id : Nat} {told : Bool}
    (hrests : (e.world t).tasks (.call id) = .rests pause told)
    (hwatch : ∀ n point, pause ≠ .watchReader n point) :
    ∃ u result told, t ≤ u ∧ (e.world u).tasks (.call id) = .rests (.over result) told := by
  induction hleft : pause.left using Nat.strongRecOn generalizing t pause told with
  | ind k ih =>
    by_cases hover : ∃ result, pause = .over result
    · obtain ⟨result, rfl⟩ := hover
      exact ⟨t, result, told, Nat.le_refl t, hrests⟩
    · obtain ⟨u, hu, hmoves, told', hrests'⟩ := hfair.call_goes_on hrests
        (fun result heq => hover ⟨result, heq⟩) hwatch
      obtain ⟨events, s, next, hdeed, hchanges⟩ := does_at hmoves
      have hthere : (e.world u).tasks (.call id) ≠ .absent := by simp [hrests']
      have hless := hdeed.left hthere nofun
      rw [hrests', Status.left, hleft] at hless
      obtain ⟨v, result, told'', hv, hends⟩ := ih next.left hless hchanges.mine
        (fun n point => hdeed.not_watches hthere) rfl
      exact ⟨v, result, told'', by omega, hends⟩

theorem history_grows {event : Event} (hmem : event ∈ (e.world t).history) (hu : t ≤ u) :
    event ∈ (e.world u).history := by
  induction hu with
  | refl => exact hmem
  | @step u _ ih =>
    rcases e.made_or_same u with hsame | ⟨me, hmoves⟩
    · rwa [hsame]
    · obtain ⟨events, s, pause, _, hchanges⟩ := does_at hmoves
      rw [hchanges.history]
      exact List.mem_append_left events ih

end Endless

/-! ## Runs that come to rest -/

/-- Where steps have led to at a time. After the last step it stays there. -/
def stateAt {σ α : Type} (step : σ → α → Option σ) (s : σ) (acts : List α) (t : Nat) : σ :=
  ((acts.take t).foldlM step s).getD s

section

variable {σ α : Type} {step : σ → α → Option σ} {s last : σ} {acts : List α} {t : Nat}

theorem foldlM_take (hrun : acts.foldlM step s = some last) (t : Nat) :
    (acts.take t).foldlM step s = some (stateAt step s acts t) := by
  rw [← List.take_append_drop t acts, List.foldlM_append] at hrun
  obtain ⟨v, hv, _⟩ := Option.bind_eq_some_iff.1 hrun
  rw [stateAt, hv, Option.getD_some]

theorem stateAt_late (hrun : acts.foldlM step s = some last) (ht : acts.length ≤ t) :
    stateAt step s acts t = last := by
  rw [stateAt, List.take_of_length_le ht, hrun, Option.getD_some]

theorem stateAt_step (hrun : acts.foldlM step s = some last) (t : Nat) :
    (acts[t]? = none ∧ stateAt step s acts (t + 1) = stateAt step s acts t) ∨
      ∃ a, acts[t]? = some a ∧
        step (stateAt step s acts t) a = some (stateAt step s acts (t + 1)) := by
  cases hnext : acts[t]? with
  | none =>
    have hlength := List.getElem?_eq_none_iff.1 hnext
    refine Or.inl ⟨rfl, ?_⟩
    rw [stateAt_late hrun hlength, stateAt_late hrun (by omega)]
  | some a =>
    have hafter := foldlM_take hrun (t + 1)
    rw [List.take_add_one, hnext, Option.toList_some, List.foldlM_append, foldlM_take hrun t]
      at hafter
    simp only [List.foldlM_cons, List.foldlM_nil, bind_pure] at hafter
    exact Or.inr ⟨a, rfl, hafter⟩

end

namespace World

variable {w next last : World} {moves : List Move}

theorem move_absent {m : Move} (hmove : w.move m = some next) {id : Nat} (hm : m.caller = .call id)
    (habsent : w.tasks (.call id) = .absent) : ∃ op, m = .begin id op := by
  cases m with
  | begin k op =>
    cases hm
    exact ⟨op, rfl⟩
  | answer c reply | turn c | stopWaiting c | join c =>
    obtain rfl : c = .call id := hm
    rw [World.move, habsent] at hmove
    cases hmove
  | startReading n | cancelReading n => cases hm

/-- A read that takes for ever is not owed an end. -/
theorem not_ready_of_reading {n : Nat} {call : DeviceCall} {point : Point} {told : Bool}
    (htask : w.tasks (.reader n) = .rests (.askDevice call point) told)
    (hnot : w.cancelled n = false) : ¬ w.Ready (.reader n) := by
  rintro ⟨m, next, hm, howed, hmove⟩
  cases m with
  | begin k op => cases hm
  | answer c reply =>
    obtain rfl : c = .reader n := hm
    cases howed
  | turn c | stopWaiting c | join c =>
    obtain rfl : c = .reader n := hm
    rw [move, htask] at hmove
    cases hmove
  | startReading k =>
    cases hm
    rw [move, htask] at hmove
    cases hmove
  | cancelReading k =>
    cases hm
    rw [move, hnot] at hmove
    cases hmove

/-- Who is absent or over is not ready. -/
theorem Reachable.not_ready (h : w.Reachable) {c : Caller}
    (hover : w.tasks c = .absent ∨ ∃ result told, w.tasks c = .rests (.over result) told) :
    ¬ w.Ready c := by
  rintro ⟨m, next, rfl, howed, hmove⟩
  obtain ⟨course, hsound⟩ := h.sound
  obtain ⟨events, s, pause, hdeed, _⟩ := hsound.does_move hmove
  rcases hover with habsent | ⟨result, told, hrests⟩
  · rcases hdeed.canGoOn with ⟨_, id, hid⟩ | ⟨hthere, _⟩
    · rw [hid] at habsent
      obtain ⟨op, rfl⟩ := move_absent hmove hid habsent
      cases howed
    · exact hthere habsent
  · exact hdeed.not_over hrests

/-- A call that no move begins does not begin. -/
theorem Reachable.stays_absent (h : w.Reachable) {id : Nat}
    (habsent : w.tasks (.call id) = .absent) (hrun : w.run moves = some last)
    (hnone : ∀ op, .begin id op ∉ moves) : last.tasks (.call id) = .absent := by
  induction moves generalizing w with
  | nil =>
    cases hrun
    exact habsent
  | cons m rest ih =>
    obtain ⟨next, hmove, hrest⟩ := run_cons_eq_some.1 hrun
    obtain ⟨course, hsound⟩ := h.sound
    obtain ⟨events, s, pause, _, hchanges⟩ := hsound.does_move hmove
    refine ih (h.move hmove) ?_ hrest fun op hmem => hnone op (List.mem_cons_of_mem m hmem)
    have hme : .call id ≠ m.caller := by
      intro heq
      obtain ⟨op, rfl⟩ := move_absent hmove heq.symm habsent
      exact hnone op List.mem_cons_self
    rcases hchanges.call_of_ne hme with hsame | ⟨there, told, hbefore, _⟩
    · rw [hsame, habsent]
    · rw [habsent] at hbefore
      cases hbefore

/-- Who is there after a run. -/
theorem tasks_of_run {log : Log.Ring} {closeTimeout : Double}
    (hrun : (fresh log closeTimeout).run moves = some w) (c : Caller) :
    w.tasks c = .absent ∨ (∃ id op, c = .call id ∧ .begin id op ∈ moves) ∨
      ∃ n, c = .reader n ∧ n < w.session.connections := by
  have hfresh : (fresh log closeTimeout).Reachable := ⟨log, closeTimeout, [], rfl⟩
  cases c with
  | call id =>
    by_cases hbegun : ∃ op, .begin id op ∈ moves
    · obtain ⟨op, hop⟩ := hbegun
      exact Or.inr (Or.inl ⟨id, op, rfl, hop⟩)
    · exact Or.inl (hfresh.stays_absent rfl hrun fun op hop => hbegun ⟨op, hop⟩)
  | reader n =>
    by_cases hn : n < w.session.connections
    · exact Or.inr (Or.inr ⟨n, rfl, hn⟩)
    · obtain ⟨course, hsound⟩ := (hfresh.run hrun).sound
      exact Or.inl (hsound.fresh n (Nat.le_of_not_lt hn))

/-- After a run in which every call that began has ended, nobody is ready if no read loop is. -/
theorem not_ready_of_run {log : Log.Ring} {closeTimeout : Double}
    (hrun : (fresh log closeTimeout).run moves = some w)
    (hcalls : ∀ id op, .begin id op ∈ moves →
      ∃ result told, w.tasks (.call id) = .rests (.over result) told)
    (hreaders : ∀ n, n < w.session.connections → ¬ w.Ready (.reader n)) (c : Caller) :
    ¬ w.Ready c := by
  have hreach : w.Reachable := ⟨log, closeTimeout, moves, hrun⟩
  rcases tasks_of_run hrun c with habsent | ⟨id, op, rfl, hop⟩ | ⟨n, rfl, hn⟩
  · exact hreach.not_ready (Or.inl habsent)
  · exact hreach.not_ready (Or.inr (hcalls id op hop))
  · exact hreaders n hn

end World

namespace Endless

/-- A run, after which nothing happens any more. -/
def ofRun (w last : World) (moves : List Move) (h : w.Reachable) (hrun : w.run moves = some last) :
    Endless where
  world := stateAt World.move w moves
  made := fun t => moves[t]?
  reachable := h
  step := stateAt_step hrun

theorem fair_ofRun {w last : World} {moves : List Move} (h : w.Reachable)
    (hrun : w.run moves = some last) (hrest : ∀ c, ¬ last.Ready c) :
    (ofRun w last moves h hrun).Fair := by
  intro c t hready
  have hlast := hready (max t moves.length) (Nat.le_max_left t _)
  have hworld : (ofRun w last moves h hrun).world (max t moves.length) = last :=
    stateAt_late hrun (Nat.le_max_right t _)
  rw [hworld] at hlast
  exact absurd hlast (hrest c)

end Endless

end SerialConsole.Session
