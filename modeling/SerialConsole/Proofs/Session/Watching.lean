import SerialConsole.Proofs.Session.Asides
import SerialConsole.Proofs.Session.Disconnecting

set_option autoImplicit false

/-!
# Waiting for the end of reading

A wait for the end of reading watches the read loop that the session has when it begins. It ends
after that loop and as that loop did (`World.Watch`), and in a fair course it ends once the loop
has. A read loop fails only if a disconnect stops waiting for it (`World.GivesUp`), so a wait fails
only beside such a disconnect.
-/
namespace SerialConsole.Session

namespace World

variable {w v next : World} {course : Course} {id n : Nat} {m : Move} {moves : List Move}
  {point : Point} {result : Except Fault Result}

/-! ## How a read loop fails -/

theorem resultOf_of_rests {told : Bool}
    (htask : w.tasks (.reader n) = .rests (.over result) told) : w.resultOf n = some result := by
  rw [resultOf, htask]

theorem rests_of_resultOf (h : w.resultOf n = some result) :
    ∃ told, w.tasks (.reader n) = .rests (.over result) told := by
  rw [resultOf] at h
  split at h
  case h_1 other told htask =>
    cases h
    exact ⟨told, htask⟩
  case h_2 => cases h

/-- Before it is over, a read loop waits for its turn or for its device. -/
theorem Sound.reading_side (h : w.Sound course) {pause : Pause} {told : Bool}
    (htask : w.tasks (.reader n) = .rests pause told) (hpoint : pause.point? = some point) :
    point.sideline? = some .reading ∧ pause.reader? = none := by
  rcases h.rests _ _ _ htask with haside | hholding
  · cases haside with
    | readOver | readCancelled => cases hpoint
    | readTurn | reading =>
      cases hpoint
      exact ⟨rfl, rfl⟩
  · cases hholding

/-- How a read loop goes on that was not told to end: it starts, or it goes on from where it waits. -/
theorem Sound.reader_move (h : w.Sound course) (hmove : w.move m = some next)
    (hm : m.caller = .reader n) (hnot : m ≠ .cancelReading n) :
    (∃ d, next = w.absorb (.reader n) (w.session.beginRead (.reader n) d)) ∨
      ∃ events point signal, point.sideline? = some .reading ∧
        signal.fault? ≠ some .cancelled ∧
        next = (w.happen events).goOn (.reader n) point signal := by
  cases m with
  | begin id operation => cases hm
  | answer c reply =>
    cases hm
    rw [move] at hmove
    split at hmove
    case h_1 call point told htask =>
      split at hmove
      case isTrue hadmits =>
        cases hmove
        refine Or.inr ⟨_, point, _, (h.reading_side htask rfl).1, fun hfault => ?_, rfl⟩
        cases reply with
        | failed fault =>
          cases hfault
          cases call <;> cases hadmits
        | done | device _ | chunk _ => cases hfault
      case isFalse => cases hmove
    case h_2 => cases hmove
  | turn c =>
    cases hm
    rw [move] at hmove
    split at hmove
    case h_1 name point htask =>
      cases hmove
      exact Or.inr ⟨[], point, .turn, (h.reading_side htask rfl).1, by simp [Signal.fault?],
        by rw [happen_nil]⟩
    case h_2 => cases hmove
  | stopWaiting c =>
    cases hm
    rw [move] at hmove
    split at hmove
    case h_1 k point told htask => cases (h.reading_side htask rfl).2
    case h_2 => cases hmove
  | join c =>
    cases hm
    rw [move] at hmove
    split at hmove
    case h_1 k point told htask => cases (h.reading_side htask rfl).2
    case h_2 k point told htask => cases (h.reading_side htask rfl).2
    case h_3 => cases hmove
  | startReading k =>
    cases hm
    rw [move] at hmove
    split at hmove
    case h_1 d hdue =>
      split at hmove
      case isTrue => cases hmove
      case isFalse =>
        cases hmove
        exact Or.inl ⟨d, rfl⟩
    case h_2 => cases hmove
  | cancelReading k =>
    cases hm
    exact absurd rfl hnot

/-- A read loop fails only by the move that follows the order to end. -/
theorem Sound.fails_by (h : w.Sound course) (hmove : w.move m = some next)
    (hbefore : w.resultOf n ≠ some (.error .cancelled))
    (hafter : next.resultOf n = some (.error .cancelled)) : m = .cancelReading n := by
  obtain ⟨told, hover⟩ := rests_of_resultOf hafter
  by_contra hnot
  by_cases hm : m.caller = .reader n
  · rcases h.reader_move hmove hm hnot with ⟨d, rfl⟩ | ⟨events, point, signal, hside, htold, rfl⟩
    · rw [Quiet.tasks_absorb_me] at hover
      exact beginRead_ne_error _ _ _ _ (Status.rests.inj hover).1
    · rw [goOn, Quiet.tasks_absorb_me] at hover
      exact htold (fault_of_resume (Or.inl hside) (Status.rests.inj hover).1)
  · obtain ⟨events, s, pause, _, hchanges⟩ := h.does_move hmove
    obtain ⟨told', hthere⟩ := hchanges.rested h (Ne.symm hm) hover
    exact hbefore (resultOf_of_rests hthere)

theorem Reachable.result_stays (h : w.Reachable) (hrun : w.run moves = some v)
    (hresult : w.resultOf n = some result) : v.resultOf n = some result := by
  refine Reachable.keeps (P := fun u => u.resultOf n = some result) h hrun hresult ?_
  rintro u next me course _ hsound ⟨events, s, pause, hdeed, hchanges⟩ hthere
  exact hchanges.result_stays hdeed hsound hthere

/-- Whether a read loop fails in a run. -/
theorem Reachable.fails_iff (h : w.Reachable) (hrun : w.run moves = some v)
    (hbefore : w.resultOf n ≠ some (.error .cancelled)) :
    v.resultOf n = some (.error .cancelled) ↔ .cancelReading n ∈ moves := by
  induction moves generalizing w with
  | nil =>
    cases hrun
    exact iff_of_false hbefore List.not_mem_nil
  | cons m rest ih =>
    obtain ⟨next, hmove, hrest⟩ := run_cons_eq_some.1 hrun
    obtain ⟨course, hsound⟩ := h.sound
    rw [List.mem_cons]
    by_cases hm : .cancelReading n = m
    · subst hm
      have hover := resultOf_of_rests (hsound.cancelReading_ends hmove)
      exact iff_of_true ((h.move hmove).result_stays hrest hover) (Or.inl rfl)
    · have hnext : next.resultOf n ≠ some (.error .cancelled) := fun hafter =>
        hm (hsound.fails_by hmove hbefore hafter).symm
      rw [ih (h.move hmove) hrest hnext, or_iff_right hm]

/-- A disconnect stops waiting for a read loop that is not over. -/
def GivesUp (w : World) (n : Nat) (moves : List Move) : Prop :=
  ∃ before c after u point told, moves = before ++ .stopWaiting c :: after ∧
    w.run before = some u ∧ u.tasks c = .rests (.awaitEndOfReading n point) told ∧
    u.resultOf n = none

theorem told_of_cancelReading (hmove : w.move (.cancelReading n) = some next) :
    w.cancelled n = true := by
  rw [move] at hmove
  split at hmove
  case isTrue htold => exact htold
  case isFalse => cases hmove

/-- A read loop is told to end by a disconnect that stops waiting for it. -/
theorem Reachable.gives_up (h : w.Reachable) (hrun : w.run moves = some v)
    (hbefore : w.cancelled n = false) (hmem : .cancelReading n ∈ moves) : w.GivesUp n moves := by
  induction moves generalizing w with
  | nil => cases hmem
  | cons m rest ih =>
    obtain ⟨next, hmove, hrest⟩ := run_cons_eq_some.1 hrun
    obtain ⟨course, hsound⟩ := h.sound
    cases hafter : next.cancelled n with
    | true =>
      obtain ⟨effects, hcancelled, horders⟩ := hsound.orders_of_move hmove
      rcases (hcancelled n).1 hafter with horder | ⟨htold, _⟩
      · obtain ⟨c, point, told, rfl, htask, hnone⟩ := horders n horder
        exact ⟨[], c, rest, w, point, told, rfl, rfl, htask, hnone⟩
      · cases hbefore.symm.trans htold
    | false =>
      have hlater : .cancelReading n ∈ rest := by
        rcases List.mem_cons.1 hmem with rfl | hin
        · cases hbefore.symm.trans (told_of_cancelReading hmove)
        · exact hin
      obtain ⟨before, c, after, u, point, told, rfl, hbefore', htask, hnone⟩ :=
        ih (h.move hmove) hrest hafter hlater
      exact ⟨m :: before, c, after, u, point, told, rfl, (run_cons hmove).trans hbefore', htask,
        hnone⟩

/-- The read loop that a session has was not told to end. -/
theorem Reachable.unharmed (h : w.Reachable) (hreader : w.session.reader = some n) :
    w.cancelled n = false ∧ w.resultOf n ≠ some (.error .cancelled) := by
  refine h.always_move (P := fun w => ∀ n, w.session.reader = some n →
    w.cancelled n = false ∧ w.resultOf n ≠ some (.error .cancelled)) ?_ ?_ n hreader
  · intro _ _ n hnone
    cases hnone
  · intro u next m hu hmove ih n hreader
    obtain ⟨course, hsound⟩ := hu.sound
    obtain ⟨events, s, pause, hdeed, hchanges⟩ := hsound.does_move hmove
    have hawaited : ∀ {c point told}, u.tasks c = .rests (.awaitEndOfReading n point) told →
        (u.tasks c).pending = some n := fun htask => by
      rw [htask]
      rfl
    have hs : s.reader = some n := reader_of_bare hchanges.bare ▸ hreader
    rcases hdeed.reader_cases with ⟨hsame, _, _⟩ | ⟨_, _, hnew, hcount, _⟩ | ⟨_, _, hnone, _⟩
    · have hthere : u.session.reader = some n := hsame.symm.trans hs
      obtain ⟨hfree, hwell⟩ := ih n hthere
      refine ⟨Bool.eq_false_iff.2 fun htold => ?_, fun hafter => ?_⟩
      · rcases hsound.cancelled_back hmove htold with hbefore | ⟨c, point, told, htask⟩
        · cases hfree.symm.trans hbefore
        · have hphase := hsound.connected_iff_reader.2 ⟨n, hthere⟩
          cases hphase.symm.trans (hsound.pending_holds (hawaited htask)).2.1
      · obtain rfl := hsound.fails_by hmove hwell hafter
        cases hfree.symm.trans (told_of_cancelReading hmove)
    · obtain rfl : u.session.connections = n := Option.some.inj (hnew.symm.trans hs)
      refine ⟨Bool.eq_false_iff.2 fun htold => ?_, fun hafter => ?_⟩
      · rcases hsound.cancelled_back hmove htold with hbefore | ⟨c, point, told, htask⟩
        · cases (hu.not_cancelled (Nat.le_refl _)).symm.trans hbefore
        · exact absurd (hu.tended.awaited _ _ (hawaited htask)) (Nat.succ_ne_self _)
      · obtain ⟨d, _, hdue⟩ := hchanges.born (hcount ▸ Nat.succ_ne_self _)
        obtain ⟨told, hover⟩ := rests_of_resultOf hafter
        cases hdue.symm.trans hover
    · cases hnone.symm.trans hs

/-! ## How a wait goes on -/

/-- Where a wait for the end of a read loop stands: it waits, or the read loop is over, and it has
ended as the loop did. -/
inductive Watch (w : World) (id n : Nat) : Prop where
  | waits {told : Bool} : w.tasks (.call id) = .rests (.watchReader n .closed) told →
    (∀ result, .returned (.call id) result ∉ w.history) → Watch w id n
  | ended {told : Bool} {result : Except Fault Result} : w.resultOf n = some result →
    w.tasks (.call id) = .rests (.over result) told →
    (∀ other, .returned (.call id) other ∈ w.history ↔ other = result) → Watch w id n

theorem Watch.of_returned (h : w.Watch id n) (hmem : .returned (.call id) result ∈ w.history) :
    w.resultOf n = some result := by
  cases h with
  | waits _ hnone => exact absurd hmem (hnone result)
  | ended hover _ honly =>
    obtain rfl := (honly result).1 hmem
    exact hover

/-- Who watches a read loop goes on by joining it. -/
theorem Sound.join_of_watching (h : w.Sound course) {told : Bool}
    (htask : w.tasks m.caller = .rests (.watchReader n point) told)
    (hmove : w.move m = some next) : ∃ result, w.resultOf n = some result ∧
      next = w.goOn m.caller point (.joined result) := by
  cases m with
  | join c =>
    simp only [Move.caller] at htask
    rw [move, htask] at hmove
    obtain ⟨result, hresult, rfl⟩ := Option.map_eq_some_iff.1 hmove
    exact ⟨result, hresult, rfl⟩
  | begin id operation | answer c reply | turn c | stopWaiting c | startReading k =>
    simp only [Move.caller] at htask
    rw [move, htask] at hmove
    cases hmove
  | cancelReading k =>
    rcases h.rests _ _ _ htask with haside | hholding
    · cases haside
    · cases hholding

/-- What a call of another task returns is no matter of a move. -/
theorem Deed.returned_iff {me : Caller} {events : List Event} {s : Session} {pause : Pause}
    (hdeed : w.Deed me events s pause) (hchanges : w.Changes next me events s pause)
    {c : Caller} (hc : c ≠ me) (result : Except Fault Result) :
    .returned c result ∈ next.history ↔ .returned c result ∈ w.history := by
  rw [hchanges.history, List.mem_append, or_iff_left]
  exact fun hmem => hc (hdeed.of_returned hmem).1

theorem Sound.watch_move (h : w.Sound course) (hmove : w.move m = some next)
    (hwatch : w.Watch id n) : next.Watch id n := by
  obtain ⟨events, s, pause, hdeed, hchanges⟩ := h.does_move hmove
  by_cases hc : .call id = m.caller
  · cases hwatch with
    | waits htask hnone =>
      rw [hc] at htask
      obtain ⟨result, hresult, rfl⟩ := h.join_of_watching htask hmove
      -- a read loop gives nothing, and so does who waits for it
      have hstep : w.session.resume m.caller .closed (.joined result) =
          w.session.finish [] result := by
        rcases resultOf_cases h hresult with rfl | rfl <;> rfl
      have hover := hchanges.result_stays hdeed h hresult
      rw [← hc] at hstep hover ⊢
      rw [goOn, hstep] at hover ⊢
      refine .ended hover (Quiet.tasks_absorb_me _ _ _) fun other => ?_
      rw [history_absorb]
      simp [finish, Pause.events, hnone]
    | ended _ htask _ =>
      rw [hc] at htask
      exact absurd htask hdeed.not_over
  · cases hwatch with
    | waits htask hnone =>
      obtain ⟨told, hthere⟩ := hchanges.rests h hc htask
      exact .waits hthere fun result hmem =>
        hnone result ((hdeed.returned_iff hchanges hc result).1 hmem)
    | ended hover htask honly =>
      obtain ⟨told, hthere⟩ := hchanges.rests h hc htask
      exact .ended (hchanges.result_stays hdeed h hover) hthere fun other =>
        (hdeed.returned_iff hchanges hc other).trans (honly other)

theorem Reachable.watch_run (h : w.Reachable) (hrun : w.run moves = some v)
    (hwatch : w.Watch id n) : v.Watch id n := by
  refine h.keeps_move (P := fun u => u.Watch id n) hrun hwatch fun u next m hu hmove hthere => ?_
  obtain ⟨course, hsound⟩ := hu.sound
  exact hsound.watch_move hmove hthere

/-! ## The beginning of a wait -/

theorem begin_waiting (hmove : w.move (.begin id .waitClosed) = some next) :
    w.tasks (.call id) = .absent ∧ next.session = w.session ∧
      next = (w.happen [.begun (.call id) .waitClosed]).absorb (.call id)
        w.session.beginWaitClosed := by
  rw [move] at hmove
  split at hmove
  case h_1 habsent =>
    cases hmove
    refine ⟨habsent, ?_, rfl⟩
    rw [session_absorb, Operation.start, beginWaitClosed]
    cases w.session.reader <;> rfl
  case h_2 => cases hmove

theorem Reachable.begins_watching (h : w.Reachable)
    (hmove : w.move (.begin id .waitClosed) = some next) (hreader : w.session.reader = some n) :
    next.Watch id n := by
  obtain ⟨habsent, _, rfl⟩ := begin_waiting hmove
  have hstep : w.session.beginWaitClosed = ⟨w.session, [], .watchReader n .closed⟩ := by
    rw [beginWaitClosed, hreader]
  have hnone : ∀ result, .returned (.call id) result ∉ w.history := by
    intro result hmem
    have hstage := h.stage id
    have hown := mem_own.2 ⟨hmem, rfl⟩
    rw [habsent] at hstage
    generalize own (.call id) w.history = events at hstage hown
    cases hstage
    cases hown
  rw [hstep]
  refine .waits (Quiet.tasks_absorb_me _ _ _) fun result hmem => hnone result ?_
  rw [history_absorb] at hmem
  simpa [happen, Pause.events] using hmem

/-- A session that has no read loop gives nothing to wait for. -/
theorem nothing_to_watch (hmove : w.move (.begin id .waitClosed) = some next)
    (hreader : w.session.reader = none) : next.history = w.history ++
      [.begun (.call id) .waitClosed, .returned (.call id) (.ok .nothing)] := by
  obtain ⟨_, _, rfl⟩ := begin_waiting hmove
  have hstep : w.session.beginWaitClosed = w.session.finish [] (.ok .nothing) := by
    rw [beginWaitClosed, hreader]
  rw [hstep, history_absorb]
  simp [happen, finish, Pause.events]

/-- A disconnect has begun and has not returned. -/
def Leaving (w : World) : Prop :=
  ∃ id, .begun (.call id) .disconnect ∈ w.history ∧
    ∀ result, .returned (.call id) result ∉ w.history

theorem ready_of_watching {told : Bool}
    (htask : w.tasks (.call id) = .rests (.watchReader n point) told) (hover : w.resultOf n ≠ none) :
    w.Ready (.call id) := by
  obtain ⟨result, hresult⟩ := Option.ne_none_iff_exists'.1 hover
  refine ⟨.join (.call id), w.goOn (.call id) point (.joined result), rfl, rfl, ?_⟩
  rw [move, htask]
  simp only [hresult, Option.map_some]

end World

/-! ## The end of a wait -/

namespace Endless

open World

variable {e : Endless} {t u id n : Nat}

theorem watch_at (hwatch : (e.world t).Watch id n) (hu : t ≤ u) : (e.world u).Watch id n := by
  induction hu with
  | refl => exact hwatch
  | @step u _ ih =>
    rcases e.step u with ⟨_, hsame⟩ | ⟨m, _, hmove⟩
    · rwa [hsame]
    · obtain ⟨course, hsound⟩ := e.sound_at u
      exact hsound.watch_move hmove ih

/-- A wait ends once its read loop is over. -/
theorem Fair.wait_ends (hfair : e.Fair) (hwatch : (e.world t).Watch id n)
    (hover : (e.world t).resultOf n ≠ none) :
    ∃ u result, t ≤ u ∧ .returned (.call id) result ∈ (e.world u).history := by
  cases hwatch with
  | ended _ _ honly => exact ⟨t, _, Nat.le_refl t, (honly _).2 rfl⟩
  | @waits told htask hnone =>
    have hthere : (e.world t).tasks (.call id) ≠ .absent := by simp [htask]
    obtain ⟨u, hu, hmoves, _, hsame⟩ := hfair.goes_on hthere fun _ hstays =>
      ⟨t, fun u hu => by
        obtain ⟨told, hrests⟩ := same_of_rests htask (hstays u hu)
        exact ready_of_watching hrests (stays_over hover hu)⟩
    obtain ⟨told, hrests⟩ := same_of_rests htask hsame
    obtain ⟨events, s, pause, hdeed, hchanges⟩ := does_at hmoves
    cases watch_at (.waits htask hnone) (Nat.le_succ_of_le hu) with
    | waits hagain _ =>
      rw [hchanges.mine] at hagain
      exact absurd (Status.rests.inj hagain).1 (hdeed.not_watches (by simp [hrests]))
    | ended _ _ honly => exact ⟨u + 1, _, Nat.le_succ_of_le hu, (honly _).2 rfl⟩

/-- What a history comes to have, it gets by a move. -/
theorem gets_event {event : Event} (hbefore : event ∉ (e.world t).history) (hu : t ≤ u)
    (hafter : event ∈ (e.world u).history) :
    ∃ v m new, t ≤ v ∧ v < u ∧ (e.world v).move m = some (e.world (v + 1)) ∧
      (e.world (v + 1)).history = (e.world v).history ++ new ∧ event ∈ new := by
  induction hu with
  | refl => exact absurd hafter hbefore
  | @step u hu ih =>
    by_cases hthere : event ∈ (e.world u).history
    · obtain ⟨v, m, new, hv, hlt, hgets⟩ := ih hthere
      exact ⟨v, m, new, hv, Nat.lt_succ_of_lt hlt, hgets⟩
    · rcases e.step u with ⟨_, hsame⟩ | ⟨m, _, hmove⟩
      · rw [hsame] at hafter
        exact absurd hafter hthere
      · obtain ⟨me, events, s, pause, _, hchanges⟩ := (e.reachable_at u).does hmove
        rw [hchanges.history] at hafter
        exact ⟨u, m, events, hu, Nat.lt_succ_self u, hmove, hchanges.history,
          (List.mem_append.1 hafter).resolve_left hthere⟩

theorem there_stays {c : Caller} (hthere : (e.world t).tasks c ≠ .absent) (hu : t ≤ u) :
    (e.world u).tasks c ≠ .absent := by
  induction hu with
  | refl => exact hthere
  | @step u _ ih =>
    by_cases hmoves : e.Moves u c
    · obtain ⟨events, s, pause, _, hchanges⟩ := does_at hmoves
      simp [hchanges.mine]
    · rcases stays_once ih hmoves with hsame | ⟨pause, told, _, hafter⟩
      · exact fun habsent => ih (hsame.symm.trans habsent)
      · simp [hafter]

/-- A disconnect that has begun brings every read loop to its end. -/
theorem Fair.leaving_ends (hfair : e.Fair) (hleaving : (e.world t).Leaving)
    (hborn : (e.world t).tasks (.reader n) ≠ .absent) :
    ∃ u, t ≤ u ∧ (e.world u).resultOf n ≠ none := by
  obtain ⟨id, hbegun, hnone⟩ := hleaving
  obtain ⟨u, hu, hreturned⟩ := hfair.disconnect_returns hbegun
  obtain ⟨v, m, new, hv, _, hmove, hnew, hmem⟩ := gets_event (hnone _) hu hreturned
  have hlater := history_grows hbegun (Nat.le_succ_of_le hv)
  have hcleared := ((e.reachable_at v).disconnect_ends hmove hnew hlater hmem).2
  have hthere := there_stays hborn (Nat.le_succ_of_le hv)
  exact ⟨v + 1, Nat.le_succ_of_le hv, fun hnot => hcleared.readers n ⟨hthere, hnot⟩⟩

end Endless

namespace World

/-- For every state that a session can be in, and whatever its devices answer: a wait for the end of
reading that begins while the session has a read loop, which it has while it is connected, does not
return before that loop is over, and it returns what the loop came to. That is no fault, unless a
disconnect stopped waiting for the loop before it was over and so had it cancelled. In every fair
course the wait returns once the loop is over or a disconnect has begun. A wait that begins while
the session has no read loop returns at once, also if a disconnect still waits for one to end. -/
theorem wait_returns_with_reading (log : Log.Ring) (closeTimeout : Double) (moves : List Move)
    (w next : World) (id : Nat) (hrun : (fresh log closeTimeout).run moves = some w)
    (hbegin : w.move (.begin id .waitClosed) = some next) :
    (w.session.phase = .connected ↔ ∃ n, w.session.reader = some n) ∧
      (∀ n, w.session.reader = some n →
        (∀ more v result, next.run more = some v → .returned (.call id) result ∈ v.history →
          v.resultOf n = some result ∧
            (result = .ok .nothing ∧ .cancelReading n ∉ more ∨
              result = .error .cancelled ∧ .cancelReading n ∈ more ∧ next.GivesUp n more)) ∧
        ∀ e : Endless, e.world 0 = next → e.Fair → ∀ t,
          (e.world t).resultOf n ≠ none ∨ (e.world t).Leaving →
            ∃ u result, t ≤ u ∧ .returned (.call id) result ∈ (e.world u).history) ∧
      (w.session.reader = none → next.history = w.history ++
          [.begun (.call id) .waitClosed, .returned (.call id) (.ok .nothing)] ∧
        ∀ n, w.Unfinished n → ∃ c, (w.tasks c).pending = some n) := by
  have h : w.Reachable := ⟨log, closeTimeout, moves, hrun⟩
  obtain ⟨course, hsound⟩ := h.sound
  have hnext : next.Reachable := h.move hbegin
  have hsession := (begin_waiting hbegin).2.1
  refine ⟨hsound.connected_iff_reader, fun n hreader => ⟨?_, ?_⟩, fun hnone => ⟨?_, ?_⟩⟩
  · intro more v result hmore hreturned
    have hover := (hnext.watch_run hmore (h.begins_watching hbegin hreader)).of_returned hreturned
    obtain ⟨hfree, hwell⟩ := hnext.unharmed (hsession ▸ hreader)
    have hfails := hnext.fails_iff hmore hwell
    obtain ⟨last, hlast⟩ := (hnext.run hmore).sound
    refine ⟨hover, ?_⟩
    rcases resultOf_cases hlast hover with rfl | rfl
    · refine Or.inl ⟨rfl, fun hmem => ?_⟩
      cases hover.symm.trans (hfails.2 hmem)
    · have hmem := hfails.1 hover
      exact Or.inr ⟨rfl, hmem, hnext.gives_up hmore hfree hmem⟩
  · rintro e rfl hfair t hcases
    have hwatch := Endless.watch_at (h.begins_watching hbegin hreader) (Nat.zero_le t)
    have hborn : (e.world 0).tasks (.reader n) ≠ .absent := by
      have hcount := hnext.tended.named n (hsession ▸ hreader)
      exact hnext.born n (by omega)
    rcases hcases with hover | hleaving
    · exact hfair.wait_ends hwatch hover
    · obtain ⟨u, hu, hover⟩ :=
        hfair.leaving_ends hleaving (Endless.there_stays hborn (Nat.zero_le t))
      obtain ⟨v, result, hv, hreturned⟩ := hfair.wait_ends (Endless.watch_at hwatch hu) hover
      exact ⟨v, result, Nat.le_trans hu hv, hreturned⟩
  · exact nothing_to_watch hbegin hnone
  · intro n hunfinished
    rcases h.tended.unfinished n hunfinished with hreader | hpending
    · cases hnone.symm.trans hreader
    · exact hpending

/-- A wait beside which the data end. -/
theorem wait_returns_with_reading_drained :
    ∃ w next last : World, ∃ e : Endless, w.session.reader = some 0 ∧
      w.move (.begin 1 .waitClosed) = some next ∧
      next.run [.answer (.reader 0) (.chunk none), .join (.call 1)] = some last ∧
      .returned (.call 1) (.ok .nothing) ∈ last.history ∧
      last.resultOf 0 = some (.ok .nothing) ∧ e.world 0 = next ∧ e.Fair ∧
      ∃ u result, .returned (.call 1) result ∈ (e.world u).history := by
  have hrun : ∃ w, (fresh {} Double.zero).run [.begin 0 (.connect {} none),
      .answer (.call 0) (.device ⟨7, "tty"⟩), .answer (.call 0) .done, .startReading 0] = some w :=
    ⟨_, rfl⟩
  obtain ⟨w, hw⟩ := hrun
  have hstate : w.session.reader = some 0 ∧ ∃ next last,
      w.move (.begin 1 .waitClosed) = some next ∧
      next.run [.answer (.reader 0) (.chunk none), .join (.call 1)] = some last ∧
      last.history[10]? = some (.returned (.call 1) (.ok .nothing)) ∧
      last.session.connections = 1 ∧
      ∀ c ∈ [Caller.call 0, .call 1, .reader 0],
        ∃ result told, last.tasks c = .rests (.over result) told := by
    cases hw
    refine ⟨rfl, _, _, rfl, rfl, rfl, rfl, ?_⟩
    intro c hc
    simp only [List.mem_cons, List.not_mem_nil, or_false] at hc
    rcases hc with rfl | rfl | rfl <;> exact ⟨_, _, rfl⟩
  obtain ⟨hreader, next, last, hbegin, hlast, hreturned, hcount, hends⟩ := hstate
  have hmem := List.mem_of_getElem? hreturned
  have hreach : next.Reachable := Reachable.move ⟨{}, Double.zero, _, hw⟩ hbegin
  have hrest : ∀ c, ¬ last.Ready c := by
    refine not_ready_of_run ((run_append hw).trans ((run_cons hbegin).trans hlast))
      (fun id op hop => hends _ ?_) fun n hn =>
        (hreach.run hlast).not_ready (Or.inr (hends _ ?_))
    · simp only [List.mem_append, List.mem_cons, List.not_mem_nil, or_false, Move.begin.injEq,
        reduceCtorEq, Caller.call.injEq] at hop ⊢
      omega
    · rw [hcount, Nat.lt_one_iff] at hn
      simp [hn]
  obtain ⟨_, hwaits, _⟩ := wait_returns_with_reading {} Double.zero _ w next 1 hw hbegin
  obtain ⟨hresults, hreturns⟩ := hwaits 0 hreader
  have hover := (hresults _ last _ hlast hmem).1
  have hfair := Endless.fair_ofRun hreach hlast hrest
  obtain ⟨u, result, _, hlater⟩ := hreturns (Endless.ofRun next last _ hreach hlast) rfl hfair 2
    (Or.inl (by rw [show (Endless.ofRun next last _ hreach hlast).world 2 = last from
      stateAt_late hlast (Nat.le_refl 2), hover]; exact Option.some_ne_none _))
  exact ⟨w, next, last, _, hreader, hbegin, hlast, hmem, hover, rfl, hfair, u, result, hlater⟩

/-- A disconnect that cancels the read loop makes a wait fail, and a wait that begins while the
disconnect waits for the read loop does not wait for it. -/
theorem wait_cancelled_with_reading :
    ∃ w next last early : World, w.Reachable ∧ w.session.reader = some 0 ∧
      w.move (.begin 1 .waitClosed) = some next ∧
      next.run [.begin 2 .disconnect, .answer (.call 2) .done, .stopWaiting (.call 2),
        .cancelReading 0, .join (.call 1)] = some last ∧
      .returned (.call 1) (.error .cancelled) ∈ last.history ∧
      next.run [.begin 2 .disconnect, .answer (.call 2) .done, .begin 3 .waitClosed] = some early ∧
      early.Unfinished 0 ∧ .returned (.call 3) (.ok .nothing) ∈ early.history := by
  have hrun : ∃ w, (fresh {} Double.zero).run [.begin 0 (.connect {} none),
      .answer (.call 0) (.device ⟨7, "tty"⟩), .answer (.call 0) .done, .startReading 0] = some w :=
    ⟨_, rfl⟩
  obtain ⟨w, hw⟩ := hrun
  have hreach : w.Reachable := ⟨{}, Double.zero, _, hw⟩
  have hstate : w.session.reader = some 0 ∧ ∃ next last early,
      w.move (.begin 1 .waitClosed) = some next ∧
      next.run [.begin 2 .disconnect, .answer (.call 2) .done, .stopWaiting (.call 2),
        .cancelReading 0, .join (.call 1)] = some last ∧
      last.history[12]? = some (.returned (.call 1) (.error .cancelled)) ∧
      next.run [.begin 2 .disconnect, .answer (.call 2) .done, .begin 3 .waitClosed] = some early ∧
      early.tasks (.reader 0) = .rests (.askDevice (.read ⟨7, "tty"⟩) (.reading ⟨7, "tty"⟩)) false ∧
      early.history[12]? = some (.returned (.call 3) (.ok .nothing)) := by
    cases hw
    exact ⟨rfl, _, _, _, rfl, rfl, rfl, rfl, rfl, rfl⟩
  obtain ⟨hreader, next, last, early, hbegin, hlast, hfails, hearly, hreads, hreturns⟩ := hstate
  exact ⟨w, next, last, early, hreach, hreader, hbegin, hlast, List.mem_of_getElem? hfails, hearly,
    unfinished_of_reading hreads, List.mem_of_getElem? hreturns⟩

end World

end SerialConsole.Session
