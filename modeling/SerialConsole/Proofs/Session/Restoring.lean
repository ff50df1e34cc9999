import SerialConsole.Proofs.Session.Counterpart

set_option autoImplicit false

/-!
# Connects that fail

A connect that finds the session disconnected has the lifecycle lock until it fails, and nobody else
can do anything with the session meanwhile but find it without a device. So the session is then as
it was, and nothing that follows can tell that the connect has come (`failed_connect_restores`).
-/
namespace SerialConsole

/-- The settings of a line are in the allowed range. -/
structure LineSettings.Allowed (line : LineSettings) : Prop where
  baudRate : 0 < line.baudRate
  dataBits : line.dataBits ∈ [7, 8]
  stopBits : line.stopBits ∈ [1, 2]
  parity : line.parity ∈ ["none", "even", "odd"]
  flowControl : line.flowControl ∈ ["none", "hardware"]

theorem LineSettings.check_passes {p : Prop} [Decidable p] {fault : Fault}
    {rest : Except Fault Unit} (h : (if p then .error fault else rest) = .ok ()) :
    ¬ p ∧ rest = .ok () := by
  by_cases hp : p
  · rw [if_pos hp] at h
    cases h
  · rw [if_neg hp] at h
    exact ⟨hp, h⟩

theorem LineSettings.check_eq_ok_iff (line : LineSettings) :
    line.check = .ok () ↔ line.Allowed := by
  have hdata : dataBitChoices.contains line.dataBits = true ↔ line.dataBits ∈ [7, 8] :=
    List.contains_iff_mem
  have hstop : stopBitChoices.contains line.stopBits = true ↔ line.stopBits ∈ [1, 2] :=
    List.contains_iff_mem
  have hparity : parityChoices.contains line.parity = true ↔
      line.parity ∈ ["none", "even", "odd"] := List.contains_iff_mem
  have hflow : flowControlChoices.contains line.flowControl = true ↔
      line.flowControl ∈ ["none", "hardware"] := List.contains_iff_mem
  rw [check]
  simp only [Bool.not_eq_true', ← Bool.not_eq_true, hdata, hstop, hparity, hflow]
  constructor
  · intro h
    obtain ⟨hbaud, h⟩ := check_passes h
    obtain ⟨hdata, h⟩ := check_passes h
    obtain ⟨hstop, h⟩ := check_passes h
    obtain ⟨hparity, h⟩ := check_passes h
    obtain ⟨hflow, -⟩ := check_passes h
    exact ⟨Int.not_le.1 hbaud, not_not.1 hdata, not_not.1 hstop, not_not.1 hparity,
      not_not.1 hflow⟩
  · intro h
    rw [if_neg (Int.not_le.2 h.baudRate), if_neg (not_not_intro h.dataBits),
      if_neg (not_not_intro h.stopBits), if_neg (not_not_intro h.parity),
      if_neg (not_not_intro h.flowControl)]

namespace Session

/-- How a connect that has the lifecycle lock goes until it fails: the phase of the session, where
the connect rests, and what it has done with the lock. -/
inductive Trying (line : LineSettings) (hint : Option String) (c : Caller) :
    Phase → Pause → List Event → Prop where
  | refused {fault : Fault} : line.check = .error fault →
    Trying line hint c .disconnected (.over (.error fault)) [.returned c (.error fault)]
  | requesting : line.check = .ok () →
    Trying line hint c .connecting (.askDevice (.request hint) (.requesting line))
      [.asked c (.request hint)]
  | unoffered {fault : Fault} : line.check = .ok () →
    Trying line hint c .disconnected (.over (.error fault))
      [.asked c (.request hint), .answered c (.request hint) (.failed fault),
        .returned c (.error fault)]
  | opening {d : Handle} : line.check = .ok () →
    Trying line hint c .connecting (.askDevice (.openWith d line) (.opening d line))
      [.asked c (.request hint), .answered c (.request hint) (.device d),
        .asked c (.openWith d line)]
  | unopened {d : Handle} {cause : Fault} : line.check = .ok () → cause.isOrdinary = true →
    Trying line hint c .disconnected (.over (.error (openFault d cause)))
      [.asked c (.request hint), .answered c (.request hint) (.device d),
        .asked c (.openWith d line), .answered c (.openWith d line) (.failed cause),
        .returned c (.error (openFault d cause))]

/-- How a connect with these settings fails, by what it has done with the lock: its settings are
not allowed and it makes no device call; or the fault is that of the request; or it is that of the
open, as it is or as the cause of a fault of its own. -/
inductive FailsBy (line : LineSettings) (hint : Option String) (c : Caller) :
    List Event → Fault → Prop where
  | settings {fault : Fault} : ¬ line.Allowed → fault.kind = .openFailed →
    FailsBy line hint c [.returned c (.error fault)] fault
  | request {fault : Fault} : line.Allowed →
    FailsBy line hint c [.asked c (.request hint), .answered c (.request hint) (.failed fault),
      .returned c (.error fault)] fault
  | opening {d : Handle} {fault : Fault} : line.Allowed →
    fault.kind = .unavailable ∨ fault.kind = .openFailed →
    FailsBy line hint c [.asked c (.request hint), .answered c (.request hint) (.device d),
      .asked c (.openWith d line), .answered c (.openWith d line) (.failed fault),
      .returned c (.error fault)] fault
  | wrapped {d : Handle} {cause fault : Fault} : line.Allowed →
    ¬ (cause.kind = .unavailable ∨ cause.kind = .openFailed) →
    fault = .openRefused d.name cause → fault.kind = .openFailed → fault.cause? = some cause →
    FailsBy line hint c [.asked c (.request hint), .answered c (.request hint) (.device d),
      .asked c (.openWith d line), .answered c (.openWith d line) (.failed cause),
      .returned c (.error fault)] fault

theorem Trying.failsBy {line : LineSettings} {hint : Option String} {c : Caller} {phase : Phase}
    {fault : Fault} {events : List Event}
    (h : Trying line hint c phase (.over (.error fault)) events) :
    phase = .disconnected ∧ FailsBy line hint c events fault := by
  cases h with
  | refused hcheck =>
    refine ⟨rfl, .settings (fun hallowed => ?_) (World.kind_of_check hcheck)⟩
    rw [line.check_eq_ok_iff.2 hallowed] at hcheck
    cases hcheck
  | unoffered hcheck => exact ⟨rfl, .request (line.check_eq_ok_iff.1 hcheck)⟩
  | @unopened d cause hcheck hordinary =>
    have hallowed := line.check_eq_ok_iff.1 hcheck
    by_cases hkind : cause.kind = .unavailable ∨ cause.kind = .openFailed
    · have hfault : openFault d cause = cause := if_pos (hkind.imp_right Or.inl)
      rw [hfault]
      exact ⟨rfl, .opening hallowed hkind⟩
    · have hfault : openFault d cause = .openRefused d.name cause := by
        refine if_neg fun hown => ?_
        rcases hown with hunavailable | hopen | hstrange
        · exact hkind (Or.inl hunavailable)
        · exact hkind (Or.inr hopen)
        · exact hstrange hordinary
      exact ⟨rfl, .wrapped hallowed hkind hfault (hfault ▸ rfl) (hfault ▸ rfl)⟩

theorem Trying.not_write {line : LineSettings} {hint : Option String} {c : Caller} {phase : Phase}
    {pause : Pause} {events : List Event} (h : Trying line hint c phase pause events) :
    ∀ e ∈ events, ∀ d data, e.deviceCall? ≠ some (.write d data) := by
  cases h <;> simp [Event.deviceCall?]

/-- What a connect does with the lifecycle lock depends on no lock of the session. -/
theorem connectLocked_of_bare {s t : Session} (line : LineSettings) (hint : Option String)
    (hphase : t.phase = .disconnected) (hbare : s.bare = t.bare) :
    (connectLocked line hint s).session.bare = (connectLocked line hint t).session.bare ∧
      (connectLocked line hint s).pause = (connectLocked line hint t).pause := by
  have hsame : s.phase = .disconnected := (phase_of_bare hbare).trans hphase
  cases hcheck : line.check with
  | error fault =>
    rw [connectLocked_refused hsame hcheck, connectLocked_refused hphase hcheck]
    exact ⟨(bare_release _ _).trans (hbare.trans (bare_release _ _).symm), rfl⟩
  | ok =>
    rw [connectLocked_asks hsame hcheck, connectLocked_asks hphase hcheck]
    refine ⟨?_, rfl⟩
    change ({ s.bare with phase := .connecting } : Session) = { t.bare with phase := .connecting }
    rw [hbare]

namespace World

variable {w v next : World} {id : Nat} {line : LineSettings} {hint : Option String}
  {m m' : Move} {before moves : List Move} {phase : Phase} {pause : Pause} {course : Course}

/-- The moves of tasks that were there before. -/
def older (w : World) (id : Nat) (moves : List Move) : List Move :=
  moves.filter fun m => w.hadBefore id m.caller

theorem older_concat_of_before (hm : w.hadBefore id m.caller = true) :
    w.older id (moves ++ [m]) = w.older id moves ++ [m] := by
  rw [older, List.filter_append]
  exact congrArg _ (List.filter_cons_of_pos hm)

theorem older_concat_of_not_before (hm : w.hadBefore id m.caller = false) :
    w.older id (moves ++ [m]) = w.older id moves := by
  rw [older, List.filter_append]
  refine (congrArg _ (List.filter_cons_of_neg ?_)).trans (List.append_nil _)
  simp [hm]

/-- A connect that got the lifecycle lock by a move at `w`, after more moves. -/
structure Trial (w : World) (id : Nat) (line : LineSettings) (hint : Option String) (m : Move)
    (moves : List Move) (v : World) (phase : Phase) (pause : Pause) : Prop where
  task : ∃ told, v.tasks (.call id) = .rests pause told
  phase_eq : v.session.phase = phase
  other : ∃ u, (w.withdrawn id (.connectTurn line hint) m).run (w.older id moves) = some u ∧
    u.session.bare = w.session.bare ∧ Counterpart w id v u
  course : ∃ new tail, v.history = w.history ++ new ∧ own (.call id) new = m.begun ++ tail ∧
    Trying line hint (.call id) phase pause tail ∧
    ∀ e ∈ new, e.deviceCall? ≠ none → e.caller? = some (.call id)

theorem own_eq_self {c : Caller} {es : List Event} (h : ∀ e ∈ es, e.caller? = some c) :
    own c es = es :=
  List.filter_eq_self.2 fun e he => decide_eq_true (h e he)

theorem own_eq_nil {c : Caller} {es : List Event} (h : ∀ e ∈ es, e.caller? ≠ some c) :
    own c es = [] :=
  List.filter_eq_nil_iff.2 fun e he => by simpa using h e he

theorem EntersBy.caller_begun {op : Operation} {point : Point} (h : w.EntersBy id op point m) :
    m.caller = .call id ∧ ∀ e ∈ m.begun, e.caller? = some (.call id) ∧ e.deviceCall? = none := by
  cases h with
  | atOnce _ _ => exact ⟨rfl, List.forall_mem_singleton.2 ⟨rfl, rfl⟩⟩
  | inTurn _ => exact ⟨rfl, List.forall_mem_nil _⟩

/-- A connect that finds the session disconnected asks for a device, or its settings are refused. -/
theorem Reachable.begins_trial (h : w.Reachable) (hphase : w.session.phase = .disconnected)
    (henters : w.EntersBy id (.connect line hint) (.connectTurn line hint) m)
    (hmove : w.move m = some next) : ∃ phase pause, w.Trial id line hint m [] next phase pause := by
  obtain ⟨course, hsound⟩ := h.sound
  obtain rfl : (w.happen m.begun).absorb (.call id)
      (connectLocked line hint (w.session.takeTurn .lifecycle (.call id))) = next :=
    Option.some.inj ((henters.move rfl rfl).symm.trans hmove)
  have hfree : (w.session.takeTurn .lifecycle (.call id)).phase = .disconnected := hphase
  have hcounterpart := henters.counterpart hsound hphase
  have hbare : (w.withdrawn id (.connectTurn line hint) m).session.bare = w.session.bare := by
    rw [hcounterpart.bare, ← hphase]
    rfl
  have hbegun := henters.caller_begun.2
  have hcourse : ∀ e : Event, e.caller? = some (.call id) →
      own (.call id) (m.begun ++ [e]) = m.begun ++ [e] := fun e he =>
    own_eq_self (List.forall_mem_append.2
      ⟨fun e' he' => (hbegun e' he').1, List.forall_mem_singleton.2 he⟩)
  have hdevice : ∀ e : Event, e.caller? = some (.call id) → ∀ e' ∈ m.begun ++ [e],
      e'.deviceCall? ≠ none → e'.caller? = some (.call id) := fun e he =>
    List.forall_mem_append.2
      ⟨fun e' he' _ => (hbegun e' he').1, List.forall_mem_singleton.2 fun _ => he⟩
  cases hcheck : line.check with
  | error fault =>
    rw [connectLocked_refused hfree hcheck]
    have hsame : ({ (w.connecting id).session with phase := .disconnected } : Session) =
        w.session.takeTurn .lifecycle (.call id) := by
      rw [← hfree]
      rfl
    have hfails := hcounterpart.fails rfl m.begun fault
    rw [connectFailed, hsame] at hfails
    refine ⟨.disconnected, _, ⟨false, Quiet.tasks_absorb_me _ _ _⟩, ?_,
      ⟨_, rfl, hbare, hfails⟩, m.begun ++ [.returned (.call id) (.error fault)], _, ?_,
      hcourse _ rfl, .refused hcheck, hdevice _ rfl⟩
    · rw [session_absorb]
      exact hphase
    · rw [absorb_leave]
      exact List.append_assoc _ _ _
  | ok =>
    rw [connectLocked_asks hfree hcheck]
    refine ⟨.connecting, _, ⟨false, Quiet.tasks_absorb_me _ _ _⟩, rfl,
      ⟨_, rfl, hbare, hcounterpart.rests (hadBefore_self w id) m.begun _⟩,
      m.begun ++ [.asked (.call id) (.request hint)], _, ?_, hcourse _ rfl, .requesting hcheck,
      hdevice _ rfl⟩
    rw [history_absorb, List.filterMap_nil, List.append_nil, ← List.append_assoc]
    rfl

/-! ## The moves meanwhile -/

namespace Trial

/-- Another comes to rest, or waits for its turn. -/
theorem idles (h : w.Trial id line hint m before v phase pause) (hv : v.Reachable) {step : Step}
    (hmove : v.move m' = some ((v.happen m'.begun).absorb m'.caller step))
    (hstep : v.Idles m' step) (hother : m'.caller ≠ .call id) :
    w.Trial id line hint m (before ++ [m']) ((v.happen m'.begun).absorb m'.caller step) phase
      pause := by
  obtain ⟨course, hsound⟩ := hv.sound
  obtain ⟨events, s, pause', hdeed, hchanges⟩ := hsound.does_move hmove
  refine ⟨?_, ?_, ?_, ?_⟩
  · obtain ⟨told, htask⟩ := h.task
    exact hchanges.rests hsound hother.symm htask
  · rw [session_absorb]
    exact (phase_of_bare hstep.bare).trans h.phase_eq
  · obtain ⟨u, hrun, hbare, hcounterpart⟩ := h.other
    cases hbefore : w.hadBefore id m'.caller with
    | true =>
      obtain ⟨next, hnext, hsame, hafter⟩ := hcounterpart.follows hsound hstep hbefore
      refine ⟨next, ?_, hsame.trans hbare, hafter⟩
      rw [older_concat_of_before hbefore, run_append hrun, run_cons hnext]
      rfl
    | false =>
      refine ⟨u, ?_, hbare, hcounterpart.skips hsound hstep hbefore⟩
      rwa [older_concat_of_not_before hbefore]
  · obtain ⟨new, tail, hnew, hown, htrying, hcalls⟩ := h.course
    have hevents := hstep.events
    refine ⟨new ++ (m'.begun ++ step.pause.events m'.caller), tail, ?_, ?_, htrying, ?_⟩
    · rw [hstep.history, hnew, List.append_assoc]
    · rw [own_append, hown, own_eq_nil fun e he heq => ?_, List.append_nil]
      exact hother (Option.some.inj ((hevents e he).2.symm.trans heq))
    · exact List.forall_mem_append.2 ⟨hcalls, fun e he hdevice => absurd (hevents e he).1 hdevice⟩

end Trial

/-- A task that waits for a device goes on only by an answer. -/
theorem answer_of_move {call : DeviceCall} {point : Point} {told : Bool}
    (htask : w.tasks (.call id) = .rests (.askDevice call point) told)
    (hmove : w.move m = some next) (hm : m.caller = .call id) :
    ∃ reply, call.admits reply = true ∧
      next = (w.happen [.answered (.call id) call reply]).goOn (.call id) point (.reply reply) := by
  cases m with
  | answer c reply =>
    cases hm
    rw [World.move, htask] at hmove
    change (if _ then _ else _) = _ at hmove
    split at hmove
    case isTrue hadmits =>
      cases hmove
      exact ⟨reply, hadmits, rfl⟩
    case isFalse => cases hmove
  | begin i op | turn c | stopWaiting c | join c =>
    cases hm
    rw [World.move, htask] at hmove
    cases hmove
  | startReading n | cancelReading n => cases hm

namespace Trial

theorem held (h : w.Trial id line hint m before v .connecting pause) (hsound : v.Sound course) :
    v.session.lifecycleLock.held = true :=
  hsound.held_iff.2 (Or.inl h.phase_eq)

/-- The connect goes on: it fails, or asks for the device to be opened, or it succeeds. -/
theorem answers (h : w.Trial id line hint m before v .connecting pause) (hv : v.Reachable)
    (hmove : v.move m' = some next) (hown : m'.caller = .call id) :
    (∃ phase pause, w.Trial id line hint m (before ++ [m']) next phase pause) ∨
      ∃ told, next.tasks (.call id) = .rests (.over (.ok .nothing)) told := by
  obtain ⟨course, hsound⟩ := hv.sound
  have hheld := h.held hsound
  obtain ⟨told, htask⟩ := h.task
  obtain ⟨u, hrun, hbare, hcounterpart⟩ := h.other
  obtain ⟨new, tail, hnew, hmine, htrying, hcalls⟩ := h.course
  have hskip : w.older id (before ++ [m']) = w.older id before :=
    older_concat_of_not_before (by rw [hown, hadBefore_self])
  -- what the connect does, and where that leads
  have hgoes : ∀ (events : List Event) {phase : Phase} {pause : Pause},
      (∀ e ∈ events, e.caller? = some (.call id)) → next.history = v.history ++ events →
      Trying line hint (.call id) phase pause (tail ++ events) → next.session.phase = phase →
      next.tasks (.call id) = .rests pause false → Counterpart w id next u →
      ∃ phase pause, w.Trial id line hint m (before ++ [m']) next phase pause := by
    intro events phase pause hevents hhistory htrying hphase hpause hafter
    refine ⟨phase, pause, ⟨false, hpause⟩, hphase, ⟨u, hskip ▸ hrun, hbare, hafter⟩,
      new ++ events, tail ++ events, ?_, ?_, htrying, ?_⟩
    · rw [hhistory, hnew, List.append_assoc]
    · rw [own_append, hmine, own_eq_self hevents, List.append_assoc]
    · exact List.forall_mem_append.2 ⟨hcalls, fun e he _ => hevents e he⟩
  cases htrying with
  | requesting hcheck =>
    obtain ⟨reply, hadmits, rfl⟩ := answer_of_move htask hmove hown
    cases reply with
    | device d =>
      refine Or.inl (hgoes [.answered (.call id) (.request hint) (.device d),
        .asked (.call id) (.openWith d line)] ?_ ?_ (.opening hcheck) ?_
          (Quiet.tasks_absorb_me _ _ _) (hcounterpart.rests (hadBefore_self w id) _ _))
      · simp [Event.caller?]
      · rw [goOn, history_absorb]
        simp [happen, Session.resume, onReply, Pause.events]
      · rw [goOn, session_absorb]
        exact h.phase_eq
    | failed fault =>
      refine Or.inl (hgoes [.answered (.call id) (.request hint) (.failed fault),
        .returned (.call id) (.error fault)] ?_ ?_ (.unoffered hcheck) ?_
          (Quiet.tasks_absorb_me _ _ _) (hcounterpart.fails hheld _ fault))
      · simp [Event.caller?]
      · rw [goOn, Session.resume, onReply, connectFailed, absorb_leave]
        simp [happen]
      · rw [goOn, session_absorb]
        rfl
    | done | chunk data => cases hadmits
  | @opening d hcheck =>
    obtain ⟨reply, hadmits, rfl⟩ := answer_of_move htask hmove hown
    cases reply with
    | done => exact Or.inr ⟨false, Quiet.tasks_absorb_me _ _ _⟩
    | failed cause =>
      refine Or.inl (hgoes [.answered (.call id) (.openWith d line) (.failed cause),
        .returned (.call id) (.error (openFault d cause))] ?_ ?_ (.unopened hcheck hadmits) ?_
          (Quiet.tasks_absorb_me _ _ _) (hcounterpart.fails hheld _ (openFault d cause)))
      · simp [Event.caller?]
      · rw [goOn, Session.resume, onReply, connectFailed, absorb_leave]
        simp [happen]
      · rw [goOn, session_absorb]
        rfl
    | device d | chunk data => cases hadmits

/-- While the connect has the lifecycle lock, the others come to rest or wait. -/
theorem meanwhile (h : w.Trial id line hint m before v .connecting pause) (hv : v.Reachable)
    (hmove : v.move m' = some next) (hother : m'.caller ≠ .call id) :
    w.Trial id line hint m (before ++ [m']) next .connecting pause := by
  obtain ⟨course, hsound⟩ := hv.sound
  have hphase : v.session.phase.isLinked = false := by
    rw [h.phase_eq]
    rfl
  have hholds : (v.tasks m'.caller).use .lifecycle ≠ .holds := by
    intro hholds
    refine hother ((hsound.locks .lifecycle).unique _ _ hholds ?_)
    obtain ⟨told, htask⟩ := h.task
    obtain ⟨_, _, _, _, htrying, _⟩ := h.course
    rw [htask]
    cases htrying <;> rfl
  cases hv.idles_or_asks hphase hmove hholds with
  | idles hstep => exact h.idles hv hmove hstep hother
  | asks hfree _ =>
    rw [h.phase_eq] at hfree
    cases hfree

end Trial

theorem run_append_eq_some {moves more : List Move} (hrun : w.run (moves ++ more) = some v) :
    ∃ u, w.run moves = some u ∧ u.run more = some v := by
  rw [run, List.foldlM_append] at hrun
  exact Option.bind_eq_some_iff.1 hrun

/-- A call that is over makes no more moves. -/
theorem Reachable.not_over (h : w.Reachable) {last : Move}
    (hrun : w.run (moves ++ [last]) = some v) (hlast : last.caller = .call id)
    {result : Except Fault Result} {told : Bool} :
    w.tasks (.call id) ≠ .rests (.over result) told := by
  intro hover
  obtain ⟨u, hmoves, hlastRun⟩ := run_append_eq_some hrun
  obtain ⟨next, hmove, -⟩ := run_cons_eq_some.1 hlastRun
  obtain ⟨told, hstays⟩ : ∃ told, u.tasks (.call id) = .rests (.over result) told := by
    refine Reachable.keeps (P := fun u => ∃ told, u.tasks (.call id) = .rests (.over result) told)
      h hmoves ⟨told, hover⟩ ?_
    rintro u next me course _ hsound ⟨events, s, pause, hdeed, hchanges⟩ ⟨told, htask⟩
    have hme : .call id ≠ me := by
      rintro rfl
      exact hdeed.not_over htask
    exact hchanges.rests hsound hme htask
  obtain ⟨course, hsound⟩ := (h.run hmoves).sound
  obtain ⟨events, s, pause, hdeed, -⟩ := hsound.does_move hmove
  rw [hlast] at hdeed
  exact hdeed.not_over hstays

namespace Trial

/-- When the connect fails, it has failed on the way that it can go. -/
theorem fails {last : Move} {fault : Fault} {told : Bool}
    (h : w.Trial id line hint m before v .connecting pause) (hv : v.Reachable)
    (hrun : v.run (moves ++ [last]) = some next) (hlast : last.caller = .call id)
    (hover : next.tasks (.call id) = .rests (.over (.error fault)) told) :
    w.Trial id line hint m (before ++ (moves ++ [last])) next .disconnected
      (.over (.error fault)) := by
  induction moves generalizing v before pause with
  | nil =>
    obtain ⟨u, hmove, hnil⟩ := run_cons_eq_some.1 hrun
    cases hnil
    rcases h.answers hv hmove hlast with ⟨phase', pause', hafter⟩ | ⟨told', hsucceeds⟩
    · obtain ⟨told', htask⟩ := hafter.task
      rw [hover] at htask
      cases htask
      obtain ⟨_, _, _, _, htrying, _⟩ := hafter.course
      cases htrying <;> exact hafter
    · rw [hover] at hsucceeds
      cases hsucceeds
  | cons m' rest ih =>
    obtain ⟨u, hmove, hrest⟩ := run_cons_eq_some.1 hrun
    have hu := hv.move hmove
    have hgoes : ∀ {pause' : Pause}, w.Trial id line hint m (before ++ [m']) u .connecting pause' →
        w.Trial id line hint m (before ++ (m' :: rest ++ [last])) next .disconnected
          (.over (.error fault)) := by
      intro pause' hafter
      have hall := ih hafter hu hrest
      rwa [List.append_assoc] at hall
    by_cases hown : m'.caller = .call id
    · rcases h.answers hv hmove hown with ⟨phase', pause', hafter⟩ | ⟨told', hsucceeds⟩
      · obtain ⟨told', htask⟩ := hafter.task
        obtain ⟨_, _, _, _, htrying, _⟩ := hafter.course
        cases htrying with
        | requesting _ | opening _ => exact hgoes hafter
        | refused _ | unoffered _ | unopened _ _ => exact absurd htask (hu.not_over hrest hlast)
      · exact absurd hsucceeds (hu.not_over hrest hlast)
    · exact hgoes (h.meanwhile hv hmove hown)

/-- After the connect has failed and until another one asks for a device, nothing changes. -/
theorem rests {result : Except Fault Result} {later : List Event}
    (h : w.Trial id line hint m before v .disconnected (.over result)) (hv : v.Reachable)
    (hrun : v.run moves = some next) (hlater : next.history = v.history ++ later)
    (hnone : ∀ c hint', .asked c (.request hint') ∉ later) :
    w.Trial id line hint m (before ++ moves) next .disconnected (.over result) := by
  induction moves generalizing v before later with
  | nil =>
    cases hrun
    rwa [List.append_nil]
  | cons m' rest ih =>
    obtain ⟨u, hmove, hrest⟩ := run_cons_eq_some.1 hrun
    obtain ⟨course, hsound⟩ := hv.sound
    obtain ⟨events, s, pause, hdeed, hchanges⟩ := hsound.does_move hmove
    obtain ⟨more, hmore⟩ := (hv.move hmove).history_grows hrest
    obtain rfl : later = events ++ more := by
      rw [hmore, hchanges.history, List.append_assoc] at hlater
      exact (List.append_cancel_left hlater).symm
    obtain ⟨told, htask⟩ := h.task
    have hother : m'.caller ≠ .call id := by
      intro heq
      rw [heq] at hdeed
      exact hdeed.not_over htask
    have hphase : v.session.phase.isLinked = false := by
      rw [h.phase_eq]
      rfl
    have hholds : (v.tasks m'.caller).use .lifecycle ≠ .holds :=
      (hsound.locks .lifecycle).not_held (hsound.not_held_disconnected h.phase_eq) m'.caller
    have hall : w.Trial id line hint m (before ++ [m']) u .disconnected (.over result) := by
      cases hv.idles_or_asks hphase hmove hholds with
      | idles hstep => exact h.idles hv hmove hstep hother
      | @asks hint' _ _ hasks =>
        rw [hchanges.history, List.append_assoc] at hasks
        obtain rfl := List.append_cancel_left hasks
        exact absurd (by simp) (hnone m'.caller hint')
    have hend := ih hall (hv.move hmove) hrest hmore fun c hint' hmem =>
      hnone c hint' (List.mem_append_right _ hmem)
    rwa [List.append_assoc] at hend

end Trial

/-! ## What a failed connect leaves -/

theorem Reachable.trial_of_fails (h : w.Reachable) (hphase : w.session.phase = .disconnected)
    (henters : w.EntersBy id (.connect line hint) (.connectTurn line hint) m)
    (hrun : w.run (m :: moves) = some v)
    (hlast : (m :: moves).getLast?.map Move.caller = some (.call id)) {fault : Fault}
    {told : Bool} (hfails : v.tasks (.call id) = .rests (.over (.error fault)) told) :
    w.Trial id line hint m moves v .disconnected (.over (.error fault)) := by
  obtain ⟨first, hmove, hrest⟩ := run_cons_eq_some.1 hrun
  obtain ⟨phase, pause, htrial⟩ := h.begins_trial hphase henters hmove
  obtain ⟨told', htask⟩ := htrial.task
  obtain ⟨_, _, _, _, htrying, _⟩ := htrial.course
  rcases List.eq_nil_or_concat moves with rfl | ⟨before, last, hmoves⟩
  · cases hrest
    rw [hfails] at htask
    cases htask
    obtain ⟨rfl, -⟩ := htrying.failsBy
    exact htrial
  · rw [List.concat_eq_append] at hmoves
    subst hmoves
    have hown : last.caller = .call id := by
      rw [← List.cons_append, List.getLast?_concat] at hlast
      exact Option.some.inj hlast
    have hfirst := h.move hmove
    cases htrying with
    | requesting _ | opening _ => exact htrial.fails hfirst hrest hown hfails
    | refused _ | unoffered _ | unopened _ _ => exact absurd htask (hfirst.not_over hrest hown)

theorem Trial.bare_eq {result : Except Fault Result}
    (h : w.Trial id line hint m moves v .disconnected (.over result)) :
    v.session.bare = w.session.bare := by
  obtain ⟨u, -, hbare, hcounterpart⟩ := h.other
  rw [← hcounterpart.bare_eq h.phase_eq, hbare]

end World

end Session

end SerialConsole
