import SerialConsole.Proofs.Session.Disconnecting
import SerialConsole.Proofs.Session.Twins

set_option autoImplicit false

/-!
# While a session has no device

What tasks do while a session is disconnected or connecting, apart from the connect that has the
lifecycle lock. Sends are refused and lose their turn, there is nothing to disconnect and nothing to
watch, a connect is refused for its settings: such a step comes to rest at once or in the row of the
lifecycle lock, and leaves the session as it was but for the rows of those who wait (`Idles`). Or a
connect asks for a device (`Reachable.idles_or_asks`).
-/
namespace SerialConsole.Session

/-- The device call that starts or ends with an event. -/
def Event.deviceCall? : Event → Option DeviceCall
  | .asked _ call | .answered _ call _ => some call
  | _ => none

/-! ## Steps that find no device -/

section

variable {s : Session} {me : Caller} {line : LineSettings} {hint : Option String} {data : Bytes}

theorem take_eq_takeTurn {name : LockName} (hfree : s.isFree name = true) (me : Caller) :
    s.take name = s.takeTurn name me := by
  rw [isFree, Bool.and_eq_true, List.isEmpty_iff] at hfree
  rw [take, takeTurn, hfree.2]
  cases name <;> simp [lock] at hfree ⊢ <;> simp [hfree]

theorem connectLocked_refused {fault : Fault} (hphase : s.phase = .disconnected)
    (hcheck : line.check = .error fault) :
    connectLocked line hint s = s.leave .lifecycle [] (.error fault) := by
  rw [connectLocked, if_neg (not_not_intro hphase), hcheck]

theorem connectLocked_asks (hphase : s.phase = .disconnected) (hcheck : line.check = .ok ()) :
    connectLocked line hint s =
      ⟨{ s with phase := .connecting }, [], .askDevice (.request hint) (.requesting line)⟩ := by
  rw [connectLocked, if_neg (not_not_intro hphase), hcheck]

theorem disconnectLocked_nothing (hphase : s.phase = .disconnected) :
    disconnectLocked me s = s.leave .lifecycle [] (.ok .nothing) :=
  if_pos hphase

theorem sendLocked_lost (hphase : s.phase ≠ .connected) :
    sendLocked data s = s.leave .writer [] (.error .connectionLost) := by
  rw [sendLocked]
  split
  case h_1 hconnected _ => exact absurd hconnected hphase
  case h_2 => rfl

theorem beginSend_unconnected (hphase : s.phase ≠ .connected) :
    s.beginSend me data = s.finish [] (.error .notConnected) :=
  if_pos hphase

end

namespace World

variable {w next : World} {m : Move} {step : Step} {course : Course} {id : Nat}

/-- The step of a move that leaves the session as it was. -/
inductive Idles (w : World) : Move → Step → Prop where
  | ends {id : Nat} {op : Operation} {result : Except Fault Result} :
    w.tasks (.call id) = .absent → Idles w (.begin id op) (w.session.finish [] result)
  | queues {id : Nat} {op : Operation} {point : Point} :
    w.tasks (.call id) = .absent →
    Idles w (.begin id op)
      ⟨w.session.queue .lifecycle (.call id), [], .awaitTurn .lifecycle point⟩
  | passes {id : Nat} {op : Operation} {result : Except Fault Result} :
    w.tasks (.call id) = .absent → w.session.isFree .lifecycle = true →
    Idles w (.begin id op)
      (leave (w.session.takeTurn .lifecycle (.call id)) .lifecycle [] result)
  | finds {c : Caller} {point : Point} {result : Except Fault Result} :
    w.tasks c = .rests (.awaitTurn .lifecycle point) true →
    (∀ s : Session, s.phase = .disconnected →
      s.onTurn c point = leave (s.takeTurn .lifecycle c) .lifecycle [] result) →
    Idles w (.turn c) (leave (w.session.takeTurn .lifecycle c) .lifecycle [] result)
  | loses {c : Caller} {data : Bytes} :
    w.tasks c = .rests (.awaitTurn .writer (.sendTurn data)) true →
    Idles w (.turn c) (leave (w.session.takeTurn .writer c) .writer [] (.error .connectionLost))
  | joins {c : Caller} {n : Nat} {told : Bool} {result : Except Fault Result} :
    w.tasks c = .rests (.watchReader n .closed) told → w.resultOf n = some result →
    Idles w (.join c) (w.session.finish [] (result.map fun _ => .nothing))

/-- What a move does that is no step of the connect that has the lifecycle lock. -/
inductive Bypasses (w : World) (m : Move) : World → Prop where
  | idles {step : Step} : w.Idles m step →
    Bypasses w m ((w.happen m.begun).absorb m.caller step)
  | asks {hint : Option String} {next : World} : w.session.phase = .disconnected →
    next.history = w.history ++ m.begun ++ [.asked m.caller (.request hint)] → Bypasses w m next

/-! ## The moves -/

theorem unfinished_of_due {n : Nat} {d : Handle} (hdue : w.tasks (.reader n) = .due d) :
    w.Unfinished n := by
  refine ⟨by rw [hdue]; nofun, resultOf_eq_none_iff.2 fun result told heq => ?_⟩
  rw [hdue] at heq
  cases heq

theorem unfinished_of_rests {n : Nat} {pause : Pause} {point : Point} {told : Bool}
    (htask : w.tasks (.reader n) = .rests pause told) (hpoint : pause.point? = some point) :
    w.Unfinished n := by
  refine ⟨by rw [htask]; nofun, resultOf_eq_none_iff.2 fun result told' heq => ?_⟩
  rw [htask] at heq
  cases heq
  cases hpoint

theorem Sound.free_disconnected (h : w.Sound course) (hphase : w.session.phase.isLinked = false)
    (hheld : w.session.lifecycleLock.held = false) : w.session.phase = .disconnected := by
  cases h.settled hheld with
  | disconnected hs => exact hs.phase_eq
  | connected hconnected _ _ =>
    rw [hconnected] at hphase
    cases hphase

theorem Sound.not_held_disconnected (h : w.Sound course)
    (hphase : w.session.phase = .disconnected) : w.session.lifecycleLock.held = false := by
  refine Bool.eq_false_iff.2 fun hheld => ?_
  have hbusy := h.held_iff.1 hheld
  rw [hphase] at hbusy
  rcases hbusy with heq | heq <;> cases heq

theorem Sound.begin_bypasses (h : w.Sound course) (hphase : w.session.phase.isLinked = false)
    (habsent : w.tasks (.call id) = .absent) (op : Operation) :
    w.Bypasses (.begin id op) ((w.happen (Move.begin id op).begun).absorb (.call id)
      (op.start w.session (.call id))) := by
  have hnot : w.session.phase ≠ .connected := by
    intro hconnected
    rw [hconnected] at hphase
    cases hphase
  have hfree : w.session.isFree .lifecycle = true →
      (w.session.takeTurn .lifecycle (.call id)).phase = .disconnected := by
    intro hfree
    rw [isFree, Bool.and_eq_true, Bool.not_eq_true'] at hfree
    exact h.free_disconnected hphase hfree.1
  cases op with
  | connect line hint =>
    rw [Operation.start, beginConnect, enter]
    split
    case isTrue hgo =>
      rw [take_eq_takeTurn hgo (.call id)]
      cases hcheck : line.check with
      | error fault =>
        rw [connectLocked_refused (hfree hgo) hcheck]
        exact .idles (.passes habsent hgo)
      | ok =>
        rw [connectLocked_asks (hfree hgo) hcheck]
        refine @Bypasses.asks _ _ hint _ (hfree hgo) ?_
        rw [history_absorb, List.filterMap_nil, List.append_nil]
        rfl
    case isFalse => exact .idles (.queues habsent)
  | send data =>
    rw [Operation.start, beginSend_unconnected hnot]
    exact .idles (.ends habsent)
  | sendData data format ending =>
    rw [Operation.start, beginSendData]
    split
    · rw [beginSend_unconnected hnot]
      exact .idles (.ends habsent)
    · exact .idles (.ends habsent)
  | disconnect =>
    rw [Operation.start, beginDisconnect, enter]
    split
    case isTrue hgo =>
      rw [take_eq_takeTurn hgo (.call id), disconnectLocked_nothing (hfree hgo)]
      exact .idles (.passes habsent hgo)
    case isFalse => exact .idles (.queues habsent)
  | waitClosed =>
    rw [Operation.start, beginWaitClosed, (h.vacant_of_not_connected hnot).2]
    exact .idles (.ends habsent)

theorem Sound.turn_bypasses (h : w.Sound course) (hphase : w.session.phase.isLinked = false)
    (hover : ∀ n, ¬ w.Unfinished n) {c : Caller} {name : LockName} {point : Point}
    (htask : w.tasks c = .rests (.awaitTurn name point) true) :
    w.Bypasses (.turn c) (w.goOn c point .turn) := by
  have hnot : w.session.phase ≠ .connected := by
    intro hconnected
    rw [hconnected] at hphase
    cases hphase
  have hidles : ∀ {step : Step}, w.session.onTurn c point = step → w.Idles (.turn c) step →
      w.Bypasses (.turn c) (w.goOn c point .turn) := by
    rintro step rfl hstep
    have hcalm := Bypasses.idles hstep
    rwa [show (Move.turn c).begun = [] from rfl, happen_nil] at hcalm
  rcases h.rests _ _ _ htask with haside | hholding
  · cases haside with
    | @connectTurn id line hint =>
      have hheld := ((h.locks .lifecycle).told (.call id) (by rw [htask]; rfl)).1
      have hfree := h.free_disconnected hphase hheld
      cases hcheck : line.check with
      | error fault =>
        refine hidles (connectLocked_refused hfree hcheck) (.finds htask fun s hs => ?_)
        exact connectLocked_refused hs hcheck
      | ok =>
        refine @Bypasses.asks _ _ hint _ hfree ?_
        have hstep : w.session.onTurn (.call id) (.connectTurn line hint) = _ :=
          connectLocked_asks hfree hcheck
        rw [goOn, Session.resume, hstep, history_absorb, List.filterMap_nil, List.append_nil]
        exact (congrArg (· ++ _) (List.append_nil _)).symm
    | @disconnectTurn id =>
      have hheld := ((h.locks .lifecycle).told (.call id) (by rw [htask]; rfl)).1
      have hfree := h.free_disconnected hphase hheld
      exact hidles (disconnectLocked_nothing hfree)
        (.finds htask fun s hs => disconnectLocked_nothing hs)
    | sendTurn => exact hidles (sendLocked_lost hnot) (.loses htask)
    | readTurn =>
      exact absurd (unfinished_of_rests htask rfl) (hover _)
  · cases hholding with
    | closeTurn hs =>
      rw [hs.phase_eq] at hphase
      cases hphase

/-- While a session has no device, a move that is no step of the connect that has the lifecycle lock
leaves the session as it was, or asks for a device. -/
theorem Reachable.idles_or_asks (h : w.Reachable) (hphase : w.session.phase.isLinked = false)
    (hmove : w.move m = some next) (hholds : (w.tasks m.caller).use .lifecycle ≠ .holds) :
    w.Bypasses m next := by
  obtain ⟨course, hsound⟩ := h.sound
  have hover := h.readers_over hphase
  have haside : ∀ {pause : Pause} {told : Bool}, w.tasks m.caller = .rests pause told →
      Aside m.caller pause := fun htask =>
    (hsound.rests _ _ _ htask).resolve_right fun hholding =>
      hholds (htask ▸ if_pos hholding.locked)
  cases m with
  | begin id op =>
    rw [World.move] at hmove
    split at hmove
    case h_1 habsent =>
      cases hmove
      exact hsound.begin_bypasses hphase habsent op
    case h_2 => cases hmove
  | answer c reply =>
    rw [World.move] at hmove
    split at hmove
    case h_1 call point told htask =>
      cases haside htask with
      | writing =>
        rw [h.writes_linked ⟨_, _, htask⟩] at hphase
        cases hphase
      | reading => exact absurd (unfinished_of_reading htask) (hover _)
    case h_2 => cases hmove
  | turn c =>
    rw [World.move] at hmove
    split at hmove
    case h_1 name point htask =>
      cases hmove
      exact hsound.turn_bypasses hphase hover htask
    case h_2 => cases hmove
  | stopWaiting c =>
    rw [World.move] at hmove
    split at hmove
    case h_1 n point told htask => cases haside htask
    case h_2 => cases hmove
  | join c =>
    rw [World.move] at hmove
    split at hmove
    case h_1 n point told htask => cases haside htask
    case h_2 n point told htask =>
      obtain ⟨result, hresult, rfl⟩ := Option.map_eq_some_iff.1 hmove
      cases haside htask with
      | watching =>
        have hcalm := Bypasses.idles (.joins htask hresult)
        rwa [show (Move.join (.call _)).begun = [] from rfl, happen_nil] at hcalm
    case h_3 => cases hmove
  | startReading n =>
    rw [World.move] at hmove
    split at hmove
    case h_1 d hdue => exact absurd (unfinished_of_due hdue) (hover n)
    case h_2 => cases hmove
  | cancelReading n =>
    rw [World.move] at hmove
    split at hmove
    case isTrue =>
      split at hmove
      case h_1 d hdue => exact absurd (unfinished_of_due hdue) (hover n)
      case h_2 pause told htask =>
        obtain ⟨point, hpoint, -⟩ := Option.map_eq_some_iff.1 hmove
        exact absurd (unfinished_of_rests htask hpoint) (hover n)
      case h_3 => cases hmove
    case isFalse => cases hmove

theorem Idles.bare (h : w.Idles m step) : step.session.bare = w.session.bare := by
  cases h with
  | ends | joins => rfl
  | queues => exact bare_queue _ _ _
  | passes | finds | loses => exact (bare_release _ _).trans (bare_takeTurn _ _ _)

theorem Idles.history (h : w.Idles m step) :
    ((w.happen m.begun).absorb m.caller step).history =
      w.history ++ (m.begun ++ step.pause.events m.caller) := by
  have hnone : step.effects.filterMap Effect.event? = [] := by
    cases h with
    | ends | joins | queues => rfl
    | passes | finds | loses => exact event?_wakeFirst _ _
  rw [history_absorb, hnone, List.append_nil, ← List.append_assoc]
  rfl

theorem Idles.events (h : w.Idles m step) : ∀ e ∈ m.begun ++ step.pause.events m.caller,
    e.deviceCall? = none ∧ e.caller? = some m.caller := by
  cases h with
  | ends | passes =>
    exact List.forall_mem_cons.2 ⟨⟨rfl, rfl⟩, List.forall_mem_singleton.2 ⟨rfl, rfl⟩⟩
  | queues | finds | loses | joins => exact List.forall_mem_singleton.2 ⟨rfl, rfl⟩

end World

end SerialConsole.Session
