import SerialConsole.Proofs.Loop.Course

set_option autoImplicit false

/-!
# The ledger of a loop

What a loop remembers of the entries that were logged agrees with its history: the log has grown by
them, who is registered once has heard each of them once, and the received ones are what reads got
before the disconnect began. A `Ledger` is kept by every step of the session.
-/
namespace SerialConsole.Loop

open SerialConsole.Session (logged payloads opened closed taken)

/-- What a listener has heard of, in order. -/
def hearings (heard : Array (Log.Listener × Log.Entry)) (listener : Log.Listener) :
    List Log.Entry :=
  (heard.toList.filter (·.1 = listener)).map (·.2)

/-- The registration of the counter, if it listens. -/
def counting (listens : Bool) : List Log.Listener :=
  if listens then [counter] else []

namespace State

/-- What a task logs when it goes on. -/
def payload? (l : State) (a : Active) : Option (Log.Direction × Bytes) :=
  match a.control with
  | .signal point signal => l.session.payload? point signal
  | _ => none

variable {l after : State} {a : Active} {step : Session.Step} {h : List Session.Event}

theorem logs_of_sessionStep (hstep : l.sessionStep? a = some step) :
    step.Logs l.session.log (l.payload? a) := by
  unfold payload?
  unfold sessionStep? at hstep
  dsimp only at hstep
  cases hc : a.control with
  | begin action =>
    rw [hc] at hstep
    cases action with
    | connect line hint =>
      cases hstep
      exact Session.beginConnect_logs l.session _ line hint
    | send data =>
      cases hstep
      exact Session.beginSend_logs l.session _ data
    | sendData data format ending =>
      cases hstep
      exact Session.beginSendData_logs l.session _ data format ending
    | disconnect =>
      cases hstep
      exact Session.beginDisconnect_logs l.session _
    | waitClosed =>
      cases hstep
      exact Session.beginWaitClosed_logs l.session
    | _ => cases hstep
  | readLoop device =>
    rw [hc] at hstep
    cases hstep
    exact Session.beginRead_logs l.session _ device
  | signal point signal =>
    rw [hc] at hstep
    cases hstep
    exact Session.resume_logs l.session _ point signal
  | turn job turn =>
    rw [hc] at hstep
    cases hstep
  | give outcome =>
    rw [hc] at hstep
    cases hstep

/-- The entry that is logged for a payload. -/
def entryOf (l : State) (payload : Log.Direction × Bytes) : Log.Entry :=
  l.session.log.nextEntry payload.1 payload.2

theorem deeds_eq (hstep : l.sessionStep? a = some step) :
    l.deeds a = (a.control.answer? (l.task a.task).caller).toList ++
      ((l.payload? a).map fun p => .logged (l.entryOf p)).toList ++
        step.pause.events (l.task a.task).caller := by
  unfold deeds
  rw [hstep]
  dsimp only
  rw [(logs_of_sessionStep hstep).told]
  cases l.payload? a <;> rfl

theorem told_eq (hstep : l.sessionStep? a = some step) :
    told step.effects = ((l.payload? a).map fun p =>
      l.session.log.listeners.map (·, l.entryOf p)).getD [] := by
  unfold told
  rw [(logs_of_sessionStep hstep).told]
  cases l.payload? a with
  | none => rfl
  | some p => exact List.append_nil _

/-! ## What is read off the deeds -/

theorem answer?_cases (me : Caller) (control : Control) :
    control.answer? me = none ∨ ∃ point reply call, control = .signal point (.reply reply) ∧
      point.call? = some call ∧ control.answer? me = some (.answered me call reply) := by
  cases control with
  | signal point signal =>
    cases signal with
    | reply reply =>
      cases hcall : point.call? with
      | none =>
        left
        simp only [Control.answer?, hcall]
        rfl
      | some call =>
        right
        refine ⟨point, reply, call, rfl, hcall, ?_⟩
        simp only [Control.answer?, hcall]
        rfl
    | _ => exact .inl rfl
  | _ => exact .inl rfl

theorem events_cases (me : Caller) (pause : Session.Pause) :
    (∃ call point, pause = .askDevice call point ∧ pause.events me = [.asked me call]) ∨
      (∃ result, pause.events me = [.returned me result]) ∨ pause.events me = [] := by
  cases pause with
  | «over» result => exact .inr (.inl ⟨result, rfl⟩)
  | askDevice call point => exact .inl ⟨call, point, rfl, rfl⟩
  | _ => exact .inr (.inr rfl)

/-- A function of events that is blind to asking, logging and returning sees only the answer. -/
theorem filterMap_deeds {α : Type} (f : Session.Event → Option α)
    (hstep : l.sessionStep? a = some step) (hlogged : ∀ entry, f (.logged entry) = none)
    (hasked : ∀ c call, f (.asked c call) = none)
    (hreturned : ∀ c result, f (.returned c result) = none) :
    (l.deeds a).filterMap f =
      (a.control.answer? (l.task a.task).caller).toList.filterMap f := by
  have hlog : ((l.payload? a).map fun p => Session.Event.logged (l.entryOf p)).toList.filterMap f =
      [] := by
    cases l.payload? a with
    | none => rfl
    | some p => simp [hlogged]
  have hpause : (step.pause.events (l.task a.task).caller).filterMap f = [] := by
    rcases events_cases (l.task a.task).caller step.pause with ⟨_, _, _, h⟩ | ⟨_, h⟩ | h
    · simp [h, hasked]
    · simp [h, hreturned]
    · rw [h]
      rfl
  rw [deeds_eq hstep, List.filterMap_append, List.filterMap_append, hlog, hpause,
    List.append_nil, List.append_nil]

theorem answer?_blind {α : Type} (f : Session.Event → Option α) (me : Caller) (control : Control)
    (hf : ∀ c call reply, f (.answered c call reply) = none) :
    (control.answer? me).toList.filterMap f = [] := by
  rcases answer?_cases me control with h | ⟨_, _, _, _, _, h⟩
  · rw [h]
    rfl
  · simp [h, hf]

theorem opened_deeds (hstep : l.sessionStep? a = some step) :
    opened (l.deeds a) =
      (a.control.answer? (l.task a.task).caller).toList.filterMap Session.Event.opened? :=
  filterMap_deeds _ hstep (fun _ => rfl) (fun _ _ => rfl) fun _ _ => rfl

theorem closed_deeds (hstep : l.sessionStep? a = some step) :
    closed (l.deeds a) =
      (step.pause.events (l.task a.task).caller).filterMap Session.Event.closed? := by
  have hlog : ((l.payload? a).map fun p => Session.Event.logged (l.entryOf p)).toList.filterMap
      Session.Event.closed? = [] := by
    cases l.payload? a <;> rfl
  rw [closed, deeds_eq hstep, List.filterMap_append, List.filterMap_append,
    answer?_blind _ _ _ fun _ _ _ => rfl, hlog]
  rfl

theorem logged_deeds (hstep : l.sessionStep? a = some step) :
    logged (l.deeds a) = ((l.payload? a).map l.entryOf).toList := by
  have hpause : (step.pause.events (l.task a.task).caller).filterMap Session.Event.logged? = [] := by
    rcases events_cases (l.task a.task).caller step.pause with ⟨_, _, _, h⟩ | ⟨_, h⟩ | h
    · rw [h]
      rfl
    · rw [h]
      rfl
    · rw [h]
      rfl
  rw [logged, deeds_eq hstep, List.filterMap_append, List.filterMap_append, hpause,
    answer?_blind _ _ _ fun _ _ _ => rfl]
  cases l.payload? a <;> rfl

/-- Only the last of the deeds can begin a disconnect. -/
theorem parting_deeds (hstep : l.sessionStep? a = some step) :
    ∃ front, l.deeds a = front ++ step.pause.events (l.task a.task).caller ∧
      ∀ e ∈ front, e.isParting = false := by
  refine ⟨_, deeds_eq hstep, fun e he => ?_⟩
  rcases List.mem_append.1 he with he | he
  · rcases answer?_cases (l.task a.task).caller a.control with h | ⟨_, _, _, _, _, h⟩
    · rw [h] at he
      cases he
    · rw [h, Option.toList_some, List.mem_singleton] at he
      rw [he]
      rfl
  · cases hp : l.payload? a with
    | none =>
      rw [hp] at he
      cases he
    | some p =>
      rw [hp, Option.map_some, Option.toList_some, List.mem_singleton] at he
      rw [he]
      rfl

/-- Events that neither open nor close a device and with which no disconnect begins. -/
structure Quiet (events : List Session.Event) : Prop where
  opened : Session.opened events = []
  closed : Session.closed events = []
  unparted : ∀ e ∈ events, e.isParting = false

theorem closed_quiet (hstep : l.sessionStep? a = some step)
    (hpause : ∀ d point, step.pause ≠ .askDevice (.close d) point) : closed (l.deeds a) = [] := by
  rw [closed_deeds hstep]
  rcases events_cases (l.task a.task).caller step.pause with ⟨call, point, hp, h⟩ | ⟨_, h⟩ | h
  · rw [h]
    cases call with
    | close d => exact absurd hp (hpause d point)
    | _ => rfl
  · rw [h]
    rfl
  · rw [h]
    rfl

theorem unparted_quiet (hstep : l.sessionStep? a = some step)
    (hpause : ∀ d point, step.pause ≠ .askDevice (.cancelRead d) point) :
    ∀ e ∈ l.deeds a, e.isParting = false := by
  obtain ⟨front, hdeeds, hgoing⟩ := parting_deeds hstep
  intro e he
  rw [hdeeds] at he
  rcases List.mem_append.1 he with he | he
  · exact hgoing e he
  · rcases events_cases (l.task a.task).caller step.pause with ⟨call, point, hp, h⟩ | ⟨_, h⟩ | h
    · rw [h, List.mem_singleton] at he
      rw [he]
      cases call with
      | cancelRead d => exact absurd hp (hpause d point)
      | _ => rfl
    · rw [h, List.mem_singleton] at he
      rw [he]
      rfl
    · rw [h] at he
      cases he

/-- A step is quiet if its task was not told of an open device and asks for nothing that matters. -/
theorem quiet_deeds (hstep : l.sessionStep? a = some step)
    (hanswer : (a.control.answer? (l.task a.task).caller).toList.filterMap
      Session.Event.opened? = [])
    (hcancel : ∀ d point, step.pause ≠ .askDevice (.cancelRead d) point)
    (hclose : ∀ d point, step.pause ≠ .askDevice (.close d) point) :
    Quiet (l.deeds a) :=
  ⟨(opened_deeds hstep).trans hanswer, closed_quiet hstep hclose, unparted_quiet hstep hcancel⟩

/-- A step beside the connection is quiet. -/
theorem beside_quiet {side : Session.Sideline} (hstep : l.sessionStep? a = some step)
    (hbeside : step.Beside l.session side)
    (hcontrol : ∀ point signal, a.control = .signal point signal → point.sideline? ≠ none) :
    Quiet (l.deeds a) := by
  have hpause := hbeside.pause
  refine quiet_deeds hstep ?_ (fun d point h => ?_) fun d point h => ?_
  · rcases answer?_cases (l.task a.task).caller a.control with h | ⟨point, reply, call, hc, hcall, h⟩
    · rw [h]
      rfl
    · rw [h]
      cases point with
      | opening device line => exact absurd rfl (hcontrol _ _ hc)
      | writing device data =>
        cases hcall
        rfl
      | reading device =>
        cases hcall
        rfl
      | cancelling device reader => exact absurd rfl (hcontrol _ _ hc)
      | closing device => exact absurd rfl (hcontrol _ _ hc)
      | _ => cases hcall
  · rw [h] at hpause
    cases hpause
  · rw [h] at hpause
    cases hpause

/-- What a task logs is received if it says so. -/
theorem received_payload (hstep : l.sessionStep? a = some step) :
    payloads .received (l.deeds a) = ((l.payload? a).bind fun p =>
      if p.1 = .received then some p.2 else none).toList := by
  have hpause : (step.pause.events (l.task a.task).caller).filterMap
      (Session.Event.payload? .received) = [] := by
    rcases events_cases (l.task a.task).caller step.pause with ⟨_, _, _, h⟩ | ⟨_, h⟩ | h
    · rw [h]
      rfl
    · rw [h]
      rfl
    · rw [h]
      rfl
  rw [payloads, deeds_eq hstep, List.filterMap_append, List.filterMap_append, hpause,
    answer?_blind _ _ _ fun _ _ _ => rfl, List.nil_append, List.append_nil]
  cases l.payload? a with
  | none => rfl
  | some p =>
    obtain ⟨direction, data⟩ := p
    cases direction <;> rfl

/-- What a task logs of a chunk that it got: the chunk, if there is something in it and the session
was not told to stop. -/
theorem received_deeds (hstep : l.sessionStep? a = some step) :
    payloads .received (l.deeds a) =
      if l.session.stopReading then [] else (l.deeds a).filterMap Session.Event.data? := by
  rw [received_payload hstep, filterMap_deeds _ hstep (fun _ => rfl) (fun _ _ => rfl) fun _ _ => rfl]
  unfold payload?
  cases a.control with
  | signal point signal =>
    cases signal with
    | reply reply =>
      cases point with
      | writing device data => cases reply <;> cases l.session.stopReading <;> rfl
      | reading device =>
        cases reply with
        | chunk data =>
          cases data with
          | none => cases l.session.stopReading <;> rfl
          | some data =>
            cases hstop : l.session.stopReading with
            | true =>
              simp [Session.payload?, hstop]
            | false =>
              cases data with
              | nil => simp [Session.payload?, hstop, Control.answer?, Session.Point.call?,
                  Session.Event.data?]
              | cons b rest =>
                simp [Session.payload?, hstop, Control.answer?, Session.Point.call?,
                  Session.Event.data?]
        | _ => cases l.session.stopReading <;> rfl
      | cancelling device reader => cases device <;> cases l.session.stopReading <;> rfl
      | closing device => cases device <;> cases l.session.stopReading <;> rfl
      | _ => cases l.session.stopReading <;> rfl
    | _ => cases point <;> cases l.session.stopReading <;> rfl
  | _ => cases l.session.stopReading <;> rfl

end State

/-! ## The ledger -/

theorem taken_append {xs : List Session.Event} (ys : List Session.Event)
    (h : ∀ e ∈ xs, e.isParting = false) :
    taken (xs ++ ys) = xs.filterMap Session.Event.data? ++ taken ys := by
  unfold taken
  rw [List.takeWhile_append_of_pos fun e he => by rw [h e he]; rfl, List.filterMap_append]

theorem State.taken_deeds {l : State} {a : Active} {step : Session.Step}
    (hstep : l.sessionStep? a = some step) :
    taken (l.deeds a) = (l.deeds a).filterMap Session.Event.data? := by
  obtain ⟨front, hdeeds, hgoing⟩ := parting_deeds hstep
  rw [hdeeds, taken_append _ hgoing, List.filterMap_append]
  rcases events_cases (l.task a.task).caller step.pause with ⟨call, _, _, h⟩ | ⟨_, h⟩ | h
  · rw [h]
    cases call <;> rfl
  · rw [h]
    rfl
  · rw [h]
    rfl

theorem taken_parted {xs : List Session.Event} (ys : List Session.Event)
    (h : ∃ e ∈ xs, e.isParting = true) : taken (xs ++ ys) = taken xs := by
  unfold taken
  induction xs with
  | nil =>
    obtain ⟨e, he, _⟩ := h
    cases he
  | cons x rest ih =>
    rw [List.cons_append, List.takeWhile_cons, List.takeWhile_cons]
    split
    case isFalse => rfl
    case isTrue hx =>
      obtain ⟨e, he, hparting⟩ := h
      rcases List.mem_cons.1 he with rfl | he
      · rw [hparting] at hx
        cases hx
      · rw [List.filterMap_cons, List.filterMap_cons, ih ⟨e, he, hparting⟩]

/-- What a loop remembers of the entries that were logged. The counter has counted the received ones
if `counts`. -/
structure Ledger (ring : Log.Ring) (base : List Log.Listener) (counts : Prop)
    (h : List Session.Event) (l : State) : Prop where
  grows : ring.Grows (logged h) { l.session.log with listeners := ring.listeners }
  heard : ∀ listener, listener ≠ counter → base.count listener = 1 →
    hearings l.heard listener = logged h
  counted : counts → counter ∉ base → l.countReceived = (payloads .received h).length
  taken : payloads .received h = taken h

theorem hearings_append (heard : Array (Log.Listener × Log.Entry))
    (told : List (Log.Listener × Log.Entry)) (listener : Log.Listener) :
    hearings (heard ++ told.toArray) listener =
      hearings heard listener ++ (told.filter (·.1 = listener)).map (·.2) := by
  simp only [hearings, Array.toList_append, List.filter_append, List.map_append]

/-- Every registration of a listener hears of an entry once. -/
theorem hearings_told (listeners : List Log.Listener) (entry : Log.Entry)
    (listener : Log.Listener) :
    ((listeners.map (·, entry)).filter (·.1 = listener)).map (·.2) =
      List.replicate (listeners.count listener) entry := by
  induction listeners with
  | nil => rfl
  | cons other rest ih =>
    rw [List.map_cons, List.filter_cons, List.count_cons]
    by_cases hsame : other = listener
    · simp [hsame, ih, List.replicate_succ]
    · simp [hsame, ih]

/-- A step of the session makes the log grow by what it logs. -/
theorem State.grows_of_sessionStep {ring : Log.Ring} {entries : List Log.Entry} {l : State}
    {a : Active} {step : Session.Step} (hstep : l.sessionStep? a = some step)
    (hgrows : ring.Grows entries { l.session.log with listeners := ring.listeners }) :
    ring.Grows (entries ++ logged (l.deeds a))
      { step.session.log with listeners := ring.listeners } := by
  rw [logged_deeds hstep, (logs_of_sessionStep hstep).log]
  cases l.payload? a with
  | none => exact (List.append_nil entries).symm ▸ hgrows
  | some p => exact hgrows.append

/-- What a listener hears of a step of the session. -/
theorem State.hearings_of_sessionStep {l : State} {a : Active} {step : Session.Step}
    (hstep : l.sessionStep? a = some step) (listener : Log.Listener) :
    hearings (l.heard ++ (told step.effects).toArray) listener = hearings l.heard listener ++
      ((l.payload? a).map fun p =>
        List.replicate (l.session.log.listeners.count listener) (l.entryOf p)).getD [] := by
  rw [hearings_append, told_eq hstep]
  cases l.payload? a with
  | none => rfl
  | some p => exact congrArg _ (hearings_told _ _ listener)

/-- Who is registered once hears of what a step logs once. -/
theorem State.hearings_once {l : State} {a : Active} {step : Session.Step}
    (hstep : l.sessionStep? a = some step) {listener : Log.Listener}
    (hone : l.session.log.listeners.count listener = 1) :
    hearings (l.heard ++ (told step.effects).toArray) listener =
      hearings l.heard listener ++ logged (l.deeds a) := by
  rw [hearings_of_sessionStep hstep, logged_deeds hstep, hone]
  cases l.payload? a <;> rfl

theorem foldl_count {α : Type} {f : Nat → α → Nat} {p : α → Bool}
    (hf : ∀ n a, f n a = if p a then n + 1 else n) (l : List α) (n : Nat) :
    l.foldl f n = n + l.countP p := by
  induction l generalizing n with
  | nil => rfl
  | cons a rest ih =>
    rw [List.foldl_cons, ih, hf, List.countP_cons]
    split <;> omega

/-- The count of the counter is the number of received entries that it has heard of. -/
theorem countReceived_eq (l : State) :
    l.countReceived = (hearings l.heard counter).countP (·.direction = .received) := by
  rw [State.countReceived, ← Array.foldl_toList]
  refine (foldl_count (p := fun told : Log.Listener × Log.Entry =>
    told.1 = counter && told.2.direction = .received) (fun _ _ => rfl) _ _).trans ?_
  rw [Nat.zero_add, hearings, List.countP_map, List.countP_filter]
  refine List.countP_congr fun told _ => ?_
  simp [and_comm]

namespace Ledger

variable {ring : Log.Ring} {base : List Log.Listener} {counts : Prop} {h : List Session.Event}
  {l after : State} {a : Active} {step : Session.Step} {listens : Bool}

/-- Nothing but the registrations has changed. -/
theorem congr (hl : Ledger ring base counts h l)
    (hlog : { after.session.log with listeners := ring.listeners } =
      { l.session.log with listeners := ring.listeners })
    (hheard : after.heard = l.heard) : Ledger ring base counts h after := by
  refine ⟨hlog ▸ hl.grows, hheard ▸ hl.heard, fun hcounts hnot => ?_, hl.taken⟩
  rw [countReceived_eq, hheard, ← countReceived_eq]
  exact hl.counted hcounts hnot

/-- A step of the session, whoever takes it. -/
theorem absorb (hl : Ledger ring base counts h l) (hstep : l.sessionStep? a = some step)
    (hlisteners : l.session.log.listeners.Perm (base ++ counting listens))
    (hcounts : counts → ∀ data, l.payload? a = some (.received, data) → listens = true)
    (htold : l.session.stopReading = true ↔ ∃ e ∈ h, e.isParting = true)
    (hsession : after.session = step.session)
    (hheard : after.heard = l.heard ++ (State.told step.effects).toArray) :
    Ledger ring base counts (h ++ l.deeds a) after := by
  refine ⟨?_, fun listener hother hone => ?_, fun hc hnot => ?_, ?_⟩
  · rw [Session.logged_append, hsession]
    exact State.grows_of_sessionStep hstep hl.grows
  · have hcount : l.session.log.listeners.count listener = 1 := by
      rw [hlisteners.count_eq, List.count_append, hone]
      cases listens with
      | true => exact congrArg (1 + ·) (List.count_eq_zero.2 fun h =>
          hother (List.mem_singleton.1 h))
      | false => rfl
    rw [hheard, State.hearings_once hstep hcount, hl.heard listener hother hone,
      Session.logged_append]
  · have hcount : ∀ data, l.payload? a = some (.received, data) →
        l.session.log.listeners.count counter = 1 := by
      intro data hdata
      rw [hlisteners.count_eq, List.count_append, List.count_eq_zero.2 hnot, hcounts hc data hdata]
      rfl
    rw [countReceived_eq, hheard, State.hearings_of_sessionStep hstep, List.countP_append,
      ← countReceived_eq, hl.counted hc hnot, Session.payloads_append, List.length_append,
      State.received_payload hstep]
    congr 1
    cases hp : l.payload? a with
    | none => rfl
    | some p =>
      obtain ⟨direction, data⟩ := p
      cases direction with
      | sent => simp [State.entryOf, Log.Ring.nextEntry]
      | received => simp [State.entryOf, Log.Ring.nextEntry, hcount data hp]
  · by_cases hparted : ∃ e ∈ h, e.isParting = true
    · rw [taken_parted _ hparted, ← hl.taken, Session.payloads_append, State.received_deeds hstep,
        if_pos (htold.2 hparted), List.append_nil]
    · have hgoing : ∀ e ∈ h, e.isParting = false :=
        fun e he => Bool.eq_false_iff.2 fun hparting => hparted ⟨e, he, hparting⟩
      have hstop : l.session.stopReading ≠ true := fun hstop => hparted (htold.1 hstop)
      rw [taken_append _ hgoing, Session.payloads_append, State.received_deeds hstep,
        if_neg hstop, State.taken_deeds hstep, hl.taken]
      have hall := taken_append [] hgoing
      rw [List.append_nil] at hall
      rw [hall]
      exact congrArg (· ++ _) (List.append_nil _)

end Ledger

end SerialConsole.Loop
