import SerialConsole.Proofs.Session.Fairness
import SerialConsole.Proofs.Session.Inbound

set_option autoImplicit false

/-!
# Sends that nobody disturbs

While a session stays connected, its writes succeed and nobody else sends, what is written to the
device is what one sender has its calls write, one call after another. `Sending` says how far such a
call is; all other deeds start no write and log nothing that was sent (`Deed.spares`).
-/
namespace SerialConsole.Session

def Status.isSending : Status → Bool
  | .rests pause _ => pause.isSending
  | _ => false

theorem isSending_of_sameButTold {before after : Status} (h : World.SameButTold before after) :
    after.isSending = before.isSending := by
  rcases h with rfl | ⟨pause, told, rfl, rfl⟩ <;> rfl

/-- How far a send is: where it rests, what it has begun to write, and what of that is in the
log. -/
inductive Sending (d : Handle) : Except Fault Bytes → Status → List Bytes → List Bytes → Prop where
  | refused {fault : Fault} {told : Bool} :
    Sending d (.error fault) (.rests (.over (.error fault)) told) [] []
  | waits {data : Bytes} {told : Bool} :
    Sending d (.ok data) (.rests (.awaitTurn .writer (.sendTurn data)) told) [] []
  | writes {data : Bytes} {told : Bool} :
    Sending d (.ok data) (.rests (.askDevice (.write d data) (.writing d data)) told) [data] []
  | written {data : Bytes} {entry : Log.Entry} {told : Bool} :
    Sending d (.ok data) (.rests (.over (.ok (.entry entry))) told) [data] [data]

theorem Sending.told {d : Handle} {payload : Except Fault Bytes} {before after : Status}
    {begun done : List Bytes} (h : Sending d payload before begun done)
    (hsame : World.SameButTold before after) : Sending d payload after begun done := by
  rcases hsame with rfl | ⟨pause, told, rfl, rfl⟩
  · exact h
  · cases h with
    | refused => exact .refused
    | waits => exact .waits
    | writes => exact .writes
    | written => exact .written

theorem Sending.rests {d : Handle} {payload : Except Fault Bytes} {status : Status}
    {begun done : List Bytes} (h : Sending d payload status begun done) :
    ∃ pause told, status = .rests pause told ∧ ∀ n point, pause ≠ .watchReader n point := by
  cases h with
  | refused | waits | writes | written => exact ⟨_, _, rfl, fun _ _ => nofun⟩

/-- A send that is over has written all of its bytes, or they could not be made. -/
theorem Sending.of_over {d : Handle} {payload : Except Fault Bytes} {result : Except Fault Result}
    {told : Bool} {begun done : List Bytes}
    (h : Sending d payload (.rests (.over result) told) begun done) :
    (∃ fault, payload = .error fault ∧ result = .error fault ∧ begun = [] ∧ done = []) ∨
      ∃ data entry, payload = .ok data ∧ result = .ok (.entry entry) ∧ begun = [data] ∧
        done = [data] := by
  cases h with
  | refused => exact Or.inl ⟨_, rfl, rfl, rfl, rfl⟩
  | written => exact Or.inr ⟨_, _, rfl, rfl, rfl, rfl⟩

theorem payloads_of_logged (direction : Log.Direction) (es : List Event) :
    payloads direction es = (logged es).filterMap fun entry =>
      if entry.direction = direction then some entry.data else none := by
  rw [logged, List.filterMap_filterMap, payloads]
  congr 1
  funext e
  cases e <;> rfl

namespace World

variable {w next : World} {me : Caller} {course : Course} {events : List Event} {s : Session}
  {pause : Pause} {d : Handle} {data : Bytes} {id : Nat} {payload : Except Fault Bytes}
  {begun done : List Bytes}

/-! ## Deeds of others -/

theorem Wants.idle {name : LockName} {point : Point} (h : w.Wants me name point events)
    (hop : ∀ op, .begun me op ∈ events → op.payload? = none) :
    (Pause.awaitTurn name point).isSending = false := by
  cases h with
  | connect _ | disconnect _ | read _ | close _ _ => rfl
  | send _ hpayload _ _ =>
    rw [hop _ List.mem_cons_self] at hpayload
    cases hpayload

theorem Gets.idle {name : LockName} {point : Point} (h : w.Gets me name point events)
    (hidle : (w.tasks me).isSending = false)
    (hop : ∀ op, .begun me op ∈ events → op.payload? = none) :
    (Pause.awaitTurn name point).isSending = false := by
  cases h with
  | atOnce hwants _ => exact hwants.idle hop
  | inTurn htask =>
    rw [htask] at hidle
    exact hidle

theorem Deed.idle (h : w.Deed me events s pause) (hidle : (w.tasks me).isSending = false)
    (hop : ∀ op, .begun me op ∈ events → op.payload? = none) : pause.isSending = false := by
  cases h with
  | queues hwants _ => exact hwants.idle hop
  | writes hgets _ _ => cases hgets.idle hidle fun op hmem => hop op (List.mem_append_left _ hmem)
  | hears _ hhears => rcases hhears.pause_cases with rfl | rfl <;> rfl
  | _ => rfl

/-- Who neither sends nor begins to starts no write and logs nothing that was sent. -/
theorem Deed.spares (h : w.Deed me events s pause) (hbefore : w.session.phase = .connected)
    (hafter : s.phase = .connected) (hidle : (w.tasks me).isSending = false)
    (hop : ∀ op, .begun me op ∈ events → op.payload? = none) :
    starts events = [] ∧ payloads .sent events = [] := by
  constructor
  · obtain ⟨before, hevents, hleads⟩ := h.events_split
    rw [hevents, starts_append, Leads.starts_eq hleads, List.nil_append]
    cases pause with
    | askDevice call point =>
      rcases h.asks_connected hbefore hafter with ⟨_, data, _, rfl⟩ | ⟨_, rfl⟩
      · obtain ⟨first, hgets, _, _, rfl⟩ := h.of_writes
        cases hgets.idle hidle fun op hmem => hop op (List.mem_append_left _ hmem)
      · rfl
    | «over» _ | awaitTurn _ _ | awaitEndOfReading _ _ | joinReader _ _ | watchReader _ _ => rfl
  · rw [payloads_of_logged]
    cases h.logs with
    | nothing hnone _ => rw [hnone, List.filterMap_nil]
    | sent htask _ _ =>
      rw [htask] at hidle
      cases hidle
    | received _ _ _ _ hone _ =>
      rw [hone]
      rfl

/-- Nobody else comes to send by a deed. -/
theorem Changes.isSending_of_ne (h : w.Changes next me events s pause) (hsound : w.Sound course)
    {c : Caller} (hc : c ≠ me) (hsends : (next.tasks c).isSending = true) :
    (w.tasks c).isSending = true := by
  rcases h.tasks_of_ne hsound hc with hsame | ⟨_, _, _, d, _, hdue⟩
  · rwa [← isSending_of_sameButTold hsame]
  · rw [hdue] at hsends
    cases hsends

theorem Changes.device_connected (h : w.Changes next me events s pause)
    (hdeed : w.Deed me events s pause) (hbefore : w.session.phase = .connected)
    (hafter : next.session.phase = .connected) : next.session.device = w.session.device := by
  rw [device_of_bare h.bare]
  exact hdeed.device_connected hbefore ((phase_of_bare h.bare).symm.trans hafter)

/-! ## The deeds of a send -/

theorem Wants.not_writes {name : LockName} {point there : Point} {told : Bool}
    (h : w.Wants me name point events) :
    w.tasks me ≠ .rests (.askDevice (.write d data) there) told := by
  intro htask
  cases h with
  | connect hthere | disconnect hthere | send hthere _ _ _ | read hthere =>
    rw [htask] at hthere
    cases hthere
  | close hover _ =>
    cases hover with
    | unread hthere | inTime hthere _ | joined hthere _ =>
      rw [htask] at hthere
      cases hthere

theorem Gets.not_writes {name : LockName} {point there : Point} {told : Bool}
    (h : w.Gets me name point events) :
    w.tasks me ≠ .rests (.askDevice (.write d data) there) told := by
  cases h with
  | atOnce hwants _ => exact hwants.not_writes
  | inTurn hthere =>
    rw [hthere]
    nofun

/-- A write ends with a fault, or what it wrote is logged. -/
theorem Deed.of_writing (h : w.Deed (.call id) events s pause) {told : Bool}
    (htask : w.tasks (.call id) = .rests (.askDevice (.write d data) (.writing d data)) told) :
    (∃ fault, .answered (.call id) (.write d data) (.failed fault) ∈ events) ∨
      pause = .over (.ok (.entry (w.session.log.nextEntry .sent data))) ∧
        starts events = [] ∧ payloads .sent events = [data] := by
  cases h with
  | queues hwants _ => exact absurd htask hwants.not_writes
  | busy hgets _ _ | misconfigured hgets _ _ | requests hgets _ _ | nothingToEnd hgets _
  | ends hgets _ _ _ | closes hgets _ | writes hgets _ _ | lost hgets _ =>
    exact absurd htask hgets.not_writes
  | unwritten hthere _ =>
    rw [htask] at hthere
    cases hthere
    exact Or.inl ⟨_, List.mem_cons_self⟩
  | written hthere =>
    rw [htask] at hthere
    cases hthere
    exact Or.inr ⟨rfl, rfl, rfl⟩
  | unoffered hthere _ | opens hthere _ | unopened hthere _ | connects hthere _ | refused hthere _
  | waitsForReader hthere _ | cancelsReader hthere _ _ | closed hthere _ | watches hthere _
  | nothingToWatch hthere _ | watched hthere _ =>
    rw [htask] at hthere
    cases hthere

/-- A send goes on, unless its write fails. -/
theorem Deed.sends (h : w.Deed (.call id) events s pause) (hsound : w.Sound course)
    (hsending : Sending d payload (w.tasks (.call id)) begun done)
    (hphase : w.session.phase = .connected) (hdevice : w.session.device = some d)
    (hwritten : ∀ data told fault,
      w.tasks (.call id) = .rests (.askDevice (.write d data) (.writing d data)) told →
        .answered (.call id) (.write d data) (.failed fault) ∉ events) :
    ∃ more logged, Sending d payload (.rests pause false) (begun ++ more) (done ++ logged) ∧
      starts events = more.map (.write d) ∧ payloads .sent events = logged := by
  generalize htask : w.tasks (.call id) = status at hsending
  cases hsending with
  | refused | written => exact absurd htask h.not_over
  | waits =>
    rcases h.of_sendTurn hsound htask with ⟨_, d', hd', rfl, rfl⟩ | ⟨hnot, _⟩
    · rw [hdevice] at hd'
      cases hd'
      exact ⟨[_], [], .writes, rfl, rfl⟩
    · exact absurd hphase hnot
  | writes =>
    rcases h.of_writing htask with ⟨fault, hmem⟩ | ⟨rfl, hstarts, hsent⟩
    · exact absurd hmem (hwritten _ _ fault htask)
    · exact ⟨[], [_], .written, hstarts, hsent⟩

theorem sendLocked_connected (hphase : s.phase = .connected) (hdevice : s.device = some d) :
    s.sendLocked data = ⟨s, [], .askDevice (.write d data) (.writing d data)⟩ := by
  rw [sendLocked, hphase, hdevice]

/-- A send of a connected session begins to write or waits for its turn, unless its bytes cannot be
made. -/
theorem beginSendData_sending {value format ending : String} (me : Caller)
    (hphase : s.phase = .connected) (hdevice : s.device = some d)
    (hsome : Payload.encode value format ending ≠ .ok []) :
    ∃ begun, (s.beginSendData me value format ending).effects = [] ∧
      Sending d (Payload.encode value format ending)
        (.rests (s.beginSendData me value format ending).pause false) begun [] ∧
      starts ((s.beginSendData me value format ending).pause.events me) = begun.map (.write d) ∧
      payloads .sent ((s.beginSendData me value format ending).pause.events me) = [] := by
  rw [beginSendData]
  cases hencode : Payload.encode value format ending with
  | error fault => exact ⟨[], rfl, .refused, rfl, rfl⟩
  | ok data =>
    rw [hencode] at hsome
    have hdata : data.isEmpty = false := by
      rw [List.isEmpty_eq_false_iff]
      rintro rfl
      exact hsome rfl
    simp only [beginSend, hphase, ne_eq, not_true_eq_false, if_false, hdata, Bool.false_eq_true,
      enter]
    split
    · have hphase' : (s.take .writer).phase = .connected := hphase
      have hdevice' : (s.take .writer).device = some d := hdevice
      rw [sendLocked_connected hphase' hdevice']
      exact ⟨[data], rfl, .writes, rfl, rfl⟩
    · exact ⟨[], rfl, .waits, rfl, rfl⟩

theorem begin_sending {value format ending : String}
    (hmove : w.move (.begin id (.sendData value format ending)) = some next)
    (hnew : next.history = w.history ++ events) (hphase : w.session.phase = .connected)
    (hdevice : w.session.device = some d) (hsome : Payload.encode value format ending ≠ .ok []) :
    ∃ begun, Sending d (Payload.encode value format ending) (next.tasks (.call id)) begun [] ∧
      starts events = begun.map (.write d) ∧ payloads .sent events = [] := by
  rw [World.move] at hmove
  split at hmove
  case h_1 =>
    cases hmove
    obtain ⟨begun, heffects, hsending, hstarts, hsent⟩ :=
      beginSendData_sending (.call id) hphase hdevice hsome
    have hevents : events = .begun (.call id) (.sendData value format ending) ::
        (w.session.beginSendData (.call id) value format ending).pause.events (.call id) := by
      rw [history_absorb, Operation.start, heffects, happen, List.append_assoc,
        List.append_assoc] at hnew
      exact (List.append_cancel_left hnew).symm
    refine ⟨begun, ?_, ?_, ?_⟩
    · rw [Quiet.tasks_absorb_me]
      exact hsending
    · rw [hevents]
      exact hstarts
    · rw [hevents]
      exact hsent
  case h_2 => cases hmove

/-! ## Nothing to write -/

theorem kind_of_payload {op : Operation} {fault : Fault}
    (hop : op.payload? = some (.error fault)) : fault.kind ≠ .emptyPayload := by
  cases op with
  | sendData value format ending =>
    rcases kind_of_encode (Option.some.inj hop) with hkind | hkind
    · rw [hkind]
      decide
    · rw [hkind]
      decide
  | send _ => cases hop
  | connect _ _ | disconnect | waitClosed => cases hop

/-- A send of something neither ends for want of it nor writes nothing. -/
theorem not_empty_of_stage {status : Status} {mine : List Event} (h : Stage id status mine)
    {op : Operation} (hop : op.payload? = some payload) (hsome : payload ≠ .ok [])
    (hbegun : .begun (.call id) op ∈ mine) :
    (∀ fault told, status = .rests (.over (.error fault)) told → fault.kind ≠ .emptyPayload) ∧
      ∀ d, .asked (.call id) (.write d []) ∉ mine := by
  cases h with
  | absent => cases hbegun
  | aside hnone _ honce =>
    rcases List.mem_cons.1 hbegun with heq | hin
    · cases heq
      rw [hop] at hnone
      cases hnone
    · exact absurd hin (honce op)
  | waits _ => exact ⟨fun _ _ => nofun, fun d => by simp⟩
  | @writes op' d data told hpayload | @written op' d data entry told hpayload =>
    obtain rfl : op = op' := by simpa using hbegun
    rw [hop] at hpayload
    refine ⟨fun _ _ => nofun, fun d' hmem => hsome ?_⟩
    obtain ⟨_, rfl⟩ : d' = d ∧ [] = data := by simpa using hmem
    exact Option.some.inj hpayload
  | @unsent op' fault told hwhy =>
    obtain rfl : op = op' := by simpa using hbegun
    refine ⟨fun fault' told' heq => ?_, fun d => by simp⟩
    cases heq
    cases hwhy with
    | unencoded hpayload => exact kind_of_payload hpayload
    | refused hpayload hkind =>
      rw [hop] at hpayload
      rcases hkind with hkind | ⟨rfl, _⟩
      · rw [hkind]
        decide
      · exact absurd (Option.some.inj hpayload) hsome
  | @unwritten op' d data fault told hpayload hordinary =>
    obtain rfl : op = op' := by simpa using hbegun
    rw [hop] at hpayload
    refine ⟨fun fault' told' heq => ?_, fun d' hmem => hsome ?_⟩
    · cases heq
      rw [kind_writeFault d hordinary]
      decide
    · obtain ⟨_, rfl⟩ : d' = d ∧ [] = data := by simpa using hmem
      exact Option.some.inj hpayload

/-! ## Moves and their events -/

variable {c : Caller} {m : Move} {op : Operation} {name : LockName} {point : Point}

theorem Wants.begun_only (h : w.Wants me name point events) (hmem : .begun c op ∈ events) :
    w.tasks me = .absent ∧ events = [.begun me op] := by
  cases h with
  | connect habsent | disconnect habsent | send habsent _ _ _ =>
    cases List.mem_singleton.1 hmem
    exact ⟨habsent, rfl⟩
  | read _ => cases hmem
  | close hover _ => cases hover <;> simp at hmem

theorem Gets.begun_first (h : w.Gets me name point events) {last : Event}
    (hmem : .begun c op ∈ events ++ [last]) (hlast : ∀ c op, last ≠ .begun c op) :
    w.tasks me = .absent ∧ events ++ [last] = [.begun me op, last] := by
  have hbefore : .begun c op ∈ events := by
    rcases List.mem_append.1 hmem with hin | hin
    · exact hin
    · exact absurd (List.mem_singleton.1 hin).symm (hlast c op)
  cases h with
  | atOnce hwants _ =>
    obtain ⟨habsent, rfl⟩ := hwants.begun_only hbefore
    exact ⟨habsent, rfl⟩
  | inTurn _ => cases hbefore

/-- A call begins with its first event. -/
theorem Deed.begun_first (h : w.Deed me events s pause) (hmem : .begun c op ∈ events) :
    w.tasks me = .absent ∧ ∃ later, events = .begun me op :: later := by
  cases h with
  | queues hwants _ =>
    obtain ⟨habsent, rfl⟩ := hwants.begun_only hmem
    exact ⟨habsent, [], rfl⟩
  | busy hgets _ _ | misconfigured hgets _ _ | requests hgets _ _ | writes hgets _ _ | lost hgets _
  | nothingToEnd hgets _ | ends hgets _ _ _ | closes hgets _ | stopsReading hgets _
  | reads hgets _ =>
    obtain ⟨habsent, heq⟩ := hgets.begun_first hmem fun _ _ => nofun
    exact ⟨habsent, _, heq⟩
  | refused habsent _ | watches habsent _ | nothingToWatch habsent _ =>
    obtain ⟨_, rfl⟩ : c = _ ∧ op = _ := by simpa using hmem
    exact ⟨habsent, _, rfl⟩
  | hears _ hhears => cases hhears <;> simp at hmem
  | _ => simp at hmem

theorem begin_history (hmove : w.move (.begin id op) = some next)
    (hnew : next.history = w.history ++ events) :
    ∃ later, events = .begun (.call id) op :: later := by
  rw [World.move] at hmove
  split at hmove
  case h_1 =>
    cases hmove
    rw [history_absorb, happen, List.append_assoc, List.append_assoc] at hnew
    exact ⟨_, (List.append_cancel_left hnew).symm⟩
  case h_2 => cases hmove

/-- A call begins by a move that begins it. -/
theorem begun_of_move (hmove : w.move m = some next) (hdeed : w.Deed m.caller events s pause)
    (hnew : next.history = w.history ++ events) (hmem : .begun c op ∈ events) :
    ∃ id, m = .begin id op := by
  obtain ⟨habsent, later, rfl⟩ := hdeed.begun_first hmem
  rcases hdeed.canGoOn with ⟨_, id, hid⟩ | ⟨hthere, _⟩
  · rw [hid] at habsent
    obtain ⟨op', rfl⟩ := move_absent hmove hid habsent
    obtain ⟨later', heq⟩ := begin_history hmove hnew
    cases heq
    exact ⟨id, rfl⟩
  · exact absurd habsent hthere

theorem answered_not_mem_step {call : DeviceCall} {reply : Reply} (me : Caller) (step : Step) :
    .answered c call reply ∉ step.effects.filterMap Effect.event? ++ step.pause.events me := by
  intro hmem
  rcases List.mem_append.1 hmem with heffect | hpause
  · obtain ⟨e, _, hevent⟩ := List.mem_filterMap.1 heffect
    cases e <;> cases hevent
  · cases hpause' : step.pause <;> rw [hpause'] at hpause <;> simp [Pause.events] at hpause

/-- A device call of a call fails by an answer that says so. -/
theorem failed_of_move (hmove : w.move m = some next) (hm : m.caller = .call id)
    (hnew : next.history = w.history ++ events) {told : Bool} {call : DeviceCall}
    (htask : w.tasks (.call id) = .rests (.askDevice call point) told) {fault : Fault}
    (hmem : .answered c call (.failed fault) ∈ events) :
    m = .answer (.call id) (.failed fault) := by
  cases m with
  | answer c' reply =>
    obtain rfl : c' = .call id := hm
    rw [World.move, htask] at hmove
    simp only at hmove
    split at hmove
    · cases hmove
      rw [goOn, history_absorb, happen, List.append_assoc, List.append_assoc] at hnew
      rw [← List.append_cancel_left hnew] at hmem
      rcases List.mem_append.1 hmem with hfirst | hrest
      · cases List.mem_singleton.1 hfirst
        rfl
      · exact absurd hrest (answered_not_mem_step _ _)
    · cases hmove
  | begin k op =>
    cases hm
    rw [World.move, htask] at hmove
    cases hmove
  | turn c' | stopWaiting c' | join c' =>
    obtain rfl : c' = .call id := hm
    rw [World.move, htask] at hmove
    cases hmove
  | startReading n | cancelReading n => cases hm

end World

end SerialConsole.Session
