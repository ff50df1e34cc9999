import SerialConsole.Proofs.Session.Writers

set_option autoImplicit false

/-!
# Sends and connections

A send writes to the device of the connection at which it was called, or it does not write. What
has to be carried from the call to the write is `CalledOn`: the device was open when the send was
called, and since then there were only writes on it. The row for the writer lock is why that lasts
as long as the send waits.
-/
namespace SerialConsole.Session

/-- A device was opened, and since then there were only writes on it. -/
def SinceOpen (d : Handle) (history : List Event) : Prop :=
  ∃ before c line since, history = before ++ .answered c (.openWith d line) .done :: since ∧
    ∃ payloads : List Bytes, starts since = payloads.map (.write d)

/-- A send of some bytes was called while a device was open, and since then there were only writes
on that device. -/
def CalledOn (c : Caller) (d : Handle) (data : Bytes) (history : List Event) : Prop :=
  ∃ before op since, history = before ++ .begun c op :: since ∧ op.payload? = some (.ok data) ∧
    SinceOpen d before ∧ ∃ payloads : List Bytes, starts since = payloads.map (.write d)

theorem starts_append (es fs : List Event) : starts (es ++ fs) = starts es ++ starts fs :=
  List.filterMap_append

theorem CalledOn.append {c : Caller} {d : Handle} {data : Bytes} {history events : List Event}
    (h : CalledOn c d data history) {payloads : List Bytes}
    (hevents : starts events = payloads.map (.write d)) :
    CalledOn c d data (history ++ events) := by
  obtain ⟨before, op, since, rfl, hop, hopen, earlier, hsince⟩ := h
  refine ⟨before, op, since ++ events, ?_, hop, hopen, earlier ++ payloads, ?_⟩
  · rw [List.append_assoc]
    rfl
  · rw [starts_append, hsince, hevents, List.map_append]

/-- A place in a longer list is in the old part or in the new one. -/
theorem split_append {α : Type} {xs ys before after : List α} {x : α}
    (h : xs ++ ys = before ++ x :: after) :
    (∃ rest, xs = before ++ x :: rest ∧ after = rest ++ ys) ∨
      ∃ middle, before = xs ++ middle ∧ ys = middle ++ x :: after := by
  rcases List.append_eq_append_iff.1 h with ⟨middle, rfl, rfl⟩ | ⟨rest, rfl, hrest⟩
  · exact Or.inr ⟨middle, rfl, rfl⟩
  · cases rest with
    | nil => exact Or.inr ⟨[], by simp, hrest.symm⟩
    | cons y rest =>
      cases hrest
      exact Or.inl ⟨rest, rfl, rfl⟩

theorem split_last {α : Type} {xs before after : List α} {x : α}
    (h : xs ++ [x] = before ++ x :: after) (hx : x ∉ xs) : before = xs := by
  rcases split_append h with ⟨rest, rfl, _⟩ | ⟨middle, rfl, hlast⟩
  · exact absurd (List.mem_append_right before List.mem_cons_self) hx
  · cases middle with
    | nil => exact List.append_nil xs
    | cons y rest => simp at hlast

namespace World

variable {w v next : World} {me c : Caller} {course : Course} {events : List Event}
  {s : Session} {pause : Pause} {d : Handle} {data : Bytes} {name : LockName} {point : Point}

/-! ## What is started at a connection -/

theorem Leads.starts_eq {events : List Event} (h : ∀ e ∈ events, Leads c e) :
    starts events = [] := by
  refine List.filterMap_eq_nil_iff.2 fun e he => ?_
  obtain ⟨_, rfl⟩ | ⟨_, _, rfl⟩ | ⟨_, rfl⟩ := h e he <;> rfl

theorem Deed.asks_connected {call : DeviceCall} (h : w.Deed me events s (.askDevice call point))
    (hbefore : w.session.phase = .connected) (hafter : s.phase = .connected) :
    (∃ d data, w.session.device = some d ∧ call = .write d data) ∨ ∃ d, call = .read d := by
  cases h with
  | writes _ _ hdevice => exact Or.inl ⟨_, _, hdevice, rfl⟩
  | reads _ _ => exact Or.inr ⟨_, rfl⟩
  | hears _ hhears =>
    rcases hhears.pause_cases with heq | heq <;> cases heq
    exact Or.inr ⟨_, rfl⟩
  | requests _ hphase _ | opens _ hphase =>
    rw [hbefore] at hphase
    cases hphase
  | ends _ _ _ _ => cases hafter
  | closes _ hs =>
    have hphase := hs.phase_eq
    rw [hbefore] at hphase
    cases hphase

/-- While a session stays connected, nothing but writes on its device is started. -/
theorem Deed.starts_connected (h : w.Deed me events s pause)
    (hbefore : w.session.phase = .connected) (hafter : s.phase = .connected)
    (hdevice : w.session.device = some d) :
    ∃ payloads : List Bytes, starts events = payloads.map (.write d) := by
  obtain ⟨before, hevents, hleads⟩ := h.events_split
  rw [hevents, starts_append, Leads.starts_eq hleads, List.nil_append]
  cases pause with
  | askDevice call point =>
    rcases h.asks_connected hbefore hafter with ⟨_, data, hd, rfl⟩ | ⟨_, rfl⟩
    · rw [hdevice] at hd
      cases hd
      exact ⟨[data], rfl⟩
    · exact ⟨[], rfl⟩
  | «over» _ | awaitTurn _ _ | awaitEndOfReading _ _ | joinReader _ _ | watchReader _ _ =>
    exact ⟨[], rfl⟩

theorem Deed.device_connected (h : w.Deed me events s pause)
    (hbefore : w.session.phase = .connected) (hafter : s.phase = .connected) :
    s.device = w.session.device := by
  cases h with
  | connects _ hs =>
    have hphase := hs.phase_eq
    rw [hbefore] at hphase
    cases hphase
  | ends _ _ _ _ => cases hafter
  | hears _ hhears => exact hhears.alike.device_eq
  | _ => rfl

theorem Sound.since_open (h : w.Sound course) (hphase : w.session.phase = .connected)
    (hdevice : w.session.device = some d) : SinceOpen d w.history := by
  obtain ⟨d', _, hd', _, rfl⟩ := h.connected hphase
  rw [hdevice] at hd'
  cases hd'
  rcases h.path.since_open rfl with ⟨heq, _⟩ | hfound
  · cases heq
  · exact hfound

/-! ## From the call of a send to its write -/

/-- A send that waits at a connection was called at that connection. -/
def Kept (w : World) : Prop :=
  ∀ c data told, w.tasks c = .rests (.awaitTurn .writer (.sendTurn data)) told →
    w.session.phase = .connected → ∃ d, w.session.device = some d ∧ CalledOn c d data w.history

theorem Wants.called_on (h : w.Wants c .writer (.sendTurn data) events) (hsound : w.Sound course) :
    ∃ d, w.session.device = some d ∧ CalledOn c d data (w.history ++ events) := by
  cases h with
  | @send id op _ _ hop hphase _ =>
    obtain ⟨d, _, hd, _⟩ := hsound.connected hphase
    exact ⟨d, hd, w.history, op, [], rfl, hop, hsound.since_open hphase hd, [], rfl⟩

theorem Gets.called_on (h : w.Gets c .writer (.sendTurn data) events) (hsound : w.Sound course)
    (hkept : w.Kept) (hphase : w.session.phase = .connected) :
    ∃ d, w.session.device = some d ∧ CalledOn c d data (w.history ++ events) := by
  cases h with
  | atOnce hwants _ => exact hwants.called_on hsound
  | inTurn htask =>
    rw [List.append_nil]
    exact hkept c data true htask hphase

theorem Deed.of_queues (h : w.Deed me events s (.awaitTurn name point)) :
    w.Wants me name point events ∧ w.session.isFree name = false ∧ s = w.session.bare := by
  cases h with
  | queues hwants hbusy => exact ⟨hwants, hbusy, rfl⟩
  | hears _ hhears => rcases hhears.pause_cases with heq | heq <;> cases heq

theorem Deed.of_writes {d : Handle} (h : w.Deed me events s (.askDevice (.write d data) point)) :
    ∃ before, w.Gets me .writer (.sendTurn data) before ∧ w.session.phase = .connected ∧
      w.session.device = some d ∧ events = before ++ [.asked me (.write d data)] := by
  cases h with
  | writes hgets hphase hdevice => exact ⟨_, hgets, hphase, hdevice, rfl⟩
  | hears _ hhears => rcases hhears.pause_cases with heq | heq <;> cases heq

theorem Kept.does (h : w.Kept) (hsound : w.Sound course) (hfenced : w.Fenced)
    (hdoes : w.Does me next) : next.Kept := by
  obtain ⟨events, s, pause, hdeed, hchanges⟩ := hdoes
  have hphase : next.session.phase = s.phase := (phase_of_bare hchanges.bare :)
  have hdevice : next.session.device = s.device := (device_of_bare hchanges.bare :)
  intro c data told htask hafter
  rw [hphase] at hafter
  rw [hdevice, hchanges.history]
  by_cases hc : c = me
  · subst hc
    rw [hchanges.mine] at htask
    cases htask
    obtain ⟨hwants, _, rfl⟩ := hdeed.of_queues
    exact hwants.called_on hsound
  · obtain ⟨told', hbefore⟩ := hchanges.rested hsound hc htask
    -- nobody has waited since the session was not connected
    have hconnected : w.session.phase = .connected := by
      by_cases heq : w.session.phase = .connected
      · exact heq
      · have hclosing := hfenced.closing_of_waits hsound hbefore heq
        rcases hdeed.leads with hsame | hleads
        · exact hsame.symm.trans hafter
        · rw [hclosing, hafter] at hleads
          cases hleads
    obtain ⟨d, hd, hcalled⟩ := h c data told' hbefore hconnected
    obtain ⟨payloads, hpayloads⟩ := hdeed.starts_connected hconnected hafter hd
    exact ⟨d, (hdeed.device_connected hconnected hafter).trans hd, hcalled.append hpayloads⟩

theorem Reachable.kept (h : w.Reachable) : w.Kept :=
  h.always (fun _ _ _ _ _ => nofun) fun _ _ _ _ hreach hsound hdoes hkept =>
    hkept.does hsound hreach.fenced hdoes

/-- Every write is that of a send that was called at the same connection. -/
theorem Reachable.write_called_on (h : w.Reachable) :
    ∀ before after c d data, w.history = before ++ .asked c (.write d data) :: after →
      CalledOn c d data before := by
  refine Reachable.always (P := fun w => ∀ before after c d data,
    w.history = before ++ .asked c (.write d data) :: after → CalledOn c d data before) h ?_ ?_
  · intro log closeTimeout before after c d data hhistory
    simp [fresh] at hhistory
  · rintro u next me course hreach hsound ⟨events, s, pause, hdeed, hchanges⟩ hold
      before after c d data hhistory
    rw [hchanges.history] at hhistory
    rcases split_append hhistory with ⟨rest, hin, _⟩ | ⟨middle, rfl, hin⟩
    · exact hold before rest c d data hin
    · have hmem : .asked c (.write d data) ∈ events := by
        rw [hin]
        exact List.mem_append_right middle List.mem_cons_self
      obtain ⟨rfl, point, rfl⟩ := hdeed.of_asked hmem
      obtain ⟨first, hgets, hphase, hdevice, rfl⟩ := hdeed.of_writes
      have hnot : .asked c (.write d data) ∉ first := by
        intro hfirst
        obtain ⟨_, heq⟩ | ⟨_, _, heq⟩ := hgets.opens _ hfirst <;> cases heq
      rw [split_last hin hnot]
      obtain ⟨d', hd', hcalled⟩ := hgets.called_on hsound hreach.kept hphase
      rw [hdevice] at hd'
      cases hd'
      exact hcalled

/-! ## A send that waits when a disconnect begins -/

/-- A send waits in a session that is closing, or has failed because of that. -/
inductive Losing (w : World) (c : Caller) : Prop where
  | waits {data : Bytes} {told : Bool} {op : Operation} :
    w.tasks c = .rests (.awaitTurn .writer (.sendTurn data)) told →
    w.session.phase = .closing → own c w.history = [.begun c op] → Losing w c
  | failed {told : Bool} {op : Operation} :
    w.tasks c = .rests (.over (.error .connectionLost)) told →
    own c w.history = [.begun c op, .returned c (.error .connectionLost)] → Losing w c

theorem Wants.not_waits (h : w.Wants c name point events) {other : LockName} {there : Point}
    {told : Bool} : w.tasks c ≠ .rests (.awaitTurn other there) told := by
  intro htask
  cases h with
  | connect habsent | disconnect habsent | send habsent _ _ _ | read habsent =>
    rw [htask] at habsent
    cases habsent
  | close hover _ =>
    cases hover with
    | unread hrests | inTime hrests _ | joined hrests _ =>
      rw [htask] at hrests
      cases hrests

theorem Gets.of_waits (h : w.Gets c name point events) {other : LockName} {there : Point}
    {told : Bool} (htask : w.tasks c = .rests (.awaitTurn other there) told) :
    point = there ∧ events = [] := by
  cases h with
  | atOnce hwants _ => exact absurd htask hwants.not_waits
  | inTurn hrests =>
    rw [htask] at hrests
    cases hrests
    exact ⟨rfl, rfl⟩

/-- A send that waits writes when its turn comes, or fails if the session is not connected. -/
theorem Deed.of_sendTurn (h : w.Deed c events s pause) (hsound : w.Sound course) {told : Bool}
    (htask : w.tasks c = .rests (.awaitTurn .writer (.sendTurn data)) told) :
    (w.session.phase = .connected ∧ ∃ d, w.session.device = some d ∧
        events = [.asked c (.write d data)] ∧
        pause = .askDevice (.write d data) (.writing d data)) ∨
      w.session.phase ≠ .connected ∧ events = [.returned c (.error .connectionLost)] ∧
        pause = .over (.error .connectionLost) := by
  cases h with
  | queues hwants _ => exact absurd htask hwants.not_waits
  | busy hgets _ _ | misconfigured hgets _ _ | requests hgets _ _ | nothingToEnd hgets _
  | ends hgets _ _ _ | closes hgets _ | stopsReading hgets _ | reads hgets _ =>
    cases (hgets.of_waits htask).1
  | writes hgets hconnected hdevice =>
    obtain ⟨hpoint, rfl⟩ := hgets.of_waits htask
    cases hpoint
    exact Or.inl ⟨hconnected, _, hdevice, rfl, rfl⟩
  | lost hgets hlost =>
    rw [(hgets.of_waits htask).2]
    exact Or.inr ⟨hlost, rfl, rfl⟩
  | unoffered hrests _ | opens hrests _ | unopened hrests _ | connects hrests _ | refused hrests _
  | unwritten hrests _ | written hrests | waitsForReader hrests _ | cancelsReader hrests _ _
  | closed hrests _ | watches hrests _ | nothingToWatch hrests _ | watched hrests _
  | hears hrests _ =>
    rw [htask] at hrests
    cases hrests
  | cancelled _ _ _ =>
    obtain ⟨_, id, hid⟩ := hsound.sendTurn_call htask
    cases hid

theorem Losing.does (h : w.Losing c) (hsound : w.Sound course) (hfenced : w.Fenced)
    (hdoes : w.Does me next) : next.Losing c := by
  obtain ⟨events, s, pause, hdeed, hchanges⟩ := hdoes
  cases h with
  | @waits data told op htask hclosing hown =>
    have hnot : w.session.phase ≠ .connected := by
      rw [hclosing]
      decide
    by_cases hc : c = me
    · subst hc
      obtain ⟨_, rfl, rfl⟩ := (hdeed.of_sendTurn hsound htask).resolve_left fun h => hnot h.1
      have hdone : own c next.history = [.begun c op, .returned c (.error .connectionLost)] := by
        rw [hchanges.history, own_append, hown, own_singleton rfl]
        rfl
      exact .failed hchanges.mine hdone
    · obtain ⟨told', hwaits⟩ := hchanges.rests hsound hc htask
      refine .waits hwaits ?_ ((hchanges.own_of_ne hdeed hc).trans hown)
      rw [phase_of_bare hchanges.bare]
      by_cases hstays : s.phase = .closing
      · exact hstays
      · -- the device would be closed while somebody waits to write
        obtain ⟨call, device, told, hclose⟩ := hdeed.of_closed hclosing hstays
        have hmem := hsound.mem_row htask
        rw [hfenced.closing me call device told hclose] at hmem
        cases hmem
  | @failed told op htask hown =>
    have hc : c ≠ me := by
      rintro rfl
      exact hdeed.not_over htask
    obtain ⟨told', hover⟩ := hchanges.rests hsound hc htask
    exact .failed hover ((hchanges.own_of_ne hdeed hc).trans hown)

theorem Reachable.losing (h : w.Reachable) (hlosing : w.Losing c) {moves : List Move}
    (hrun : w.run moves = some v) : v.Losing c :=
  Reachable.keeps (P := fun u => u.Losing c) h hrun hlosing
    fun _ _ _ _ hreach hsound hdoes hu => hu.does hsound hreach.fenced hdoes

theorem Losing.not_written (h : w.Losing c) (d : Handle) (data : Bytes) :
    .asked c (.write d data) ∉ w.history := by
  intro hmem
  have hown : .asked c (.write d data) ∈ own c w.history := mem_own.2 ⟨hmem, rfl⟩
  cases h with
  | waits _ _ heq | failed _ heq =>
    rw [heq] at hown
    simp at hown

theorem Losing.result (h : w.Losing c) {result : Except Fault Result}
    (hmem : .returned c result ∈ w.history) : result = .error .connectionLost := by
  have hown : .returned c result ∈ own c w.history := mem_own.2 ⟨hmem, rfl⟩
  cases h with
  | waits _ _ heq =>
    rw [heq] at hown
    simp at hown
  | failed _ heq =>
    rw [heq] at hown
    simpa using hown

theorem Reachable.losing_ends (h : w.Reachable) (hlosing : w.Losing c) :
    ∃ moves v, w.run moves = some v ∧ .returned c (.error .connectionLost) ∈ v.history := by
  have hends : ∃ moves v result told,
      w.run moves = some v ∧ v.tasks c = .rests (.over result) told := by
    cases hlosing with
    | waits htask _ _ => exact h.send_ends htask
    | failed htask _ => exact ⟨[], w, _, _, rfl, htask⟩
  obtain ⟨moves, v, result, told, hrun, hover⟩ := hends
  refine ⟨moves, v, hrun, ?_⟩
  cases h.losing hlosing hrun with
  | waits hwaits _ _ =>
    rw [hover] at hwaits
    cases hwaits
  | failed _ hown =>
    refine (mem_own (c := c).1 ?_).1
    rw [hown]
    exact List.mem_cons_of_mem _ List.mem_cons_self

theorem Deed.of_ends (h : w.Deed me events s pause) (hbefore : w.session.phase = .connected)
    (hafter : s.phase = .closing) : ∃ before, w.Gets me .lifecycle .disconnectTurn before := by
  cases h with
  | ends hgets _ _ _ => exact ⟨_, hgets⟩
  | requests _ _ _ | unoffered _ _ | unopened _ _ | connects _ _ | closed _ _ => cases hafter
  | hears _ hhears =>
    rw [hhears.alike.phase_eq, hbefore] at hafter
    cases hafter
  | _ =>
    rw [show w.session.phase = .closing from hafter] at hbefore
    cases hbefore

theorem Reachable.loses (h : w.Reachable) {m : Move} {told : Bool}
    (htask : w.tasks c = .rests (.awaitTurn .writer (.sendTurn data)) told)
    (hbefore : w.session.phase = .connected) (hmove : w.move m = some next)
    (hafter : next.session.phase = .closing) : next.Losing c := by
  obtain ⟨_, hsound⟩ := h.sound
  obtain ⟨me, events, s, pause, hdeed, hchanges⟩ := h.does hmove
  have hphase : next.session.phase = s.phase := (phase_of_bare hchanges.bare :)
  obtain ⟨before, hgets⟩ := hdeed.of_ends hbefore (hphase.symm.trans hafter)
  have hc : c ≠ me := by
    rintro rfl
    cases (hgets.of_waits htask).1
  obtain ⟨_, id, rfl⟩ := hsound.sendTurn_call htask
  have hstage := h.stage id
  rw [htask] at hstage
  obtain ⟨op, _, hown⟩ := hstage.of_sendTurn
  obtain ⟨told', hwaits⟩ := hchanges.rests hsound hc htask
  exact .waits hwaits hafter ((hchanges.own_of_ne hdeed hc).trans hown)

/-! ## A send that is refused -/

theorem Refuses.start {op : Operation} {fault : Fault} (h : Refuses s op fault) (c : Caller) :
    op.start s c = s.finish [] (.error fault) := by
  -- the two kinds of send differ only in where their bytes come from
  have hsend : ∀ data, op.payload? = some (.ok data) → op.start s c = s.beginSend c data := by
    intro data hop
    cases op with
    | send sent =>
      cases hop
      rfl
    | sendData text format ending =>
      rw [Operation.start, beginSendData, Option.some.inj hop]
    | connect _ _ | disconnect | waitClosed => cases hop
  cases h with
  | unencoded hop =>
    cases op with
    | sendData text format ending =>
      rw [Operation.start, beginSendData, Option.some.inj hop]
    | send _ | connect _ _ | disconnect | waitClosed => cases hop
  | unconnected hop hphase => rw [hsend _ hop, beginSend, if_pos hphase]
  | empty hop hphase =>
    rw [hsend _ hop, beginSend, if_neg (not_not_intro hphase)]
    rfl

theorem refuses_of_payload {op : Operation} {payload : Except Fault Bytes}
    (hop : op.payload? = some payload) (hwhy : s.phase ≠ .connected ∨ payload = .ok []) :
    ∃ fault, Refuses s op fault := by
  cases payload with
  | error fault => exact ⟨fault, .unencoded hop⟩
  | ok data =>
    by_cases hphase : s.phase = .connected
    · cases hwhy.resolve_left (not_not_intro hphase)
      exact ⟨_, .empty hop hphase⟩
    · exact ⟨_, .unconnected hop hphase⟩

theorem Reachable.over_stays (h : w.Reachable) {result : Except Fault Result} {told : Bool}
    (hover : w.tasks c = .rests (.over result) told) {moves : List Move}
    (hrun : w.run moves = some v) : own c v.history = own c w.history := by
  have hstays : (∃ told, v.tasks c = .rests (.over result) told) ∧
      own c v.history = own c w.history := by
    refine Reachable.keeps (P := fun u => (∃ told, u.tasks c = .rests (.over result) told) ∧
      own c u.history = own c w.history) h hrun ⟨⟨told, hover⟩, rfl⟩ ?_
    rintro u next me course _ hsound ⟨events, s, pause, hdeed, hchanges⟩ ⟨⟨told, htask⟩, hown⟩
    have hc : c ≠ me := by
      rintro rfl
      exact hdeed.not_over htask
    exact ⟨hchanges.rests hsound hc htask, (hchanges.own_of_ne hdeed hc).trans hown⟩
  exact hstays.2

theorem Reachable.refused_now (h : w.Reachable) {id : Nat} {op : Operation}
    {payload : Except Fault Bytes} (hmove : w.move (.begin id op) = some next)
    (hop : op.payload? = some payload)
    (hwhy : w.session.phase ≠ .connected ∨ payload = .ok []) :
    ∃ fault, Refuses w.session op fault ∧ next.history =
      w.history ++ [.begun (.call id) op, .returned (.call id) (.error fault)] ∧
      next.tasks (.call id) = .rests (.over (.error fault)) false ∧
      own (.call id) w.history = [] := by
  obtain ⟨fault, hrefuses⟩ := refuses_of_payload hop hwhy
  have hstage := h.stage id
  rw [World.move] at hmove
  split at hmove
  case h_1 habsent =>
    cases hmove
    rw [habsent] at hstage
    generalize own (.call id) w.history = mine at hstage ⊢
    cases hstage
    rw [hrefuses.start]
    refine ⟨fault, hrefuses, ?_, setTask_self _ _ _, rfl⟩
    exact List.append_assoc _ _ _
  case h_2 => cases hmove

/-- Whatever the order of steps, at most one write is in progress. Every write goes to the device
that was open when its send was called, and since that call there were only writes on that device,
so no other connection has come in between. A send that still waits for its turn when a disconnect
begins, which is the step from connected to closing, writes nothing, can only fail because the
connection was lost, and does so once those before it in the row are through. A send that is called
while the session is not connected, or with nothing to write, fails at once and never writes. -/
theorem writes_isolated (w : World) (h : w.Reachable) :
    (∀ c c' d d' data data', w.Asks c (.write d data) → w.Asks c' (.write d' data') → c = c') ∧
      (∀ before after c d data, w.history = before ++ .asked c (.write d data) :: after →
        CalledOn c d data before) ∧
      (∀ c data told m next moves later,
        w.tasks c = .rests (.awaitTurn .writer (.sendTurn data)) told →
        w.session.phase = .connected → w.move m = some next → next.session.phase = .closing →
        next.run moves = some later →
        (∀ d data, .asked c (.write d data) ∉ later.history) ∧
          (∀ result, .returned c result ∈ later.history → result = .error .connectionLost) ∧
          ∃ more last, later.run more = some last ∧
            .returned c (.error .connectionLost) ∈ last.history) ∧
      ∀ id op payload next moves later, w.move (.begin id op) = some next →
        op.payload? = some payload → w.session.phase ≠ .connected ∨ payload = .ok [] →
        next.run moves = some later →
        (∃ fault, Refuses w.session op fault ∧ next.history =
          w.history ++ [.begun (.call id) op, .returned (.call id) (.error fault)]) ∧
          ∀ d data, .asked (.call id) (.write d data) ∉ later.history := by
  obtain ⟨_, hsound⟩ := h.sound
  refine ⟨fun c c' d d' data data' => hsound.one_write, h.write_called_on, ?_, ?_⟩
  · intro c data told m next moves later htask hbefore hmove hafter hrun
    have hlosing := h.loses htask hbefore hmove hafter
    have hlater := (h.move hmove).losing hlosing hrun
    exact ⟨hlater.not_written, fun result => hlater.result,
      ((h.move hmove).run hrun).losing_ends hlater⟩
  · intro id op payload next moves later hmove hop hwhy hrun
    obtain ⟨fault, hrefuses, hhistory, hover, hnone⟩ := h.refused_now hmove hop hwhy
    refine ⟨⟨fault, hrefuses, hhistory⟩, fun d data hmem => ?_⟩
    have hown : .asked (.call id) (.write d data) ∈ own (.call id) later.history :=
      mem_own.2 ⟨hmem, rfl⟩
    rw [(h.move hmove).over_stays hover hrun, hhistory, own_append, hnone,
      own_pair rfl rfl] at hown
    simp at hown

/-- A send writes and another one waits when the disconnect begins. -/
theorem writes_isolated_queued :
    ∃ w next : World, w.Reachable ∧ w.Asks (.call 1) (.write ⟨7, "tty"⟩ [65]) ∧
      w.move (.begin 3 .disconnect) = some next ∧ next.session.phase = .closing ∧
      (∀ d data, .asked (.call 2) (.write d data) ∉ next.history) ∧
      ∃ more last, next.run more = some last ∧
        .returned (.call 2) (.error .connectionLost) ∈ last.history := by
  have hrun : ∃ w, (fresh {} Double.zero).run [.begin 0 (.connect {} none),
      .answer (.call 0) (.device ⟨7, "tty"⟩), .answer (.call 0) .done, .startReading 0,
      .begin 1 (.send [65]), .begin 2 (.send [66])] = some w := ⟨_, rfl⟩
  obtain ⟨w, hw⟩ := hrun
  have hreachable : w.Reachable := ⟨{}, Double.zero, _, hw⟩
  have hstate : w.Asks (.call 1) (.write ⟨7, "tty"⟩ [65]) ∧
      w.tasks (.call 2) = .rests (.awaitTurn .writer (.sendTurn [66])) false ∧
      w.session.phase = .connected ∧ ∃ next, w.move (.begin 3 .disconnect) = some next ∧
        next.session.phase = .closing := by
    cases hw
    exact ⟨⟨_, _, rfl⟩, rfl, rfl, _, rfl, rfl⟩
  obtain ⟨hwrites, hwaits, hbefore, next, hmove, hafter⟩ := hstate
  obtain ⟨hnone, _, hends⟩ := (writes_isolated w hreachable).2.2.1 (.call 2) [66] false _ next []
    next hwaits hbefore hmove hafter rfl
  exact ⟨w, next, hreachable, hwrites, hmove, hafter, hnone, hends⟩

end World

end SerialConsole.Session
