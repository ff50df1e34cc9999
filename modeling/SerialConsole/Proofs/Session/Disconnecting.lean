import SerialConsole.Proofs.Session.Fairness
import SerialConsole.Proofs.Session.ReaderLock

set_option autoImplicit false

/-!
# Disconnecting

A disconnect rests only at points of its own (`Deed.disconnects`), so that in a fair course it
returns, whatever the devices answer. What it leaves is a session without a connection: its read
loops are over, nothing is logged, and the next connect finds everything as the first one did.
-/
namespace SerialConsole

/-- Whether a session has a device, or a disconnect still has it. -/
def Phase.isLinked : Phase → Bool
  | .connected | .closing => true
  | .disconnected | .connecting => false

namespace Session

/-- Whether a disconnect may rest at a point. -/
def Point.disconnects : Point → Bool
  | .disconnectTurn | .cancelling _ _ | .endOfReading _ _ | .cancelledReading _ | .closeTurn _
  | .closing _ => true
  | _ => false

def Pause.disconnects (pause : Pause) : Bool :=
  pause.point?.any Point.disconnects

namespace World

variable {w v next : World} {me c : Caller} {course : Course} {events new : List Event}
  {s : Session} {pause : Pause} {point : Point} {name : LockName} {id n : Nat} {d : Handle}
  {data : Bytes}

/-! ## The course of a disconnect -/

/-- A task that is at a point of a disconnect, or begins one. -/
inductive Departing (w : World) (c : Caller) (events : List Event) : Prop where
  | rests {there : Pause} {told : Bool} : w.tasks c = .rests there told →
    there.disconnects = true → Departing w c events
  | begins : .begun c .disconnect ∈ events → Departing w c events

theorem Departing.of_rests (h : w.Departing c events) {told : Bool}
    (htask : w.tasks c = .rests pause told) (honce : .begun c .disconnect ∉ events) :
    pause.disconnects = true := by
  cases h with
  | rests hrests hthere =>
    rw [htask] at hrests
    cases hrests
    exact hthere
  | begins hbegun => exact absurd hbegun honce

theorem Departing.of_absent (h : w.Departing c events) (habsent : w.tasks c = .absent) :
    .begun c .disconnect ∈ events := by
  cases h with
  | rests hrests _ =>
    rw [habsent] at hrests
    cases hrests
  | begins hbegun => exact hbegun

theorem Wants.disconnects (h : w.Wants c name point events) (hc : w.Departing c events) :
    point.disconnects = true := by
  cases h with
  | connect habsent => simpa using hc.of_absent habsent
  | disconnect _ | close _ _ => rfl
  | send habsent hpayload _ _ =>
    obtain rfl : Operation.disconnect = _ := by simpa using hc.of_absent habsent
    cases hpayload
  | read hdue =>
    cases hc with
    | rests hrests _ =>
      rw [hdue] at hrests
      cases hrests
    | begins hbegun => cases hbegun

theorem Gets.disconnects (h : w.Gets c name point events) {last : Event}
    (hc : w.Departing c (events ++ [last])) (hlast : ∀ op, last ≠ .begun c op) :
    point.disconnects = true := by
  have hbefore : w.Departing c events := by
    cases hc with
    | rests hrests hthere => exact .rests hrests hthere
    | begins hbegun =>
      rcases List.mem_append.1 hbegun with hin | hin
      · exact .begins hin
      · exact absurd (List.mem_singleton.1 hin).symm (hlast _)
  cases h with
  | atOnce hwants _ => exact hwants.disconnects hbefore
  | inTurn htask => exact hbefore.of_rests htask List.not_mem_nil

/-- A disconnect goes on to another of its points, or it ends well, and the session is then
disconnected. -/
theorem Deed.disconnects (hsound : w.Sound course) (h : w.Deed c events s pause)
    (hc : w.Departing c events) :
    pause.disconnects = true ∨ pause = .over (.ok .nothing) ∧ s.phase = .disconnected := by
  cases h with
  | queues hwants _ => exact Or.inl (hwants.disconnects hc)
  | busy hgets _ _ | misconfigured hgets _ _ | requests hgets _ _ | writes hgets _ _ | lost hgets _
  | stopsReading hgets _ | reads hgets _ =>
    cases hgets.disconnects hc fun op => nofun
  | nothingToEnd _ hphase => exact Or.inr ⟨rfl, hphase⟩
  | ends _ _ _ _ | waitsForReader _ _ | cancelsReader _ _ _ | closes _ _ => exact Or.inl rfl
  | closed _ _ => exact Or.inr ⟨rfl, rfl⟩
  | unoffered htask _ | opens htask _ | unopened htask _ | connects htask _ | unwritten htask _
  | written htask | watched htask _ => cases hc.of_rests htask (by simp)
  | refused habsent hrefuses =>
    obtain rfl : Operation.disconnect = _ := by simpa using hc.of_absent habsent
    cases hrefuses with
    | unencoded hpayload | unconnected hpayload _ | empty hpayload _ => cases hpayload
  | watches habsent _ | nothingToWatch habsent _ => simpa using hc.of_absent habsent
  | hears htask hhears =>
    cases hc.of_rests htask (by cases hhears <;> simp)
  | cancelled _ _ _ =>
    cases hc with
    | rests hrests hthere =>
      rcases hsound.rests _ _ _ hrests with haside | hholding
      · cases haside <;> cases hthere
      · cases hholding
    | begins hbegun => simp at hbegun

/-- A disconnect that has begun is at one of its points, or it has ended well. -/
theorem Reachable.departing (h : w.Reachable) (hbegun : .begun (.call id) .disconnect ∈ w.history) :
    ∃ pause told, w.tasks (.call id) = .rests pause told ∧ (pause.disconnects = true ∨
      pause = .over (.ok .nothing) ∧ .returned (.call id) (.ok .nothing) ∈ w.history) := by
  refine Reachable.always (P := fun w => .begun (.call id) .disconnect ∈ w.history →
    ∃ pause told, w.tasks (.call id) = .rests pause told ∧ (pause.disconnects = true ∨
      pause = .over (.ok .nothing) ∧ .returned (.call id) (.ok .nothing) ∈ w.history)) h ?_ ?_
        hbegun
  · exact fun _ _ => nofun
  · rintro u next me course _ hsound ⟨events, s, pause, hdeed, hchanges⟩ ih hbegun
    rw [hchanges.history] at hbegun ⊢
    by_cases hme : .call id = me
    · subst hme
      have hdeparting : u.Departing (.call id) events := by
        rcases List.mem_append.1 hbegun with hin | hin
        · obtain ⟨there, told, hrests, hthere | ⟨rfl, _⟩⟩ := ih hin
          · exact .rests hrests hthere
          · exact absurd hrests hdeed.not_over
        · exact .begins hin
      refine ⟨pause, false, hchanges.mine, ?_⟩
      refine (hdeed.disconnects hsound hdeparting).imp_right ?_
      rintro ⟨rfl, _⟩
      obtain ⟨before, rfl, _⟩ := hdeed.events_split
      exact ⟨rfl, List.mem_append_right _ (List.mem_append_right _ List.mem_cons_self)⟩
    · have hold : .begun (.call id) .disconnect ∈ u.history := by
        rcases List.mem_append.1 hbegun with hin | hin
        · exact hin
        · have hown := mem_own (c := .call id).2 ⟨hin, rfl⟩
          rw [hdeed.own_of_ne hme] at hown
          cases hown
      obtain ⟨there, told, hrests, hthere⟩ := ih hold
      obtain ⟨told', hrests'⟩ := hchanges.rests hsound hme hrests
      exact ⟨there, told', hrests', hthere.imp_right fun hover =>
        ⟨hover.1, List.mem_append_left _ hover.2⟩⟩

/-! ## What a disconnect leaves -/

/-- No connection is left, and no read loop that is not over. -/
structure Cleared (w : World) : Prop where
  vacant : Vacant w.session .disconnected
  readers : ∀ n, ¬ w.Unfinished n
  lock : w.session.readerLock = {}

theorem Reachable.readers_over (h : w.Reachable) (hphase : w.session.phase.isLinked = false)
    (n : Nat) : ¬ w.Unfinished n := by
  intro hn
  obtain ⟨course, hsound⟩ := h.sound
  rcases h.tended.unfinished n hn with hreader | ⟨c, hc⟩
  · rw [hsound.connected_iff_reader.2 ⟨n, hreader⟩] at hphase
    cases hphase
  · rw [(hsound.pending_holds hc).2.1] at hphase
    cases hphase

theorem Reachable.cleared (h : w.Reachable) (hphase : w.session.phase = .disconnected) :
    w.Cleared := by
  obtain ⟨course, hsound⟩ := h.sound
  have hnone := hsound.vacant_of_not_connected (by rw [hphase]; decide)
  have hover := h.readers_over (by rw [hphase]; rfl)
  exact ⟨⟨hphase, hnone.1, hnone.2⟩, hover, hsound.reader_free fun m hm => absurd hm (hover m)⟩

/-- A disconnect ends only well. -/
theorem Reachable.disconnect_ends (h : w.Reachable) {m : Move} (hmove : w.move m = some next)
    (hnew : next.history = w.history ++ new) {result : Except Fault Result}
    (hbegun : .begun (.call id) .disconnect ∈ next.history)
    (hreturned : .returned (.call id) result ∈ new) : result = .ok .nothing ∧ next.Cleared := by
  obtain ⟨course, hsound⟩ := h.sound
  obtain ⟨events, s, pause, hdeed, hchanges⟩ := hsound.does_move hmove
  obtain rfl : events = new := List.append_cancel_left (hchanges.history.symm.trans hnew)
  obtain ⟨hme, rfl⟩ := hdeed.of_returned hreturned
  rw [← hme] at hdeed hchanges
  have hdeparting : w.Departing (.call id) events := by
    rw [hnew] at hbegun
    rcases List.mem_append.1 hbegun with hin | hin
    · obtain ⟨there, told, hrests, hthere | ⟨rfl, _⟩⟩ := h.departing hin
      · exact .rests hrests hthere
      · exact absurd hrests hdeed.not_over
    · exact .begins hin
  rcases hdeed.disconnects hsound hdeparting with hfalse | ⟨hover, hphase⟩
  · cases hfalse
  · cases hover
    exact ⟨rfl, (h.move hmove).cleared ((phase_of_bare hchanges.bare).trans hphase)⟩

/-! ## After a disconnect -/

theorem Deed.keeps_readError (hreach : w.Reachable) (h : w.Deed me events s pause)
    (hphase : s.phase ≠ .connected) : s.readError = w.session.readError := by
  cases h with
  | connects _ _ => exact absurd rfl hphase
  | hears htask hhears =>
    cases hhears with
    | breaks hgoes =>
      exact absurd (hreach.reads_connected (unfinished_of_reading htask) hgoes) hphase
    | _ => rfl
  | _ => rfl

/-- Who writes does so on a device that is connected, or of a disconnect that waits for it. -/
theorem Reachable.writes_linked (h : w.Reachable) (hasks : w.Asks c (.write d data)) :
    w.session.phase.isLinked = true := by
  refine Reachable.always (P := fun w => ∀ c d data, w.Asks c (.write d data) →
    w.session.phase.isLinked = true) h ?_ ?_ c d data hasks
  · rintro _ _ c d data ⟨_, _, hrests⟩
    cases hrests
  · rintro u next me course _ hsound ⟨events, s, pause, hdeed, hchanges⟩ ih c d data
      ⟨point, told, hrests⟩
    rw [phase_of_bare hchanges.bare]
    by_cases hc : c = me
    · subst hc
      rw [hchanges.mine] at hrests
      cases hrests
      cases hdeed with
      | writes _ hphase _ =>
        change u.session.phase.isLinked = true
        rw [hphase]
        rfl
      | hears _ hhears => rcases hhears.pause_cases with heq | heq <;> cases heq
    · obtain ⟨told', hbefore⟩ := hchanges.rested hsound hc hrests
      have hlinked := ih c d data ⟨point, told', hbefore⟩
      rcases hdeed.leads with hsame | hleads
      · rwa [hsame]
      · generalize hphase : u.session.phase = before at hlinked hleads
        generalize hafter : s.phase = after at hleads ⊢
        cases hleads with
        | requests | fails | opens => cases hlinked
        | ends => rfl
        | closes =>
          -- the device would be closed while it is written to
          obtain ⟨call, device, told, hclose⟩ := hdeed.of_closed hphase (by rw [hafter]; decide)
          rcases hsound.rests _ _ _ hclose with haside | hholding
          · cases haside
          · cases hholding
            exact absurd ⟨point, told', hbefore⟩ (hsound.not_writing ⟨_, _, hclose⟩)

theorem Deed.logs_nothing (hreach : w.Reachable) (h : w.Deed me events s pause)
    (hphase : w.session.phase.isLinked = false) :
    logged events = [] ∧ s.log = w.session.log := by
  cases h.logs with
  | nothing hnone hlog => exact ⟨hnone, hlog⟩
  | sent htask _ _ =>
    rw [hreach.writes_linked ⟨_, _, htask⟩] at hphase
    cases hphase
  | received hme htask _ _ _ _ =>
    subst hme
    exact absurd (unfinished_of_reading htask) (hreach.readers_over hphase _)

/-- Only a connection links a session to a device. -/
theorem Deed.links (h : w.Deed me events s pause) (hbefore : w.session.phase.isLinked = false)
    (hafter : s.phase.isLinked = true) : ∃ e ∈ events, e.isOpen = true := by
  have hsame : s.phase ≠ w.session.phase := by
    intro heq
    rw [heq, hbefore] at hafter
    cases hafter
  cases h with
  | connects _ _ => exact ⟨_, List.mem_cons_self, rfl⟩
  | requests _ _ _ | unoffered _ _ | unopened _ _ | closed _ _ => cases hafter
  | ends _ hphase _ _ =>
    rw [hphase] at hbefore
    cases hbefore
  | hears _ hhears => exact absurd hhears.alike.phase_eq hsame
  | _ => exact absurd rfl hsame

/-- Until the next connection nothing is logged. -/
theorem Reachable.logs_nothing (h : w.Reachable) (hphase : w.session.phase.isLinked = false)
    {moves : List Move} (hrun : w.run moves = some v) (hnew : v.history = w.history ++ new)
    (hopens : opens new = 0) : logged new = [] ∧ v.session.log = w.session.log := by
  have hall : ∃ new, v.history = w.history ++ new ∧ ((∃ e ∈ new, e.isOpen = true) ∨
      v.session.phase.isLinked = false ∧ logged new = [] ∧ v.session.log = w.session.log) := by
    refine Reachable.keeps (P := fun u => ∃ new, u.history = w.history ++ new ∧
      ((∃ e ∈ new, e.isOpen = true) ∨ u.session.phase.isLinked = false ∧ logged new = [] ∧
        u.session.log = w.session.log)) h hrun
      ⟨[], (List.append_nil _).symm, Or.inr ⟨hphase, rfl, rfl⟩⟩ ?_
    rintro u next me course hu _ ⟨events, s, pause, hdeed, hchanges⟩ ⟨new, hnew, hcases⟩
    refine ⟨new ++ events, by rw [hchanges.history, hnew, List.append_assoc], ?_⟩
    rw [phase_of_bare hchanges.bare, log_of_bare hchanges.bare]
    rcases hcases with ⟨e, he, hopen⟩ | ⟨hunlinked, hnone, hlog⟩
    · exact Or.inl ⟨e, List.mem_append_left events he, hopen⟩
    · obtain ⟨hevents, hsame⟩ := hdeed.logs_nothing hu hunlinked
      cases hlinked : s.phase.isLinked with
      | true =>
        obtain ⟨e, he, hopen⟩ := hdeed.links hunlinked hlinked
        exact Or.inl ⟨e, List.mem_append_right new he, hopen⟩
      | false =>
        refine Or.inr ⟨rfl, ?_, hsame.trans hlog⟩
        rw [logged, List.filterMap_append]
        exact congr (congrArg _ hnone) hevents
  obtain ⟨new', hnew', hcases⟩ := hall
  obtain rfl : new = new' := List.append_cancel_left (hnew.symm.trans hnew')
  rcases hcases with ⟨e, he, hopen⟩ | ⟨_, hnone, hlog⟩
  · have hpos := List.countP_eq_zero.1 hopens e he
    exact absurd hopen hpos
  · exact ⟨hnone, hlog⟩

/-! ## The next call -/

/-- A call gets the lifecycle lock by a move: it begins, or its turn has come. -/
inductive EntersBy (w : World) (id : Nat) (op : Operation) (point : Point) : Move → Prop where
  | atOnce : w.tasks (.call id) = .absent → w.session.isFree .lifecycle = true →
    EntersBy w id op point (.begin id op)
  | inTurn : w.tasks (.call id) = .rests (.awaitTurn .lifecycle point) true →
    EntersBy w id op point (.turn (.call id))

end World

/-- The call that a move begins. -/
def Move.begun : Move → List Event
  | .begin id op => [.begun (.call id) op]
  | _ => []

namespace World

variable {w v next : World} {course : Course} {id n : Nat} {d : Handle} {op : Operation}
  {point : Point} {go : Session → Step} {m : Move}

theorem EntersBy.move (h : w.EntersBy id op point m)
    (hstart : op.start w.session (.call id) = w.session.enter (.call id) .lifecycle point go)
    (hturn : w.session.onTurn (.call id) point = go (w.session.takeTurn .lifecycle (.call id))) :
    w.move m = some ((w.happen m.begun).absorb (.call id)
      (go (w.session.takeTurn .lifecycle (.call id)))) := by
  cases h with
  | atOnce habsent hfree =>
    have htake : w.session.take .lifecycle = w.session.takeTurn .lifecycle (.call id) := by
      rw [isFree, Bool.and_eq_true, List.isEmpty_iff] at hfree
      simp [take, takeTurn, hfree.2]
    rw [World.move, habsent, hstart, enter, if_pos hfree, htake]
    rfl
  | inTurn htask =>
    have hbegun : (Move.turn (.call id)).begun = [] := rfl
    rw [move_turn htask, goOn, resume, hturn, hbegun, happen_nil]

theorem EntersBy.not_held (h : w.EntersBy id op point m) (hsound : w.Sound course) :
    w.session.lifecycleLock.held = false := by
  cases h with
  | atOnce _ hfree =>
    rw [isFree, Bool.and_eq_true, Bool.not_eq_true'] at hfree
    exact hfree.1
  | inTurn htask =>
    have huse := (hsound.mem_waiting htask).1
    exact ((hsound.locks .lifecycle).told _ huse).1

/-- A disconnect that finds the session disconnected does nothing. -/
theorem Reachable.disconnects_again (h : w.Reachable) (hphase : w.session.phase = .disconnected)
    (henters : w.EntersBy id .disconnect .disconnectTurn m) :
    ∃ next, w.move m = some next ∧
      next.history = w.history ++ m.begun ++ [.returned (.call id) (.ok .nothing)] ∧
      next.session = (w.session.giveUp .lifecycle (.call id)).1 := by
  obtain ⟨course, hsound⟩ := h.sound
  have hmove : w.move m = some ((w.happen m.begun).absorb (.call id)
      (disconnectLocked (.call id) (w.session.takeTurn .lifecycle (.call id)))) :=
    henters.move rfl rfl
  have hstep : disconnectLocked (.call id) (w.session.takeTurn .lifecycle (.call id)) =
      leave (w.session.takeTurn .lifecycle (.call id)) .lifecycle [] (.ok .nothing) :=
    if_pos hphase
  rw [hstep] at hmove
  refine ⟨_, hmove, ?_, ?_⟩
  · rw [history_absorb, leave, List.nil_append, event?_wakeFirst, List.append_nil]
    rfl
  · have hheld := henters.not_held hsound
    rw [session_absorb]
    simp only [leave, release, takeTurn, giveUp, setLock, lock]
    rw [hheld]

/-! ## The next connection -/

/-- A session is connected to a device, and its read loop reads from it. -/
structure Live (w : World) (d : Handle) (n : Nat) : Prop where
  phase : w.session.phase = .connected
  device : w.session.device = some d
  reader : w.session.reader = some n
  unbroken : w.session.readError = none
  goes : w.session.stopReading = false
  reads : ∃ told, w.tasks (.reader n) = .rests (.askDevice (.read d) (.reading d)) told

theorem Live.goes_on (h : w.Live d n) {v : World} {step : Step} {log : Log.Ring}
    (hsession : step.session = { w.session with log })
    (hpause : step.pause = .askDevice (.read d) (.reading d)) :
    (v.absorb (.reader n) step).Live d n := by
  have hbare : (v.absorb (.reader n) step).session = { w.session with log } := by
    rw [session_absorb, hsession]
  refine ⟨?_, ?_, ?_, ?_, ?_, false, ?_⟩
  · rw [hbare]
    exact h.phase
  · rw [hbare]
    exact h.device
  · rw [hbare]
    exact h.reader
  · rw [hbare]
    exact h.unbroken
  · rw [hbare]
    exact h.goes
  · rw [Quiet.tasks_absorb_me, hpause]

theorem Live.hears_chunk (h : w.Live d n) (data : Bytes) :
    ∃ next new, w.move (.answer (.reader n) (.chunk (some data))) = some next ∧
      next.history = w.history ++ new ∧
      payloads .received new = [data].filter (fun data => data ≠ []) ∧ next.Live d n := by
  obtain ⟨told, htask⟩ := h.reads
  have hmove : w.move (.answer (.reader n) (.chunk (some data))) =
      some ((w.happen [.answered (.reader n) (.read d) (.chunk (some data))]).absorb (.reader n)
        (w.session.chunkRead d (some data))) := move_answer htask rfl
  have hnext : ∀ s effects, s.stopReading = false →
      readNext s effects d = ⟨s, effects, .askDevice (.read d) (.reading d)⟩ := by
    intro s effects hgoes
    rw [readNext, hgoes, if_neg (by decide)]
  rw [chunkRead, h.goes, if_neg (by decide)] at hmove
  cases data with
  | nil =>
    rw [List.isEmpty_nil, if_pos rfl, hnext _ _ h.goes] at hmove
    refine ⟨_, [.answered (.reader n) (.read d) (.chunk (some [])), .asked (.reader n) (.read d)],
      hmove, ?_, rfl, h.goes_on rfl rfl⟩
    rw [history_absorb, happen, List.append_assoc, List.append_assoc]
    rfl
  | cons b rest =>
    rw [List.isEmpty_cons, if_neg (by decide),
      hnext (w.session.record .received _) _ h.goes] at hmove
    refine ⟨_, [.answered (.reader n) (.read d) (.chunk (some (b :: rest))),
      .logged (w.session.log.nextEntry .received (b :: rest)), .asked (.reader n) (.read d)],
      hmove, ?_, rfl, h.goes_on rfl rfl⟩
    rw [history_absorb, happen, List.append_assoc, List.append_assoc]
    rfl

theorem Live.hears (h : w.Live d n) (chunks : List Bytes) :
    ∃ last new,
      w.run (chunks.map fun data => .answer (.reader n) (.chunk (some data))) = some last ∧
      last.history = w.history ++ new ∧
      payloads .received new = chunks.filter (fun data => data ≠ []) ∧ last.Live d n := by
  induction chunks generalizing w with
  | nil => exact ⟨w, [], rfl, (List.append_nil _).symm, rfl, h⟩
  | cons data rest ih =>
    obtain ⟨next, first, hmove, hfirst, hone, hnext⟩ := h.hears_chunk data
    obtain ⟨last, more, hrun, hmore, hrest, hlast⟩ := ih hnext
    refine ⟨last, first ++ more, ?_, ?_, ?_, hlast⟩
    · rw [List.map_cons, run_cons hmove, hrun]
    · rw [hmore, hfirst, List.append_assoc]
    · rw [payloads_append, hone, hrest, ← List.filter_append]
      rfl

section

variable {line : LineSettings} {hint : Option String} {told : Bool}

theorem EntersBy.requests (h : w.EntersBy id (.connect line hint) (.connectTurn line hint) m)
    (hphase : w.session.phase = .disconnected) (hcheck : line.check = .ok ()) :
    ∃ next, w.move m = some next ∧
      next.tasks (.call id) = .rests (.askDevice (.request hint) (.requesting line)) false := by
  have hmove : w.move m = some ((w.happen m.begun).absorb (.call id)
      (connectLocked line hint (w.session.takeTurn .lifecycle (.call id)))) := h.move rfl rfl
  refine ⟨_, hmove, ?_⟩
  have hfree : ¬ (w.session.takeTurn .lifecycle (.call id)).phase ≠ .disconnected :=
    not_not_intro hphase
  rw [Quiet.tasks_absorb_me, connectLocked, if_neg hfree, hcheck]

theorem is_offered
    (htask : w.tasks (.call id) = .rests (.askDevice (.request hint) (.requesting line)) told)
    (d : Handle) : ∃ next, w.move (.answer (.call id) (.device d)) = some next ∧
      next.tasks (.call id) = .rests (.askDevice (.openWith d line) (.opening d line)) false :=
  ⟨_, move_answer htask rfl, Quiet.tasks_absorb_me _ _ _⟩

theorem Reachable.is_opened (h : w.Reachable)
    (htask : w.tasks (.call id) = .rests (.askDevice (.openWith d line) (.opening d line)) told) :
    ∃ next, w.move (.answer (.call id) .done) = some next ∧
      .returned (.call id) (.ok .nothing) ∈ next.history ∧
      next.session.bare = (w.session.connectedTo d line).bare ∧
      next.tasks (.reader w.session.connections) = .due d ∧
      next.cancelled w.session.connections = false := by
  obtain ⟨course, hsound⟩ := h.sound
  have hmove := @move_answer _ _ _ _ _ .done htask rfl
  have u : Underway w (w.happen [.answered (.call id) (.openWith d line) .done]) (.call id)
      [.answered (.call id) (.openWith d line) .done] w.session :=
    hsound.underway_resume htask rfl rfl rfl
  have hchanges := @connected_changes _ _ _ _ line d u nofun (.ok .nothing)
  refine ⟨_, hmove, ?_, hchanges.bare, ?_, ?_⟩
  · exact hchanges.history ▸ List.mem_append_right _ (by simp)
  · obtain ⟨d', hd', hdue⟩ := hchanges.born (Nat.succ_ne_self _)
    cases hd'
    exact hdue
  · refine Bool.eq_false_iff.2 fun htold => ?_
    rcases hsound.cancelled_back hmove htold with hbefore | ⟨c, point, told', hawaits⟩
    · rw [h.not_cancelled (Nat.le_refl _)] at hbefore
      cases hbefore
    · have hcount := h.tended.awaited c w.session.connections (by rw [hawaits]; rfl)
      omega

theorem Reachable.begins_to_read (h : w.Reachable) (hdue : w.tasks (.reader n) = .due d)
    (hfree : w.cancelled n = false) (hgoes : w.session.stopReading = false) :
    ∃ next, w.move (.startReading n) = some next ∧ next.session.bare = w.session.bare ∧
      (∃ new, next.history = w.history ++ new) ∧
      next.tasks (.reader n) = .rests (.askDevice (.read d) (.reading d)) false := by
  have hbegins : w.session.beginRead (.reader n) d =
      ⟨w.session.take .reader, [], .askDevice (.read d) (.reading d)⟩ := by
    rw [beginRead, enter, if_pos (h.reader_free hdue)]
    exact if_neg (by rw [show (w.session.take .reader).stopReading = false from hgoes]; decide)
  have hmove : w.move (.startReading n) = some (w.absorb (.reader n)
      ⟨w.session.take .reader, [], .askDevice (.read d) (.reading d)⟩) := by
    rw [World.move, hdue]
    simp only [hfree, hbegins, Bool.false_eq_true, if_false]
  refine ⟨_, hmove, ?_, ⟨[.asked (.reader n) (.read d)], ?_⟩, Quiet.tasks_absorb_me _ _ _⟩
  · rw [session_absorb, bare_take]
  · rw [history_absorb, List.append_assoc]
    rfl

/-- A connect that finds the session disconnected connects it to a device that opens. -/
theorem Reachable.connects_again (h : w.Reachable) (hphase : w.session.phase = .disconnected)
    (hcheck : line.check = .ok ())
    (henters : w.EntersBy id (.connect line hint) (.connectTurn line hint) m) (d : Handle) :
    ∃ v n, w.run [m, .answer (.call id) (.device d), .answer (.call id) .done, .startReading n] =
        some v ∧ .returned (.call id) (.ok .nothing) ∈ v.history ∧ v.Live d n := by
  obtain ⟨first, hfirst, hasks⟩ := henters.requests hphase hcheck
  obtain ⟨second, hsecond, hopens⟩ := is_offered hasks d
  have hreach := (h.move hfirst).move hsecond
  obtain ⟨third, hthird, hreturned, hbare, hdue, hfree⟩ := hreach.is_opened hopens
  have hgoes : third.session.stopReading = false := stopReading_of_bare hbare
  obtain ⟨last, hlast, hsame, ⟨new, hnew⟩, hreads⟩ :=
    (hreach.move hthird).begins_to_read hdue hfree hgoes
  have hconnected := hsame.trans hbare
  refine ⟨last, second.session.connections, ?_, ?_, ?_⟩
  · rw [run_cons hfirst, run_cons hsecond, run_cons hthird, run_cons hlast]
    rfl
  · rw [hnew]
    exact List.mem_append_left new hreturned
  · exact ⟨phase_of_bare hconnected, device_of_bare hconnected, reader_of_bare hconnected,
      readError_of_bare hconnected, stopReading_of_bare hconnected, false, hreads⟩

end

end World

/-- In a fair course a disconnect that has begun returns. -/
theorem Endless.Fair.disconnect_returns {e : Endless} (hfair : e.Fair) {t id : Nat}
    (hbegun : .begun (.call id) .disconnect ∈ (e.world t).history) :
    ∃ u, t ≤ u ∧ .returned (.call id) (.ok .nothing) ∈ (e.world u).history := by
  obtain ⟨pause, told, hrests, hcases⟩ := (e.reachable_at t).departing hbegun
  have hwatch : ∀ n point, pause ≠ .watchReader n point := by
    rintro n point rfl
    obtain ⟨course, hsound⟩ := e.sound_at t
    rcases hsound.rests _ _ _ hrests with haside | hholding
    · cases haside
      rcases hcases with hthere | ⟨hover, _⟩
      · cases hthere
      · cases hover
    · cases hholding
  obtain ⟨u, result, told', hu, hover⟩ := hfair.ends hrests hwatch
  obtain ⟨there, told'', hthere, hlast⟩ :=
    (e.reachable_at u).departing (Endless.history_grows hbegun hu)
  rw [hover] at hthere
  cases hthere
  rcases hlast with hfalse | ⟨_, hreturned⟩
  · cases hfalse
  · exact ⟨u, hu, hreturned⟩

namespace World

/-- From every state that a session can be in, and whatever its devices answer: a disconnect that
has begun returns in every fair course, and it returns without a fault. It leaves the session
disconnected, with its read loops over and their lock free, which each of them got and gave back
once if it began to run. The end of a connection is no error of reading, and nothing is logged until
the next connection. Another disconnect then makes no device call and changes nothing, and a connect
to a device that opens brings a read loop that logs what it is given. -/
theorem disconnect_succeeds (log : Log.Ring) (closeTimeout : Double) (moves : List Move)
    (w : World) (hrun : (fresh log closeTimeout).run moves = some w) :
    (∀ e : Endless, e.world 0 = w → e.Fair → ∀ t id,
      .begun (.call id) .disconnect ∈ (e.world t).history →
        ∃ u, t ≤ u ∧ .returned (.call id) (.ok .nothing) ∈ (e.world u).history) ∧
      (∀ m next new id result, w.move m = some next → next.history = w.history ++ new →
        .begun (.call id) .disconnect ∈ next.history → .returned (.call id) result ∈ new →
          result = .ok .nothing ∧ next.Cleared) ∧
      (∀ n, w.resultOf n ≠ none →
        (fresh log closeTimeout).taken n moves = (moves.any (Move.starts n)).toNat ∧
          (fresh log closeTimeout).givenBack n moves = (moves.any (Move.starts n)).toNat) ∧
      (∀ m next, w.move m = some next → next.session.phase ≠ .connected →
        next.session.readError = w.session.readError) ∧
      (w.session.phase = .disconnected →
        (∀ more later new, w.run more = some later → later.history = w.history ++ new →
          opens new = 0 → logged new = [] ∧ later.session.log = w.session.log) ∧
        (∀ id m, w.EntersBy id .disconnect .disconnectTurn m → ∃ next, w.move m = some next ∧
          next.history = w.history ++ m.begun ++ [.returned (.call id) (.ok .nothing)] ∧
            next.session = (w.session.giveUp .lifecycle (.call id)).1) ∧
        ∀ id line hint m d, line.check = .ok () →
          w.EntersBy id (.connect line hint) (.connectTurn line hint) m →
            ∃ v n, w.run [m, .answer (.call id) (.device d), .answer (.call id) .done,
                .startReading n] = some v ∧
              .returned (.call id) (.ok .nothing) ∈ v.history ∧ v.Live d n ∧
              ∀ chunks : List Bytes, ∃ last new,
                v.run (chunks.map fun data => .answer (.reader n) (.chunk (some data))) =
                  some last ∧ last.history = v.history ++ new ∧
                payloads .received new = chunks.filter (fun data => data ≠ []) ∧
                v.session.log.Grows (logged new) last.session.log) := by
  have h : w.Reachable := ⟨log, closeTimeout, moves, hrun⟩
  refine ⟨fun e _ hfair t id hbegun => hfair.disconnect_returns hbegun,
    fun m next new id result hmove hnew hbegun hreturned =>
      h.disconnect_ends hmove hnew hbegun hreturned,
    fun n hover => given_back_once hrun hover, fun m next hmove hphase => ?_, fun hphase => ?_⟩
  · obtain ⟨me, events, s, pause, hdeed, hchanges⟩ := h.does hmove
    rw [phase_of_bare hchanges.bare] at hphase
    rw [readError_of_bare hchanges.bare]
    exact hdeed.keeps_readError h hphase
  · have hunlinked : w.session.phase.isLinked = false := by
      rw [hphase]
      rfl
    refine ⟨fun more later new hmore hnew hopens => h.logs_nothing hunlinked hmore hnew hopens,
      fun id m henters => h.disconnects_again hphase henters,
      fun id line hint m d hcheck henters => ?_⟩
    obtain ⟨v, n, hconnects, hreturned, hlive⟩ := h.connects_again hphase hcheck henters d
    refine ⟨v, n, hconnects, hreturned, hlive, fun chunks => ?_⟩
    obtain ⟨last, new, hchunks, hnew, hreceived, _⟩ := hlive.hears chunks
    obtain ⟨new', hnew', hgrows⟩ := (h.run hconnects).log_grows hchunks
    obtain rfl : new = new' := List.append_cancel_left (hnew.symm.trans hnew')
    exact ⟨last, new, hchunks, hnew, hreceived, hgrows⟩

/-- The end to reading fails, the read loop has to be cancelled, the close waits for a write, and
then it fails too. -/
theorem disconnect_succeeds_failing :
    ∃ w next : World, ∃ e : Endless, w.session.phase = .closing ∧
      w.resultOf 0 = some (.error .cancelled) ∧
      w.move (.answer (.call 2) (.failed (.portNotOpen "tty"))) = some next ∧ next.Cleared ∧
      e.world 0 = w ∧ e.Fair ∧
      ∃ u, .returned (.call 2) (.ok .nothing) ∈ (e.world u).history := by
  have hrun : ∃ w, (fresh {} Double.zero).run [.begin 0 (.connect {} none),
      .answer (.call 0) (.device ⟨7, "tty"⟩), .answer (.call 0) .done, .startReading 0,
      .begin 1 (.send [65]), .begin 2 .disconnect, .answer (.call 2) (.failed (.portNotOpen "tty")),
      .stopWaiting (.call 2), .cancelReading 0, .join (.call 2), .answer (.call 1) .done,
      .turn (.call 2)] = some w := ⟨_, rfl⟩
  obtain ⟨w, hw⟩ := hrun
  have hreach : w.Reachable := ⟨{}, Double.zero, _, hw⟩
  have hstate : w.session.phase = .closing ∧ w.resultOf 0 = some (.error .cancelled) ∧
      w.history[9]? = some (.begun (.call 2) .disconnect) ∧
      ∃ next, w.move (.answer (.call 2) (.failed (.portNotOpen "tty"))) = some next ∧
        next.history = w.history ++ [.answered (.call 2) (.close ⟨7, "tty"⟩)
          (.failed (.portNotOpen "tty")), .returned (.call 2) (.ok .nothing)] ∧
        next.session.connections = 1 ∧
        ∀ c ∈ [Caller.call 0, .call 1, .call 2, .reader 0],
          ∃ result told, next.tasks c = .rests (.over result) told := by
    cases hw
    refine ⟨rfl, rfl, rfl, _, rfl, rfl, rfl, ?_⟩
    intro c hc
    simp only [List.mem_cons, List.not_mem_nil, or_false] at hc
    rcases hc with rfl | rfl | rfl | rfl <;> exact ⟨_, _, rfl⟩
  obtain ⟨hphase, hover, hbegun, next, hmove, hnew, hcount, hends⟩ := hstate
  have hmem := List.mem_of_getElem? hbegun
  have hlast : w.run [.answer (.call 2) (.failed (.portNotOpen "tty"))] = some next :=
    run_cons hmove
  have hrest : ∀ c, ¬ next.Ready c := by
    refine not_ready_of_run ((run_append hw).trans hlast) (fun id op hop => hends _ ?_) fun n hn =>
      (hreach.move hmove).not_ready (Or.inr (hends _ ?_))
    · simp only [List.mem_append, List.mem_cons, List.not_mem_nil, or_false, Move.begin.injEq,
        Caller.call.injEq, reduceCtorEq, false_or] at hop ⊢
      omega
    · rw [hcount, Nat.lt_one_iff] at hn
      simp [hn]
  obtain ⟨hreturns, hleaves, _⟩ := disconnect_succeeds {} Double.zero _ w hw
  obtain ⟨u, _, hreturned⟩ := hreturns (Endless.ofRun w next _ hreach hlast) rfl
    (Endless.fair_ofRun hreach hlast hrest) 0 2 hmem
  have hbegun' : .begun (.call 2) .disconnect ∈ next.history :=
    hnew ▸ List.mem_append_left _ hmem
  have hcleared := (hleaves _ next _ 2 _ hmove hnew hbegun'
    (List.mem_cons_of_mem _ List.mem_cons_self)).2
  exact ⟨w, next, _, hphase, hover, hmove, hcleared, rfl, Endless.fair_ofRun hreach hlast hrest, u,
    hreturned⟩

end World

end Session

end SerialConsole
