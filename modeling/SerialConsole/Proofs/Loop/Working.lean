import SerialConsole.Proofs.Loop.Connecting

set_option autoImplicit false

/-!
# An errand does its work

Sending, running a script, sleeping and listening, one lemma for each thing that the main task can do
next while a device is open and nobody disconnects. The counter is registered exactly while it stands
on the stack.
-/
namespace SerialConsole.Loop.Errand

open SerialConsole.Session (Event)

variable {work : List Action} {ring : Log.Ring} {base : List Log.Listener} {h more : List Event}
  {l : State} {s t : Session} {readers : Array Nat} {d : Handle} {listens : Bool}
  {before : List Frame} {rest : List Action} {values : List Value} {v : Value} {control : Control}
  {step : Session.Step}

theorem Joined.beside (hs : Joined base s readers h d listens) (hmore : State.Quiet more)
    (ht : t.outline = s.outline) : Joined base t readers (h ++ more) d listens := by
  have hphase : t.phase = s.phase := congrArg Session.Outline.phase ht
  have hdevice : t.device = s.device := congrArg Session.Outline.device ht
  have hstop : t.stopReading = s.stopReading := congrArg Session.Outline.stopReading ht
  have hreader : t.reader = s.reader := congrArg Session.Outline.reader ht
  have hlock : t.lifecycleLock = s.lifecycleLock := congrArg Session.Outline.lifecycleLock ht
  have hlisteners : t.log.listeners = s.log.listeners := congrArg Session.Outline.listeners ht
  refine ⟨hphase.trans hs.phase, hdevice.trans hs.device, hlock.trans hs.lock,
    hreader.trans hs.reader, hs.wired, hstop.trans hs.going, fun e he => ?_, ?_, ?_,
    hlisteners ▸ hs.listeners⟩
  · exact (List.mem_append.1 he).elim (hs.unparted e) (hmore.unparted e)
  · rw [Session.opened_append, hs.opened, hmore.opened]
    rfl
  · rw [Session.closed_append, hs.closed, hmore.closed]
    rfl

/-- While the counter listens, all that matters is what comes after. -/
theorem attends_listening (hrest : rest = []) (hvalues : values = []) :
    Attends h before true rest values control :=
  ⟨hrest, hvalues, fun hnot => absurd hnot.symm Bool.false_ne_true⟩

/-- A lone counter listens except where listening begins and ends. -/
theorem Attends.counter_listens (hattends : Attends h before listens rest values control)
    (hbegin : ∀ duration, control ≠ .begin (.listen duration))
    (hgive : ∀ outcome, control ≠ .give outcome) : listens = true ∧ rest = [] ∧ values = [] := by
  cases listens with
  | true => exact ⟨rfl, hattends.1, hattends.2.1⟩
  | false =>
    rcases (hattends.2.2 rfl).2 with ⟨duration, hcontrol⟩ | ⟨outcome, hcontrol, _⟩
    · exact absurd hcontrol (hbegin duration)
    · exact absurd hcontrol (hgive outcome)

/-- A task that does its work. -/
structure Busy (work : List Action) (ring : Log.Ring) (base : List Log.Listener) (h : List Event)
    (l : State) (d : Handle) (before : List Frame) (listens : Bool) (rest : List Action)
    (values : List Value) (v : Value) (control : Control) : Prop where
  stands : Stands work ring base h l (.runs control (stack before listens rest values v))
  joined : Joined base l.session l.readers h d listens
  frames : ∀ frame ∈ before, IsBusy frame
  actions : ∀ action ∈ rest, IsWork action
  attends : Lone work base → Attends h before listens rest values control

/-- The work goes on with a step beside the connection. -/
theorem Busy.beside {side : Session.Sideline}
    (hb : Busy work ring base h l d before listens rest values v control)
    (hstep : l.sessionStep? ⟨0, control, stack before listens rest values v⟩ = some step)
    (hbeside : step.Beside l.session side) (hside : side = .sending ∨ side = .awaiting)
    (hcontrol : ∀ point signal, control = .signal point signal → point.sideline? ≠ none)
    (hbegin : ∀ duration, control ≠ .begin (.listen duration))
    (hgive : ∀ outcome, control ≠ .give outcome) :
    Advances work ring base h l ⟨0, control, stack before listens rest values v⟩ := by
  have hjoined := hb.joined.beside (State.beside_quiet hstep hbeside hcontrol) hbeside.outline
  have hlistens : Lone work base → listens = true ∧ rest = [] ∧ values = [] :=
    fun hlone => (hb.attends hlone).counter_listens hbegin hgive
  have hworks : ∀ control, Works (before = [] ∧ listens = false) control →
      Place work base step.session l.readers
        (h ++ l.deeds ⟨0, _, stack before listens rest values v⟩)
        (.runs control (stack before listens rest values v)) :=
    fun control hworks => .works v hjoined hb.frames hb.actions hworks fun hlone => by
      obtain ⟨hlistens, hrest, hvalues⟩ := hlistens hlone
      rw [hlistens]
      exact attends_listening hrest hvalues
  have hrests : ∀ point awaited, (point.sideline? = some .sending ∨
      point.sideline? = some .awaiting) → Place work base step.session l.readers
        (h ++ l.deeds ⟨0, _, stack before listens rest values v⟩)
        (.waits (.session point :: stack before listens rest values v) awaited) :=
    fun point awaited hpoint => .rests v hjoined
      (List.forall_mem_cons.2 ⟨hpoint, hb.frames⟩) hb.actions hlistens
  have hpause := hbeside.pause
  refine hb.stands.absorb hstep (fun e he => .inl (hbeside.mild e he)) (fun n hn => ?_)
    fun next hleads => ?_
  · have hreader := hpause.reader_eq hn
    rw [hb.joined.reader] at hreader
    cases hreader
    exact hb.joined.wired
  · generalize step.pause = pause at hpause hleads
    cases hpause with
    | «over» result =>
      cases hleads with
      | «over» result => exact hworks _ trivial
    | writes device data =>
      cases hleads with
      | answered point _ => exact hworks _ (.inl rfl)
      | asks point _ _ => exact hrests _ _ (.inl rfl)
    | awaitsWriting data =>
      cases hleads with
      | awaitsTurn name point => exact hrests _ _ (.inl rfl)
    | reads device => rcases hside with hside | hside <;> cases hside
    | awaitsReading device => rcases hside with hside | hside <;> cases hside
    | watches hn =>
      cases hleads with
      | watched point _ => exact hworks _ (.inr rfl)
      | watches connection point => exact hrests _ _ (.inr rfl)

/-- The work goes on with something else, and the session is left as it is. -/
theorem Busy.runs {before' : List Frame} {control' : Control}
    (hb : Busy work ring base h l d before listens rest values v control)
    (hstep : l.sessionStep? ⟨0, control, stack before listens rest values v⟩ = none)
    (hgoes : l.Goes (Pardoned h) 0 (.runs control' (stack before' listens rest values v))
      (l.advance ⟨0, control, stack before listens rest values v⟩))
    (hframes : ∀ frame ∈ before', IsBusy frame)
    (hworks : Works (before' = [] ∧ listens = false) control')
    (hlistens : Lone work base → listens = true) :
    Advances work ring base h l ⟨0, control, stack before listens rest values v⟩ := by
  refine hb.stands.advance hstep hgoes hb.stands.orderly hb.stands.main.2 rfl rfl
    (.works v hb.joined hframes hb.actions hworks fun hlone => ?_)
  obtain ⟨hrest, hvalues, _⟩ := hb.attends hlone
  rw [hlistens hlone]
  exact attends_listening hrest hvalues

/-- The work goes on later, and the session is left as it is. -/
theorem Busy.rests {frame : Frame} {awaited : Awaited}
    (hb : Busy work ring base h l d before listens rest values v control)
    (hstep : l.sessionStep? ⟨0, control, stack before listens rest values v⟩ = none)
    (hgoes : l.Goes (Pardoned h) 0 (.waits (stack (frame :: before) listens rest values v) awaited)
      (l.advance ⟨0, control, stack before listens rest values v⟩))
    (hframe : IsBusy frame) (hlistens : Lone work base → listens = true) :
    Advances work ring base h l ⟨0, control, stack before listens rest values v⟩ :=
  hb.stands.advance hstep hgoes hb.stands.orderly hb.stands.main.2 rfl rfl
    (.rests v hb.joined (List.forall_mem_cons.2 ⟨hframe, hb.frames⟩) hb.actions fun hlone =>
      ⟨hlistens hlone, (hb.attends hlone).1, (hb.attends hlone).2.1⟩)

/-! ## The single things to do -/

section

variable {runner : Runner} {notes : Array Note} {announced : Array (Nat × Nat)}

/-- The runner takes no part in what a loop does. -/
theorem runner_tended : l.Tended (Pardoned h) { l with runner, notes, announced } :=
  ⟨rfl, rfl, rfl, rfl, fun _ => rfl,
    fun ho => ⟨ho.started, ho.uncancelled, ho.unwatched, ho.helps, ho.tells⟩⟩

end

theorem Busy.begin_run {script format ending : String}
    (hb : Busy work ring base h l d before listens rest values v
      (.begin (.run script format ending))) :
    Advances work ring base h l
      ⟨0, .begin (.run script format ending), stack before listens rest values v⟩ := by
  have hlistens : Lone work base → listens = true :=
    fun hlone => ((hb.attends hlone).counter_listens (fun _ h => by cases h)
      fun _ h => by cases h).1
  cases hstart : l.runner.start script format ending with
  | ok started =>
    obtain ⟨runner, job, note⟩ := started
    have hgoes : l.Goes (Pardoned h) 0
        (.runs (.turn job job.plan.start) (stack before listens rest values v))
        (l.advance ⟨0, .begin (.run script format ending), stack before listens rest values v⟩) := by
      simp only [State.advance, State.begin, hstart]
      exact (State.goOn_goes _ 0 _ _).tend runner_tended
    exact hb.runs rfl hgoes hb.frames (by trivial) hlistens
  | error fault =>
    have hgoes : l.Goes (Pardoned h) 0
        (.runs (.give (.error fault)) (stack before listens rest values v))
        (l.advance ⟨0, .begin (.run script format ending), stack before listens rest values v⟩) := by
      simp only [State.advance, State.begin, hstart]
      exact State.goOn_goes l 0 _ _
    exact hb.runs rfl hgoes hb.frames (by trivial) hlistens

theorem Busy.begin_sleep {seconds : Double}
    (hb : Busy work ring base h l d before listens rest values v (.begin (.sleep seconds))) :
    Advances work ring base h l
      ⟨0, .begin (.sleep seconds), stack before listens rest values v⟩ := by
  have hgoes : l.Goes (Pardoned h) 0
      (.waits (stack (.sleeping :: before) listens rest values v) .time)
      (l.advance ⟨0, .begin (.sleep seconds), stack before listens rest values v⟩) := by
    simp only [State.advance, State.begin]
    split
    · exact State.suspendFor_goes l 0 _ _ _
    · exact (State.suspend_goes l 0 _ _).then (State.wake_tended fun _ => trivial)
  exact hb.rests rfl hgoes trivial fun hlone => ((hb.attends hlone).counter_listens (fun _ h => by cases h)
    fun _ h => by cases h).1

theorem Busy.begin_listen {duration : Option Double}
    (hb : Busy work ring base h l d [] false rest values v (.begin (.listen duration))) :
    Advances work ring base h l
      ⟨0, .begin (.listen duration), stack [] false rest values v⟩ := by
  have ho := hb.stands.orderly
  have hlistens : Joined base { l.session with log := l.session.log.subscribe counter } l.readers h
      d true := by
    refine ⟨hb.joined.phase, hb.joined.device, hb.joined.lock, hb.joined.reader, hb.joined.wired,
      hb.joined.going, hb.joined.unparted, hb.joined.opened, hb.joined.closed, ?_⟩
    exact (List.append_nil base ▸ hb.joined.listeners).append_right [counter]
  have hsubscribed : { l with session :=
      { l.session with log := l.session.log.subscribe counter } }.Orderly (Pardoned h) :=
    ⟨ho.started, ho.uncancelled, ho.unwatched, ho.helps, ho.tells⟩
  have hlone : Lone work base → rest = [] ∧ values = [] :=
    fun hlone => ⟨(hb.attends hlone).1, (hb.attends hlone).2.1⟩
  cases duration with
  | none =>
    refine hb.stands.advance rfl (State.goOn_goes _ 0 (.begin .waitClosed)
      (stack [] true rest values v)) hsubscribed hb.stands.main.2 rfl rfl
      (.works v hlistens (List.forall_mem_nil _) hb.actions trivial fun h => ?_)
    exact attends_listening (hlone h).1 (hlone h).2
  | some seconds =>
    -- the wait for the end of reading is a bystander
    have hne : l.tasks.size ≠ 0 := Nat.ne_of_gt ho.started
    have hspawned : { l with session :=
        { l.session with log := l.session.log.subscribe counter } }.Tended (Pardoned h)
        ({ l with session := { l.session with log := l.session.log.subscribe counter }
          }.spawnAction .waitClosed).1 :=
      State.spawn_tended trivial
    have hrests : ∀ frame, IsBusy frame → Place work base
        { l.session with log := l.session.log.subscribe counter } l.readers h
        (.waits (stack [frame] true rest values v) (.endOf l.tasks.size)) :=
      fun frame hframe => .rests v hlistens
        (List.forall_mem_singleton.2 hframe) hb.actions fun h => ⟨rfl, hlone h⟩
    by_cases hpositive : seconds.isPositive = true
    · refine hb.stands.advance rfl ?_ hsubscribed hb.stands.main.2 rfl rfl
        (hrests (.timed l.tasks.size) hne)
      simp only [State.advance, State.begin, State.listen, hpositive, if_true]
      exact ((State.suspendFor_goes _ 0 _ _ _).tend hspawned).then (State.watch_tended hne false)
    · refine hb.stands.advance rfl ?_ hsubscribed hb.stands.main.2 rfl rfl
        (hrests (.abandoning l.tasks.size none) hne)
      simp only [State.advance, State.begin, State.listen, hpositive]
      exact (((State.suspend_goes _ 0 _ _).tend (State.cancel_tended hne
        (hspawned.orderly hsubscribed))).tend hspawned).then (State.watch_tended hne false)

/-- A script takes its turn. -/
theorem Busy.turns {job : Job} {turn : Script.Turn}
    (hb : Busy work ring base h l d before listens rest values v (.turn job turn)) :
    Advances work ring base h l ⟨0, .turn job turn, stack before listens rest values v⟩ := by
  have hlistens : Lone work base → listens = true :=
    fun hlone => ((hb.attends hlone).counter_listens (fun _ h => by cases h)
      fun _ h => by cases h).1
  cases turn with
  | finished outcome =>
    exact hb.runs rfl ((State.goOn_goes _ 0 (.give (outcome.map .tally))
      (stack before listens rest values v)).tend runner_tended) hb.frames trivial hlistens
  | asks request stage p =>
    have hanswering : ∀ frame ∈ .answering job stage p :: before, IsBusy frame :=
      List.forall_mem_cons.2 ⟨trivial, hb.frames⟩
    cases request with
    | poll =>
      exact hb.runs rfl (State.goOn_goes l 0 (.turn job (job.plan.resume stage p
        (.stop l.runner.stopRequested))) (stack before listens rest values v)) hb.frames trivial
        hlistens
    | announce position total =>
      exact hb.runs rfl ((State.goOn_goes _ 0 (.turn job (job.plan.resume stage p .done))
        (stack before listens rest values v)).tend runner_tended) hb.frames trivial hlistens
    | send value =>
      exact hb.runs rfl (State.goOn_goes l 0 (.begin (.sendData value job.format job.ending))
        (stack (.answering job stage p :: before) listens rest values v)) hanswering trivial
        hlistens
    | sleep seconds =>
      exact hb.runs rfl (State.goOn_goes l 0 (.begin (.sleep seconds))
        (stack (.answering job stage p :: before) listens rest values v)) hanswering trivial
        hlistens

/-! ## What the outcomes of the work are handed to -/

/-- The innermost thing that is under way gets an outcome. -/
theorem Busy.gives {frame : Frame} {outcome : Outcome}
    (hb : Busy work ring base h l d (frame :: before) listens rest values v (.give outcome)) :
    Advances work ring base h l
      ⟨0, .give outcome, stack (frame :: before) listens rest values v⟩ := by
  have hlistens : Lone work base → listens = true := by
    intro hlone
    cases listens with
    | true => rfl
    | false => cases ((hb.attends hlone).2.2 rfl).1
  obtain ⟨hframe, hframes⟩ := List.forall_mem_cons.1 hb.frames
  have hpasses : l.advance ⟨0, .give outcome, stack (frame :: before) listens rest values v⟩ =
      l.goOn 0 (.give outcome) (stack before listens rest values v) →
      Advances work ring base h l
        ⟨0, .give outcome, stack (frame :: before) listens rest values v⟩ := by
    intro hadvance
    have hgoes : l.Goes (Pardoned h) 0 (.runs (.give outcome) (stack before listens rest values v))
        (l.advance ⟨0, .give outcome, stack (frame :: before) listens rest values v⟩) := by
      rw [hadvance]
      exact State.goOn_goes l 0 _ _
    exact hb.runs rfl hgoes hframes (by trivial) hlistens
  cases frame with
  | session point => exact hpasses rfl
  | sleeping => exact hpasses rfl
  | timed other => exact hpasses rfl
  | abandoning other fault => exact hpasses rfl
  | answering job stage p =>
    exact hb.runs rfl (State.goOn_goes l 0 (.turn job (job.plan.resume stage p _))
      (stack before listens rest values v)) hframes trivial hlistens
  | _ => exact hframe.elim

/-- When listening stops, the counter is no longer registered, and if all was well the outcome is the
number of entries that it has heard of. -/
theorem stopListening_eq (l : State) (outcome : Outcome) : ∃ counted,
    l.stopListening outcome =
      ({ l with session := { l.session with log := l.session.log.unsubscribe counter } }, counted) ∧
    Counts l.countReceived counted := by
  unfold State.stopListening
  dsimp only
  split
  · exact ⟨_, rfl, fun _ h => by cases h⟩
  · split
    · exact ⟨_, rfl, fun _ h => by cases h⟩
    · refine ⟨_, rfl, ?_⟩
      rintro _ ⟨⟩
      rfl

theorem Busy.stops_listening {outcome : Outcome}
    (hb : Busy work ring base h l d [] true rest values v (.give outcome)) :
    Advances work ring base h l ⟨0, .give outcome, stack [] true rest values v⟩ := by
  have ho := hb.stands.orderly
  obtain ⟨counted, hstopped, hcounts⟩ := stopListening_eq l outcome
  have hjoined : Joined base { l.session with log := l.session.log.unsubscribe counter } l.readers h
      d false := by
    refine ⟨hb.joined.phase, hb.joined.device, hb.joined.lock, hb.joined.reader, hb.joined.wired,
      hb.joined.going, hb.joined.unparted, hb.joined.opened, hb.joined.closed, ?_⟩
    have herased := (hb.joined.listeners.trans List.perm_append_comm).erase counter
    rw [show counting true ++ base = counter :: base from rfl, List.erase_cons_head] at herased
    exact (List.append_nil base).symm ▸ herased
  have hadvance : l.advance ⟨0, .give outcome, stack [] true rest values v⟩ =
      { l with session := { l.session with log := l.session.log.unsubscribe counter } }.goOn 0
        (.give counted) (stack [] false rest values v) :=
    congrArg (fun p => p.1.goOn 0 (.give p.2) (stack [] false rest values v)) hstopped
  have hgoes : { l with session :=
      { l.session with log := l.session.log.unsubscribe counter } }.Goes (Pardoned h) 0
        (.runs (.give counted) (stack [] false rest values v))
        (l.advance ⟨0, .give outcome, stack [] true rest values v⟩) := by
    rw [hadvance]
    exact State.goOn_goes _ 0 _ _
  refine hb.stands.advance rfl hgoes ?_ hb.stands.main.2 rfl rfl ?_
  · exact ⟨ho.started, ho.uncancelled, ho.unwatched, ho.helps, ho.tells⟩
  · refine .works v hjoined (List.forall_mem_nil _) hb.actions trivial fun hlone => ?_
    have hreceived := hb.stands.ledger.counted hlone hlone.2
    exact ⟨(hb.attends hlone).1, (hb.attends hlone).2.1, fun _ =>
      ⟨rfl, .inr ⟨_, rfl, fun v hv => (hcounts v hv).trans (congrArg Value.count hreceived)⟩⟩⟩

/-- One piece of the work is done, or has failed: the next one begins, or the disconnect. -/
theorem Busy.next_action {outcome : Outcome}
    (hb : Busy work ring base h l d [] false rest values v (.give outcome)) :
    Advances work ring base h l ⟨0, .give outcome, stack [] false rest values v⟩ := by
  have hleaves : ∀ kept, (Lone work base → Keeps (received h) kept) →
      l.advance ⟨0, .give outcome, stack [] false rest values v⟩ =
        l.goOn 0 (.begin .disconnect) [.leaving kept, .inOrder [] [v]] →
      Advances work ring base h l ⟨0, .give outcome, stack [] false rest values v⟩ := by
    intro kept hkeeps hadvance
    refine hb.stands.advance rfl ?_ hb.stands.orderly hb.stands.main.2 rfl rfl
      (.leaves v hb.joined hkeeps)
    rw [hadvance]
    exact State.goOn_goes l 0 _ _
  cases outcome with
  | error fault => exact hleaves (.error fault) (fun _ _ h => by cases h) rfl
  | ok value =>
    cases rest with
    | nil =>
      refine hleaves (.ok (.many (value :: values).reverse)) (fun hlone => ?_) rfl
      obtain ⟨_, hvalues, hgives⟩ := hb.attends hlone
      rcases (hgives rfl).2 with ⟨_, hcontrol⟩ | ⟨outcome, hcontrol, hcounts⟩
      · cases hcontrol
      · cases hcontrol
        rintro _ ⟨⟩
        rw [hvalues, hcounts value rfl]
        rfl
    | cons action rest =>
      obtain ⟨hfirst, hrest⟩ := List.forall_mem_cons.1 hb.actions
      refine hb.stands.advance rfl (State.goOn_goes l 0 (.begin action)
        (stack [] false rest (value :: values) v)) hb.stands.orderly hb.stands.main.2 rfl rfl
        (.works v hb.joined (List.forall_mem_nil _) hrest ?_ fun hlone => by
          cases (hb.attends hlone).1)
      cases action with
      | listen duration => exact ⟨rfl, rfl⟩
      | run script format ending => trivial
      | sendData data format ending => trivial
      | sleep seconds => trivial
      | _ => exact hfirst.elim

/-- A task that does its work takes a step. -/
theorem Busy.advances (hb : Busy work ring base h l d before listens rest values v control)
    (hworks : Works (before = [] ∧ listens = false) control) :
    Advances work ring base h l ⟨0, control, stack before listens rest values v⟩ := by
  cases control with
  | begin action =>
    cases action with
    | listen duration =>
      obtain ⟨rfl, rfl⟩ := hworks
      exact hb.begin_listen
    | run script format ending => exact hb.begin_run
    | sleep seconds => exact hb.begin_sleep
    | sendData data format ending =>
      have hstep : l.sessionStep? ⟨0, .begin (.sendData data format ending),
          stack before listens rest values v⟩ =
            some (l.session.beginSendData (l.task 0).caller data format ending) := by
        simp only [State.sessionStep?]
      exact hb.beside hstep (Session.beginSendData_beside l.session _ data format ending)
        (.inl rfl) (fun _ _ h => by cases h) (fun _ h => by cases h) fun _ h => by cases h
    | waitClosed =>
      have hstep : l.sessionStep? ⟨0, .begin .waitClosed, stack before listens rest values v⟩ =
          some l.session.beginWaitClosed := by
        simp only [State.sessionStep?]
      exact hb.beside hstep (Session.beginWaitClosed_beside l.session) (.inr rfl)
        (fun _ _ h => by cases h) (fun _ h => by cases h) fun _ h => by cases h
    | _ => exact hworks.elim
  | readLoop device => exact hworks.elim
  | signal point signal =>
    rcases hworks with hside | hside
    · refine hb.beside rfl (Session.resume_beside l.session _ signal hside) (.inl rfl) ?_
        (fun _ h => by cases h) fun _ h => by cases h
      rintro _ _ ⟨⟩ hnone
      cases hnone.symm.trans hside
    · refine hb.beside rfl (Session.resume_beside l.session _ signal hside) (.inr rfl) ?_
        (fun _ h => by cases h) fun _ h => by cases h
      rintro _ _ ⟨⟩ hnone
      cases hnone.symm.trans hside
  | turn job turn => exact hb.turns
  | give outcome =>
    cases before with
    | cons frame before => exact hb.gives
    | nil =>
      cases listens with
      | true => exact hb.stops_listening
      | false => exact hb.next_action

end SerialConsole.Loop.Errand
