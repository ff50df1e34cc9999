import SerialConsole.Proofs.Loop.Bookkeeping

set_option autoImplicit false

/-!
# How a task goes on

A task that takes a step runs on, waits or is over (`Next`). `Goes` says that this is all that
happened, bookkeeping apart. What comes next is read off the pause of a step of the session
(`Leads`) or off what a waiting task has still to do (`Resumes`).
-/
namespace SerialConsole.Loop

/-- What a task does next. -/
inductive Next where
  | runs (control : Control) (frames : List Frame)
  | waits (frames : List Frame) (awaited : Awaited)
  | over (outcome : Outcome)

namespace Next

def active (n : Nat) : Next → Option Active
  | .runs control frames => some ⟨n, control, frames⟩
  | _ => none

/-- What can be seen of the task then, if it had some result before. -/
def Shows (result : Option Outcome) (gist : Gist) : Next → Prop
  | .runs _ _ => gist.result = result
  | .waits frames awaited => gist = ⟨frames, some awaited, result⟩
  | .over outcome => gist = ⟨[], none, some outcome⟩

/-- What a bystander does next. -/
def Helps (P : Fault → Prop) (reads : Prop) : Next → Prop
  | .runs control frames => control.Helps P reads ∧ frames = []
  | .waits frames awaited =>
    (∃ point, frames = [.session point] ∧ Point.Helps reads point) ∧ awaited.Helps
  | .over outcome => Outcome.Within P outcome

end Next

/-- Waits for an answer of the device. -/
def Awaited.IsDevice : Awaited → Prop
  | .gate _ _ | .input | .answer _ => True
  | _ => False

/-- A reply that fits a call: a request gets a device or a fault. -/
def Fits : DeviceCall → Reply → Prop
  | .request _, .device _ | .request _, .failed _ => True
  | .request _, _ => False
  | _, _ => True

/-- What a task does next when its step of the session pauses. -/
inductive Leads (l : State) (frames : List Frame) : Session.Pause → Next → Prop where
  | over (result : Except Fault Session.Result) :
    Leads l frames (.over result) (.runs (.give (result.map valueOf)) frames)
  | answered {request : DeviceCall} (point : Session.Point) {reply : Reply} :
    Fits request reply →
    Leads l frames (.askDevice request point) (.runs (.signal point (.reply reply)) frames)
  | asks {request : DeviceCall} (point : Session.Point) {awaited : Awaited} :
    (∀ hint, request ≠ .request hint) → awaited.IsDevice →
    Leads l frames (.askDevice request point) (.waits (.session point :: frames) awaited)
  | awaitsTurn (name : LockName) (point : Session.Point) :
    Leads l frames (.awaitTurn name point) (.waits (.session point :: frames) .turn)
  | awaitsEnd (connection : Nat) (point : Session.Point) :
    Leads l frames (.awaitEndOfReading connection point)
      (.waits (.session point :: frames) (.endOf (l.readers.getD connection 0)))
  | joined {connection : Nat} (point : Session.Point) {outcome : Outcome} :
    l.resultOf (l.readers.getD connection 0) = some outcome →
    Leads l frames (.joinReader connection point)
      (.runs (.signal point (.joined (outcome.map fun _ => .nothing))) frames)
  | joins (connection : Nat) (point : Session.Point) :
    Leads l frames (.joinReader connection point)
      (.waits (.session point :: frames) (.resultOf (l.readers.getD connection 0)))
  | watched {connection : Nat} (point : Session.Point) {outcome : Outcome} :
    l.resultOf (l.readers.getD connection 0) = some outcome →
    Leads l frames (.watchReader connection point)
      (.runs (.signal point (.joined (outcome.map fun _ => .nothing))) frames)
  | watches (connection : Nat) (point : Session.Point) :
    Leads l frames (.watchReader connection point)
      (.waits (.session point :: frames) (.endOf (l.readers.getD connection 0)))

namespace State

/-- A task goes on, and all else is bookkeeping. -/
structure Goes (P : Fault → Prop) (l : State) (n : Nat) (next : Next) (after : State) : Prop where
  session : after.session = l.session
  readers : after.readers = l.readers
  heard : after.heard = l.heard
  active : after.active = next.active n
  others : ∀ m, m ≠ n → (after.task m).gist = (l.task m).gist
  own : l.Orderly P → n = 0 → next.Shows (l.task 0).result (after.task 0).gist
  orderly : l.Orderly P → (n ≠ 0 → next.Helps P (0 < l.readers.size)) → after.Orderly P

end State

section

variable {P : Fault → Prop} {l middle after : State} {n : Nat} {next : Next} {frames : List Frame}

namespace State

theorem Goes.tend (h : middle.Goes P n next after) (htended : l.Tended P middle) :
    l.Goes P n next after := by
  refine ⟨h.session.trans htended.session, h.readers.trans htended.readers,
    h.heard.trans htended.heard, h.active, fun m hm => (h.others m hm).trans (htended.gist m),
    fun ho hn => ?_, fun ho hhelps => ?_⟩
  · have hresult : (middle.task 0).result = (l.task 0).result :=
      congrArg Gist.result (htended.gist 0)
    exact hresult ▸ h.own (htended.orderly ho) hn
  · exact h.orderly (htended.orderly ho) (htended.readers ▸ hhelps)

theorem Goes.then (h : l.Goes P n next middle) (htended : middle.Tended P after) :
    l.Goes P n next after :=
  ⟨htended.session.trans h.session, htended.readers.trans h.readers, htended.heard.trans h.heard,
    htended.active.trans h.active, fun m hm => (htended.gist m).trans (h.others m hm),
    fun ho hn => (htended.gist 0).symm ▸ h.own ho hn,
    fun ho hhelps => htended.orderly (h.orderly ho hhelps)⟩

theorem goOn_goes (l : State) (n : Nat) (control : Control) (frames : List Frame) :
    l.Goes P n (.runs control frames) (l.goOn n control frames) :=
  ⟨rfl, rfl, rfl, rfl, fun _ _ => rfl, fun _ _ => rfl,
    fun ho _ => ⟨ho.started, ho.uncancelled, ho.unwatched, ho.helps, ho.tells⟩⟩

theorem suspend_goes (l : State) (n : Nat) (frames : List Frame) (awaited : Awaited) :
    l.Goes P n (.waits frames awaited) (l.suspend n frames awaited) := by
  have htask : ∀ m, (l.suspend n frames awaited).task m = if m = n ∧ m < l.tasks.size then
      { l.task m with frames, wait := some { ticket := l.tickets, awaited } } else l.task m :=
    fun m => task_modifyTask l n m _
  refine ⟨rfl, rfl, rfl, rfl, fun m hm => ?_, fun ho hn => ?_, fun ho hhelps => ⟨?_, ?_, ?_, ?_, ?_⟩⟩
  · rw [htask, if_neg fun h => hm h.1]
  · rw [htask, if_pos ⟨hn.symm, ho.started⟩]
    rfl
  · exact (size_modifyTask l n _).symm ▸ ho.started
  · rw [htask]
    split
    · exact ho.uncancelled
    · exact ho.uncancelled
  · rw [htask]
    split
    · exact ho.unwatched
    · exact ho.unwatched
  · intro m hm
    rw [htask]
    split
    case isFalse => exact ho.helps m hm
    case isTrue h =>
      obtain ⟨⟨point, hframes, hpoint⟩, hawaited⟩ := hhelps (h.1 ▸ hm)
      refine ⟨(ho.helps m hm).first, .inr ⟨point, hframes, hpoint⟩, fun wait hwait => ?_,
        (ho.helps m hm).result⟩
      cases hwait
      exact hawaited
  · exact ho.tells

theorem suspendFor_goes (l : State) (n : Nat) (frames : List Frame) (awaited : Awaited)
    (seconds : Double) :
    l.Goes P n (.waits frames awaited) (l.suspendFor n frames awaited seconds) :=
  (suspend_goes l n frames awaited).then
    ⟨rfl, rfl, rfl, rfl, fun _ => rfl,
      fun ho => ⟨ho.started, ho.uncancelled, ho.unwatched, ho.helps, ho.tells⟩⟩

/-- Those who watch a task are told of its end. -/
theorem watchers_tended (watchers : List Watcher) {outcome : Outcome}
    (h : Outcome.Within P outcome) :
    l.Tended P (watchers.foldl (fun l watcher =>
      if watcher.direct then l.wake watcher.task (.result outcome)
      else l.enqueue (.settle watcher.task watcher.ticket (.result outcome))) l) := by
  induction watchers generalizing l with
  | nil => exact .refl l
  | cons watcher rest ih =>
    refine Tended.trans ?_ ih
    dsimp only
    split
    · exact wake_tended fun _ => h
    · exact enqueue_tended fun _ => h

theorem endTask_goes (ho : l.Orderly P) {outcome : Outcome}
    (h : n ≠ 0 → Outcome.Within P outcome) :
    l.Goes P n (.over outcome) (l.endTask n outcome) := by
  have htask : ∀ m, (l.modifyTask n fun t => { t with
      result := some outcome, watchers := [], frames := [], wait := none }).task m =
      if m = n ∧ m < l.tasks.size then { l.task m with
        result := some outcome, watchers := [], frames := [], wait := none } else l.task m :=
    fun m => task_modifyTask l n m _
  have hmarked : l.Goes P n (.over outcome) { l.modifyTask n fun t => { t with
      result := some outcome, watchers := [], frames := [], wait := none } with active := none } := by
    refine ⟨rfl, rfl, rfl, rfl, fun m hm => ?_, fun ho hn => ?_, fun ho _ =>
      ⟨(size_modifyTask l n _).symm ▸ ho.started, ?_, ?_, fun m hm => ?_, ho.tells⟩⟩
    · exact congrArg Task.gist ((htask m).trans (if_neg fun h => hm h.1))
    · exact congrArg Task.gist ((htask 0).trans (if_pos ⟨hn.symm, ho.started⟩))
    · refine (congrArg Task.mustCancel (htask 0)).trans ?_
      split <;> exact ho.uncancelled
    · refine (congrArg Task.watchers (htask 0)).trans ?_
      split
      · rfl
      · exact ho.unwatched
    · refine (htask m).symm ▸ ?_
      split
      case isFalse => exact ho.helps m hm
      case isTrue hmn =>
        exact ⟨(ho.helps m hm).first, .inl rfl, nofun, fun o hresult =>
          Option.some.inj hresult ▸ h (hmn.1 ▸ hm)⟩
  have htold : ∀ middle : State, middle.Tended P ((l.task n).watchers.foldl (fun l watcher =>
      if watcher.direct then l.wake watcher.task (.result outcome)
      else l.enqueue (.settle watcher.task watcher.ticket (.result outcome))) middle) := by
    intro middle
    by_cases hn : n = 0
    · rw [hn, ho.unwatched]
      exact .refl middle
    · exact watchers_tended _ (h hn)
  have hinterrupts : ∀ (middle : State) (fault : Option Fault),
      middle.Tended P { middle with interrupted := fault } := fun middle fault =>
    ⟨rfl, rfl, rfl, rfl, fun _ => rfl,
      fun ho => ⟨ho.started, ho.uncancelled, ho.unwatched, ho.helps, ho.tells⟩⟩
  refine (hmarked.then (htold _)).then ?_
  unfold endTask
  dsimp only
  split
  · split
    · exact .refl _
    · exact hinterrupts _ _
  · exact .refl _

end State

/-! ## Steps of the session -/

/-- A platform answers a request at once. -/
theorem Platform.call_request (platform : Platform) (hint : Option String) :
    ∃ reply, (platform.call (.request hint)).2 = .answered reply ∧
      Fits (.request hint) reply := by
  cases platform with
  | scripted device =>
    by_cases h : device.present = true
    · exact ⟨_, rfl, by simp [h, Fits]⟩
    · exact ⟨_, rfl, by simp [h, Fits]⟩
  | simulated line =>
    simp only [Platform.call, SimulatedLine.call]
    split
    · exact ⟨_, rfl, trivial⟩
    · exact ⟨_, rfl, trivial⟩

namespace State

theorem askDevice_goes (l : State) (n : Nat) (frames : List Frame) (request : DeviceCall)
    (point : Session.Point) :
    ∃ next, Leads l frames (.askDevice request point) next ∧
      l.Goes P n next (l.askDevice n frames request point) := by
  have hplatform : l.Tended P { l with platform := (l.platform.call request).1 } :=
    ⟨rfl, rfl, rfl, rfl, fun _ => rfl,
      fun ho => ⟨ho.started, ho.uncancelled, ho.unwatched, ho.helps, ho.tells⟩⟩
  -- only an answer can come at once for a request
  have hrequest : (∃ reply, (l.platform.call request).2 = .answered reply ∧ Fits request reply) ∨
      ∀ hint, request ≠ .request hint := by
    cases request with
    | request hint => exact .inl (l.platform.call_request hint)
    | _ => exact .inr nofun
  have hlater : ∀ awaited : Awaited, awaited.IsDevice →
      (∀ reply, (l.platform.call request).2 ≠ .answered reply) →
      Leads l frames (.askDevice request point) (.waits (.session point :: frames) awaited) := by
    intro awaited hdevice hnever
    refine .asks point (fun hint heq => ?_) hdevice
    rcases hrequest with ⟨reply, hreply, _⟩ | hnot
    · exact hnever reply hreply
    · exact hnot hint heq
  unfold askDevice
  dsimp only
  cases hresponse : (l.platform.call request).2 with
  | answered reply =>
    have hfits : Fits request reply := by
      rcases hrequest with ⟨answer, hanswer, hfits⟩ | hnot
      · rw [hresponse] at hanswer
        cases hanswer
        exact hfits
      · cases request with
        | request hint => exact absurd rfl (hnot hint)
        | _ => trivial
    exact ⟨_, .answered point hfits,
      ((goOn_goes _ n _ frames).tend hplatform).then offerInput_tended⟩
  | held gate =>
    exact ⟨_, hlater (.gate gate request) trivial (by rw [hresponse]; exact nofun),
      ((suspend_goes _ n _ _).tend hplatform).then offerInput_tended⟩
  | idle =>
    exact ⟨_, hlater .input trivial (by rw [hresponse]; exact nofun),
      ((suspend_goes _ n _ _).tend hplatform).then offerInput_tended⟩
  | after seconds reply =>
    exact ⟨_, hlater (.answer reply) trivial (by rw [hresponse]; exact nofun),
      ((suspendFor_goes _ n _ _ _).tend hplatform).then offerInput_tended⟩

theorem resultOf_eq (l : State) (n : Nat) : l.resultOf n = (l.task n).gist.result :=
  rfl

theorem Tended.resultOf (h : l.Tended P after) (n : Nat) : after.resultOf n = l.resultOf n := by
  rw [resultOf_eq, resultOf_eq, h.gist]

end State

theorem Leads.tended {pause : Session.Pause} (h : Leads middle frames pause next)
    (hreaders : middle.readers = l.readers) (hresult : ∀ n, middle.resultOf n = l.resultOf n) :
    Leads l frames pause next := by
  cases h with
  | «over» result => exact .over result
  | answered point hfits => exact .answered point hfits
  | asks point hnot hdevice => exact .asks point hnot hdevice
  | awaitsTurn name point => exact .awaitsTurn name point
  | awaitsEnd connection point => exact hreaders ▸ .awaitsEnd connection point
  | joined point houtcome =>
    rw [hresult, hreaders] at houtcome
    exact .joined point houtcome
  | joins connection point => exact hreaders ▸ .joins connection point
  | watched point houtcome =>
    rw [hresult, hreaders] at houtcome
    exact .watched point houtcome
  | watches connection point => exact hreaders ▸ .watches connection point

namespace State

/-- A task takes over a step of the session: the session is the one of the step, what is logged is
told to those who listen, and the task goes on as the pause says. -/
theorem absorb_goes (ho : l.Orderly P) (n : Nat) (frames : List Frame) {step : Session.Step}
    (heffects : ∀ e ∈ step.effects, e.isMild = true ∨
      ∃ connection, e = .cancelReader connection ∧ l.readers.getD connection 0 ≠ 0)
    (hreader : ∀ connection, step.pause.reader? = some connection →
      l.readers.getD connection 0 ≠ 0) :
    ∃ next, Leads l frames step.pause next ∧
      { l with session := step.session, heard := l.heard ++ (told step.effects).toArray }.Goes P n
        next (l.absorb n frames step) := by
  have htended := effects_tended
    (l := { l with session := step.session, active := none })
    ⟨ho.started, ho.uncancelled, ho.unwatched, ho.helps, ho.tells⟩ heffects
  generalize hmiddle : step.effects.foldl effect
    { l with session := step.session, active := none } = middle at htended
  have hreaders : middle.readers = l.readers := htended.readers
  have hresult : ∀ n, middle.resultOf n = l.resultOf n := htended.resultOf
  have hgoes : ∀ {next after}, middle.Goes P n next after →
      { l with session := step.session, heard := l.heard ++ (told step.effects).toArray }.Goes P n
        next after := by
    intro next after h
    have hold := h.tend htended
    exact ⟨hold.session, hold.readers, hold.heard, hold.active, hold.others,
      fun ho hn => hold.own ⟨ho.started, ho.uncancelled, ho.unwatched, ho.helps, ho.tells⟩ hn,
      fun ho h => hold.orderly ⟨ho.started, ho.uncancelled, ho.unwatched, ho.helps, ho.tells⟩ h⟩
  unfold absorb
  dsimp only
  rw [hmiddle]
  cases hpause : step.pause with
  | «over» result => exact ⟨_, .over result, hgoes (goOn_goes _ n _ frames)⟩
  | askDevice request point =>
    obtain ⟨next, hleads, hnext⟩ := askDevice_goes (P := P) middle n frames request point
    exact ⟨next, hleads.tended hreaders hresult, hgoes hnext⟩
  | awaitTurn name point => exact ⟨_, .awaitsTurn name point, hgoes (suspend_goes _ n _ _)⟩
  | awaitEndOfReading connection point =>
    have hne : middle.readers.getD connection 0 ≠ 0 := by
      rw [hreaders]
      exact hreader connection (by rw [hpause]; rfl)
    exact ⟨_, .tended (.awaitsEnd connection point) hreaders hresult,
      hgoes ((suspendFor_goes _ n _ _ _).then (watch_tended hne false))⟩
  | joinReader connection point =>
    have hne : middle.readers.getD connection 0 ≠ 0 := by
      rw [hreaders]
      exact hreader connection (by rw [hpause]; rfl)
    dsimp only
    split
    case h_1 outcome houtcome =>
      exact ⟨_, .tended (.joined point houtcome) hreaders hresult, hgoes (goOn_goes _ n _ frames)⟩
    case h_2 =>
      exact ⟨_, .tended (.joins connection point) hreaders hresult,
        hgoes ((suspend_goes _ n _ _).then (watch_tended hne true))⟩
  | watchReader connection point =>
    have hne : middle.readers.getD connection 0 ≠ 0 := by
      rw [hreaders]
      exact hreader connection (by rw [hpause]; rfl)
    dsimp only
    split
    case h_1 outcome houtcome =>
      exact ⟨_, .tended (.watched point houtcome) hreaders hresult, hgoes (goOn_goes _ n _ frames)⟩
    case h_2 =>
      exact ⟨_, .tended (.watches connection point) hreaders hresult,
        hgoes ((suspend_goes _ n _ _).then (watch_tended hne false))⟩

end State

/-! ## Waits that are over -/

/-- What a waiting task does next, by what it was told, what it waited for and what it has still to
do. -/
inductive Resumes (result : Nat → Option Outcome) : Awaited → Tell → List Frame → Next → Prop where
  | cancelled {awaited : Awaited} (point : Session.Point) (frames : List Frame) :
    Resumes result awaited .cancelled (.session point :: frames)
      (.runs (.signal point .cancelled) frames)
  | turn {awaited : Awaited} {tell : Tell} (point : Session.Point) (frames : List Frame) :
    awaited = .turn ∨ awaited = .time →
    Resumes result awaited tell (.session point :: frames) (.runs (.signal point .turn) frames)
  | replied {awaited : Awaited} {tell : Tell} (point : Session.Point) (frames : List Frame)
      (reply : Reply) : awaited.IsDevice →
    Resumes result awaited tell (.session point :: frames)
      (.runs (.signal point (.reply reply)) frames)
  | nothingYet {tell : Tell} (point : Session.Point) (frames : List Frame) :
    Resumes result .input tell (.session point :: frames)
      (.waits (.session point :: frames) .input)
  | closed {task : Nat} {tell : Tell} (frames : List Frame) {outcome : Outcome} :
    outcome = .ok .nothing ∨ result task = some outcome →
    Resumes result (.endOf task) tell (.session .closed :: frames)
      (.runs (.signal .closed (.joined (outcome.map fun _ => .nothing))) frames)
  | readingEnded {task : Nat} {tell : Tell} (point : Session.Point) (frames : List Frame)
      (inTime : Bool) :
    Resumes result (.endOf task) tell (.session point :: frames)
      (.runs (.signal point (.readingEnded inTime)) frames)
  | joined {task : Nat} {tell : Tell} (point : Session.Point) (frames : List Frame)
      {outcome : Outcome} :
    tell = .result outcome ∨ outcome = .ok .nothing ∨ result task = some outcome →
    Resumes result (.resultOf task) tell (.session point :: frames)
      (.runs (.signal point (.joined (outcome.map fun _ => .nothing))) frames)
  | gives {awaited : Awaited} {tell : Tell} {frame : Frame} (frames : List Frame)
      (outcome : Outcome) : (∀ point, frame ≠ .session point) →
    Resumes result awaited tell (frame :: frames) (.runs (.give outcome) frames)
  | abandons {awaited : Awaited} {tell : Tell} {other : Nat} (frames : List Frame)
      (fault : Option Fault) :
    Resumes result awaited tell (.timed other :: frames)
      (.waits (.abandoning other fault :: frames) (.endOf other))
  | nothingLeft {awaited : Awaited} {tell : Tell} (frames : List Frame) :
    (∀ point rest, frames ≠ .session point :: rest) →
    Resumes result awaited tell frames (.runs (.give (.ok .nothing)) frames)

namespace State

/-- The outcome of a task, or nothing if it has none. -/
theorem outcome_cases (l : State) (task : Nat) :
    (l.resultOf task).getD (.ok .nothing) = .ok .nothing ∨
      l.resultOf task = some ((l.resultOf task).getD (.ok .nothing)) := by
  cases l.resultOf task with
  | none => exact .inl rfl
  | some outcome => exact .inr rfl

/-- Only who awaits a result looks at what it is told, unless it is cancelled. -/
theorem resumeSession_untold (l : State) (n : Nat) (frames : List Frame) (point : Session.Point)
    {awaited : Awaited} {tell : Tell} (hcancelled : tell ≠ .cancelled)
    (hawaited : ∀ task, awaited ≠ .resultOf task) :
    l.resumeSession n frames point awaited tell = l.resumeSession n frames point awaited .goOn := by
  cases tell with
  | goOn => rfl
  | cancelled => exact absurd rfl hcancelled
  | result outcome =>
    cases awaited with
    | resultOf task => exact absurd rfl (hawaited task)
    | _ => rfl

theorem resumeSession_goes (l : State) (n : Nat) (frames : List Frame) (point : Session.Point)
    (awaited : Awaited) (tell : Tell) :
    ∃ next, Resumes l.resultOf awaited tell (.session point :: frames) next ∧
      l.Goes P n next (l.resumeSession n frames point awaited tell) := by
  have hplatform : ∀ platform, l.Tended P { l with platform } := fun platform =>
    ⟨rfl, rfl, rfl, rfl, fun _ => rfl,
      fun ho => ⟨ho.started, ho.uncancelled, ho.unwatched, ho.helps, ho.tells⟩⟩
  by_cases hcancelled : tell = .cancelled
  · rw [hcancelled]
    exact ⟨_, .cancelled point frames, goOn_goes l n _ frames⟩
  · have huntold := @resumeSession_untold l n frames point awaited tell hcancelled
    cases awaited with
    | turn =>
      rw [huntold (by simp)]
      exact ⟨_, .turn point frames (.inl rfl), goOn_goes l n _ frames⟩
    | time =>
      rw [huntold (by simp)]
      exact ⟨_, .turn point frames (.inr rfl), goOn_goes l n _ frames⟩
    | gate gate request =>
      rw [huntold (by simp)]
      exact ⟨_, .replied point frames (l.platform.letGo request).2 trivial,
        ((goOn_goes _ n (.signal point (.reply (l.platform.letGo request).2)) frames).tend
          offerInput_tended).tend (hplatform (l.platform.letGo request).1)⟩
    | input =>
      rw [huntold (by simp)]
      cases hnext : l.platform.takeNext with
      | none =>
        refine ⟨_, .nothingYet point frames, ?_⟩
        simp only [resumeSession, hnext]
        exact suspend_goes l n (.session point :: frames) .input
      | some answer =>
        refine ⟨_, .replied point frames answer.2 trivial, ?_⟩
        simp only [resumeSession, hnext]
        exact (goOn_goes _ n (.signal point (.reply answer.2)) frames).tend (hplatform answer.1)
    | answer reply =>
      rw [huntold (by simp)]
      exact ⟨_, .replied point frames reply trivial, goOn_goes l n _ frames⟩
    | endOf task =>
      rw [huntold (by simp)]
      by_cases hpoint : point = .closed
      · rw [hpoint]
        exact ⟨_, .closed frames (l.outcome_cases task), goOn_goes l n _ frames⟩
      · refine ⟨_, .readingEnded point frames (l.resultOf task).isSome, ?_⟩
        cases point with
        | closed => exact absurd rfl hpoint
        | _ => exact goOn_goes l n _ frames
    | resultOf task =>
      cases tell with
      | cancelled => exact absurd rfl hcancelled
      | goOn =>
        exact ⟨_, .joined point frames (.inr (l.outcome_cases task)), goOn_goes l n _ frames⟩
      | result outcome =>
        exact ⟨_, .joined point frames (.inl rfl), goOn_goes l n _ frames⟩

/-- A waiting task goes on. Only a bystander is cancelled by it. -/
theorem resume_goes (ho : l.Orderly P) (n : Nat) (wait : Wait) (tell : Tell)
    (htimed : ∀ other rest, (l.task n).frames = .timed other :: rest → other ≠ 0) :
    ∃ next, Resumes l.resultOf wait.awaited tell (l.task n).frames next ∧
      l.Goes P n next (l.resume n wait tell) := by
  unfold resume
  dsimp only
  split
  case h_1 point frames hframes =>
    exact hframes ▸ resumeSession_goes l n frames point wait.awaited tell
  case h_2 other frames hframes =>
    split
    case h_1 outcome _ =>
      exact ⟨_, hframes ▸ .gives frames outcome nofun, goOn_goes l n _ frames⟩
    case h_2 =>
      have hother := htimed other frames hframes
      exact ⟨_, hframes ▸ .abandons frames _,
        ((suspend_goes _ n _ _).tend (cancel_tended hother ho)).then (watch_tended hother false)⟩
  case h_3 other fault frames hframes =>
    have hgives : ∀ outcome, ∃ next,
        Resumes l.resultOf wait.awaited tell (l.task n).frames next ∧
          l.Goes P n next (l.goOn n (.give outcome) frames) :=
      fun outcome => ⟨_, hframes ▸ .gives frames outcome nofun, goOn_goes l n _ frames⟩
    cases tell with
    | cancelled => exact hgives _
    | _ =>
      rw [if_neg Bool.false_ne_true]
      split <;> exact hgives _
  case h_4 frames hframes =>
    exact ⟨_, hframes ▸ .gives frames _ nofun, goOn_goes l n _ frames⟩
  case h_5 hsession _ _ _ =>
    exact ⟨_, .nothingLeft _ hsession, goOn_goes l n _ _⟩

/-- A task whose wait is over. -/
def roused (l : State) (n : Nat) : State :=
  { l.modifyTask n fun t => { t with mustCancel := false, wait := none } with
    timers := l.timers.filter fun timer => timer.task ≠ n }

theorem task_roused (l : State) (n m : Nat) :
    (l.roused n).task m = if m = n ∧ m < l.tasks.size then
      { l.task m with mustCancel := false, wait := none } else l.task m :=
  task_modifyTask l n m _

theorem roused_orderly (ho : l.Orderly P) (n : Nat) : (l.roused n).Orderly P := by
  refine ⟨(size_modifyTask l n _).symm ▸ ho.started, ?_, ?_, fun m hm => ?_, ho.tells⟩
  · rw [task_roused]
    split
    · rfl
    · exact ho.uncancelled
  · rw [task_roused]
    split <;> exact ho.unwatched
  · have hold := ho.helps m hm
    rw [task_roused]
    split
    · exact ⟨hold.first, hold.frames, nofun, hold.result⟩
    · exact hold

theorem frames_roused (l : State) (n m : Nat) :
    ((l.roused n).task m).frames = (l.task m).frames := by
  rw [task_roused]
  split <;> rfl

theorem result_roused (l : State) (n m : Nat) :
    ((l.roused n).task m).result = (l.task m).result := by
  rw [task_roused]
  split <;> rfl

/-- A task that was woken goes on, unless that was for an earlier wait. -/
theorem wake_goes (ho : l.Orderly P) (n ticket : Nat) {tell : Tell} (hfair : n = 0 → tell.Fair P)
    (htimed : ∀ other rest, (l.task n).frames = .timed other :: rest → other ≠ 0) :
    l.runReady (.wake n ticket tell) = l ∨
      ∃ wait told next, (l.task n).wait = some wait ∧ (n = 0 → told.Fair P) ∧
        Resumes l.resultOf wait.awaited told (l.task n).frames next ∧
          l.Goes P n next (l.runReady (.wake n ticket tell)) := by
  unfold runReady
  dsimp only
  split
  case h_2 => exact .inl rfl
  case h_1 wait hwait =>
    split
    case isFalse => exact .inl rfl
    case isTrue =>
      right
      rw [← frames_roused l n] at htimed
      have htold : n = 0 → (if (l.task n).mustCancel then .cancelled else tell).Fair P := by
        intro hn
        rw [hn, ho.uncancelled]
        exact hfair hn
      obtain ⟨next, hresumes, hgoes⟩ := resume_goes (roused_orderly ho n) n wait
        (if (l.task n).mustCancel then .cancelled else tell) htimed
      rw [frames_roused, show (l.roused n).resultOf = l.resultOf from
        funext (result_roused l n)] at hresumes
      refine ⟨wait, _, next, hwait, htold, hresumes, hgoes.session, hgoes.readers, hgoes.heard,
        hgoes.active, fun m hm => (hgoes.others m hm).trans ?_,
        fun ho hn => result_roused l n 0 ▸ hgoes.own (roused_orderly ho n) hn,
        fun ho => hgoes.orderly (roused_orderly ho n)⟩
      rw [task_roused, if_neg fun h => hm h.1]

end State

end

end SerialConsole.Loop
