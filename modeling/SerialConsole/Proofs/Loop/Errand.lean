import SerialConsole.Proofs.Loop.Ledger

set_option autoImplicit false

/-!
# Errands

An errand is what the main task of an exchange does: it connects, does its work and disconnects.
`Place` says where an errand can stand, with what the session and the history are like there. Where
it stands next is said step by step in the modules that follow.
-/
namespace SerialConsole.Loop.Errand

open SerialConsole.Session (Event Calm payloads Point Signal)

/-- The faults with which a bystander may end: its cancellation and, in a calm history, ordinary
ones. -/
def Pardoned (h : List Event) (fault : Fault) : Prop :=
  Calm h → fault.isOrdinary = true ∨ fault.kind = .cancelled

theorem Pardoned.mono {h more : List Event} {fault : Fault} (hfault : Pardoned h fault) :
    Pardoned (h ++ more) fault :=
  fun hcalm => hfault hcalm.left

/-- What an exchange does over a connection. -/
def IsWork : Action → Prop
  | .run _ _ _ | .sendData _ _ _ | .sleep _ | .listen _ => True
  | _ => False

/-- The work is to listen and nothing else, and the counter is not registered beforehand. -/
def Lone (work : List Action) (base : List Log.Listener) : Prop :=
  (∃ duration, work = [.listen duration]) ∧ counter ∉ base

/-- The number of received entries. -/
def received (h : List Event) : Nat :=
  (payloads .received h).length

/-! ## What the session is like -/

section

variable (base : List Log.Listener) (s : Session) (readers : Array Nat) (h : List Event)

/-- No device has been opened; the errand may have begun to connect. -/
structure Apart (connecting : Bool) : Prop where
  phase : s.phase = if connecting then .connecting else .disconnected
  lock : s.lifecycleLock = { held := connecting }
  reader : s.reader = none
  connections : s.connections = 0
  readers : readers = #[]
  going : s.stopReading = false
  unparted : ∀ e ∈ h, e.isParting = false
  opened : Session.opened h = []
  closed : Session.closed h = []
  listeners : s.log.listeners.Perm base

/-- A device is open, and nobody disconnects. The counter may listen. -/
structure Joined (d : Handle) (listens : Bool) : Prop where
  phase : s.phase = .connected
  device : s.device = some d
  lock : s.lifecycleLock = {}
  reader : s.reader = some 0
  wired : readers.getD 0 0 ≠ 0
  going : s.stopReading = false
  unparted : ∀ e ∈ h, e.isParting = false
  opened : Session.opened h = [d]
  closed : Session.closed h = []
  listeners : s.log.listeners.Perm (base ++ counting listens)

/-- A disconnect is under way; the device may have been closed. -/
structure Parting (d : Handle) (ended : List Handle) : Prop where
  reader : s.reader = none
  wired : readers.getD 0 0 ≠ 0
  stopped : s.stopReading = true
  parted : ∃ e ∈ h, e.isParting = true
  opened : Session.opened h = [d]
  closed : Session.closed h = ended
  listeners : s.log.listeners.Perm base

/-- The errand is over but for what it gives back. -/
structure Parted : Prop where
  reader : s.reader = none
  told : s.stopReading = true ↔ ∃ e ∈ h, e.isParting = true
  still : readers = #[] ∨ s.stopReading = true
  opened : (Session.opened h).length ≤ 1
  closed : Calm h → Session.closed h = Session.opened h
  listeners : s.log.listeners.Perm base

end

/-! ## What the errand does there -/

/-- What is on the stack of a task that does its work, apart from the counter. -/
def IsBusy : Frame → Prop
  | .session point => point.sideline? = some .sending ∨ point.sideline? = some .awaiting
  | .sleeping | .answering _ _ _ => True
  | .timed other | .abandoning other _ => other ≠ 0
  | _ => False

/-- What a task does next that does its work; it starts to listen only at the `top`. -/
def Works (top : Prop) : Control → Prop
  | .begin (.listen _) => top
  | .begin (.run _ _ _) | .begin (.sendData _ _ _) | .begin (.sleep _) | .begin .waitClosed => True
  | .signal point _ => point.sideline? = some .sending ∨ point.sideline? = some .awaiting
  | .turn _ _ => True
  | .give _ => True
  | _ => False

/-- The stack of a task that does its work. -/
def stack (before : List Frame) (listens : Bool) (rest : List Action) (values : List Value)
    (v : Value) : List Frame :=
  before ++ ((if listens then [.listening] else []) ++ [.inScope rest values, .inOrder [] [v]])

/-- If the outcome is no fault, it is a count. -/
def Counts (n : Nat) (outcome : Outcome) : Prop :=
  ∀ v, outcome = .ok v → v = .count n

/-- If the outcome of the work is no fault, it is a count. -/
def Keeps (n : Nat) (outcome : Outcome) : Prop :=
  ∀ v, outcome = .ok v → v = .many [.count n]

/-- If the outcome of the errand is no fault, the outcome of its work is a count. -/
def Ends (n : Nat) (outcome : Outcome) : Prop :=
  ∀ v, outcome = .ok v → ∃ x, v = .many [x, .many [.count n]]

/-- If all the work is to listen, the counter listens, or listening is about to begin, or the count
is there. -/
def Attends (h : List Event) (before : List Frame) (listens : Bool) (rest : List Action)
    (values : List Value) (control : Control) : Prop :=
  rest = [] ∧ values = [] ∧ (listens = false → before = [] ∧
    ((∃ duration, control = .begin (.listen duration)) ∨
      ∃ outcome, control = .give outcome ∧ Counts (received h) outcome))

/-- What a disconnect goes on with, given what was closed. -/
inductive Parts (h : List Event) (device : Handle) : List Handle → Point → Signal → Prop where
  | cancelling (reply : Reply) :
    Parts h device [] (.cancelling (some device) (some 0)) (.reply reply)
  | endOfReading (inTime : Bool) :
    Parts h device [] (.endOfReading (some device) 0) (.readingEnded inTime)
  | cancelledReading (result : Except Fault Session.Result) :
    (∀ fault, result = .error fault → Pardoned h fault) →
    Parts h device [] (.cancelledReading (some device)) (.joined result)
  | closeTurn : Parts h device [] (.closeTurn (some device)) .turn
  | closing (reply : Reply) : Parts h device [device] (.closing (some device)) (.reply reply)

/-- What a disconnect waits for, given what was closed. -/
inductive AwaitsParting (device : Handle) : List Handle → Point → Awaited → Prop where
  | cancelling {awaited : Awaited} : awaited.IsDevice →
    AwaitsParting device [] (.cancelling (some device) (some 0)) awaited
  | endOfReading (task : Nat) :
    AwaitsParting device [] (.endOfReading (some device) 0) (.endOf task)
  | cancelledReading {task : Nat} : task ≠ 0 →
    AwaitsParting device [] (.cancelledReading (some device)) (.resultOf task)
  | closeTurn : AwaitsParting device [] (.closeTurn (some device)) .turn
  | closing {awaited : Awaited} : awaited.IsDevice →
    AwaitsParting device [device] (.closing (some device)) awaited

/-- What is handed back at the end. -/
inductive Unwinds (work : List Action) (base : List Log.Listener) (n : Nat) :
    Outcome → List Frame → Prop where
  | left {outcome kept : Outcome} (v : Value) : (Lone work base → Keeps n kept) →
    Unwinds work base n outcome [.leaving kept, .inOrder [] [v]]
  | kept {outcome : Outcome} (v : Value) : (Lone work base → Keeps n outcome) →
    Unwinds work base n outcome [.inOrder [] [v]]
  | failed (fault : Fault) (rest : List Action) (values : List Value) :
    Unwinds work base n (.error fault) [.inOrder rest values]
  | ends {outcome : Outcome} : (Lone work base → Ends n outcome) → Unwinds work base n outcome []

/-- Where an errand can stand. -/
inductive Place (work : List Action) (base : List Log.Listener) (s : Session)
    (readers : Array Nat) (h : List Event) : Next → Prop where
  | planned (line : LineSettings) (hint : Option String) : Apart base s readers h false →
    Place work base s readers h
      (.runs (.begin (.inOrder [.connect line hint, .scope work])) [])
  | connects (line : LineSettings) (hint : Option String) : Apart base s readers h false →
    Place work base s readers h
      (.runs (.begin (.connect line hint)) [.inOrder [.scope work] []])
  | requested (line : LineSettings) {hint : Option String} {reply : Reply} :
    Apart base s readers h true → Fits (.request hint) reply →
    Place work base s readers h
      (.runs (.signal (.requesting line) (.reply reply)) [.inOrder [.scope work] []])
  | opens (device : Handle) (line : LineSettings) (reply : Reply) : Apart base s readers h true →
    Place work base s readers h
      (.runs (.signal (.opening device line) (.reply reply)) [.inOrder [.scope work] []])
  | awaitsOpening (device : Handle) (line : LineSettings) {awaited : Awaited} :
    Apart base s readers h true → awaited.IsDevice →
    Place work base s readers h
      (.waits [.session (.opening device line), .inOrder [.scope work] []] awaited)
  | opened {device : Handle} (v : Value) : Joined base s readers h device false →
    Place work base s readers h (.runs (.give (.ok v)) [.inOrder [.scope work] []])
  | enters {device : Handle} (v : Value) : Joined base s readers h device false →
    Place work base s readers h (.runs (.begin (.scope work)) [.inOrder [] [v]])
  | works {device : Handle} {listens : Bool} {before : List Frame} {rest : List Action}
      {values : List Value} (v : Value) {control : Control} :
    Joined base s readers h device listens → (∀ frame ∈ before, IsBusy frame) →
    (∀ action ∈ rest, IsWork action) → Works (before = [] ∧ listens = false) control →
    (Lone work base → Attends h before listens rest values control) →
    Place work base s readers h (.runs control (stack before listens rest values v))
  | rests {device : Handle} {listens : Bool} {frame : Frame} {before : List Frame}
      {rest : List Action} {values : List Value} (v : Value) {awaited : Awaited} :
    Joined base s readers h device listens → (∀ other ∈ frame :: before, IsBusy other) →
    (∀ action ∈ rest, IsWork action) →
    (Lone work base → listens = true ∧ rest = [] ∧ values = []) →
    Place work base s readers h
      (.waits (stack (frame :: before) listens rest values v) awaited)
  | leaves {device : Handle} {kept : Outcome} (v : Value) :
    Joined base s readers h device false → (Lone work base → Keeps (received h) kept) →
    Place work base s readers h (.runs (.begin .disconnect) [.leaving kept, .inOrder [] [v]])
  | parts {device : Handle} {ended : List Handle} {point : Point} {signal : Signal}
      {kept : Outcome} (v : Value) : Parting base s readers h device ended →
    Parts h device ended point signal → (Lone work base → Keeps (received h) kept) →
    Place work base s readers h
      (.runs (.signal point signal) [.leaving kept, .inOrder [] [v]])
  | awaitsParting {device : Handle} {ended : List Handle} {point : Point} {awaited : Awaited}
      {kept : Outcome} (v : Value) : Parting base s readers h device ended →
    AwaitsParting device ended point awaited → (Lone work base → Keeps (received h) kept) →
    Place work base s readers h
      (.waits [.session point, .leaving kept, .inOrder [] [v]] awaited)
  | unwinds {outcome : Outcome} {frames : List Frame} : Parted base s readers h →
    Unwinds work base (received h) outcome frames → Place work base s readers h
      (.runs (.give outcome) frames)
  | over {outcome : Outcome} : Parted base s readers h →
    (Lone work base → Ends (received h) outcome) →
    Place work base s readers h (.over outcome)

variable {work : List Action} {base : List Log.Listener} {s : Session} {readers : Array Nat}
  {h : List Event} {next : Next}

theorem Apart.told {connecting : Bool} (hs : Apart base s readers h connecting) :
    s.stopReading = true ↔ ∃ e ∈ h, e.isParting = true :=
  ⟨fun hstop => absurd (hs.going.symm.trans hstop) Bool.false_ne_true,
    fun ⟨e, he, hparting⟩ => absurd ((hs.unparted e he).symm.trans hparting) Bool.false_ne_true⟩

theorem Joined.told {d : Handle} {listens : Bool} (hs : Joined base s readers h d listens) :
    s.stopReading = true ↔ ∃ e ∈ h, e.isParting = true :=
  ⟨fun hstop => absurd (hs.going.symm.trans hstop) Bool.false_ne_true,
    fun ⟨e, he, hparting⟩ => absurd ((hs.unparted e he).symm.trans hparting) Bool.false_ne_true⟩

theorem Parting.told {d : Handle} {ended : List Handle} (hs : Parting base s readers h d ended) :
    s.stopReading = true ↔ ∃ e ∈ h, e.isParting = true :=
  ⟨fun _ => hs.parted, fun _ => hs.stopped⟩

/-- Wherever the errand stands, the session was told to stop reading exactly if a disconnect has
begun. -/
theorem Place.told (hplace : Place work base s readers h next) :
    s.stopReading = true ↔ ∃ e ∈ h, e.isParting = true := by
  cases hplace with
  | planned _ _ hs => exact hs.told
  | connects _ _ hs => exact hs.told
  | requested _ hs _ => exact hs.told
  | opens _ _ _ hs => exact hs.told
  | awaitsOpening _ _ hs _ => exact hs.told
  | opened _ hs => exact hs.told
  | enters _ hs => exact hs.told
  | works _ hs _ _ _ _ => exact hs.told
  | rests _ hs _ _ _ => exact hs.told
  | leaves _ hs _ => exact hs.told
  | parts _ hs _ _ => exact hs.told
  | awaitsParting _ hs _ _ => exact hs.told
  | unwinds hs _ => exact hs.told
  | «over» hs _ => exact hs.told

/-- Wherever the errand stands, the registrations are those of the beginning and at most that of the
counter. -/
theorem Place.listeners (hplace : Place work base s readers h next) :
    ∃ listens, s.log.listeners.Perm (base ++ counting listens) := by
  have hnone : ∀ {listeners : List Log.Listener}, listeners.Perm base →
      ∃ listens, listeners.Perm (base ++ counting listens) :=
    fun hperm => ⟨false, (List.append_nil base).symm ▸ hperm⟩
  cases hplace with
  | planned _ _ hs => exact hnone hs.listeners
  | connects _ _ hs => exact hnone hs.listeners
  | requested _ hs _ => exact hnone hs.listeners
  | opens _ _ _ hs => exact hnone hs.listeners
  | awaitsOpening _ _ hs _ => exact hnone hs.listeners
  | opened _ hs => exact ⟨_, hs.listeners⟩
  | enters _ hs => exact ⟨_, hs.listeners⟩
  | works _ hs _ _ _ _ => exact ⟨_, hs.listeners⟩
  | rests _ hs _ _ _ => exact ⟨_, hs.listeners⟩
  | leaves _ hs _ => exact ⟨_, hs.listeners⟩
  | parts _ hs _ _ => exact hnone hs.listeners
  | awaitsParting _ hs _ _ => exact hnone hs.listeners
  | unwinds hs _ => exact hnone hs.listeners
  | «over» hs _ => exact hnone hs.listeners

/-- The main task reads nothing itself. -/
theorem Place.not_reading {point : Point} {signal : Signal} {frames : List Frame}
    (hplace : Place work base s readers h (.runs (.signal point signal) frames)) (d : Handle) :
    point ≠ .reading d := by
  generalize hnext : Next.runs (.signal point signal) frames = next at hplace
  cases hplace with
  | requested _ _ _ =>
    cases hnext
    exact nofun
  | opens _ _ _ _ =>
    cases hnext
    exact nofun
  | works _ _ _ _ hcontrol _ =>
    cases hnext
    rintro rfl
    rcases hcontrol with hside | hside <;> cases hside
  | parts _ _ hparts _ =>
    cases hnext
    rintro rfl
    cases hparts
  | _ => cases hnext

/-! ## Standing there -/

end SerialConsole.Loop.Errand

namespace SerialConsole.Loop

open SerialConsole.Session (Event)

/-- What the main task does next, or what it waits for. -/
def State.MainIs (l : State) : Next → Prop
  | .runs control frames => l.active = some ⟨0, control, frames⟩ ∧ (l.task 0).result = none
  | .waits frames awaited =>
    (∀ a, l.active = some a → a.task ≠ 0) ∧ (l.task 0).gist = ⟨frames, some awaited, none⟩
  | .over outcome =>
    (∀ a, l.active = some a → a.task ≠ 0) ∧ (l.task 0).gist = ⟨[], none, some outcome⟩

namespace Errand

/-- A loop that does an errand. `ring` is the log at the beginning, `base` are those who listened to
it then. -/
structure Stands (work : List Action) (ring : Log.Ring) (base : List Log.Listener)
    (h : List Event) (l : State) (next : Next) : Prop where
  orderly : l.Orderly (Pardoned h)
  main : l.MainIs next
  helps : ∀ a, l.active = some a → a.task ≠ 0 →
    a.control.Helps (Pardoned h) (0 < l.readers.size) ∧ a.frames = []
  place : Place work base l.session l.readers h next
  ledger : Ledger ring base (Lone work base) h l

variable {work : List Action} {ring : Log.Ring} {base : List Log.Listener} {h : List Event}
  {l middle after : State} {a : Active} {step : Session.Step} {next : Next}

/-- The errand still stands somewhere after a step of the task that runs. -/
def Advances (work : List Action) (ring : Log.Ring) (base : List Log.Listener) (h : List Event)
    (l : State) (a : Active) : Prop :=
  ∃ next, Stands work ring base (h ++ l.deeds a) (l.advance a) next

/-- The main task goes on, from a state in which everything was prepared. -/
theorem Stands.goes {more : List Event} (hgoes : middle.Goes (Pardoned h) 0 next after)
    (horderly : middle.Orderly (Pardoned h)) (hresult : (middle.task 0).result = none)
    (hplace : Place work base middle.session middle.readers (h ++ more) next)
    (hledger : Ledger ring base (Lone work base) (h ++ more) after) :
    Stands work ring base (h ++ more) after next := by
  have hown := hgoes.own horderly rfl
  have hzero : ∀ a, after.active = some a →
      a.task = 0 ∧ ∃ control frames, next = .runs control frames := by
    intro a ha
    rw [hgoes.active] at ha
    cases next with
    | runs control frames =>
      cases ha
      exact ⟨rfl, control, frames, rfl⟩
    | waits frames awaited => cases ha
    | «over» outcome => cases ha
  refine ⟨(hgoes.orderly horderly fun hne => absurd rfl hne).mono fun _ => Pardoned.mono, ?_,
    fun a ha hne => absurd (hzero a ha).1 hne, ?_, hledger⟩
  · rw [hresult] at hown
    cases next with
    | runs control frames => exact ⟨hgoes.active, hown⟩
    | waits frames awaited =>
      refine ⟨fun a ha => ?_, hown⟩
      obtain ⟨_, _, _, hruns⟩ := hzero a ha
      cases hruns
    | «over» outcome =>
      refine ⟨fun a ha => ?_, hown⟩
      obtain ⟨_, _, _, hruns⟩ := hzero a ha
      cases hruns
  · rw [hgoes.session, hgoes.readers]
    exact hplace

/-- What the main task logs is nothing that was received. -/
theorem Place.payload {control : Control} {frames : List Frame}
    (hplace : Place work base l.session l.readers h (.runs control frames)) (data : Bytes) :
    l.payload? ⟨0, control, frames⟩ ≠ some (.received, data) := by
  unfold State.payload?
  cases control with
  | signal point signal =>
    cases point with
    | reading device => exact absurd rfl (hplace.not_reading device)
    | writing device data =>
      cases signal with
      | reply reply => cases reply <;> exact nofun
      | _ => exact nofun
    | _ => exact nofun
  | _ => exact nofun

/-- The main task takes a step of the session. -/
theorem Stands.absorb {control : Control} {frames : List Frame}
    (hs : Stands work ring base h l (.runs control frames))
    (hstep : l.sessionStep? ⟨0, control, frames⟩ = some step)
    (heffects : ∀ e ∈ step.effects, e.isMild = true ∨
      ∃ connection, e = .cancelReader connection ∧ l.readers.getD connection 0 ≠ 0)
    (hreader : ∀ connection, step.pause.reader? = some connection →
      l.readers.getD connection 0 ≠ 0)
    (hplace : ∀ next, Leads l frames step.pause next →
      Place work base step.session l.readers (h ++ l.deeds ⟨0, control, frames⟩) next) :
    Advances work ring base h l ⟨0, control, frames⟩ := by
  obtain ⟨next, hleads, hgoes⟩ := State.absorb_goes hs.orderly 0 frames heffects hreader
  unfold Advances
  rw [State.advance_absorb hstep]
  obtain ⟨listens, hlisteners⟩ := hs.place.listeners
  refine ⟨next, .goes hgoes ?_ hs.main.2 (hplace next hleads) ?_⟩
  · have ho := hs.orderly
    exact ⟨ho.started, ho.uncancelled, ho.unwatched, ho.helps, ho.tells⟩
  · exact hs.ledger.absorb hstep hlisteners (fun _ data hdata => absurd hdata (hs.place.payload data))
      hs.place.told hgoes.session hgoes.heard

/-- The main task takes a step that is none of the session. -/
theorem Stands.advance {control : Control} {frames : List Frame}
    (hs : Stands work ring base h l (.runs control frames))
    (hstep : l.sessionStep? ⟨0, control, frames⟩ = none)
    (hgoes : middle.Goes (Pardoned h) 0 next (l.advance ⟨0, control, frames⟩))
    (horderly : middle.Orderly (Pardoned h)) (hresult : (middle.task 0).result = none)
    (hlog : { middle.session.log with listeners := ring.listeners } =
      { l.session.log with listeners := ring.listeners })
    (hheard : middle.heard = l.heard)
    (hplace : Place work base middle.session middle.readers h next) :
    Advances work ring base h l ⟨0, control, frames⟩ := by
  have hdeeds : l.deeds ⟨0, control, frames⟩ = [] := by
    unfold State.deeds
    rw [hstep]
  have hledger : Ledger ring base (Lone work base) h (l.advance ⟨0, control, frames⟩) :=
    (hs.ledger.congr hlog hheard).congr (by rw [hgoes.session]) hgoes.heard
  unfold Advances
  rw [hdeeds]
  refine ⟨next, .goes hgoes horderly hresult ?_ ?_⟩
  · exact (List.append_nil h).symm ▸ hplace
  · exact (List.append_nil h).symm ▸ hledger

end Errand

end SerialConsole.Loop
