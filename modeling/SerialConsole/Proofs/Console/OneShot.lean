import SerialConsole.Console.Exchange
import SerialConsole.Proofs.Loop.Standing
import SerialConsole.Proofs.Session.Undisturbed

set_option autoImplicit false

/-!
# One-shot calls

Running a script, sending and monitoring each connect, do one thing and disconnect. Whatever the
device does and however the call ends, the device is closed, the registrations at the log of the
console are those of before, and who followed the traffic has heard of every entry
(`one_shot_cleans_up`). A monitor counts what was received during the call
(`monitor_counts_received`).
-/
namespace SerialConsole

open Session (Event Calm logged payloads opened closed taken)
open Loop (counter counting hearings)
open Loop.Errand (IsWork Lone Fresh Stands received)

/-- The calls that connect, do one thing over the connection and disconnect. -/
inductive OneShot where
  | runScript (script format ending : String) (settle : Double)
  | send (data format ending : String) (listen : Double)
  | monitor (duration : Option Double)

namespace OneShot

/-- What a call gives. -/
def Result : OneShot → Type
  | .runScript _ _ _ _ => Script.Tally
  | .send _ _ _ _ => Log.Entry
  | .monitor _ => Nat

/-- What a call does over the connection. -/
def work : OneShot → List Loop.Action
  | .runScript script format ending settle => .run script format ending :: Exchange.pause settle
  | .send data format ending listen => .sendData data format ending :: Exchange.pause listen
  | .monitor duration => [.listen duration]

/-- A call on a console. -/
def exchange (c : Console) (w : Workplace) (contact : Contact) :
    (call : OneShot) → Exchange call.Result
  | .runScript script format ending settle => c.runScript w contact script format ending settle
  | .send data format ending listen => c.send w contact data format ending listen
  | .monitor duration => c.monitor w contact duration

theorem isWork_pause (seconds : Double) : ∀ action ∈ Exchange.pause seconds, IsWork action := by
  intro action haction
  unfold Exchange.pause at haction
  split at haction
  · rw [List.mem_singleton.1 haction]
    trivial
  · cases haction

theorem isWork_work (call : OneShot) : ∀ action ∈ call.work, IsWork action := by
  cases call with
  | runScript script format ending settle =>
    exact List.forall_mem_cons.2 ⟨trivial, isWork_pause settle⟩
  | send data format ending listen => exact List.forall_mem_cons.2 ⟨trivial, isWork_pause listen⟩
  | monitor duration => exact List.forall_mem_cons.2 ⟨trivial, nofun⟩

end OneShot

namespace Exchange

/-- The loop of an exchange at its beginning. -/
def begun (w : Workplace) (c : Console) (contact : Contact) (work : List Loop.Action) :
    Loop.State :=
  ((loopOf w c contact).spawnAction (errand c contact work)).1

/-- The log that an exchange begins with, before anyone is registered for it. -/
def logOf (w : Workplace) (c : Console) : Log.Ring :=
  { c.log with clock := w.clock }

/-- Those who are registered during an exchange, apart from a counter. -/
def registered (c : Console) (contact : Contact) : List Log.Listener :=
  c.log.listeners ++ if contact.watched then [watcher] else []

variable {w : Workplace} {c : Console} {contact : Contact} {work : List Loop.Action}
  {h : List Event} {l : Loop.State} {outcome : Loop.Outcome}

theorem begun_fresh (w : Workplace) (c : Console) (contact : Contact) (work : List Loop.Action) :
    Fresh work (logOf w c) (registered c contact) (contact.line.getD c.settings.line)
      (portOf c.settings contact.port) (begun w c contact work) := by
  have hlisteners : (loopOf w c contact).session.log.listeners = registered c contact := by
    unfold loopOf registered
    cases contact.watched with
    | true => rfl
    | false => exact (List.append_nil _).symm
  have hlog : { (loopOf w c contact).session.log with listeners := (logOf w c).listeners } =
      logOf w c := by
    unfold loopOf logOf
    cases contact.watched <;> rfl
  refine ⟨rfl, rfl, rfl, rfl, ⟨rfl, rfl, rfl, rfl, rfl, rfl,
    fun _ he => absurd he List.not_mem_nil, rfl, rfl, ?_⟩,
    ⟨?_, fun _ _ _ => rfl, fun _ _ => rfl, rfl⟩⟩
  · exact hlisteners ▸ .refl _
  · exact hlog.symm ▸ .same

/-- What an exchange leaves to a console, given what happened: a device that was opened was closed
once, the registrations are those of before, the log has grown by what was logged, and who followed
the traffic has heard of each entry once and hears of nothing more. -/
structure CleanedUp {α : Type} (w : Workplace) (c : Console) (contact : Contact) (h : List Event)
    (x : Exchange α) : Prop where
  opened : (Session.opened h).length ≤ 1
  closed : Calm h → Session.closed h = Session.opened h
  listeners : x.console.log.listeners.Perm c.log.listeners
  grown : (logOf w c).Grows (logged h) { x.console.log with listeners := c.log.listeners }
  followed : contact.watched = true → watcher ∉ c.log.listeners →
    x.entries = logged h ∧ watcher ∉ x.console.log.listeners

theorem CleanedUp.read {x : Exchange Loop.Value} {α : Type} (hx : CleanedUp w c contact h x)
    (f : Loop.Value → Option α) : CleanedUp w c contact h (x.read f) :=
  ⟨hx.opened, hx.closed, hx.listeners, hx.grown, hx.followed⟩

/-- An exchange leaves the log of its loop, but for the registrations. -/
theorem left_log (w : Workplace) (c : Console) (contact : Contact) (l : Loop.State)
    (outcome : Loop.Outcome) :
    { (left w c contact l outcome).console.log with listeners := c.log.listeners } =
      { l.session.log with listeners := c.log.listeners } := by
  unfold left
  cases contact.watched <;> rfl

/-- An errand that is over has cleaned up. -/
theorem cleanedUp_of_over (left' : Loop.Outcome)
    (hs : Stands work (logOf w c) (registered c contact) h l (.over outcome)) :
    CleanedUp w c contact h (left w c contact l left') := by
  cases hs.place with
  | «over» hparted _ =>
    have hlisteners : (left w c contact l left').console.log.listeners.Perm c.log.listeners := by
      have hperm := hparted.listeners
      unfold registered at hperm
      unfold left
      cases hwatched : contact.watched with
      | false =>
        rw [hwatched] at hperm
        exact List.append_nil c.log.listeners ▸ hperm
      | true =>
        rw [hwatched] at hperm
        have herased := (hperm.trans List.perm_append_comm).erase watcher
        rwa [if_pos rfl, List.singleton_append, List.erase_cons_head] at herased
    refine ⟨hparted.opened, hparted.closed, hlisteners, ?_, fun hwatched hnot => ⟨?_, ?_⟩⟩
    · exact left_log w c contact l left' ▸ hs.ledger.grows
    · refine hs.ledger.heard watcher (by decide) ?_
      rw [registered, hwatched, List.count_append, List.count_eq_zero.2 hnot]
      rfl
    · exact fun hmem => hnot (hlisteners.mem_iff.1 hmem)

/-! ## The runs of the calls themselves -/

/-- The run of an exchange whose main task ends is a course. -/
theorem perform_course (hwork : ∀ action ∈ work, IsWork action)
    (hresult : ((begun w c contact work).await 0).resultOf 0 = some outcome) :
    ∃ h, Loop.State.Course (begun w c contact work) h ((begun w c contact work).await 0).shutDown ∧
      ((begun w c contact work).await 0).shutDown.resultOf 0 = some outcome := by
  have hbegun : Loop.State.Course (begun w c contact work) [] (begun w c contact work) := .start
  obtain ⟨first, hfirst⟩ := hbegun.awaitWithin 0 Loop.State.patience
  obtain ⟨rest, hrest, hend⟩ := (begun_fresh w c contact work).shutDown hwork hfirst hresult
  exact ⟨_, hrest, hend⟩

/-- An exchange gives a value only if its main task ended with it. -/
theorem resultOf_of_firstValue {v : Loop.Value} {n : Nat}
    (hv : firstValue (l.outcomeOf n) = .ok v) : l.resultOf n = some (l.outcomeOf n) := by
  unfold Loop.State.outcomeOf at hv ⊢
  cases hinterrupted : l.interrupted with
  | some fault =>
    rw [hinterrupted] at hv
    cases hv
  | none =>
    rw [hinterrupted] at hv
    cases hresult : l.resultOf n with
    | none =>
      rw [hresult] at hv
      cases hv
    | some outcome => rfl

/-- An exchange is what its loop leaves when it was run and shut down. -/
theorem perform_eq (w : Workplace) (c : Console) (contact : Contact) (work : List Loop.Action) :
    perform w c contact work =
      left w c contact ((begun w c contact work).await 0).shutDown
        (((begun w c contact work).await 0).outcomeOf 0) := by
  unfold perform Loop.State.runAlone begun
  rfl

theorem left_result (w : Workplace) (c : Console) (contact : Contact) (l : Loop.State)
    (outcome : Loop.Outcome) : (left w c contact l outcome).result = firstValue outcome :=
  rfl

theorem monitor_console (c : Console) (w : Workplace) (contact : Contact)
    (duration : Option Double) :
    (c.monitor w contact duration).console = (perform w c contact [.listen duration]).console :=
  rfl

/-- What a monitor gives is the count that its work has given. -/
theorem monitor_result {duration : Option Double} {n : Nat}
    (hn : (c.monitor w contact duration).result = .ok n) :
    (perform w c contact [.listen duration]).result = .ok (.count n) := by
  unfold Console.monitor Exchange.read at hn
  generalize (perform w c contact [.listen duration]).result = result at hn
  cases result with
  | error fault => cases hn
  | ok value =>
    cases value with
    | count m =>
      cases hn
      rfl
    | _ => cases hn

theorem CleanedUp.call {call : OneShot}
    (hx : CleanedUp w c contact h (perform w c contact call.work)) :
    CleanedUp w c contact h (call.exchange c w contact) := by
  cases call with
  | runScript script format ending settle => exact hx.read _
  | send data format ending listen => exact hx.read _
  | monitor duration => exact hx.read _

end Exchange

open Exchange

variable {w : Workplace} {c : Console} {contact : Contact} {h : List Event} {l : Loop.State}
  {outcome : Loop.Outcome}

/-- A call that comes to an end has cleaned up, whatever the device does and however the call ends,
and nothing is logged after that. -/
theorem one_shot_cleans_up (w : Workplace) (c : Console) (contact : Contact) (call : OneShot) :
    (∀ h l outcome, Loop.State.Course (begun w c contact call.work) h l → (l.resultOf 0).isSome →
      CleanedUp w c contact h (left w c contact l outcome) ∧
        ∀ more after, Loop.State.Course l more after → logged more = []) ∧
    ((((begun w c contact call.work).await 0).resultOf 0).isSome →
      ∃ h, Loop.State.Course (begun w c contact call.work) h
          ((begun w c contact call.work).await 0).shutDown ∧
        CleanedUp w c contact h (call.exchange c w contact)) := by
  have hfresh := begun_fresh w c contact call.work
  constructor
  · intro h l outcome hcourse hover
    obtain ⟨result, hresult⟩ := Option.isSome_iff_exists.1 hover
    have hs := hfresh.over call.isWork_work hcourse hresult
    refine ⟨cleanedUp_of_over outcome hs, fun more after hmore => ?_⟩
    obtain ⟨_, _, hlasts⟩ := hs.course call.isWork_work hmore
    exact (hlasts result rfl).2
  · intro hover
    obtain ⟨result, hresult⟩ := Option.isSome_iff_exists.1 hover
    obtain ⟨h, hcourse, hend⟩ := perform_course call.isWork_work hresult
    have hs := hfresh.over call.isWork_work hcourse hend
    have hclean : CleanedUp w c contact h (perform w c contact call.work) :=
      perform_eq w c contact call.work ▸ cleanedUp_of_over _ hs
    exact ⟨h, hcourse, hclean.call⟩

/-- A workplace with a device that sends two chunks and echoes, but refuses the second write, the end
of a read and its closing. -/
def faultyWorkplace : Workplace where
  places := ⟨⟨0, []⟩, ⟨0, []⟩⟩
  platform := .scripted
    { behaviour :=
        { inbound := [.data (some [1]), .data (some []), .data (some [2])]
          echo := [[62]]
          writeError := some (.external .osError "gone")
          writeErrorFrom := 1
          cancelError := some (.external .runtime "no cancel")
          closeError := some (.external .osError "stuck") } }

/-- A console with a log of one entry, of which somebody hears already. -/
def narrowConsole : Console :=
  { log := { capacity := 1, listeners := ["page"] } }

/-- A script whose second send fails has still cleaned up: the two chunks, the first send and its
echo were followed, past the capacity of the log. -/
theorem one_shot_cleans_up_faulty :
    ∃ h x, CleanedUp faultyWorkplace narrowConsole { watched := true } h x ∧
      x = OneShot.exchange narrowConsole faultyWorkplace { watched := true }
        (.runScript "SEND a\nDELAY 1\nSEND b" "text" "none" Double.zero) ∧
      x.entries.map Log.Entry.data = [[97], [1], [2], [62, 97]] ∧
      x.console.log.listeners = ["page"] := by
  let call : OneShot := .runScript "SEND a\nDELAY 1\nSEND b" "text" "none" Double.zero
  obtain ⟨h, _, hclean⟩ :=
    (one_shot_cleans_up faultyWorkplace narrowConsole { watched := true } call).2 (by decide +kernel)
  exact ⟨h, _, hclean, rfl, by decide +kernel, by decide +kernel⟩

/-- What a monitor has counted, given what happened: the entries that were received, which are the
chunks that the read loop took from the device. -/
structure Counted (w : Workplace) (c : Console) (h : List Event) (ring : Log.Ring) (n : Nat) :
    Prop where
  grown : (logOf w c).Grows (logged h) { ring with listeners := c.log.listeners }
  entries : n = (logged h).countP (·.direction = .received)
  chunks : n = (taken h).length
  taken : payloads .received h = taken h

theorem Counted.left {n : Nat} (hl : Counted w c h l.session.log n) (outcome : Loop.Outcome) :
    Counted w c h (left w c contact l outcome).console.log n :=
  ⟨left_log w c contact l outcome ▸ hl.grown, hl.entries, hl.chunks, hl.taken⟩

theorem length_payloads (direction : Log.Direction) (h : List Event) :
    (payloads direction h).length = (logged h).countP (·.direction = direction) := by
  rw [Session.payloads_of_logged]
  induction logged h with
  | nil => rfl
  | cons entry rest ih =>
    rw [List.filterMap_cons, List.countP_cons]
    by_cases hdirection : entry.direction = direction
    · simp [hdirection, ih]
    · simp [hdirection, ih]

/-- A monitor that returns has counted what was received. -/
theorem counted_of_over {duration : Option Double} {n : Nat} (hnot : counter ∉ c.log.listeners)
    (hs : Stands [.listen duration] (logOf w c) (registered c contact) h l (.over outcome))
    (hn : firstValue outcome = .ok (.count n)) : Counted w c h l.session.log n := by
  have hlone : Lone [.listen duration] (registered c contact) := by
    refine ⟨⟨duration, rfl⟩, fun hmem => ?_⟩
    rcases List.mem_append.1 hmem with hmem | hmem
    · exact hnot hmem
    · cases hwatched : contact.watched with
      | false =>
        rw [hwatched] at hmem
        cases hmem
      | true =>
        rw [hwatched] at hmem
        exact absurd (List.mem_singleton.1 hmem) (by decide)
  have htaken := hs.ledger.taken
  have hreceived : n = received h := by
    cases hs.place with
    | «over» _ hends =>
      cases houtcome : outcome with
      | error fault =>
        rw [houtcome] at hn
        cases hn
      | ok v =>
        obtain ⟨x, hv⟩ := hends hlone v houtcome
        rw [houtcome, hv] at hn
        cases hn
        rfl
  exact ⟨hs.ledger.grows, hreceived.trans (length_payloads .received h),
    hreceived.trans (congrArg List.length htaken), htaken⟩

/-- Whenever a monitor returns, its result is the number of entries that were received during the
call, past the capacity of the log as well. The counter is a listener of its own: nobody else is
registered under its name. -/
theorem monitor_counts_received (w : Workplace) (c : Console) (contact : Contact)
    (duration : Option Double) (hnot : counter ∉ c.log.listeners) :
    (∀ h l outcome n, Loop.State.Course (begun w c contact [.listen duration]) h l →
      l.resultOf 0 = some outcome → firstValue outcome = .ok (.count n) →
      Counted w c h l.session.log n) ∧
    ∀ n, (c.monitor w contact duration).result = .ok n →
      ∃ h, Loop.State.Course (begun w c contact [.listen duration]) h
          ((begun w c contact [.listen duration]).await 0).shutDown ∧
        Counted w c h (c.monitor w contact duration).console.log n := by
  have hfresh := begun_fresh w c contact [.listen duration]
  have hwork := (OneShot.monitor duration).isWork_work
  constructor
  · intro h l outcome n hcourse hresult hn
    exact counted_of_over hnot (hfresh.over hwork hcourse hresult) hn
  · intro n hn
    have hvalue := monitor_result hn
    rw [perform_eq, left_result] at hvalue
    obtain ⟨h, hcourse, hend⟩ := perform_course hwork (resultOf_of_firstValue hvalue)
    have hcounted := counted_of_over hnot (hfresh.over hwork hcourse hend) hvalue
    rw [monitor_console, perform_eq]
    exact ⟨h, hcourse, hcounted.left _⟩

/-- Two chunks with something in them are counted, although the log keeps one entry. -/
theorem monitor_counts_received_narrow :
    ∃ h x, x = narrowConsole.monitor faultyWorkplace {} (some (Double.ofInt 1)) ∧
      x.result = .ok 2 ∧ x.console.log.size = 1 ∧
      Counted faultyWorkplace narrowConsole h x.console.log 2 := by
  have hcount : (narrowConsole.monitor faultyWorkplace {} (some (Double.ofInt 1))).result.toOption =
      some 2 := by decide +kernel
  have hresult : (narrowConsole.monitor faultyWorkplace {} (some (Double.ofInt 1))).result =
      .ok 2 := by
    generalize (narrowConsole.monitor faultyWorkplace {} (some (Double.ofInt 1))).result = r at hcount
    cases r with
    | error fault => cases hcount
    | ok n => exact congrArg Except.ok (Option.some.inj hcount)
  obtain ⟨h, _, hcounted⟩ := (monitor_counts_received faultyWorkplace narrowConsole {}
    (some (Double.ofInt 1)) (by decide)).2 2 hresult
  exact ⟨h, _, rfl, hresult, by decide +kernel, hcounted⟩

end SerialConsole
