import SerialConsole.Proofs.Script.Refusals
import SerialConsole.Proofs.Session.Undisturbed
import SerialConsole.Proofs.Text.Payload
import SerialConsole.Runner

set_option autoImplicit false

/-!
# A runner on a session

A `Scene` is a runner at work on a session. What can happen there are the moves of the session, a
stop request, and what the runner does for its script: it answers a look, an announcement or a sleep
at once or when it is over, and for a send it begins a call and waits for the end of it. `Follows`
ties the three together: the exchanges of the script so far, the calls that the runner has begun for
them, and what these have written.
-/
namespace SerialConsole

namespace Job

/-- The bytes that a script writes for a value. -/
def encode (job : Job) (value : String) : Except Fault Bytes :=
  Payload.encode value job.format job.ending

/-- Why a value cannot be written. -/
def refuses (job : Job) (value : String) : Option Fault :=
  match job.encode value with
  | .ok _ => none
  | .error fault => some fault

variable {job : Job} {value : String}

theorem refuses_of_ok {data : Bytes} (h : job.encode value = .ok data) :
    job.refuses value = none := by
  rw [refuses, h]

theorem refuses_of_error {fault : Fault} (h : job.encode value = .error fault) :
    job.refuses value = some fault := by
  rw [refuses, h]

/-- What a script meets on a session that nobody disturbs. -/
def surroundings (job : Job) : Script.Surroundings :=
  .refusing job.refuses

end Job

namespace Running

open Session (World Move Operation Result Sending Status Event Pause Course starts payloads)
open Script (Turn Answer Exchange sentOf)

/-- A runner at work on a session: what its script does next, and the call of a send that it waits
for. -/
structure Scene where
  world : World
  runner : Runner
  turn : Turn
  sending : Option Nat

/-- Something that happens while a script runs. -/
inductive Act where
  | move (m : Move)
  | stop
  | goOn
  | fail (fault : Fault)
  | send (id : Nat)
  | hear

/-- Whether it is the runner that goes on. -/
def Act.isRunners : Act → Bool
  | .goOn | .send _ | .hear => true
  | .move _ | .stop | .fail _ => false

/-- What a script is told of a call that is over. -/
def answerOf : Except Fault Result → Answer
  | .ok _ => .done
  | .error fault => .failed fault

namespace Scene

/-- The scene after something has happened, if it is possible. The progress call may fail. -/
def act (job : Job) (scene : Scene) : Act → Option Scene
  | .move m => (scene.world.move m).map fun world => { scene with world }
  | .stop => some { scene with runner := scene.runner.stop.1 }
  | .goOn =>
    match scene.turn with
    | .asks .poll stage p =>
      some { scene with turn := job.plan.resume stage p (.stop scene.runner.stopRequested) }
    | .asks (.announce position total) stage p =>
      some { scene with
        runner := scene.runner.announce position total
        turn := job.plan.resume stage p .done }
    | .asks (.sleep _) stage p => some { scene with turn := job.plan.resume stage p .done }
    | _ => none
  | .fail fault =>
    match scene.turn with
    | .asks (.announce position total) stage p =>
      some { scene with
        runner := scene.runner.announce position total
        turn := job.plan.resume stage p (.failed fault) }
    | _ => none
  | .send id =>
    match scene.turn, scene.sending with
    | .asks (.send value) _ _, none =>
      (scene.world.move (.begin id (.sendData value job.format job.ending))).map fun world =>
        { scene with world, sending := some id }
    | _, _ => none
  | .hear =>
    match scene.turn, scene.sending with
    | .asks (.send _) stage p, some id =>
      match scene.world.tasks (.call id) with
      | .rests (.over result) _ =>
        some { scene with turn := job.plan.resume stage p (answerOf result), sending := none }
      | _ => none
    | _, _ => none

/-- The move of the session in an act. -/
def move? (job : Job) (scene : Scene) : Act → Option Move
  | .move m => some m
  | .send id =>
    match scene.turn with
    | .asks (.send value) _ _ => some (.begin id (.sendData value job.format job.ending))
    | _ => none
  | _ => none

/-- Whether an act leaves a script alone: nobody else sends, no write fails, the progress call does
not fail, and nobody asks to stop. -/
def Calm (scene : Scene) : Act → Prop
  | .move (.begin _ op) => op.payload? = none
  | .move (.answer c (.failed _)) => ∀ d data, ¬ scene.world.Asks c (.write d data)
  | .stop | .fail _ => False
  | _ => True

/-- What the call that a scene waits for has begun to write, and what of that is in the log. -/
inductive Pending (job : Job) (d : Handle) (scene : Scene) : List Bytes → List Bytes → Prop where
  | nothing : scene.sending = none → Pending job d scene [] []
  | send {id : Nat} {value : String} {stage : Script.Stage} {p : Script.Progress}
    {begun done : List Bytes} : scene.sending = some id → scene.turn = .asks (.send value) stage p →
    Sending d (job.encode value) (scene.world.tasks (.call id)) begun done →
    Pending job d scene begun done

/-- A scene in which a script has come so far that the given exchanges are behind it, since the
session was as in `w`, and nobody else has sent. -/
structure Follows (job : Job) (w : World) (d : Handle) (scene : Scene)
    (exchanges : List Exchange) : Prop where
  device : scene.world.session.device = some d
  unstopped : scene.runner.stopRequested = false
  leads : ∃ trace, job.plan.Leads job.surroundings job.plan.start {} exchanges scene.turn trace
  alone : ∀ c, (scene.world.tasks c).isSending = true →
    ∃ id, scene.sending = some id ∧ c = .call id
  sent : ∃ new written begun done, scene.world.history = w.history ++ new ∧
    (sentOf exchanges).map job.encode = written.map .ok ∧
    starts new = (written ++ begun).map (.write d) ∧ payloads .sent new = written ++ done ∧
    scene.Pending job d begun done

variable {job : Job} {w : World} {d : Handle} {scene next : Scene} {exchanges : List Exchange}
  {a : Act}

theorem act_goOn (h : scene.act job .goOn = some next) :
    ∃ request stage p answer runner, scene.turn = .asks request stage p ∧
      (∀ value, request ≠ .send value) ∧ request.Takes answer ∧
      next = { scene with runner, turn := job.plan.resume stage p answer } ∧
      runner.stopRequested = scene.runner.stopRequested ∧
      (scene.runner.stopRequested = false →
        ∀ trace, (job.surroundings.answer trace request).1 = answer) := by
  rw [act] at h
  split at h
  case h_1 stage p hturn =>
    cases h
    refine ⟨_, stage, p, .stop scene.runner.stopRequested, _, hturn, nofun, trivial, rfl, rfl, ?_⟩
    intro hno trace
    rw [hno]
    rfl
  case h_2 position total stage p hturn =>
    cases h
    exact ⟨_, stage, p, .done, _, hturn, nofun, trivial, rfl, rfl, fun _ _ => rfl⟩
  case h_3 seconds stage p hturn =>
    cases h
    exact ⟨_, stage, p, .done, _, hturn, nofun, trivial, rfl, rfl, fun _ _ => rfl⟩
  case h_4 => cases h

theorem act_fail {fault : Fault} (h : scene.act job (.fail fault) = some next) :
    ∃ position total stage p, scene.turn = .asks (.announce position total) stage p ∧
      next = { scene with
        runner := scene.runner.announce position total
        turn := job.plan.resume stage p (.failed fault) } := by
  rw [act] at h
  split at h
  case h_1 position total stage p hturn =>
    cases h
    exact ⟨position, total, stage, p, hturn, rfl⟩
  case h_2 => cases h

theorem act_send {id : Nat} (h : scene.act job (.send id) = some next) :
    ∃ value stage p world, scene.turn = .asks (.send value) stage p ∧ scene.sending = none ∧
      scene.world.move (.begin id (.sendData value job.format job.ending)) = some world ∧
      next = { scene with world, sending := some id } := by
  rw [act] at h
  split at h
  case h_1 value stage p hturn hnone =>
    obtain ⟨world, hmove, rfl⟩ := Option.map_eq_some_iff.1 h
    exact ⟨value, stage, p, world, hturn, hnone, hmove, rfl⟩
  case h_2 => cases h

theorem act_hear (h : scene.act job .hear = some next) :
    ∃ value stage p id result told, scene.turn = .asks (.send value) stage p ∧
      scene.sending = some id ∧ scene.world.tasks (.call id) = .rests (.over result) told ∧
      next = { scene with
        turn := job.plan.resume stage p (answerOf result)
        sending := none } := by
  rw [act] at h
  split at h
  case h_1 value stage p id hturn hsending =>
    split at h
    case h_1 result told hover =>
      cases h
      exact ⟨value, stage, p, id, result, told, hturn, hsending, hover, rfl⟩
    case h_2 => cases h
  case h_2 => cases h

theorem act_world (h : scene.act job a = some next) :
    (scene.move? job a = none ∧ next.world = scene.world) ∨
      ∃ m, scene.move? job a = some m ∧ scene.world.move m = some next.world := by
  cases a with
  | move m =>
    obtain ⟨world, hmove, rfl⟩ := Option.map_eq_some_iff.1 h
    exact Or.inr ⟨m, rfl, hmove⟩
  | stop =>
    cases h
    exact Or.inl ⟨rfl, rfl⟩
  | goOn =>
    obtain ⟨_, _, _, _, _, _, _, _, rfl, _⟩ := act_goOn h
    exact Or.inl ⟨rfl, rfl⟩
  | fail fault =>
    obtain ⟨_, _, _, _, _, rfl⟩ := act_fail h
    exact Or.inl ⟨rfl, rfl⟩
  | send id =>
    obtain ⟨value, stage, p, world, hturn, _, hmove, rfl⟩ := act_send h
    exact Or.inr ⟨_, by rw [move?, hturn], hmove⟩
  | hear =>
    obtain ⟨_, _, _, _, _, _, _, _, _, rfl⟩ := act_hear h
    exact Or.inl ⟨rfl, rfl⟩

/-! ## Moves of the session -/

section

variable {world : World} {me : Caller} {course : Course} {events : List Event} {s : Session}
  {pause : Pause}

/-- After a move the exchanges are the same. What the move writes is pending, and so is what it
logs. -/
theorem Follows.moves {sending : Option Nat} (h : scene.Follows job w d exchanges)
    (hsound : scene.world.Sound course) (hdeed : scene.world.Deed me events s pause)
    (hchanges : scene.world.Changes world me events s pause)
    (hbefore : scene.world.session.phase = .connected) (hafter : world.session.phase = .connected)
    (hkeeps : ∀ id, scene.sending = some id → sending = some id)
    (hmine : (world.tasks me).isSending = true → ∃ id, sending = some id ∧ me = .call id)
    (hwrites : ∀ begun done, scene.Pending job d begun done → ∃ more logged,
      starts events = more.map (.write d) ∧ payloads .sent events = logged ∧
        ({ scene with world, sending } : Scene).Pending job d (begun ++ more) (done ++ logged)) :
    ({ scene with world, sending } : Scene).Follows job w d exchanges := by
  obtain ⟨new, written, begun, done, hnew, hwritten, hstarts, hsent, hpending⟩ := h.sent
  obtain ⟨more, logged, hmore, hlogged, hnext⟩ := hwrites begun done hpending
  refine ⟨?_, h.unstopped, h.leads, fun c hc => ?_, new ++ events, written, begun ++ more,
    done ++ logged, ?_, hwritten, ?_, ?_, hnext⟩
  · exact (hchanges.device_connected hdeed hbefore hafter).trans h.device
  · by_cases heq : c = me
    · subst heq
      exact hmine hc
    · obtain ⟨id, hid, rfl⟩ := h.alone c (hchanges.isSending_of_ne hsound heq hc)
      exact ⟨id, hkeeps id hid, rfl⟩
  · rw [hchanges.history, hnew, List.append_assoc]
  · rw [Session.starts_append, hstarts, hmore, ← List.map_append, List.append_assoc]
  · rw [Session.payloads_append, hsent, hlogged, List.append_assoc]

/-- A move of somebody else who does not send. -/
theorem Follows.spared (h : scene.Follows job w d exchanges) (hsound : scene.world.Sound course)
    (hdeed : scene.world.Deed me events s pause)
    (hchanges : scene.world.Changes world me events s pause)
    (hbefore : scene.world.session.phase = .connected) (hafter : world.session.phase = .connected)
    (hme : ∀ id, scene.sending = some id → me ≠ .call id)
    (hop : ∀ op, .begun me op ∈ events → op.payload? = none) :
    ({ scene with world } : Scene).Follows job w d exchanges := by
  have hphase : s.phase = .connected := (Session.phase_of_bare hchanges.bare).symm.trans hafter
  have hidle : (scene.world.tasks me).isSending = false := by
    rw [Bool.eq_false_iff]
    intro hsends
    obtain ⟨id, hid, rfl⟩ := h.alone me hsends
    exact hme id hid rfl
  obtain ⟨hnone, hquiet⟩ := hdeed.spares hbefore hphase hidle hop
  refine h.moves hsound hdeed hchanges hbefore hafter (fun _ => id) (fun hmine => ?_)
    fun begun done hpending => ⟨[], [], hnone, hquiet, ?_⟩
  · rw [hchanges.mine] at hmine
    have hstill : pause.isSending = false := hdeed.idle hidle hop
    exact absurd (hmine.symm.trans hstill) nofun
  · rw [List.append_nil, List.append_nil]
    cases hpending with
    | nothing hsending => exact .nothing hsending
    | @send id _ _ _ _ _ hsending hturn hs =>
      exact .send hsending hturn (hs.told (hchanges.call_of_ne (hme id hsending).symm))

/-- The call of a send goes on. -/
theorem Follows.sends (h : scene.Follows job w d exchanges) (hsound : scene.world.Sound course)
    {id : Nat} (hsending : scene.sending = some id)
    (hdeed : scene.world.Deed (.call id) events s pause)
    (hchanges : scene.world.Changes world (.call id) events s pause)
    (hbefore : scene.world.session.phase = .connected) (hafter : world.session.phase = .connected)
    (hwrites : ∀ data told fault,
      scene.world.tasks (.call id) = .rests (.askDevice (.write d data) (.writing d data)) told →
        .answered (.call id) (.write d data) (.failed fault) ∉ events) :
    ({ scene with world } : Scene).Follows job w d exchanges := by
  refine h.moves hsound hdeed hchanges hbefore hafter (fun _ hid => hid)
    (fun _ => ⟨id, hsending, rfl⟩) fun begun done hpending => ?_
  cases hpending with
  | nothing hnone =>
    rw [hsending] at hnone
    cases hnone
  | @send id' _ _ _ _ _ hsending' hturn hs =>
    rw [hsending] at hsending'
    cases hsending'
    obtain ⟨more, logged, hs', hmore, hlogged⟩ :=
      hdeed.sends hsound hs hbefore h.device hwrites
    refine ⟨more, logged, hmore, hlogged, .send hsending hturn ?_⟩
    rw [hchanges.mine]
    exact hs'

/-- The runner begins a send. -/
theorem Follows.begins (h : scene.Follows job w d exchanges) (hsound : scene.world.Sound course)
    {id : Nat} {value : String} {stage : Script.Stage} {p : Script.Progress}
    (hturn : scene.turn = .asks (.send value) stage p) (hnone : scene.sending = none)
    (hmove : scene.world.move (.begin id (.sendData value job.format job.ending)) = some world)
    (hbefore : scene.world.session.phase = .connected) (hafter : world.session.phase = .connected)
    (hsome : job.encode value ≠ .ok []) :
    ({ scene with world, sending := some id } : Scene).Follows job w d exchanges := by
  obtain ⟨events, s, pause, hdeed, hchanges⟩ := hsound.does_move hmove
  obtain ⟨more, hs, hmore, hlogged⟩ :=
    World.begin_sending hmove hchanges.history hbefore h.device hsome
  refine h.moves hsound hdeed hchanges hbefore hafter (fun other hother => ?_)
    (fun _ => ⟨id, rfl, rfl⟩) fun begun done hpending => ?_
  · rw [hnone] at hother
    cases hother
  · cases hpending with
    | send hsending _ _ =>
      rw [hnone] at hsending
      cases hsending
    | nothing _ => exact ⟨more, [], hmore, hlogged, .send rfl hturn hs⟩

end

/-! ## What the runner does -/

/-- Something other than a send is answered as if nothing failed. -/
theorem Follows.goOn (h : scene.Follows job w d exchanges)
    (hact : scene.act job .goOn = some next) : ∃ e, next.Follows job w d (exchanges ++ [e]) := by
  obtain ⟨request, stage, p, answer, runner, hturn, hrequest, _, rfl, hstop, hanswer⟩ :=
    act_goOn hact
  obtain ⟨trace, hleads⟩ := h.leads
  rw [hturn] at hleads
  obtain ⟨new, written, begun, done, hnew, hwritten, hstarts, hsent, hpending⟩ := h.sent
  have hnone : sentOf [(request, answer)] = [] := by
    cases request with
    | send value => exact absurd rfl (hrequest value)
    | _ => rfl
  cases hpending with
  | send _ hsends _ =>
    rw [hturn] at hsends
    cases hsends
    exact absurd rfl (hrequest _)
  | nothing hsending =>
    refine ⟨(request, answer), h.device, hstop.trans h.unstopped,
      ⟨_, hleads.snoc (Prod.ext (hanswer h.unstopped trace) rfl)⟩, h.alone, new, written, [], [],
      hnew, ?_, hstarts, hsent, .nothing hsending⟩
    rw [Script.sentOf_append, hnone, List.append_nil, hwritten]

/-- When the call of a send is over, what it has written is what the value was to be sent as. -/
theorem Pending.over {begun done : List Bytes} (h : scene.Pending job d begun done) {value : String}
    {stage : Script.Stage} {p : Script.Progress} {id : Nat} {result : Except Fault Result}
    {told : Bool} (hturn : scene.turn = .asks (.send value) stage p)
    (hsending : scene.sending = some id)
    (hover : scene.world.tasks (.call id) = .rests (.over result) told) :
    done = begun ∧ (sentOf [(.send value, answerOf result)]).map job.encode = begun.map .ok ∧
      ∀ trace, (job.surroundings.answer trace (.send value)).1 = answerOf result := by
  cases h with
  | nothing hnone =>
    rw [hsending] at hnone
    cases hnone
  | @send id' _ _ _ _ _ hsending' hturn' hs =>
    rw [hsending] at hsending'
    cases hsending'
    rw [hturn] at hturn'
    cases hturn'
    rw [hover] at hs
    rcases hs.of_over with ⟨fault, hencode, rfl, rfl, rfl⟩ | ⟨data, entry, hencode, rfl, rfl, rfl⟩
    · refine ⟨rfl, rfl, fun trace => ?_⟩
      simp only [Script.Surroundings.answer, Job.surroundings, Script.Surroundings.refusing,
        Job.refuses_of_error hencode, answerOf]
    · refine ⟨rfl, congrArg ([·]) hencode, fun trace => ?_⟩
      simp only [Script.Surroundings.answer, Job.surroundings, Script.Surroundings.refusing,
        Job.refuses_of_ok hencode, answerOf]

theorem Follows.hear (h : scene.Follows job w d exchanges)
    (hact : scene.act job .hear = some next) : ∃ e, next.Follows job w d (exchanges ++ [e]) := by
  obtain ⟨value, stage, p, id, result, told, hturn, hsending, hover, rfl⟩ := act_hear hact
  obtain ⟨trace, hleads⟩ := h.leads
  rw [hturn] at hleads
  obtain ⟨new, written, begun, done, hnew, hwritten, hstarts, hsent, hpending⟩ := h.sent
  obtain ⟨rfl, hencode, hanswer⟩ := hpending.over hturn hsending hover
  refine ⟨(.send value, answerOf result), h.device, h.unstopped,
    ⟨_, hleads.snoc (Prod.ext (hanswer trace) rfl)⟩, fun c hc => ?_, new, written ++ done, [], [],
    hnew, ?_, ?_, ?_, .nothing rfl⟩
  · obtain ⟨other, hother, rfl⟩ := h.alone c hc
    rw [hsending] at hother
    cases hother
    rw [hover] at hc
    cases hc
  · rw [Script.sentOf_append, List.map_append, hwritten, hencode, List.map_append]
  · rw [hstarts, List.append_nil]
  · rw [hsent, List.append_nil]

/-- Whatever happens in a calm way, the script goes on or stays where it is. -/
theorem Follows.act (h : scene.Follows job w d exchanges) (hreach : scene.world.Reachable)
    (hrange : ∀ c ∈ job.plan.commands.toList, c.InRange) (hact : scene.act job a = some next)
    (hcalm : scene.Calm a) (hbefore : scene.world.session.phase = .connected)
    (hafter : next.world.session.phase = .connected) :
    ∃ more, next.Follows job w d (exchanges ++ more) ∧ (a = .goOn ∨ a = .hear → more ≠ []) := by
  obtain ⟨course, hsound⟩ := hreach.sound
  cases a with
  | move m =>
    obtain ⟨world, hmove, rfl⟩ := Option.map_eq_some_iff.1 hact
    obtain ⟨events, s, pause, hdeed, hchanges⟩ := hsound.does_move hmove
    refine ⟨[], ?_, by simp⟩
    rw [List.append_nil]
    -- only the call that the runner waits for writes anything; the moves of all others are spared
    by_cases hmine : ∃ id, scene.sending = some id ∧ m.caller = .call id
    · obtain ⟨id, hsending, hid⟩ := hmine
      rw [hid] at hdeed hchanges
      refine h.sends hsound hsending hdeed hchanges hbefore hafter
        fun data told fault htask hmem => ?_
      cases World.failed_of_move hmove hid hchanges.history htask hmem
      exact hcalm d data ⟨_, told, htask⟩
    · refine h.spared hsound hdeed hchanges hbefore hafter
        (fun id hsending hid => hmine ⟨id, hsending, hid⟩) fun op hmem => ?_
      obtain ⟨id, rfl⟩ := World.begun_of_move hmove hdeed hchanges.history hmem
      exact hcalm
  | stop | fail fault => exact hcalm.elim
  | goOn =>
    obtain ⟨e, he⟩ := h.goOn hact
    exact ⟨[e], he, fun _ => List.cons_ne_nil e []⟩
  | hear =>
    obtain ⟨e, he⟩ := h.hear hact
    exact ⟨[e], he, fun _ => List.cons_ne_nil e []⟩
  | send id =>
    refine ⟨[], ?_, by simp⟩
    rw [List.append_nil]
    obtain ⟨value, stage, p, world, hturn, hnone, hmove, rfl⟩ := act_send hact
    obtain ⟨trace, hleads⟩ := h.leads
    rw [hturn] at hleads
    obtain ⟨_, line, hmem⟩ := (hleads.reached .start).sends
    exact h.begins hsound hturn hnone hmove hbefore hafter fun hencode =>
      Payload.encode_ne_nil (hrange _ hmem).1 hencode rfl

end Scene

end Running

end SerialConsole
