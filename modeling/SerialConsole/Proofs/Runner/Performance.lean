import SerialConsole.Proofs.Runner.Scene

set_option autoImplicit false

/-!
# Scripts on a session that nobody disturbs

A `Performance` is a course of scenes without end. If it is fair and nobody disturbs it, it comes to
the end of its script (`Fair.finishes`): as long as the script asks for something, the runner has
something to do or waits for a call, and in a fair course calls end.
-/
namespace SerialConsole

namespace Session

namespace World

variable {w : World}

/-- There is always a call that has not begun. -/
theorem Reachable.exists_absent (h : w.Reachable) : ∃ id, w.tasks (.call id) = .absent := by
  have hall : ∃ n, ∀ id, n ≤ id → w.tasks (.call id) = .absent := by
    refine Reachable.always (P := fun w => ∃ n, ∀ id, n ≤ id → w.tasks (.call id) = .absent) h ?_ ?_
    · exact fun _ _ => ⟨0, fun _ _ => rfl⟩
    · rintro u next me course _ _ ⟨events, s, pause, _, hchanges⟩ ⟨n, hn⟩
      have hothers : ∀ id, n ≤ id → .call id ≠ me → next.tasks (.call id) = .absent := by
        intro id hid hne
        rcases hchanges.call_of_ne hne with hsame | ⟨_, _, hbefore, _⟩
        · rw [hsame, hn id hid]
        · rw [hn id hid] at hbefore
          cases hbefore
      cases me with
      | reader k => exact ⟨n, fun id hid => hothers id hid nofun⟩
      | call k =>
        refine ⟨max n (k + 1), fun id hid => hothers id (by omega) fun heq => ?_⟩
        cases heq
        omega
  obtain ⟨n, hn⟩ := hall
  exact ⟨n, hn n (Nat.le_refl n)⟩

end World

namespace Endless

variable {e : Endless} {t u : Nat} {c : Caller}

theorem run_to (e : Endless) (t : Nat) : ∃ moves, (e.world 0).run moves = some (e.world t) := by
  induction t with
  | zero => exact ⟨[], rfl⟩
  | succ t ih =>
    obtain ⟨moves, hrun⟩ := ih
    rcases e.step t with ⟨_, hsame⟩ | ⟨m, _, hmove⟩
    · exact ⟨moves, by rw [hsame, hrun]⟩
    · exact ⟨moves ++ [m], (World.run_append hrun).trans (World.run_cons hmove)⟩

/-- What is over stays over. -/
theorem over_stays {result : Except Fault Result} {told : Bool}
    (hover : (e.world t).tasks c = .rests (.over result) told) (hu : t ≤ u) :
    ∃ told, (e.world u).tasks c = .rests (.over result) told := by
  induction hu with
  | refl => exact ⟨told, hover⟩
  | @step u _ ih =>
    obtain ⟨told', hthere⟩ := ih
    rcases e.made_or_same u with hsame | ⟨me, hmoves⟩
    · rw [hsame]
      exact ⟨told', hthere⟩
    · obtain ⟨course, hsound⟩ := e.sound_at u
      obtain ⟨events, s, pause, hdeed, hchanges⟩ := does_at hmoves
      refine hchanges.rests hsound (fun hc => ?_) hthere
      subst hc
      exact hdeed.not_over hthere

end Endless

end Session

namespace Running

open Session (World Move Endless Sending starts payloads logged)
open Script (Turn Answer Exchange sentOf sentBy)

/-- The runner can go on. -/
def Scene.Ready (job : Job) (scene : Scene) : Prop :=
  ∃ a, a.isRunners = true ∧ (scene.act job a).isSome = true

theorem Scene.act_stays {job : Job} {scene next : Scene} {a : Act}
    (hact : scene.act job a = some next) (hgoes : a ≠ .goOn) (hhears : a ≠ .hear)
    (hfails : ∀ fault, a ≠ .fail fault) :
    next.turn = scene.turn ∧ ∀ id, scene.sending = some id → next.sending = some id := by
  cases a with
  | move m =>
    obtain ⟨world, _, rfl⟩ := Option.map_eq_some_iff.1 hact
    exact ⟨rfl, fun _ => id⟩
  | stop =>
    cases hact
    exact ⟨rfl, fun _ => id⟩
  | goOn => exact absurd rfl hgoes
  | hear => exact absurd rfl hhears
  | fail fault => exact absurd rfl (hfails fault)
  | send id =>
    obtain ⟨_, _, _, world, _, hnone, _, rfl⟩ := act_send hact
    refine ⟨rfl, fun other hother => ?_⟩
    rw [hnone] at hother
    cases hother

theorem Scene.act_reached {job : Job} {scene next : Scene} {a : Act}
    (h : job.plan.Reached scene.turn) (hact : scene.act job a = some next) :
    job.plan.Reached next.turn := by
  cases a with
  | move m =>
    obtain ⟨world, _, rfl⟩ := Option.map_eq_some_iff.1 hact
    exact h
  | stop =>
    cases hact
    exact h
  | goOn =>
    obtain ⟨_, _, _, _, _, hturn, _, htakes, rfl, _⟩ := act_goOn hact
    rw [hturn] at h
    exact .resume _ h htakes
  | fail fault =>
    obtain ⟨_, _, _, _, hturn, rfl⟩ := act_fail hact
    rw [hturn] at h
    exact .resume (.failed fault) h trivial
  | send id =>
    obtain ⟨_, _, _, _, _, _, _, rfl⟩ := act_send hact
    exact h
  | hear =>
    obtain ⟨_, _, _, _, result, _, hturn, _, _, rfl⟩ := act_hear hact
    rw [hturn] at h
    exact .resume _ h (by cases result <;> exact trivial)

/-- A course of scenes without end: at each time something happens, or nothing does. -/
structure Performance (job : Job) where
  scene : Nat → Scene
  act : Nat → Option Act
  reachable : (scene 0).world.Reachable
  step : ∀ t, (act t = none ∧ scene (t + 1) = scene t) ∨
    ∃ a, act t = some a ∧ (scene t).act job a = some (scene (t + 1))

namespace Performance

variable {job : Job} {p : Performance job} {t u : Nat} {d : Handle} {exchanges : List Exchange}
  {w : World} {a : Act}

/-- The session in a performance. -/
def session (p : Performance job) : Endless where
  world t := (p.scene t).world
  made t := (p.act t).bind ((p.scene t).move? job)
  reachable := p.reachable
  step t := by
    rcases p.step t with ⟨hnone, hsame⟩ | ⟨a, hact, hstep⟩
    · exact Or.inl ⟨by rw [hnone]; rfl, by rw [hsame]⟩
    · rw [hact]
      rcases Scene.act_world hstep with ⟨hnone, hsame⟩ | hmove
      · exact Or.inl ⟨hnone, hsame⟩
      · exact Or.inr hmove

/-- Nobody who can go on all the time is left out for ever: the runner, and those on the session. -/
structure Fair (p : Performance job) : Prop where
  session : p.session.Fair
  runner : ∀ t, (∀ u, t ≤ u → (p.scene u).Ready job) →
    ∃ u a, t ≤ u ∧ p.act u = some a ∧ a.isRunners = true

/-- The script is not over before a time. -/
def Goes (p : Performance job) (t : Nat) : Prop :=
  ∀ s, s < t → ∃ request stage q, (p.scene s).turn = .asks request stage q

/-- Until the script is over the session stays connected, writes and progress calls succeed, nobody
asks to stop, and nobody else sends. -/
structure Undisturbed (p : Performance job) : Prop where
  connected : ∀ t, p.Goes t → (p.scene t).world.session.phase = .connected
  calm : ∀ t a, p.Goes (t + 1) → p.act t = some a → (p.scene t).Calm a
  idle : ∀ c, ((p.scene 0).world.tasks c).isSending = false

theorem goes_zero (p : Performance job) : p.Goes 0 := nofun

theorem Goes.succ (h : p.Goes t) {request : Script.Request} {stage : Script.Stage}
    {q : Script.Progress} (hturn : (p.scene t).turn = .asks request stage q) : p.Goes (t + 1) := by
  intro s hs
  rcases Nat.lt_succ_iff_lt_or_eq.1 hs with hlt | rfl
  · exact h s hlt
  · exact ⟨request, stage, q, hturn⟩

theorem Goes.before (h : p.Goes u) (ht : t ≤ u) : p.Goes t :=
  fun s hs => h s (Nat.lt_of_lt_of_le hs ht)

theorem act_at (hact : p.act t = some a) : (p.scene t).act job a = some (p.scene (t + 1)) := by
  rcases p.step t with ⟨hnone, _⟩ | ⟨b, hact', hstep⟩
  · rw [hact] at hnone
    cases hnone
  · rw [hact] at hact'
    cases hact'
    exact hstep

theorem reachable_at (p : Performance job) (t : Nat) : (p.scene t).world.Reachable :=
  p.session.reachable_at t

theorem follows_once (hcalm : p.Undisturbed) (hrange : ∀ c ∈ job.plan.commands.toList, c.InRange)
    (hgoes : p.Goes (t + 1)) (h : (p.scene t).Follows job w d exchanges) :
    ∃ more, (p.scene (t + 1)).Follows job w d (exchanges ++ more) ∧
      (p.act t = some .goOn ∨ p.act t = some .hear → more ≠ []) := by
  rcases p.step t with ⟨hnone, hsame⟩ | ⟨a, hact, hstep⟩
  · refine ⟨[], ?_, ?_⟩
    · rw [hsame, List.append_nil]
      exact h
    · rw [hnone]
      rintro (heq | heq) <;> cases heq
  · obtain ⟨more, hnext, hmore⟩ := h.act (p.reachable_at t) hrange hstep
      (hcalm.calm t a hgoes hact) (hcalm.connected t (hgoes.before (Nat.le_succ t)))
      (hcalm.connected (t + 1) hgoes)
    refine ⟨more, hnext, fun hgoesOn => hmore ?_⟩
    rw [hact] at hgoesOn
    exact hgoesOn.imp Option.some.inj Option.some.inj

theorem follows_on (hcalm : p.Undisturbed) (hrange : ∀ c ∈ job.plan.commands.toList, c.InRange)
    (h : (p.scene t).Follows job w d exchanges) (hu : t ≤ u) (hgoes : p.Goes u) :
    ∃ more, (p.scene u).Follows job w d (exchanges ++ more) := by
  induction hu with
  | refl => exact ⟨[], by rwa [List.append_nil]⟩
  | @step u _ ih =>
    obtain ⟨more, hmore⟩ := ih (hgoes.before (Nat.le_succ u))
    obtain ⟨later, hlater, _⟩ := follows_once hcalm hrange hgoes hmore
    rw [List.append_assoc] at hlater
    exact ⟨more ++ later, hlater⟩

/-- What a script comes to is something that its execution can come to. -/
theorem reached (hfirst : (p.scene 0).turn = job.plan.start) (t : Nat) :
    job.plan.Reached (p.scene t).turn := by
  induction t with
  | zero => exact hfirst ▸ .start
  | succ t ih =>
    rcases p.step t with ⟨_, hsame⟩ | ⟨a, _, hstep⟩
    · rwa [hsame]
    · exact Scene.act_reached ih hstep

/-- However a script is disturbed, no send of it ends for want of something to write or writes
nothing. -/
theorem sends_something (hfirst : (p.scene 0).turn = job.plan.start)
    (hrange : ∀ c ∈ job.plan.commands.toList, c.InRange) {id : Nat}
    (hact : p.act t = some (.send id)) (hu : t < u) :
    (∀ fault told, (p.scene u).world.tasks (.call id) = .rests (.over (.error fault)) told →
      fault.kind ≠ .emptyPayload) ∧
      ∀ d, .asked (.call id) (.write d []) ∉ (p.scene u).world.history := by
  obtain ⟨value, stage, q, world, hturn, _, hmove, hnext⟩ := Scene.act_send (act_at hact)
  obtain ⟨_, line, hmem⟩ := (hturn ▸ reached hfirst t).sends
  have hsome : Payload.encode value job.format job.ending ≠ .ok [] := fun hencode =>
    Payload.encode_ne_nil (hrange _ hmem).1 hencode rfl
  obtain ⟨course, hsound⟩ := (p.reachable_at t).sound
  obtain ⟨events, s, pause, _, hchanges⟩ := hsound.does_move hmove
  obtain ⟨later, rfl⟩ := World.begin_history hmove hchanges.history
  have hbegun : .begun (.call id) (.sendData value job.format job.ending) ∈
      (p.scene (t + 1)).world.history := by
    rw [hnext, hchanges.history]
    exact List.mem_append_right _ List.mem_cons_self
  have hthere := Endless.history_grows hbegun (e := p.session) hu
  have hop : (Session.Operation.sendData value job.format job.ending).payload? =
      some (Payload.encode value job.format job.ending) := rfl
  obtain ⟨hkind, hwrites⟩ := World.not_empty_of_stage ((p.reachable_at u).stage id) hop hsome
    (Session.mem_own.2 ⟨hthere, rfl⟩)
  exact ⟨hkind, fun d hmem => hwrites d (Session.mem_own.2 ⟨hmem, rfl⟩)⟩

/-! ## The end of a script -/

variable {request : Script.Request} {stage : Script.Stage} {q : Script.Progress}

/-- From a time on the runner neither goes on nor hears of a call, unless the script is over. -/
def Rests (p : Performance job) (t : Nat) : Prop :=
  ∀ u, t ≤ u → p.Goes (u + 1) → p.act u ≠ some .goOn ∧ p.act u ≠ some .hear

theorem Rests.after (h : p.Rests t) (hu : t ≤ u) : p.Rests u :=
  fun v hv => h v (Nat.le_trans hu hv)

/-- A script of which the runner rests stays where it is. -/
theorem Rests.stays (hrests : p.Rests t) (hcalm : p.Undisturbed) (hgoes : p.Goes t)
    (hturn : (p.scene t).turn = .asks request stage q) (hu : t ≤ u) :
    p.Goes u ∧ (p.scene u).turn = .asks request stage q ∧
      ∀ id, (p.scene t).sending = some id → (p.scene u).sending = some id := by
  induction hu with
  | refl => exact ⟨hgoes, hturn, fun _ => id⟩
  | @step u hu ih =>
    obtain ⟨hthere, hsame, hsending⟩ := ih
    have hnext := hthere.succ hsame
    refine ⟨hnext, ?_⟩
    rcases p.step u with ⟨_, hstill⟩ | ⟨a, hact, hstep⟩
    · rw [hstill]
      exact ⟨hsame, hsending⟩
    · have hnot := hrests u hu hnext
      rw [hact] at hnot
      obtain ⟨hturn', hsending'⟩ := Scene.act_stays hstep (fun heq => hnot.1 (congrArg some heq))
        (fun heq => hnot.2 (congrArg some heq)) (by
          rintro fault rfl
          exact hcalm.calm u _ hnext hact)
      exact ⟨hturn'.trans hsame, fun id hid => hsending' id (hsending id hid)⟩

/-- A runner that rests but could go on all the time begins a send. -/
theorem Fair.begins (hfair : p.Fair) (hrests : p.Rests t) (hgoes : ∀ u, t ≤ u → p.Goes u)
    (hready : ∀ u, t ≤ u → (p.scene u).Ready job) : ∃ u id, t ≤ u ∧ p.act u = some (.send id) := by
  obtain ⟨u, a, hu, hact, hrunners⟩ := hfair.runner t hready
  have hnot := hrests u hu (hgoes (u + 1) (Nat.le_succ_of_le hu))
  cases a with
  | goOn => exact absurd hact hnot.1
  | hear => exact absurd hact hnot.2
  | send id => exact ⟨u, id, hu, hact⟩
  | move m | stop | fail fault => cases hrunners

/-- A runner that waits for a call hears of it. -/
theorem Fair.hears (hfair : p.Fair) (hcalm : p.Undisturbed) (hgoes : p.Goes t)
    (h : (p.scene t).Follows job w d exchanges) {id : Nat}
    (hsending : (p.scene t).sending = some id) : ¬ p.Rests t := by
  intro hrests
  obtain ⟨new, written, begun, done, _, _, _, _, hpending⟩ := h.sent
  cases hpending with
  | nothing hnothing =>
    rw [hsending] at hnothing
    cases hnothing
  | @send id' value stage q _ _ hsending' hturn hs =>
    rw [hsending] at hsending'
    cases hsending'
    obtain ⟨pause, told, htask, hwatch⟩ := hs.rests
    -- the call ends, and from then on the runner could hear of it
    obtain ⟨v, result, told', hv, hover⟩ := hfair.session.ends htask hwatch
    have hthere : ∀ u, v ≤ u → p.Goes u ∧ (p.scene u).turn = .asks (.send value) stage q ∧
        (p.scene u).sending = some id := by
      intro u hu
      obtain ⟨hgoes', hturn', hsending'⟩ := hrests.stays hcalm hgoes hturn (Nat.le_trans hv hu)
      exact ⟨hgoes', hturn', hsending' id hsending⟩
    have hready : ∀ u, v ≤ u → (p.scene u).Ready job := by
      intro u hu
      obtain ⟨_, hturn', hsending'⟩ := hthere u hu
      obtain ⟨told'', hover'⟩ := Endless.over_stays hover hu
      have hend : (p.scene u).world.tasks (.call id) = .rests (.over result) told'' := hover'
      refine ⟨.hear, rfl, ?_⟩
      rw [Scene.act, hturn', hsending']
      simp only [hend, Option.isSome_some]
    obtain ⟨u, other, hu, hact⟩ :=
      hfair.begins (hrests.after hv) (fun u hu => (hthere u hu).1) hready
    obtain ⟨_, _, _, _, _, hnone, _⟩ := Scene.act_send (act_at hact)
    rw [(hthere u hu).2.2] at hnone
    cases hnone

/-- A script that asks for something gets an answer. -/
theorem Fair.answers (hfair : p.Fair) (hcalm : p.Undisturbed)
    (hrange : ∀ c ∈ job.plan.commands.toList, c.InRange) (hgoes : p.Goes t)
    (h : (p.scene t).Follows job w d exchanges)
    (hturn : (p.scene t).turn = .asks request stage q) :
    ∃ u, t ≤ u ∧ p.Goes (u + 1) ∧ (p.act u = some .goOn ∨ p.act u = some .hear) := by
  by_contra hnone
  have hrests : p.Rests t := fun v hv hnext =>
    ⟨fun hact => hnone ⟨v, hv, hnext, Or.inl hact⟩, fun hact => hnone ⟨v, hv, hnext, Or.inr hact⟩⟩
  have hthere : ∀ u, t ≤ u → p.Goes u ∧ (p.scene u).turn = .asks request stage q ∧
      (p.scene u).sending = none := by
    intro u hu
    obtain ⟨hgoes', hturn', _⟩ := hrests.stays hcalm hgoes hturn hu
    refine ⟨hgoes', hturn', ?_⟩
    cases hsending : (p.scene u).sending with
    | none => rfl
    | some id =>
      obtain ⟨more, hmore⟩ := follows_on hcalm hrange h hu hgoes'
      exact absurd (hrests.after hu) (hfair.hears hcalm hgoes' hmore hsending)
  have hready : ∀ u, t ≤ u → (p.scene u).Ready job := by
    intro u hu
    obtain ⟨_, hturn', hsending⟩ := hthere u hu
    cases request with
    | poll | announce _ _ | sleep _ =>
      refine ⟨.goOn, rfl, ?_⟩
      rw [Scene.act, hturn']
      rfl
    | send value =>
      obtain ⟨id, habsent⟩ := (p.reachable_at u).exists_absent
      refine ⟨.send id, rfl, ?_⟩
      rw [Scene.act, hturn', hsending]
      simp only [World.move, habsent, Option.map_some, Option.isSome_some]
  obtain ⟨u, id, hu, hact⟩ := hfair.begins hrests (fun u hu => (hthere u hu).1) hready
  obtain ⟨_, _, _, world, _, _, _, hnext⟩ := Scene.act_send (act_at hact)
  have hwaits := (hthere (u + 1) (Nat.le_succ_of_le hu)).2.2
  rw [hnext] at hwaits
  cases hwaits

/-- A script comes to the end that its exchanges lead to. -/
theorem Fair.finishes (hfair : p.Fair) (hcalm : p.Undisturbed)
    (hrange : ∀ c ∈ job.plan.commands.toList, c.InRange) (hgoes : p.Goes t)
    (h : (p.scene t).Follows job w d exchanges) {whole : List Exchange}
    {outcome : Except Fault Script.Tally} {final : Script.Trace}
    (hend : job.plan.Leads job.surroundings job.plan.start {} whole (.finished outcome) final) :
    ∃ u, p.Goes u ∧ (p.scene u).turn = .finished outcome := by
  obtain ⟨trace, hleads⟩ := h.leads
  obtain ⟨later, hwhole, hlater⟩ := hleads.extends hend
  -- with every answer fewer exchanges are left
  induction hlength : later.length using Nat.strongRecOn generalizing t exchanges trace later with
  | ind k ih =>
    generalize hturn : (p.scene t).turn = turn at hlater
    cases hlater with
    | nil => exact ⟨t, hgoes, hturn⟩
    | @cons request stage q answer _ _ _ _ rest hanswer hrest =>
      obtain ⟨u, hu, hnext, hanswered⟩ := hfair.answers hcalm hrange hgoes h hturn
      obtain ⟨more, hmore⟩ := follows_on hcalm hrange h hu (hnext.before (Nat.le_succ u))
      obtain ⟨new, hnew, hsome⟩ := follows_once hcalm hrange hnext hmore
      obtain ⟨trace', hleads'⟩ := hnew.leads
      obtain ⟨later', hwhole', hlater'⟩ := hleads'.extends hend
      have hlonger := hsome hanswered
      have hless : later'.length < k := by
        have hlengths := congrArg List.length (hwhole.symm.trans hwhole')
        have hpos := List.length_pos_iff.2 hlonger
        simp only [List.length_append, List.length_cons] at hlengths hlength
        omega
      exact ih _ hless hnext hnew trace' hleads' later' hwhole' hlater' rfl

/-! ## Performances that come to rest -/

variable {scene last : Scene} {acts : List Act}

/-- Some acts, after which nothing happens any more. -/
def ofActs (scene last : Scene) (acts : List Act) (h : scene.world.Reachable)
    (hrun : acts.foldlM (Scene.act job) scene = some last) : Performance job where
  scene := Session.stateAt (Scene.act job) scene acts
  act := fun t => acts[t]?
  reachable := h
  step := Session.stateAt_step hrun

theorem fair_ofActs (h : scene.world.Reachable)
    (hrun : acts.foldlM (Scene.act job) scene = some last) (hworld : ∀ c, ¬ last.world.Ready c)
    (hrunner : ¬ last.Ready job) : (ofActs scene last acts h hrun).Fair := by
  have hlate : ∀ t, (ofActs scene last acts h hrun).scene (max t acts.length) = last := fun t =>
    Session.stateAt_late hrun (Nat.le_max_right t _)
  refine ⟨fun c t hready => ?_, fun t hready => ?_⟩
  · have hthere := hready (max t acts.length) (Nat.le_max_left t _)
    change Scene.world _ |>.Ready c at hthere
    rw [hlate] at hthere
    exact absurd hthere (hworld c)
  · have hthere := hready (max t acts.length) (Nat.le_max_left t _)
    rw [hlate] at hthere
    exact absurd hthere hrunner

end Performance

end Running

end SerialConsole
