import SerialConsole.Proofs.Script.Meaning

set_option autoImplicit false

/-!
# The step limit

Whatever the commands are and whatever an execution is answered, it announces no more steps than its
limit says (`ReachedBy.counted`). The limit is looked at in one place only, before a step is
announced: an execution with a larger limit does the same up to that place, and there it announces
the step for which the limit ends the other one (`runaway_iff`).
-/
namespace SerialConsole.Script

/-- No request failed. -/
def Unfailing (exchanges : List Exchange) : Prop :=
  ∀ request fault, (request, Answer.failed fault) ∉ exchanges

theorem Unfailing.snoc {exchanges : List Exchange} (h : Unfailing exchanges) (request : Request)
    {answer : Answer} (hanswer : ∀ fault, answer ≠ .failed fault) :
    Unfailing (exchanges ++ [(request, answer)]) := by
  intro other fault hmem
  rcases List.mem_append.1 hmem with hfirst | hlast
  · exact h other fault hfirst
  · cases List.mem_singleton.1 hlast
    exact hanswer fault rfl

theorem started_snoc (exchanges : List Exchange) (request : Request) (answer : Answer) :
    started (exchanges ++ [(request, answer)]) =
      started exchanges + (if request.isAnnouncement then 1 else 0) := by
  rw [started, List.countP_append, List.countP_singleton]
  rfl

namespace Plan

variable {plan : Plan}

/-- What an execution comes to by the given exchanges, whether surroundings answer so or not. -/
inductive ReachedBy (plan : Plan) : List Exchange → Turn → Prop where
  | start : plan.ReachedBy [] plan.start
  | resume {exchanges : List Exchange} {request : Request} {stage : Stage} {p : Progress}
      (answer : Answer) : plan.ReachedBy exchanges (.asks request stage p) →
        request.Takes answer →
          plan.ReachedBy (exchanges ++ [(request, answer)]) (plan.resume stage p answer)

theorem Leads.reachedBy {world : Surroundings} {turn next : Turn} {trace last : Trace}
    {before exchanges : List Exchange}
    (h : plan.Leads world turn trace exchanges next last) (hturn : plan.ReachedBy before turn) :
    plan.ReachedBy (before ++ exchanges) next := by
  induction h generalizing before with
  | nil turn trace => rwa [List.append_nil]
  | @cons request stage p answer next trace between last exchanges hanswer _ ih =>
    have htakes := answer_takes world trace request
    rw [hanswer] at htakes
    have hall := ih (.resume answer hturn htakes)
    rwa [List.append_assoc, List.singleton_append] at hall

theorem ReachedBy.reached {exchanges : List Exchange} {turn : Turn}
    (h : plan.ReachedBy exchanges turn) : plan.Reached turn := by
  induction h with
  | start => exact .start
  | resume answer _ htakes ih => exact .resume answer ih htakes

/-! ## Steps are counted when they are announced -/

/-- A turn behind `n` announcements. A step that is being announced is counted already. -/
inductive Counted (plan : Plan) (n : Nat) : Turn → Prop where
  | announces {p : Progress} : p.steps = n + 1 → n + 1 ≤ plan.maxSteps.toNat →
      plan.Counted n (.asks (.announce (p.index + 1) plan.total) .announcing p)
  | asks {request : Request} {stage : Stage} {p : Progress} : request.isAnnouncement = false →
      stage ≠ .announcing → p.steps = n → n ≤ plan.maxSteps.toNat →
        plan.Counted n (.asks request stage p)
  | runaway (index : Nat) : n = plan.maxSteps.toNat →
      plan.Counted n (.finished (.error (.runaway index plan.total plan.maxSteps)))
  | finished {outcome : Except Fault Tally} : n ≤ plan.maxSteps.toNat →
      (∀ fault, outcome = .error fault → fault.kind ≠ .runaway) →
        plan.Counted n (.finished outcome)

theorem Counted.failed {n : Nat} {fault : Fault} (hn : n ≤ plan.maxSteps.toNat)
    (hkind : fault.kind ≠ .runaway) : plan.Counted n (.finished (.error fault)) := by
  refine .finished hn fun cause hcause => ?_
  cases hcause
  exact hkind

theorem counted_conclude {n : Nat} (hn : n ≤ plan.maxSteps.toNat) (p : Progress) :
    plan.Counted n (plan.conclude p) := by
  rw [conclude]
  split
  · exact .finished hn (by simp)
  · exact .failed hn fun hkind => by cases hkind

variable {n : Nat} {p : Progress}

theorem counted_startStep (hp : p.steps = n) (hn : n ≤ plan.maxSteps.toNat) :
    plan.Counted n (plan.startStep p) := by
  subst hp
  rw [startStep]
  split
  case isTrue hmany =>
    have hall : p.steps = plan.maxSteps.toNat := by omega
    exact .runaway p.index hall
  case isFalse hfew =>
    have hnext : p.steps + 1 ≤ plan.maxSteps.toNat := by omega
    exact .announces (p := { p with steps := p.steps + 1 }) rfl hnext

theorem counted_proceed (hp : p.steps = n) (hn : n ≤ plan.maxSteps.toNat) :
    plan.Counted n (plan.proceed p) := by
  rw [proceed]
  split
  · exact counted_conclude hn p
  split
  · exact .asks rfl (by simp) hp hn
  · exact counted_startStep hp hn

theorem counted_slice (hp : p.steps = n) (hn : n ≤ plan.maxSteps.toNat) (remaining : Double) :
    plan.Counted n (slice remaining p) := by
  rw [slice]
  split <;> exact .asks rfl (by simp) hp hn

theorem counted_pause (hp : p.steps = n) (hn : n ≤ plan.maxSteps.toNat) (whole : Double) :
    plan.Counted n (plan.pause whole p) := by
  rw [pause]
  split
  · split
    · exact counted_slice hp hn whole
    · exact .asks rfl (by simp) hp hn
  · exact .failed hn fun hkind => by cases hkind

theorem counted_perform (hp : p.steps = n) (hn : n ≤ plan.maxSteps.toNat) :
    plan.Counted n (plan.perform p) := by
  rw [perform]
  cases plan.commands[p.index]? with
  | none => exact counted_conclude hn p
  | some c =>
    cases c with
    | send value line => exact .asks rfl (by simp) hp hn
    | delay ms line => exact counted_pause hp hn (seconds ms)
    | loop count endAt line => exact counted_proceed hp hn
    | loopEnd startAt line =>
      simp only
      split
      case h_1 next hclose => exact counted_proceed ((closeLoop_counts hclose).1.trans hp) hn
      case h_2 fault hclose =>
        have hkind := (advance_error (c := .loopEnd startAt line) hclose).1
        exact .failed hn (by simp [hkind])
    | unknown name => exact .failed hn fun hkind => by cases hkind

/-- An answer that is no failure lets the step begin that was announced, if any. -/
theorem Counted.resume {request : Request} {stage : Stage}
    (h : plan.Counted n (.asks request stage p)) {answer : Answer} (htakes : request.Takes answer)
    (hanswer : ∀ fault, answer ≠ .failed fault) :
    plan.Counted (n + (if request.isAnnouncement then 1 else 0)) (plan.resume stage p answer) := by
  cases h with
  | announces hp hn =>
    cases answer with
    | failed fault => exact absurd rfl (hanswer fault)
    | stop requested => exact htakes.elim
    | done => exact counted_perform hp hn
  | asks hrequest hstage hp hn =>
    simp only [hrequest, Bool.false_eq_true, if_false, Nat.add_zero]
    cases answer with
    | failed fault => exact absurd rfl (hanswer fault)
    | done =>
      cases stage with
      | announcing => exact absurd rfl hstage
      | slept remaining taken => exact counted_slice hp hn _
      | _ => exact counted_proceed hp hn
    | stop requested =>
      cases requested with
      | true =>
        cases stage with
        | slicing remaining => exact .asks rfl (by simp) hp hn
        | _ => exact .failed hn fun hkind => by cases hkind
      | false =>
        cases stage with
        | slicing remaining => exact .asks rfl (by simp) hp hn
        | afterDelay => exact counted_proceed hp hn
        | _ => exact counted_startStep hp hn

theorem counted_start : plan.Counted 0 plan.start := by
  rw [Plan.start]
  split
  · exact .failed (Nat.zero_le _) fun hkind => by cases hkind
  · exact counted_proceed rfl (Nat.zero_le _)

/-- An execution in which nothing failed has counted its announcements. A failure ends it. -/
theorem ReachedBy.counted {exchanges : List Exchange} {turn : Turn}
    (h : plan.ReachedBy exchanges turn) :
    (Unfailing exchanges ∧ plan.Counted (started exchanges) turn) ∨
      ∃ before request stage p fault, exchanges = before ++ [(request, .failed fault)] ∧
        plan.ReachedBy before (.asks request stage p) ∧
        turn = .finished (.error (plan.faultOf stage p fault)) := by
  induction h with
  | start => exact Or.inl ⟨fun _ _ => List.not_mem_nil, counted_start⟩
  | @resume before request stage p answer hbefore htakes ih =>
    rcases ih with ⟨hnone, hcounted⟩ | ⟨_, _, _, _, _, _, _, hturn⟩
    case inr => cases hturn
    cases answer with
    | failed fault => exact Or.inr ⟨before, request, stage, p, fault, rfl, hbefore, rfl⟩
    | _ =>
      rw [started_snoc]
      exact Or.inl ⟨hnone.snoc request (by simp), hcounted.resume htakes (by simp)⟩

theorem ReachedBy.counted_asks {exchanges : List Exchange} {request : Request} {stage : Stage}
    (h : plan.ReachedBy exchanges (.asks request stage p)) :
    Unfailing exchanges ∧ plan.Counted (started exchanges) (.asks request stage p) := by
  rcases h.counted with hcounted | ⟨_, _, _, _, _, _, _, hturn⟩
  · exact hcounted
  · cases hturn

theorem Counted.le {turn : Turn} (h : plan.Counted n turn) : n ≤ plan.maxSteps.toNat := by
  cases h with
  | announces _ hn => exact Nat.le_of_succ_le hn
  | asks _ _ _ hn | finished hn _ => exact hn
  | runaway _ hn => exact Nat.le_of_eq hn

theorem ReachedBy.started_le {exchanges : List Exchange} {turn : Turn}
    (h : plan.ReachedBy exchanges turn) : started exchanges ≤ plan.maxSteps.toNat := by
  rcases h.counted with ⟨-, hcounted⟩ | ⟨before, request, stage, q, fault, rfl, hbefore, -⟩
  · exact hcounted.le
  · -- the announcement that failed was allowed, and counted already
    obtain ⟨-, hcounted⟩ := hbefore.counted_asks
    rw [started_snoc]
    cases hcounted with
    | announces _ hn => exact hn
    | asks hrequest _ _ hn => rwa [hrequest]

/-! ## A larger limit -/

/-- The same plan with another limit. -/
def allowing (plan : Plan) (limit : Int) : Plan :=
  { plan with maxSteps := limit }

@[simp] theorem allowing_commands (limit : Int) :
    (plan.allowing limit).commands = plan.commands := rfl

@[simp] theorem allowing_total (limit : Int) : (plan.allowing limit).total = plan.total := rfl

@[simp] theorem allowing_stoppable (limit : Int) :
    (plan.allowing limit).stoppable = plan.stoppable := rfl

@[simp] theorem allowing_closeLoop (limit : Int) (p : Progress) (startAt : Int) :
    (plan.allowing limit).closeLoop p startAt = plan.closeLoop p startAt := rfl

/-- A turn of a plan with a larger limit, cut down to the limit of this one. -/
def curb (plan : Plan) : Turn → Turn
  | .asks request .announcing p =>
    if plan.maxSteps < p.steps then .finished (.error (.runaway p.index plan.total plan.maxSteps))
    else .asks request .announcing p
  | turn => turn

section

variable {limit : Int} (hlimit : (plan.maxSteps.toNat : Int) < limit)

theorem curb_conclude (limit : Int) (p : Progress) :
    plan.curb ((plan.allowing limit).conclude p) = plan.conclude p := by
  rw [conclude, conclude]
  split <;> rfl

theorem curb_slice (remaining : Double) (p : Progress) :
    plan.curb (slice remaining p) = slice remaining p := by
  rw [slice]
  split <;> rfl

theorem curb_pause (limit : Int) (whole : Double) (p : Progress) :
    plan.curb ((plan.allowing limit).pause whole p) = plan.pause whole p := by
  rw [pause, pause, allowing_stoppable]
  split
  · split
    · exact curb_slice whole p
    · rfl
  · rfl

include hlimit

theorem curb_startStep (hp : p.steps ≤ plan.maxSteps.toNat) :
    plan.curb ((plan.allowing limit).startStep p) = plan.startStep p := by
  have hallowed : ¬ (plan.allowing limit).maxSteps < (p.steps : Int) + 1 := by
    change ¬ limit < (p.steps : Int) + 1
    omega
  rw [startStep, startStep, if_neg hallowed]
  rfl

theorem curb_proceed (hp : p.steps ≤ plan.maxSteps.toNat) :
    plan.curb ((plan.allowing limit).proceed p) = plan.proceed p := by
  rw [proceed, proceed, allowing_total, allowing_stoppable]
  split
  · exact curb_conclude limit p
  split
  · rfl
  · exact curb_startStep hlimit hp

theorem curb_perform (hp : p.steps ≤ plan.maxSteps.toNat) :
    plan.curb ((plan.allowing limit).perform p) = plan.perform p := by
  rw [perform, perform, allowing_commands]
  cases plan.commands[p.index]? with
  | none => exact curb_conclude limit p
  | some c =>
    cases c with
    | send value line => rfl
    | delay ms line => exact curb_pause limit (seconds ms) p
    | loop count endAt line => exact curb_proceed hlimit hp
    | loopEnd startAt line =>
      simp only [allowing_closeLoop]
      cases hclose : plan.closeLoop p startAt with
      | ok next => exact curb_proceed hlimit ((closeLoop_counts hclose).1 ▸ hp)
      | error fault => rfl
    | unknown name => rfl

theorem curb_resume {stage : Stage} (answer : Answer)
    (hp : p.steps ≤ plan.maxSteps.toNat) :
    plan.curb ((plan.allowing limit).resume stage p answer) = plan.resume stage p answer := by
  cases answer with
  | failed fault => rfl
  | done =>
    cases stage with
    | announcing => exact curb_perform hlimit hp
    | slept remaining taken => exact curb_slice _ p
    | _ => exact curb_proceed hlimit hp
  | stop requested =>
    cases requested with
    | true => cases stage <;> rfl
    | false =>
      cases stage with
      | slicing remaining => rfl
      | afterDelay => exact curb_proceed hlimit hp
      | _ => exact curb_startStep hlimit hp

theorem curb_start : plan.curb (plan.allowing limit).start = plan.start := by
  rw [Plan.start, Plan.start, allowing_total]
  split
  · rfl
  · exact curb_proceed hlimit (Nat.zero_le _)

omit hlimit in
theorem eq_of_curb_asks {turn : Turn} {request : Request} {stage : Stage}
    (h : plan.curb turn = .asks request stage p) : turn = .asks request stage p := by
  cases turn with
  | finished outcome => cases h
  | asks other place q =>
    cases place with
    | announcing =>
      rw [curb] at h
      split at h
      · cases h
      · exact h
    | _ => exact h

/-- What an execution with a larger limit comes to before it announces too many steps. -/
theorem ReachedBy.curbed {exchanges : List Exchange} {turn : Turn}
    (h : (plan.allowing limit).ReachedBy exchanges turn)
    (hfew : started exchanges ≤ plan.maxSteps.toNat) :
    plan.ReachedBy exchanges (plan.curb turn) := by
  induction h with
  | start =>
    rw [curb_start hlimit]
    exact .start
  | @resume before request stage p answer hbefore htakes ih =>
    rw [started_snoc] at hfew
    have hasks := ih (by omega)
    cases hbefore.counted_asks.2 with
    | announces hp _ =>
      change started before + 1 ≤ plan.maxSteps.toNat at hfew
      rw [curb, if_neg (by omega)] at hasks
      rw [curb_resume hlimit answer (by omega)]
      exact .resume answer hasks htakes
    | asks _ hstage hp _ =>
      have hsame : plan.curb (.asks request stage p) = .asks request stage p := by
        cases stage with
        | announcing => exact absurd rfl hstage
        | _ => rfl
      rw [hsame] at hasks
      rw [curb_resume hlimit answer (by omega)]
      exact .resume answer hasks htakes

/-- An execution with a larger limit comes to what this one comes to, or to the announcement of the
step for which this one has ended. -/
theorem ReachedBy.uncurbed {exchanges : List Exchange} {turn : Turn}
    (h : plan.ReachedBy exchanges turn) :
    ∃ larger, (plan.allowing limit).ReachedBy exchanges larger ∧ plan.curb larger = turn := by
  induction h with
  | start => exact ⟨_, .start, curb_start hlimit⟩
  | @resume before request stage p answer hbefore htakes ih =>
    obtain ⟨larger, hlarger, hcurb⟩ := ih
    rw [eq_of_curb_asks hcurb] at hlarger
    have hp : p.steps ≤ plan.maxSteps.toNat := by
      cases hbefore.counted_asks.2 with
      | announces hp hn | asks _ _ hp hn => omega
    exact ⟨_, .resume answer hlarger htakes, curb_resume hlimit answer hp⟩

/-- The limit ends an execution exactly where another step would be announced, when as many as
allowed were. -/
theorem runaway_iff {exchanges : List Exchange} {i : Nat} :
    (plan.ReachedBy exchanges (.finished (.error (.runaway i plan.total plan.maxSteps))) ∧
        Unfailing exchanges) ↔
      started exchanges = plan.maxSteps.toNat ∧ ∃ p, (plan.allowing limit).ReachedBy exchanges
        (.asks (.announce (i + 1) plan.total) .announcing p) := by
  constructor
  · rintro ⟨h, hnone⟩
    have hall : started exchanges = plan.maxSteps.toNat := by
      rcases h.counted with ⟨-, hcounted⟩ | ⟨before, request, _, _, fault, rfl, -, -⟩
      · cases hcounted with
        | runaway _ hn => exact hn
        | finished _ hkind => exact absurd rfl (hkind _ rfl)
      · exact absurd (List.mem_append_right before List.mem_cons_self) (hnone request fault)
    refine ⟨hall, ?_⟩
    obtain ⟨larger, hlarger, hcurb⟩ := h.uncurbed hlimit
    rcases hlarger.counted with ⟨-, hcounted⟩ | ⟨before, request, _, _, fault, rfl, -, -⟩
    case inr => exact absurd (List.mem_append_right before List.mem_cons_self) (hnone request fault)
    -- of all that the larger limit allows, only an announcement is cut down to this fault
    cases hcounted with
    | @announces p hp _ =>
      rw [curb, if_pos (by omega)] at hcurb
      cases hcurb
      exact ⟨p, hlarger⟩
    | @asks request stage p _ hstage _ _ =>
      cases stage with
      | announcing => exact absurd rfl hstage
      | _ => cases hcurb
    | runaway index _ =>
      -- the guard of the larger limit would name that limit
      have hsame : limit = plan.maxSteps := by
        cases hcurb
        rfl
      omega
    | finished _ hkind =>
      cases hcurb
      exact absurd rfl (hkind _ rfl)
  · rintro ⟨hall, p, h⟩
    obtain ⟨hnone, hcounted⟩ := h.counted_asks
    have hcurbed := h.curbed hlimit (Nat.le_of_eq hall)
    cases hcounted with
    | announces hp _ =>
      rw [curb, if_pos (by omega)] at hcurbed
      exact ⟨hcurbed, hnone⟩
    | asks hrequest _ _ _ => cases hrequest

end

theorem faultOf_runaway {stage : Stage} {cause : Fault}
    (hkind : (plan.faultOf stage p cause).kind = .runaway) :
    plan.faultOf stage p cause = cause ∧ stage ≠ .sending := by
  cases stage with
  | sending =>
    rw [faultOf] at hkind
    split at hkind
    case isTrue hordinary => cases hkind
    case isFalse hother => simp [Fault.isOrdinary, hkind, Kind.isOrdinary] at hother
  | _ => exact ⟨rfl, by simp⟩

/-- A runaway fault is the one of the limit, or an announcement or a sleep failed with it. -/
theorem ReachedBy.runaway {exchanges : List Exchange} {fault : Fault}
    (h : plan.ReachedBy exchanges (.finished (.error fault))) (hkind : fault.kind = .runaway) :
    (Unfailing exchanges ∧ ∃ i, fault = .runaway i plan.total plan.maxSteps) ∨
      ∃ before request, exchanges = before ++ [(request, .failed fault)] ∧
        ∀ value, request ≠ .send value := by
  rcases h.counted with ⟨hnone, hcounted⟩ | ⟨before, request, stage, p, cause, rfl, hbefore, hturn⟩
  · cases hcounted with
    | runaway index _ => exact Or.inl ⟨hnone, index, rfl⟩
    | finished _ hother => exact absurd hkind (hother fault rfl)
  · cases hturn
    obtain ⟨hcause, hstage⟩ := faultOf_runaway hkind
    refine Or.inr ⟨before, request, by rw [hcause], ?_⟩
    rintro value rfl
    obtain ⟨c, _, hserves⟩ := hbefore.reached.serves
    cases stage with
    | sending => exact hstage rfl
    | _ => exact hserves.elim

/-- Of the unfolding of a tree, as many steps are done as are allowed. -/
theorem run_limited {world : Surroundings} (hquiet : world.Quiet) {b : Block}
    (hcommands : plan.commands = (b.commands 0).toArray) (hsome : b.size ≠ 0)
    (hrange : ∀ c ∈ b.commands 0, c.InRange) :
    ((∃ tally, (plan.run world).1 = some (.ok tally)) ↔ (b.steps : Int) ≤ plan.maxSteps) ∧
      (plan.run world).2.events.reverse = ((b.unfolding 0).take plan.maxSteps.toNat).flatMap
        (Entry.deeds b.size plan.stoppable) ∧
      (plan.maxSteps < b.steps → ∃ i c, (b.unfolding 0)[plan.maxSteps.toNat]? = some (i, c) ∧
        (plan.run world).1 = some (.error (.runaway i b.size plan.maxSteps))) := by
  have hlength : (b.unfolding 0).length = b.steps := b.length_unfolding 0
  by_cases hsteps : (b.steps : Int) ≤ plan.maxSteps
  · obtain ⟨trace, hrun, hevents, -⟩ := run_granted hquiet.obliging hcommands hsome hrange hsteps
      (hquiet.grants 0 _)
    refine ⟨⟨fun _ => hsteps, fun _ => ⟨_, by rw [hrun]⟩⟩, ?_, fun hmany => by omega⟩
    rw [hrun, hevents, List.take_of_length_le (by omega)]
  · have hsome' := List.length_pos_iff.2 (Block.unfolding_ne_nil hsome 0)
    obtain ⟨i, c, trace, hentry, hrun, hevents⟩ := (walk_layout hcommands hrange).run_part
      hquiet.obliging (by omega) (fun entry hmem => ends_unfolding hrange hmem _)
      fun n => hquiet.grants 0 _
    rw [total_layout hcommands] at hrun hevents
    refine ⟨⟨?_, fun hfew => absurd hfew hsteps⟩, ?_, fun _ => ⟨i, c, hentry, ?_⟩⟩
    · rintro ⟨tally, hok⟩
      rw [hrun] at hok
      cases hok
    · rw [hrun, hevents]
    · rw [hrun]

end Plan

end SerialConsole.Script
