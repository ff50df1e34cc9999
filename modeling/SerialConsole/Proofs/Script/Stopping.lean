import SerialConsole.Proofs.Script.Ending
import SerialConsole.Proofs.Script.Exchanges

set_option autoImplicit false

/-!
# Stopping an execution

A stop request that stays once it is made ends an execution at the next look at it. The run up to
there is the run that nobody stops (`Leads.calm`): both are cut at the first look that is answered
with a stop, and the one behind it only looks again. Which command is reported is read off the run:
the one that is announced next when nobody stops, or the DELAY that was announced last.
-/
namespace SerialConsole.Script

/-- Counts that are nowhere smaller. -/
structure Counts.Grown (c d : Counts) : Prop where
  polls : c.polls ≤ d.polls
  announcements : c.announcements ≤ d.announcements
  sends : c.sends ≤ d.sends
  sleeps : c.sleeps ≤ d.sleeps

namespace Surroundings

/-- A stop request that was made stays. -/
def Latches (world : Surroundings) : Prop :=
  ∀ c d : Counts, c.Grown d → world.stop c = true → world.stop d = true

/-- The same surroundings, without anybody who asks to stop. -/
def calm (world : Surroundings) : Surroundings :=
  { world with stop := fun _ => false }

theorem answer_calm {world : Surroundings} {trace : Trace} {request : Request}
    (h : (world.answer trace request).1 ≠ .stop true) :
    world.calm.answer trace request = world.answer trace request := by
  cases request with
  | poll =>
    simp only [answer] at h ⊢
    cases hstop : world.stop { trace.counts with polls := trace.counts.polls + 1 } with
    | true =>
      rw [hstop] at h
      exact absurd rfl h
    | false => rfl
  | _ => rfl

end Surroundings

/-- The exchanges that are progress calls, sends and sleeps. -/
def deedsOf (exchanges : List Exchange) : List Exchange :=
  exchanges.filter fun exchange => exchange.1 ≠ .poll

/-- The latest command that was announced, by its position. -/
def LastAnnounced (position total : Nat) (exchanges : List Exchange) : Prop :=
  ∃ earlier later, exchanges = earlier ++ (.announce position total, .done) :: later ∧
    ∀ n m answer, (.announce n m, answer) ∉ later

theorem deedsOf_append (es fs : List Exchange) : deedsOf (es ++ fs) = deedsOf es ++ deedsOf fs :=
  List.filter_append es fs

theorem deedsOf_cons_poll (answer : Answer) (es : List Exchange) :
    deedsOf ((.poll, answer) :: es) = deedsOf es :=
  List.filter_cons_of_neg (by simp)

theorem deedsOf_polls {es : List Exchange} (h : ∀ e ∈ es, e.1 = .poll) : deedsOf es = [] := by
  apply List.filter_eq_nil_iff.2
  intro e he
  simp [h e he]

/-- Looks at the stop request are not written down. -/
theorem granted_deeds (es : List Exchange) :
    (deedsOf es).filterMap Exchange.event? = es.filterMap Exchange.event? := by
  rw [deedsOf, List.filterMap_filter]
  congr 1
  funext e
  obtain ⟨request, answer⟩ := e
  cases request <;> rfl

theorem LastAnnounced.snoc {position total : Nat} {es : List Exchange} {request : Request}
    (h : LastAnnounced position total es) (answer : Answer)
    (hrequest : ∀ n m, request ≠ .announce n m) :
    LastAnnounced position total (es ++ [(request, answer)]) := by
  obtain ⟨earlier, later, rfl, hlater⟩ := h
  refine ⟨earlier, later ++ [(request, answer)], by simp, fun n m answer' hmem => ?_⟩
  rcases List.mem_append.1 hmem with hmem | hmem
  · exact hlater n m answer' hmem
  · cases List.mem_singleton.1 hmem
    exact hrequest n m rfl

/-- A stage of a DELAY. -/
def Stage.inDelay : Stage → Bool
  | .sleeping | .slicing _ | .slept _ _ | .afterDelay => true
  | _ => false

/-- A stage behind the announcement of its command. -/
def Stage.isAnnounced : Stage → Bool
  | .beforeStep | .announcing => false
  | _ => true

namespace Plan

variable {plan : Plan} {world : Surroundings}

/-! ## What was announced last -/

/-- A turn in a command comes behind the announcement of that command. -/
def Recounts (plan : Plan) (past : List Exchange) : Turn → Prop
  | .asks request stage p =>
      (stage = .announcing → request = .announce (p.index + 1) plan.total) ∧
        (stage.isAnnounced = true → LastAnnounced (p.index + 1) plan.total past)
  | .finished _ => True

theorem recounts_startStep (past : List Exchange) (p : Progress) :
    plan.Recounts past (plan.startStep p) := by
  rw [startStep]
  split
  · exact trivial
  · exact ⟨fun _ => rfl, by simp [Stage.isAnnounced]⟩

theorem recounts_proceed (past : List Exchange) (p : Progress) :
    plan.Recounts past (plan.proceed p) := by
  rw [proceed]
  split
  · rw [conclude]
    split <;> exact trivial
  · split
    · exact ⟨by simp, by simp [Stage.isAnnounced]⟩
    · exact recounts_startStep past p

theorem recounts_slice {past : List Exchange} {p : Progress}
    (h : LastAnnounced (p.index + 1) plan.total past) (remaining : Double) :
    plan.Recounts past (slice remaining p) := by
  rw [slice]
  cases remaining.isPositive with
  | true => exact ⟨by simp, fun _ => h⟩
  | false => exact ⟨by simp, fun _ => h⟩

theorem recounts_pause {past : List Exchange} {p : Progress}
    (h : LastAnnounced (p.index + 1) plan.total past) (whole : Double) :
    plan.Recounts past (plan.pause whole p) := by
  rw [pause]
  cases whole.isFinite with
  | true =>
    cases plan.stoppable with
    | true => exact recounts_slice h whole
    | false => exact ⟨by simp, fun _ => h⟩
  | false => exact trivial

theorem recounts_perform {past : List Exchange} {p : Progress}
    (h : LastAnnounced (p.index + 1) plan.total past) : plan.Recounts past (plan.perform p) := by
  rw [perform]
  cases plan.commands[p.index]? with
  | none =>
    simp only [conclude]
    split <;> exact trivial
  | some c =>
    cases c with
    | send value line => exact ⟨by simp, fun _ => h⟩
    | delay ms line =>
      simp only
      generalize seconds ms = whole
      exact recounts_pause h whole
    | loop count endAt line => exact recounts_proceed past _
    | loopEnd startAt line =>
      simp only
      split
      · exact recounts_proceed past _
      · exact trivial
    | unknown name => exact trivial

theorem recounts_resume {past : List Exchange} {request : Request} {stage : Stage} {p : Progress}
    (h : plan.Recounts past (.asks request stage p)) (hserves : plan.Serves (.asks request stage p))
    {answer : Answer} (htakes : request.Takes answer) :
    plan.Recounts (past ++ [(request, answer)]) (plan.resume stage p answer) := by
  obtain ⟨c, _, hserves⟩ := hserves
  obtain ⟨hannounce, hlast⟩ := h
  cases answer with
  | failed fault => exact trivial
  | done =>
    cases request with
    | poll => exact htakes.elim
    | announce position total =>
      cases stage with
      | announcing =>
        cases hannounce rfl
        exact recounts_perform ⟨past, [], rfl, fun n m answer hmem => by cases hmem⟩
      | _ => exact hserves.elim
    | send value =>
      cases stage with
      | sending => exact recounts_proceed _ _
      | _ => exact hserves.elim
    | sleep seconds =>
      cases stage with
      | sleeping => exact recounts_proceed _ _
      | slept remaining taken => exact recounts_slice ((hlast rfl).snoc _ (by simp)) _
      | _ => exact hserves.elim
  | stop requested =>
    cases request with
    | poll =>
      cases stage with
      | beforeStep =>
        cases requested with
        | true => exact trivial
        | false => exact recounts_startStep _ p
      | slicing remaining =>
        have hstays := @LastAnnounced.snoc _ _ _ .poll (hlast rfl) (.stop requested) (by simp)
        cases requested with
        | true => exact ⟨nofun, fun _ => hstays⟩
        | false => exact ⟨nofun, fun _ => hstays⟩
      | afterDelay =>
        cases requested with
        | true => exact trivial
        | false => exact recounts_proceed _ _
      | _ => exact hserves.elim
    | _ => exact htakes.elim

theorem Leads.recounts {turn next : Turn} {trace last : Trace} {exchanges : List Exchange}
    (h : plan.Leads world turn trace exchanges next last) {past : List Exchange}
    (hturn : plan.Recounts past turn) (hserves : plan.Serves turn) :
    plan.Recounts (past ++ exchanges) next := by
  induction h generalizing past with
  | nil turn trace => rwa [List.append_nil]
  | @cons request stage p answer next trace between last exchanges hanswer _ ih =>
    have htakes := answer_takes world trace request
    rw [hanswer] at htakes
    have hrest := ih (recounts_resume hturn hserves htakes) (serves_resume hserves answer)
    rwa [List.append_assoc] at hrest

/-! ## Two runs -/

/-- As long as nobody asks to stop, a run is the run that nobody stops. -/
theorem Leads.calm {turn next : Turn} {trace last : Trace} {exchanges : List Exchange}
    (h : plan.Leads world turn trace exchanges next last)
    (hstop : (.poll, .stop true) ∉ exchanges) :
    plan.Leads world.calm turn trace exchanges next last := by
  induction h with
  | nil turn trace => exact .nil turn trace
  | @cons request stage p answer next trace between last exchanges hanswer _ ih =>
    have htakes := answer_takes world trace request
    have hgo : (world.answer trace request).1 ≠ .stop true := by
      intro hasked
      rw [hanswer] at hasked htakes
      cases hasked
      cases request with
      | poll => exact hstop List.mem_cons_self
      | _ => exact htakes.elim
    rw [← Surroundings.answer_calm hgo] at hanswer
    exact .cons hanswer (ih fun hmem => hstop (List.mem_cons_of_mem _ hmem))

/-- Behind a look that is answered with a stop there is at most another such look, and the run is
stopped at the place where it was. -/
theorem stop_stays (hlatch : world.Latches) {stage : Stage} {p : Progress}
    (hserves : plan.Serves (.asks .poll stage p)) {trace : Trace}
    (hstop : world.stop trace.counts = true) (fuel : Nat) :
    (∀ e ∈ plan.dialogue world fuel (plan.resume stage p (.stop true)) trace, e.1 = .poll) ∧
      ∀ outcome,
        (plan.drive world fuel (plan.resume stage p (.stop true)) trace).1 = some outcome →
          outcome = .error (.stopped p.index plan.total stage.inDelay) := by
  obtain ⟨c, _, hserves⟩ := hserves
  have hended : ∀ fault : Fault,
      (∀ e ∈ plan.dialogue world fuel (.finished (.error fault)) trace, e.1 = .poll) ∧
        ∀ outcome, (plan.drive world fuel (.finished (.error fault)) trace).1 = some outcome →
          outcome = .error fault := by
    intro fault
    cases fuel with
    | zero => exact ⟨nofun, fun outcome h => (Option.some.inj h).symm⟩
    | succ fuel => exact ⟨nofun, fun outcome h => (Option.some.inj h).symm⟩
  cases stage with
  | beforeStep => exact hended _
  | afterDelay => exact hended _
  | slicing remaining =>
    cases fuel with
    | zero => exact ⟨nofun, nofun⟩
    | succ fuel =>
      have hstill := hlatch trace.counts { trace.counts with polls := trace.counts.polls + 1 }
        ⟨Nat.le_succ _, Nat.le_refl _, Nat.le_refl _, Nat.le_refl _⟩ hstop
      obtain ⟨later, hagain⟩ : ∃ later, world.answer trace .poll = (.stop true, later) :=
        ⟨_, Prod.ext (congrArg Answer.stop hstill) rfl⟩
      rw [resume, dialogue, drive, hagain]
      refine ⟨fun e he => ?_, fun outcome h => ?_⟩
      · rcases List.mem_cons.1 he with rfl | hrest
        · rfl
        · cases fuel <;> cases hrest
      · cases fuel <;> exact (Option.some.inj h).symm
  | _ => exact hserves.elim

theorem serves_start : plan.Serves plan.start := Reached.start.serves

theorem recounts_start : plan.Recounts [] plan.start := by
  rw [start]
  split
  · exact trivial
  · exact recounts_proceed [] {}

/-- A run with a look that is answered with a stop is cut at the first one. -/
theorem cut_at_stop (hstop : (.poll, .stop true) ∈ plan.exchanges world) :
    ∃ before stage p trace rest, plan.Leads world plan.start {} before (.asks .poll stage p) trace ∧
      (.poll, .stop true) ∉ before ∧ plan.requestBound = before.length + (rest + 1) ∧
      (world.answer trace .poll).1 = .stop true := by
  obtain ⟨before, after, hcut, hbefore⟩ := List.eq_append_cons_of_mem hstop
  obtain ⟨next, trace, rest, hleads, hbound, hafter⟩ := leads_of_dialogue hcut
  cases next with
  | finished outcome => cases rest <;> cases hafter
  | asks request stage p =>
    cases rest with
    | zero => cases hafter
    | succ rest =>
      rw [dialogue, List.cons.injEq, Prod.mk.injEq] at hafter
      obtain ⟨⟨rfl, hanswer⟩, _⟩ := hafter
      exact ⟨before, stage, p, trace, rest, hleads, hbefore, hbound, hanswer⟩

theorem Leads.exchanges {before : List Exchange} {request : Request} {stage : Stage} {p : Progress}
    {trace : Trace} {rest : Nat}
    (h : plan.Leads world plan.start {} before (.asks request stage p) trace)
    (hbound : plan.requestBound = before.length + (rest + 1)) :
    plan.exchanges world = before ++ (request, (world.answer trace request).1) ::
        plan.dialogue world rest (plan.resume stage p (world.answer trace request).1)
          (world.answer trace request).2 ∧
      plan.run world = plan.drive world rest (plan.resume stage p (world.answer trace request).1)
        (world.answer trace request).2 := by
  rw [Plan.exchanges, run, hbound, h.dialogue, h.drive]
  exact ⟨rfl, rfl⟩

/-- A look between two steps is followed by the announcement of the next command, unless too many
steps were made. -/
theorem goes_on {p : Progress} {trace : Trace} {rest : Nat} {outcome : Except Fault Tally}
    (h : (plan.drive world rest (plan.startStep p) trace).1 = some outcome) :
    (∃ answer later, plan.dialogue world rest (plan.startStep p) trace =
        (.announce (p.index + 1) plan.total, answer) :: later) ∨
      (plan.dialogue world rest (plan.startStep p) trace = [] ∧
        outcome = .error (.runaway p.index plan.total plan.maxSteps)) := by
  rw [startStep] at h ⊢
  split at h
  case isTrue hmany =>
    rw [if_pos hmany]
    refine Or.inr ⟨?_, ?_⟩
    · cases rest <;> rfl
    · cases rest <;> exact (Option.some.inj h).symm
  case isFalse hallowed =>
    rw [if_neg hallowed]
    cases rest with
    | zero => cases h
    | succ rest => exact Or.inl ⟨_, _, rfl⟩

/-- A stop request that stays once it is made. The deeds of the run are those of the run that nobody
stops, as far as they go. If a look is answered with a stop, the run is stopped: nothing but looks
follow the first such look, and what is reported is the DELAY that was announced last, or the
command that the run that nobody stops announces next. -/
theorem run_stopped
    (hdelays : ∀ ms line, .delay ms line ∈ plan.commands.toList → 0 ≤ ms ∧ ms ≤ 60000)
    (hlatch : world.Latches) :
    deedsOf (plan.exchanges world) <+: deedsOf (plan.exchanges world.calm) ∧
      (plan.run world).2.events.reverse <+: (plan.run world.calm).2.events.reverse ∧
      ((.poll, .stop true) ∈ plan.exchanges world →
        ∃ before after index inDelay,
          plan.exchanges world = before ++ (.poll, .stop true) :: after ∧
          (.poll, .stop true) ∉ before ∧ (∀ e ∈ after, e.1 = .poll) ∧
          (plan.run world).1 = some (.error (.stopped index plan.total inDelay)) ∧
          index < plan.total ∧
          if inDelay then
            (∃ ms line, plan.commands[index]? = some (.delay ms line)) ∧
              LastAnnounced (index + 1) plan.total before
          else
            (∃ answer later, deedsOf (plan.exchanges world.calm) =
                deedsOf before ++ (.announce (index + 1) plan.total, answer) :: later) ∨
              deedsOf (plan.exchanges world.calm) = deedsOf before ∧
                (plan.run world.calm).1 =
                  some (.error (.runaway index plan.total plan.maxSteps))) := by
  by_cases hstop : (.poll, .stop true) ∈ plan.exchanges world
  · obtain ⟨before, stage, p, trace, rest, hleads, hbefore, hbound, hasked⟩ := cut_at_stop hstop
    have hcalm := hleads.calm hbefore
    obtain ⟨hexchanges, hrun⟩ := hleads.exchanges hbound
    obtain ⟨hexchanges', hrun'⟩ := hcalm.exchanges hbound
    have hserves : plan.Serves (.asks .poll stage p) := (hleads.reached .start).serves
    obtain ⟨c, hc, hstage⟩ := (hleads.reached .start).serves
    obtain ⟨outcome, hends⟩ := run_ends hdelays world
    obtain ⟨outcome', hends'⟩ := run_ends hdelays world.calm
    have hrequested : world.stop (world.answer trace .poll).2.counts = true :=
      Answer.stop.inj hasked
    rw [hasked] at hexchanges hrun
    obtain ⟨hpolls, hstopped⟩ := stop_stays hlatch hserves hrequested rest
    have houtcome := hstopped outcome (by rw [← hrun, hends])
    have hdeeds : deedsOf (plan.exchanges world) = deedsOf before := by
      rw [hexchanges, deedsOf_append, deedsOf_cons_poll, deedsOf_polls hpolls, List.append_nil]
    have hbefore' : before <+: plan.exchanges world.calm := ⟨_, hexchanges'.symm⟩
    refine ⟨?_, ?_, fun _ => ⟨before, _, p.index, stage.inDelay, hexchanges, hbefore, hpolls,
      ?_, ?_, ?_⟩⟩
    · rw [hdeeds]
      exact hbefore'.filter _
    · rw [run_events, run_events, ← granted_deeds, hdeeds, granted_deeds]
      exact hbefore'.filterMap _
    · rw [hends, houtcome]
    · exact (Array.getElem?_eq_some_iff.1 hc).1
    · have hlast := (hleads.recounts recounts_start serves_start).2
      cases stage with
      | beforeStep =>
        rw [hrun'] at hends'
        rw [hexchanges', deedsOf_append, deedsOf_cons_poll, hrun']
        rcases goes_on hends' with ⟨answer, later, hlater⟩ | ⟨hnone, houtcome'⟩
        · exact Or.inl ⟨answer, deedsOf later, congrArg (deedsOf before ++ deedsOf ·) hlater⟩
        · have hdone := congrArg (deedsOf before ++ deedsOf ·) hnone
          exact Or.inr ⟨hdone.trans (List.append_nil _), hends'.trans (congrArg some houtcome')⟩
      | slicing remaining =>
        obtain ⟨ms, line, rfl⟩ := hstage
        exact ⟨⟨ms, line, hc⟩, hlast rfl⟩
      | afterDelay =>
        obtain ⟨ms, line, rfl⟩ := hstage
        exact ⟨⟨ms, line, hc⟩, hlast rfl⟩
      | _ => exact hstage.elim
  · have hwhole : plan.dialogue world plan.requestBound plan.start {} =
        plan.exchanges world ++ [] :=
      (List.append_nil _).symm
    obtain ⟨next, last, rest, hleads, hbound, _⟩ := leads_of_dialogue hwhole
    have hcalm := hleads.calm hstop
    have hearlier : plan.exchanges world <+: plan.exchanges world.calm := by
      have hsame := hcalm.dialogue rest
      rw [← hbound] at hsame
      exact ⟨_, hsame.symm⟩
    refine ⟨hearlier.filter _, ?_, fun hasked => absurd hasked hstop⟩
    rw [run_events, run_events]
    exact hearlier.filterMap _

/-- A stop request behind a SEND and before a DELAY. -/
theorem run_stopped_before_delay :
    Surroundings.Latches { stop := fun c => decide (2 ≤ c.polls) } ∧
      deedsOf (exchanges ⟨#[.send "a" 1, .delay 200 2], true, 10⟩
          { stop := fun c => decide (2 ≤ c.polls) }) =
        [(.announce 1 2, .done), (.send "a", .done)] ∧
      (run ⟨#[.send "a" 1, .delay 200 2], true, 10⟩ { stop := fun c => decide (2 ≤ c.polls) }).1 =
        some (.error (.stopped 1 2 false)) := by
  have hdelays : ∀ ms line, Command.delay ms line ∈ [.send "a" 1, .delay 200 2] →
      0 ≤ ms ∧ ms ≤ 60000 := by
    intro ms line hmem
    simp only [List.mem_cons, List.not_mem_nil, reduceCtorEq, Command.delay.injEq, or_false,
      false_or] at hmem
    omega
  have hlatch : Surroundings.Latches { stop := fun c => decide (2 ≤ c.polls) } := by
    intro c d hgrown hstop
    have hpolls := hgrown.polls
    simp only [decide_eq_true_eq] at hstop ⊢
    omega
  have hexchanges : exchanges ⟨#[.send "a" 1, .delay 200 2], true, 10⟩
      { stop := fun c => decide (2 ≤ c.polls) } =
      [(.poll, .stop false), (.announce 1 2, .done), (.send "a", .done), (.poll, .stop true)] := by
    rfl
  obtain ⟨_, _, hstopped⟩ := @run_stopped ⟨#[.send "a" 1, .delay 200 2], true, 10⟩ _ hdelays hlatch
  obtain ⟨before, after, index, inDelay, _, _, _, hrun, _⟩ := hstopped (by simp [hexchanges])
  refine ⟨hlatch, by rw [hexchanges]; rfl, ?_⟩
  have hsame : some (.error (.stopped index 2 inDelay)) =
      some (.error (.stopped 1 2 false) : Except Fault Tally) := hrun.symm
  exact hrun.trans hsame

end Plan

end SerialConsole.Script
