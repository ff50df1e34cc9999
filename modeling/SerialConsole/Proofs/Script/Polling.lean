import SerialConsole.Proofs.Script.Meaning

set_option autoImplicit false

/-!
# Looking at the stop request

An execution that can be stopped, and that nobody asks to stop, and one that cannot be stopped go
through the same rounds: what becomes of a step is a matter of its announcement and its send only
(`exists_round`), and these are answered alike where the answers are a matter of the announcements
and sends before them. The two sleep differently (`run_alike`).
-/
namespace SerialConsole.Script

/-- Restful surroundings that answer announcements and sends by the announcements and sends before
them, whatever was slept and however often somebody looked at the stop request. -/
structure Surroundings.Heedless (world : Surroundings) : Prop extends world.Restful where
  announce : ∀ counts counts' : Counts, counts.announcements = counts'.announcements →
    counts.sends = counts'.sends → world.announce counts = world.announce counts'
  send : ∀ counts counts' : Counts, counts.announcements = counts'.announcements →
    counts.sends = counts'.sends → world.send counts = world.send counts'

/-! ## Slices -/

theorem lt_min_right (x y : Double) (hy : Double.lt y y = false) :
    Double.lt y (Double.min x y) = false := by
  rw [Double.min]
  split
  · exact hy
  case isFalse hnot => exact Bool.eq_false_iff.2 hnot

theorem sliceSeconds_not_lt : sliceSeconds.lt sliceSeconds = false := by
  obtain ⟨units, hslice, -⟩ := sliceSeconds_bounds
  rw [hslice, Double.lt]
  exact decide_eq_false (Int.lt_irrefl _)

theorem slices_le {n : Nat} {remaining x : Double} (h : x ∈ slices n remaining) :
    sliceSeconds.lt x = false := by
  induction n generalizing remaining with
  | zero => cases h
  | succ n ih =>
    rw [slices] at h
    split at h
    · rcases List.mem_cons.1 h with hfirst | hlater
      · rw [hfirst]
        exact lt_min_right remaining sliceSeconds sliceSeconds_not_lt
      · exact ih hlater
    · cases h

theorem slices_zero (n : Nat) : slices n (seconds 0) = [] := by
  cases n with
  | zero => rfl
  | succ n =>
    have hnone : (seconds 0).isPositive = false := by decide +kernel
    rw [slices, hnone]
    rfl

theorem naps_whole (ms : Int) (line : Nat) : (Command.delay ms line).naps false = [seconds ms] := by
  simp only [Command.naps, Bool.false_eq_true, if_false]

theorem naps_slices (ms : Int) (line : Nat) :
    (∀ x ∈ (Command.delay ms line).naps true, sliceSeconds.lt x = false) ∧
      (ms = 0 → (Command.delay ms line).naps true = []) := by
  simp only [Command.naps, if_true]
  refine ⟨fun x => slices_le, ?_⟩
  rintro rfl
  exact slices_zero _

namespace Plan

variable {plan : Plan} {world : Surroundings}

/-- The same plan with or without a stop request to look at. -/
def polling (plan : Plan) (stoppable : Bool) : Plan :=
  { plan with stoppable := stoppable }

/-- What becomes of a step is no matter of the stop request. -/
theorem Round.polling {heard : Option Fault} {granted : String → Option Fault} {p : Progress}
    {talk : List Exchange} {completed : Option Command} {left : Passage}
    (h : plan.Round heard granted p talk completed left) (stoppable : Bool) :
    (plan.polling stoppable).Round heard granted p talk completed left := by
  cases h with
  | concludes hindex => exact .concludes hindex
  | exceeds hindex hmany => exact .exceeds hindex hmany
  | unheard hindex hsteps hfault => exact .unheard hindex hsteps hfault
  | refused hc hsteps hheard hfault => exact .refused hc hsteps hheard hfault
  | breaks hc hsteps hheard hfault => exact .breaks hc hsteps hheard hfault
  | passes hc hsteps hheard hgranted hnext => exact .passes hc hsteps hheard hgranted hnext

/-- Something becomes of every step: it ends the run, or its command is done. -/
theorem exists_round (plan : Plan) (heard : Option Fault) (granted : String → Option Fault)
    (p : Progress) :
    (∃ talk outcome, (∀ exchange ∈ talk, exchange.1.isTalk = true) ∧
        plan.Round heard granted p talk none (.over outcome)) ∨
      ∃ c next, plan.commands[p.index]? = some c ∧ ((p.steps + 1 : Nat) : Int) ≤ plan.maxSteps ∧
        next.steps = p.steps + 1 ∧
        plan.Round heard granted p (Entry.talk plan.total (p.index, c)) (some c) (.on next) := by
  by_cases hindex : p.index < plan.total
  case neg => exact Or.inl ⟨[], _, List.forall_mem_nil _, .concludes (Nat.le_of_not_lt hindex)⟩
  by_cases hsteps : ((p.steps + 1 : Nat) : Int) ≤ plan.maxSteps
  case neg =>
    exact Or.inl ⟨[], _, List.forall_mem_nil _, .exceeds hindex (Int.lt_of_not_ge hsteps)⟩
  cases hheard : heard with
  | some fault =>
    exact Or.inl ⟨_, _, List.forall_mem_singleton.2 rfl, .unheard hindex hsteps rfl⟩
  | none =>
    obtain ⟨c, hc⟩ : ∃ c, plan.commands[p.index]? = some c := ⟨_, Array.getElem?_eq_getElem hindex⟩
    by_cases hgranted : ∀ value, c.value? = some value → granted value = none
    case neg =>
      cases c with
      | send value line =>
        cases hanswer : granted value with
        | none =>
          exact absurd (fun v hv => Option.some.inj hv ▸ hanswer) hgranted
        | some fault =>
          exact Or.inl ⟨_, _, List.forall_mem_cons.2 ⟨rfl, List.forall_mem_singleton.2 rfl⟩,
            .refused hc hsteps rfl hanswer⟩
      | _ => exact absurd (by simp [Command.value?]) hgranted
    cases hnext : plan.advance { p with steps := p.steps + 1 } c with
    | error fault =>
      exact Or.inl ⟨_, _, List.forall_mem_singleton.2 rfl, .breaks hc hsteps rfl hnext⟩
    | ok next =>
      exact Or.inr ⟨c, next, hc, hsteps, (advance_counts hnext).1,
        .passes hc hsteps rfl hgranted hnext⟩

/-- Both executions do the same commands and come to the same outcome. -/
theorem performs_alike (hworld : world.Heedless)
    (hdelays : ∀ ms line, .delay ms line ∈ plan.commands.toList → 0 ≤ ms ∧ ms ≤ 60000) (r : Nat)
    {p : Progress} {trace trace' : Trace}
    (hannouncements : trace.counts.announcements = trace'.counts.announcements)
    (hsends : trace.counts.sends = trace'.counts.sends)
    (hr : plan.maxSteps ≤ ((p.steps + r : Nat) : Int)) :
    ∃ entries talk outcome, entries.length ≤ r ∧
      (∀ entry ∈ entries, plan.commands[entry.1]? = some entry.2) ∧
      (∀ exchange ∈ talk, exchange.1.isTalk = true) ∧
      (plan.polling true).Performs world p trace entries talk outcome ∧
      (plan.polling false).Performs world p trace' entries talk outcome := by
  -- on the steps that are left; so far both have announced and sent equally often
  induction r using Nat.strongRecOn generalizing p trace trace' with
  | ind r ih =>
    have hheard : world.announce ((plan.polling true).countsAt trace.counts) =
        world.announce ((plan.polling false).countsAt trace'.counts) :=
      hworld.announce _ _ (congrArg (· + 1) hannouncements) hsends
    have hgranted : world.send ((plan.polling true).countsAt trace.counts) =
        world.send ((plan.polling false).countsAt trace'.counts) :=
      hworld.send _ _ (congrArg (· + 1) hannouncements) hsends
    rcases plan.exists_round (world.announce ((plan.polling true).countsAt trace.counts))
        (world.send ((plan.polling true).countsAt trace.counts)) p with
      ⟨talk, outcome, htalk, hover⟩ | ⟨c, next, hc, hsteps, hnext, hon⟩
    · have hpolled := (hover.polling true).performs hworld.toRestful
      rw [hheard, hgranted] at hover
      exact ⟨[], talk, outcome, Nat.zero_le r, List.forall_mem_nil _, htalk, hpolled,
        (hover.polling false).performs hworld.toRestful⟩
    · have hends : ∀ stoppable, c.Ends stoppable := by
        intro stoppable
        cases c with
        | delay ms line =>
          rw [← Array.getElem?_toList] at hc
          obtain ⟨hlow, hhigh⟩ := hdelays ms line (List.mem_of_getElem? hc)
          exact Command.InRange.ends (c := .delay ms line) ⟨hlow, hhigh⟩ stoppable
        | _ => trivial
      obtain ⟨between, hcalls, hsent, hothers⟩ :=
        (hon.polling true).performs_on hworld.toRestful (hends true)
      rw [hheard, hgranted] at hon
      obtain ⟨between', hcalls', hsent', hothers'⟩ :=
        (hon.polling false).performs_on hworld.toRestful (hends false)
      have hcalls : between.counts.announcements = between'.counts.announcements := by
        rw [hcalls, hcalls', hannouncements]
        rfl
      have hsent : between.counts.sends = between'.counts.sends := by
        rw [hsent, hsent', hsends]
        rfl
      obtain ⟨rest, rfl⟩ : ∃ rest, r = rest + 1 := ⟨r - 1, by omega⟩
      have hr : plan.maxSteps ≤ ((next.steps + rest : Nat) : Int) := by omega
      obtain ⟨entries, talk, outcome, hlength, hentries, htalk, hpolled, hunpolled⟩ :=
        ih rest (Nat.lt_succ_self rest) hcalls hsent hr
      exact ⟨(p.index, c) :: entries, talk, outcome, Nat.succ_le_succ hlength,
        List.forall_mem_cons.2 ⟨hc, hentries⟩, htalk, hothers _ _ _ hpolled,
        hothers' _ _ _ hunpolled⟩

end Plan

theorem visible_of_talk {trace : Trace} {entries : List Entry} {talk : List Exchange}
    {total : Nat} {inSlices : Bool} (htalk : ∀ exchange ∈ talk, exchange.1.isTalk = true)
    (h : trace.events.reverse = entries.flatMap (Entry.deeds total inSlices) ++
      talk.filterMap Exchange.event?) :
    trace.visible = entries.flatMap (Entry.events total) ++ talk.filterMap Exchange.event? := by
  rw [Trace.visible, h, List.filter_append, visible_flatMap_deeds, List.append_cancel_left_eq,
    List.filter_eq_self]
  intro event hevent
  obtain ⟨⟨request, answer⟩, hmem, heq⟩ := List.mem_filterMap.1 hevent
  have hrequest := htalk _ hmem
  cases request with
  | poll | sleep seconds => cases hrequest
  | announce position total | send value =>
    cases answer <;> cases heq
    rfl

theorem Plan.run_noCommands (plan : Plan) (h : plan.total = 0) (world : Surroundings) :
    plan.run world = (some (.error .noCommands), {}) ∧ plan.exchanges world = [] := by
  rw [Plan.run, Plan.exchanges, Plan.start, if_pos h]
  cases plan.requestBound <;> exact ⟨rfl, rfl⟩

/-- Both executions are runs with the same commands done, and with the same talk at their end. -/
theorem Plan.run_alike {plan : Plan} {world : Surroundings} (hworld : world.Heedless)
    (hdelays : ∀ ms line, .delay ms line ∈ plan.commands.toList → 0 ≤ ms ∧ ms ≤ 60000) :
    ∃ (entries : List Entry) (talk : List Exchange) (outcome : Except Fault Tally),
      (∀ entry ∈ entries, plan.commands[entry.1]? = some entry.2) ∧
      (∀ exchange ∈ talk, exchange.1.isTalk = true) ∧
      ∀ stoppable, ∃ trace, (plan.polling stoppable).run world = (some outcome, trace) ∧
        trace.events.reverse = entries.flatMap (Entry.deeds plan.total stoppable) ++
          talk.filterMap Exchange.event? ∧
        talkOf ((plan.polling stoppable).exchanges world) =
          entries.flatMap (Entry.talk plan.total) ++ talk := by
  by_cases hnone : plan.total = 0
  · refine ⟨[], [], .error .noCommands, List.forall_mem_nil _, List.forall_mem_nil _,
      fun stoppable => ?_⟩
    obtain ⟨hrun, hexchanges⟩ := run_noCommands (plan.polling stoppable) hnone world
    exact ⟨{}, hrun, rfl, by rw [hexchanges]; rfl⟩
  · have hsteps : plan.maxSteps ≤ ((({} : Progress).steps + plan.maxSteps.toNat : Nat) : Int) := by
      omega
    have hannouncements : ({} : Trace).counts.announcements = ({} : Trace).counts.announcements :=
      rfl
    have hsends : ({} : Trace).counts.sends = ({} : Trace).counts.sends := rfl
    obtain ⟨entries, talk, outcome, hlength, hentries, htalk, hpolled, hunpolled⟩ :=
      performs_alike hworld hdelays plan.maxSteps.toNat hannouncements hsends hsteps
    have hperforms : ∀ stoppable,
        (plan.polling stoppable).Performs world {} {} entries talk outcome := by
      intro stoppable
      cases stoppable with
      | true => exact hpolled
      | false => exact hunpolled
    refine ⟨entries, talk, outcome, hentries, htalk, fun stoppable => ?_⟩
    have hsome : (plan.polling stoppable).total ≠ 0 := hnone
    obtain ⟨trace, hrun, hevents, htalked, -⟩ := (hperforms stoppable).run hsome hlength
    exact ⟨trace, hrun, hevents, htalked⟩

end SerialConsole.Script
