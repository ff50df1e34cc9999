import SerialConsole.Proofs.Script.Refusals

set_option autoImplicit false

/-!
# A send that fails

Sends that are granted `k` times and then fail. In a tree that sends more, the run ends with the
send that comes behind `k` others in the unfolding of the tree. In any other tree it is the run in
which no send fails (`run_harmless`).
-/
namespace SerialConsole.Script

/-- Obliging surroundings in which `k` sends are granted, and then one fails with an ordinary
fault. -/
structure Surroundings.FailingAt (world : Surroundings) (k : Nat) : Prop extends
    world.Obliging where
  granted : ∀ counts value, counts.sends < k → world.send counts value = none
  failing : ∀ counts value, counts.sends = k →
    ∃ fault, world.send counts value = some fault ∧ fault.isOrdinary = true

theorem Surroundings.FailingAt.grants {world : Surroundings} {k : Nat} (h : world.FailingAt k)
    {values : List String} (hfew : values.length ≤ k) : world.Grants 0 values := by
  intro i value hvalue counts hcounts
  have hi : i < values.length := (List.getElem?_eq_some_iff.1 hvalue).1
  exact h.granted counts value (by omega)

/-- The same surroundings, but for their sends: none of them fails. -/
def Surroundings.granting (world : Surroundings) : Surroundings :=
  { world with send := fun _ _ => none }

/-- Where more than `k` values are sent, one is sent behind `k` others. -/
theorem exists_send_at {entries : List Entry} {k : Nat} (hk : k < (sentBy entries).length) :
    ∃ before i value line after, entries = before ++ (i, .send value line) :: after ∧
      (sentBy before).length = k := by
  induction entries generalizing k with
  | nil => cases hk
  | cons entry rest ih =>
    -- a command that sends nothing is passed over
    have hskip : sentBy [entry] = [] → k < (sentBy rest).length →
        ∃ before i value line after, entry :: rest = before ++ (i, .send value line) :: after ∧
          (sentBy before).length = k := by
      intro hnone hrest
      obtain ⟨before, i, value, line, after, rfl, hlength⟩ := ih hrest
      refine ⟨entry :: before, i, value, line, after, rfl, ?_⟩
      rw [← List.singleton_append, sentBy_append, hnone, List.nil_append, hlength]
    obtain ⟨i, c⟩ := entry
    cases c with
    | send value line =>
      cases k with
      | zero => exact ⟨[], i, value, line, rest, rfl, rfl⟩
      | succ k =>
        obtain ⟨before, j, later, place, after, rfl, hlength⟩ := ih (Nat.lt_of_succ_lt_succ hk)
        exact ⟨(i, .send value line) :: before, j, later, place, after, rfl,
          congrArg (· + 1) hlength⟩
    | delay _ _ | loop _ _ _ | loopEnd _ _ | unknown _ => exact hskip rfl hk

theorem done_of_mem_talk {total : Nat} {entries : List Entry} {exchange : Exchange}
    (h : exchange ∈ entries.flatMap (Entry.talk total)) : exchange.2 = .done := by
  obtain ⟨entry, _, hin⟩ := List.mem_flatMap.1 h
  rcases List.mem_cons.1 hin with rfl | hsend
  · rfl
  · obtain ⟨value, _, rfl⟩ := Option.map_eq_some_iff.1 (Option.mem_toList.1 hsend)
    rfl

namespace Plan

variable {plan : Plan} {world : Surroundings}

theorem length_dialogue_le (fuel : Nat) (turn : Turn) (trace : Trace) :
    (plan.dialogue world fuel turn trace).length ≤ fuel := by
  induction fuel generalizing turn trace with
  | zero => cases turn <;> exact Nat.le_refl 0
  | succ fuel ih =>
    cases turn with
    | finished outcome => exact Nat.zero_le _
    | asks request stage p => exact Nat.succ_le_succ (ih _ _)

/-- Where all sends were granted, sends that are always granted make no difference. -/
theorem Leads.granting {turn next : Turn} {trace last : Trace} {exchanges : List Exchange}
    (h : plan.Leads world turn trace exchanges next last)
    (hdone : ∀ value answer, (.send value, answer) ∈ exchanges → answer = .done) :
    plan.Leads world.granting turn trace exchanges next last := by
  induction h with
  | nil turn trace => exact .nil turn trace
  | @cons request stage p answer next trace between last exchanges hanswer _ ih =>
    have hsame : world.granting.answer trace request = (answer, between) := by
      cases request with
      | send value =>
        have hfirst := hdone value answer List.mem_cons_self
        subst hfirst
        rw [Surroundings.answer] at hanswer
        split at hanswer
        · cases hanswer
        · exact hanswer
      | _ => exact hanswer
    exact .cons hsame (ih fun value answer hmem => hdone value answer (List.mem_cons_of_mem _ hmem))

theorem run_granting {outcome : Except Fault Tally} {trace : Trace}
    (hrun : plan.run world = (some outcome, trace))
    (hdone : ∀ value answer, (.send value, answer) ∈ plan.exchanges world → answer = .done) :
    plan.run world.granting = (some outcome, trace) :=
  (run_of_leads ((leads_of_run hrun).granting hdone) (length_dialogue_le _ _ _)).1

end Plan

/-- Sends that are granted `k` times and then fail with an ordinary fault, nothing else failing and
nobody asking to stop. If the unfolding of an accepted script sends more than `k` values, its run
ends with the send behind the first `k`: the fault names the place of its command and carries the
fault of the send, everything before it in the unfolding was done, its own step was announced, and
nothing was asked for behind it. If the unfolding does not send more, the run is the one in which no
send fails, and it succeeds. -/
theorem failing_send_ends_run {script : List Char} {commands : List Command}
    (hparse : parse script = .ok commands) (hsome : commands ≠ []) :
    ∃ b : Block, commands = b.commands 0 ∧ (∀ c : Block, commands = c.commands 0 → c = b) ∧
      ∀ (plan : Plan) (world : Surroundings) (k : Nat), plan.commands = commands.toArray →
        world.FailingAt k →
          (k < (sentBy (b.unfolding 0)).length → ∃ before i value line after,
            b.unfolding 0 = before ++ (i, .send value line) :: after ∧
              (sentBy before).length = k) ∧
          (∀ before i value line after,
            b.unfolding 0 = before ++ (i, .send value line) :: after →
              (sentBy before).length = k → ((before.length + 1 : Nat) : Int) ≤ plan.maxSteps →
                ∃ (counts : Counts) (fault : Fault) (trace : Trace), counts.sends = k ∧
                  world.send counts value = some fault ∧
                  plan.run world =
                    (some (.error (.sendFailed i commands.length fault)), trace) ∧
                  trace.sent = (sentBy (b.unfolding 0)).take k ∧
                  trace.announced = (before.map fun entry => (entry.1 + 1, commands.length)) ++
                    [(i + 1, commands.length)] ∧
                  trace.events.reverse =
                    before.flatMap (Entry.deeds commands.length plan.stoppable) ++
                      [.step (i + 1) commands.length] ∧
                  [(.send value, .failed fault)] <:+ plan.exchanges world) ∧
          ((sentBy (b.unfolding 0)).length ≤ k → (b.steps : Int) ≤ plan.maxSteps →
            ∃ trace, plan.run world = (some (.ok ⟨b.steps, (sentBy (b.unfolding 0)).length,
                commands.length⟩), trace) ∧
              plan.run world = plan.run world.granting) := by
  obtain ⟨b, rfl⟩ := parse_eq_commands hparse
  have hrange := (readUpTo_parse hparse).in_range
  refine ⟨b, rfl, fun c hc => (Block.commands_injective hc).symm, ?_⟩
  intro plan world k hplan hworld
  rw [Block.commands_length]
  refine ⟨exists_send_at, ?_, ?_⟩
  · intro before i value line after hunfolding hlength hsteps
    obtain ⟨counts, hcounts, hrun⟩ := Plan.run_refused hworld.toObliging hplan hrange hunfolding
      hsteps (hworld.grants (Nat.le_of_eq hlength))
    rw [hlength] at hcounts
    obtain ⟨fault, hfault, hordinary⟩ := hworld.failing counts value hcounts
    obtain ⟨trace, hout, hevents, -, hsuffix⟩ := hrun fault hfault hordinary
    have hvisible := visible_of_announced hevents
    refine ⟨counts, fault, trace, hcounts, hfault, hout, ?_, ?_, hevents, hsuffix⟩
    · rw [Trace.sent_eq_visible, hvisible, List.filterMap_append, sent_of_events, hunfolding,
        sentBy_append, List.take_left' hlength]
      exact List.append_nil _
    · rw [Trace.announced_eq_visible, hvisible, List.filterMap_append, announced_of_events]
      rfl
  · intro hfew hsteps
    obtain ⟨trace, hrun, -, htalk⟩ := Plan.run_granted hworld.toObliging hplan
      (Block.size_ne_zero hsome) hrange hsteps (hworld.grants hfew)
    refine ⟨trace, hrun, ?_⟩
    rw [hrun, Plan.run_granting hrun fun value answer hmem => ?_]
    have htalked : (.send value, answer) ∈ talkOf (plan.exchanges world) :=
      List.mem_filter.2 ⟨hmem, rfl⟩
    rw [htalk] at htalked
    exact done_of_mem_talk htalked

/-- The second round of a loop behind another send, and the third send fails. -/
theorem failing_send_ends_run_loop :
    parse "SEND \"a\"\nLOOP 2\nSEND \"b\"\nEND".toList =
        .ok [.send "a" 1, .loop 2 3 2, .send "b" 3, .loopEnd 1 4] ∧
      ∃ trace, Plan.run ⟨#[.send "a" 1, .loop 2 3 2, .send "b" 3, .loopEnd 1 4], true, 6⟩
          { send := fun counts _ => if counts.sends < 2 then none else some .notConnected } =
          (some (.error (.sendFailed 2 4 .notConnected)), trace) ∧
        trace.sent = ["a", "b"] ∧
        trace.announced = [(1, 4), (2, 4), (3, 4), (4, 4), (3, 4)] := by
  have hparse : parse "SEND \"a\"\nLOOP 2\nSEND \"b\"\nEND".toList =
      .ok [.send "a" 1, .loop 2 3 2, .send "b" 3, .loopEnd 1 4] := by rfl
  obtain ⟨b, -, hunique, hruns⟩ := failing_send_ends_run hparse (by simp)
  have hb := hunique (.send "a" 1 (.loop 2 2 (.send "b" 3 .done) 4 .done)) rfl
  subst hb
  have hworld : Surroundings.FailingAt
      { send := fun counts _ => if counts.sends < 2 then none else some .notConnected } 2 :=
    { stop := fun _ => rfl, sleep := fun _ _ => rfl, announce := fun _ => rfl
      granted := fun _ _ hfew => if_pos hfew
      failing := fun _ _ hmany => ⟨.notConnected, if_neg (by omega), rfl⟩ }
  obtain ⟨counts, fault, trace, hcounts, hfault, hrun, hsent, hannounced, -, -⟩ := (hruns
    ⟨#[.send "a" 1, .loop 2 3 2, .send "b" 3, .loopEnd 1 4], true, 6⟩ _ 2 rfl hworld).2.1
    [(0, .send "a" 1), (1, .loop 2 3 2), (2, .send "b" 3), (3, .loopEnd 1 4)] 2 "b" 3
    [(3, .loopEnd 1 4)] rfl rfl (by decide)
  obtain rfl : Fault.notConnected = fault :=
    Option.some.inj ((if_neg (by omega)).symm.trans hfault)
  exact ⟨hparse, trace, hrun, hsent, hannounced⟩

end SerialConsole.Script
