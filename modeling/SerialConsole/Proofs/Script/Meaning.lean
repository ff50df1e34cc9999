import SerialConsole.Proofs.Script.Performing

set_option autoImplicit false

/-!
# What a script does

An execution of a parsed script that nothing stops runs the unfolding of its tree (`run_layout`).
The layout of the tree is a span, and what is run of a span is walked and performed step by step.
-/
namespace SerialConsole.Script

def Event.isSleep : Event → Bool
  | .slept _ => true
  | _ => false

/-- What happened apart from sleeping, the earliest event first. -/
def Trace.visible (trace : Trace) : List Event :=
  trace.events.reverse.filter fun event => !event.isSleep

/-- What a step announces and sends. -/
def Entry.events (total : Nat) (entry : Entry) : List Event :=
  .step (entry.1 + 1) total :: (entry.2.value?.map Event.sent).toList

theorem visible_deeds (total : Nat) (inSlices : Bool) (entry : Entry) :
    (entry.deeds total inSlices).filter (fun event => !event.isSleep) = entry.events total := by
  rw [Entry.deeds, Entry.events, List.filter_cons, List.filter_append, List.filter_map]
  cases entry.2.value? <;> simp [Event.isSleep]

theorem visible_flatMap_deeds (total : Nat) (inSlices : Bool) (entries : List Entry) :
    (entries.flatMap (Entry.deeds total inSlices)).filter (fun event => !event.isSleep) =
      entries.flatMap (Entry.events total) := by
  rw [List.filter_flatMap]
  simp only [visible_deeds]

/-- A step that is announced behind others that were done. -/
theorem visible_of_announced {trace : Trace} {before : List Entry} {total position : Nat}
    {inSlices : Bool} (h : trace.events.reverse = before.flatMap (Entry.deeds total inSlices) ++
      [.step position total]) :
    trace.visible = before.flatMap (Entry.events total) ++ [.step position total] := by
  rw [Trace.visible, h, List.filter_append, visible_flatMap_deeds]
  rfl

/-- What is run of a tree whose commands are in range can be slept to its end. -/
theorem ends_unfolding {b : Block} (hrange : ∀ c ∈ b.commands 0, c.InRange) {entry : Entry}
    (hmem : entry ∈ b.unfolding 0) (inSlices : Bool) : entry.2.Ends inSlices := by
  obtain ⟨k, -, hk⟩ := Block.mem_unfolding hmem
  exact (hrange _ (List.mem_of_getElem? hk)).ends inSlices

namespace Plan

variable {plan : Plan} {world : Surroundings}

/-- The unfolding of a tree is walked from the start to the end of the commands. -/
theorem walk_layout {b : Block} (hcommands : plan.commands = (b.commands 0).toArray)
    (hrange : ∀ c ∈ b.commands 0, c.InRange) :
    plan.Walk {} (b.unfolding 0) (past {} (b.unfolding 0) b.size []) := by
  have hspan := (holds_layout hcommands).span hrange
  rw [Nat.zero_add] at hspan
  exact hspan.walk rfl

theorem total_layout {b : Block} (hcommands : plan.commands = (b.commands 0).toArray) :
    plan.total = b.size := by
  rw [total, hcommands, List.size_toArray, Block.commands_length]

/-- Behind the unfolding of a tree, an execution is at its end and no loop is open. -/
theorem round_layout {b : Block} (hcommands : plan.commands = (b.commands 0).toArray)
    (heard : Option Fault) (granted : String → Option Fault) :
    plan.Round heard granted (past {} (b.unfolding 0) b.size []) [] none
      (.over (.ok ⟨b.steps, (sentBy (b.unfolding 0)).length, b.size⟩)) := by
  have hverdict : plan.verdict (past {} (b.unfolding 0) b.size []) =
      .ok ⟨b.steps, (sentBy (b.unfolding 0)).length, b.size⟩ := by
    rw [verdict, past_loops, List.isEmpty_nil, if_pos rfl, total_layout hcommands]
    simp only [past, Nat.zero_add, Block.length_unfolding]
  rw [← hverdict]
  exact .concludes (Nat.le_of_eq (total_layout hcommands))

/-- When no send is refused, the unfolding of a tree is run to its end. -/
theorem run_granted (hworld : world.Obliging) {b : Block}
    (hcommands : plan.commands = (b.commands 0).toArray) (hsome : b.size ≠ 0)
    (hrange : ∀ c ∈ b.commands 0, c.InRange) (hsteps : (b.steps : Int) ≤ plan.maxSteps)
    (hgrants : world.Grants 0 (sentBy (b.unfolding 0))) :
    ∃ trace, plan.run world =
        (some (.ok ⟨b.steps, (sentBy (b.unfolding 0)).length, b.size⟩), trace) ∧
      trace.events.reverse = (b.unfolding 0).flatMap (Entry.deeds b.size plan.stoppable) ∧
      talkOf (plan.exchanges world) = (b.unfolding 0).flatMap (Entry.talk b.size) := by
  have htotal := total_layout hcommands
  have hallowed : (past {} (b.unfolding 0) b.size []).steps ≤ plan.maxSteps.toNat := by
    rw [past_steps, Block.length_unfolding]
    simp only
    omega
  obtain ⟨counts, -, hrun⟩ := (walk_layout hcommands hrange).run hworld (by omega)
    hallowed (fun entry hmem => ends_unfolding hrange hmem _) hgrants
  obtain ⟨trace, hout, hevents, htalk, -⟩ := hrun _ _ (round_layout hcommands _ _)
  rw [List.filterMap_nil, List.append_nil, htotal] at hevents
  rw [List.append_nil, htotal] at htalk
  exact ⟨trace, hout, hevents, htalk⟩

/-- Nothing failing and nobody asking to stop, the unfolding of a tree is run to its end. -/
theorem run_layout (hquiet : world.Quiet) {b : Block}
    (hcommands : plan.commands = (b.commands 0).toArray) (hsome : b.size ≠ 0)
    (hrange : ∀ c ∈ b.commands 0, c.InRange) (hsteps : (b.steps : Int) ≤ plan.maxSteps) :
    ∃ trace, plan.run world =
        (some (.ok ⟨b.steps, (sentBy (b.unfolding 0)).length, b.size⟩), trace) ∧
      trace.visible = (b.unfolding 0).flatMap (Entry.events b.size) := by
  obtain ⟨trace, hrun, hevents, -⟩ := run_granted hquiet.obliging hcommands hsome hrange hsteps
    (hquiet.grants 0 _)
  refine ⟨trace, hrun, ?_⟩
  rw [Trace.visible, hevents]
  exact visible_flatMap_deeds b.size plan.stoppable (b.unfolding 0)

end Plan

/-- The value that an event sends. -/
def Event.sent? : Event → Option String
  | .sent value => some value
  | _ => none

/-- The position and the total that an event announces. -/
def Event.announced? : Event → Option (Nat × Nat)
  | .step position total => some (position, total)
  | _ => none

/-- The values that were sent, in order. -/
def Trace.sent (trace : Trace) : List String :=
  trace.events.reverse.filterMap Event.sent?

/-- The positions and totals that were announced, in order. -/
def Trace.announced (trace : Trace) : List (Nat × Nat) :=
  trace.events.reverse.filterMap Event.announced?

theorem Trace.sent_eq_visible (trace : Trace) :
    trace.sent = trace.visible.filterMap Event.sent? := by
  rw [visible, List.filterMap_filter, sent]
  congr
  funext event
  cases event <;> rfl

theorem Trace.announced_eq_visible (trace : Trace) :
    trace.announced = trace.visible.filterMap Event.announced? := by
  rw [visible, List.filterMap_filter, announced]
  congr
  funext event
  cases event <;> rfl

theorem sent_of_events (total : Nat) (entries : List Entry) :
    (entries.flatMap (Entry.events total)).filterMap Event.sent? = sentBy entries := by
  induction entries with
  | nil => rfl
  | cons entry rest ih =>
    rw [List.flatMap_cons, List.filterMap_append, ih, sentBy, sentBy, List.filterMap_cons]
    cases hvalue : entry.2.value? <;>
      simp [Entry.events, Event.sent?, hvalue, List.filterMap_cons]

theorem announced_of_events (total : Nat) (entries : List Entry) :
    (entries.flatMap (Entry.events total)).filterMap Event.announced? =
      entries.map fun entry => (entry.1 + 1, total) := by
  induction entries with
  | nil => rfl
  | cons entry rest ih =>
    rw [List.flatMap_cons, List.filterMap_append, ih, List.map_cons]
    cases hvalue : entry.2.value? <;>
      simp [Entry.events, Event.announced?, hvalue, List.filterMap_cons]

/-- An accepted script with a command has one tree. Nothing failing and nobody asking to stop, an
execution that may take the steps of the tree runs the unfolding of the tree to its end. -/
theorem parse_run_unfolding {script : List Char} {commands : List Command}
    (hparse : parse script = .ok commands) (hsome : commands ≠ []) :
    ∃ b : Block, commands = b.commands 0 ∧ (∀ c : Block, commands = c.commands 0 → c = b) ∧
      (∀ (plan : Plan) (world : Surroundings), plan.commands = commands.toArray → world.Quiet →
        (b.steps : Int) ≤ plan.maxSteps →
          ∃ trace, plan.run world = (some (.ok ⟨b.steps, (sentBy (b.unfolding 0)).length,
              commands.length⟩), trace) ∧
            trace.sent = sentBy (b.unfolding 0) ∧
            trace.announced = (b.unfolding 0).map fun entry => (entry.1 + 1, commands.length)) ∧
      ∀ i value line, commands[i]? = some (.send value line) →
        (b.unfolding 0).count (i, .send value line) = timesRun i 0 commands := by
  obtain ⟨b, rfl⟩ := parse_eq_commands hparse
  have hsize : b.size ≠ 0 := by
    rw [← Block.commands_length b 0]
    exact fun hzero => hsome (List.eq_nil_of_length_eq_zero hzero)
  refine ⟨b, rfl, fun c hc => (Block.commands_injective hc).symm, ?_, ?_⟩
  · intro plan world hplan hquiet hsteps
    obtain ⟨trace, hrun, hvisible⟩ := Plan.run_layout hquiet hplan hsize
      (readUpTo_parse hparse).in_range hsteps
    refine ⟨trace, ?_, ?_, ?_⟩
    · rw [hrun, Block.commands_length]
    · rw [Trace.sent_eq_visible, hvisible, sent_of_events]
    · rw [Trace.announced_eq_visible, hvisible, announced_of_events, Block.commands_length]
  · intro i value line hi
    have hcount := Block.count_unfolding hi (by simp)
    rwa [Nat.zero_add] at hcount

/-- A loop in a loop, with a SEND in each of them and a DELAY between the two. -/
theorem parse_run_unfolding_nested :
    parse "LOOP 2\nSEND \"a\"\nDELAY 100\nLOOP 2\nSEND \"b\"\nEND\nEND".toList =
        .ok [.loop 2 6 1, .send "a" 2, .delay 100 3, .loop 2 5 4, .send "b" 5, .loopEnd 3 6,
          .loopEnd 0 7] ∧
      (∃ trace, Plan.run ⟨#[.loop 2 6 1, .send "a" 2, .delay 100 3, .loop 2 5 4, .send "b" 5,
          .loopEnd 3 6, .loopEnd 0 7], true, 17⟩ {} = (some (.ok ⟨17, 6, 7⟩), trace) ∧
        trace.sent = ["a", "b", "b", "a", "b", "b"] ∧
        trace.announced = [1, 2, 3, 4, 5, 6, 5, 6, 7, 2, 3, 4, 5, 6, 5, 6, 7].map (·, 7)) ∧
      timesRun 4 0 [.loop 2 6 1, .send "a" 2, .delay 100 3, .loop 2 5 4, .send "b" 5,
        .loopEnd 3 6, .loopEnd 0 7] = 4 := by
  have hparse : parse "LOOP 2\nSEND \"a\"\nDELAY 100\nLOOP 2\nSEND \"b\"\nEND\nEND".toList =
      .ok [.loop 2 6 1, .send "a" 2, .delay 100 3, .loop 2 5 4, .send "b" 5, .loopEnd 3 6,
        .loopEnd 0 7] := by rfl
  obtain ⟨b, _, hunique, hrun, htimes⟩ := parse_run_unfolding hparse (by simp)
  have hb := hunique (.loop 2 1 (.send "a" 2 (.delay 100 3 (.loop 2 4 (.send "b" 5 .done) 6 .done)))
    7 .done) rfl
  subst hb
  refine ⟨hparse, hrun _ {} rfl ⟨fun _ => rfl, fun _ => rfl, fun _ _ => rfl, fun _ _ => rfl⟩ ?_, ?_⟩
  · decide
  · rw [← htimes 4 "b" 5 rfl]
    decide

end SerialConsole.Script
