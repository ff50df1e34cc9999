import SerialConsole.Proofs.Script.Exchanges
import SerialConsole.Proofs.Script.Slicing
import SerialConsole.Proofs.Script.Walking

set_option autoImplicit false

/-!
# How a step is performed

`Plan.Round` says what becomes of one step when its announcement and its send get certain answers.
It does not say anything of looks at the stop request and of sleeps. `Round.leads` performs it:
where nobody asks to stop and every sleep is granted, an execution says what the round says, and
sleeps as the command says (`Command.naps`). A walk is performed step by step (`Walk.performs`),
and with the round that is its end it makes a run (`Walk.run`).
-/
namespace SerialConsole.Script

/-! ## Sleeps -/

/-- The sleeps of a delay in slices, as far as there are at most `n`. -/
def slices : Nat → Double → List Double
  | 0, _ => []
  | n + 1, remaining =>
    if remaining.isPositive then
      Double.min remaining sliceSeconds ::
        slices n (remaining.sub (Double.min remaining sliceSeconds))
    else []

/-- The sleeps of a command, in slices or in one piece. -/
def Command.naps (inSlices : Bool) : Command → List Double
  | .delay ms _ => if inSlices then slices (ms.toNat / 20 + 2) (seconds ms) else [seconds ms]
  | _ => []

/-- A command that comes to an end: a delay has a number of seconds, and its slices are used up. -/
def Command.Ends (inSlices : Bool) : Command → Prop
  | .delay ms _ => (seconds ms).isFinite = true ∧
      (inSlices = true → ∃ n, Sliced n (seconds ms))
  | _ => True

/-- What a command that is done leaves behind: its announcement, what was sent, and the sleeps. -/
def Entry.deeds (total : Nat) (inSlices : Bool) (entry : Entry) : List Event :=
  .step (entry.1 + 1) total :: ((entry.2.value?.map Event.sent).toList ++
    (entry.2.naps inSlices).map .slept)

theorem Sliced.slices_eq {n m : Nat} {remaining : Double} (h : Sliced n remaining) (hle : n ≤ m) :
    slices m remaining = slices n remaining := by
  induction h generalizing m with
  | spent hspent =>
    cases m with
    | zero => rfl
    | succ m => simp only [slices, hspent, Bool.false_eq_true, if_false]
  | slice hpositive _ ih =>
    cases m with
    | zero => omega
    | succ m => simp only [slices, hpositive, if_true, ih (Nat.le_of_succ_le_succ hle)]

theorem Command.InRange.ends {c : Command} (h : c.InRange) (inSlices : Bool) : c.Ends inSlices := by
  cases c with
  | delay ms line =>
    obtain ⟨n, _, hsliced⟩ := sliced_seconds h.1 h.2
    exact ⟨isFinite_seconds h.1 h.2, fun _ => ⟨n, hsliced⟩⟩
  | _ => trivial

/-! ## Surroundings -/

/-- Surroundings in which nobody asks to stop and every sleep is granted. -/
structure Surroundings.Restful (world : Surroundings) : Prop where
  stop : ∀ counts, world.stop counts = false
  sleep : ∀ counts seconds, world.sleep counts seconds = none

/-- Restful surroundings in which every announcement is granted. -/
structure Surroundings.Obliging (world : Surroundings) : Prop extends world.Restful where
  announce : ∀ counts, world.announce counts = none

/-- The given values are granted when they are sent one after another behind `k` others. -/
def Surroundings.Grants (world : Surroundings) (k : Nat) (values : List String) : Prop :=
  ∀ i value, values[i]? = some value →
    ∀ counts : Counts, counts.sends = k + i → world.send counts value = none

theorem Surroundings.Grants.of_append {world : Surroundings} {k : Nat} {values others : List String}
    (h : world.Grants k (values ++ others)) : world.Grants (k + values.length) others := by
  intro i value hvalue counts hcounts
  refine h (values.length + i) value ?_ counts (by omega)
  rw [List.getElem?_append_right (Nat.le_add_right _ _), Nat.add_sub_cancel_left, hvalue]

/-- Surroundings that never ask to stop and in which nothing fails. -/
structure Surroundings.Quiet (world : Surroundings) : Prop where
  stop : ∀ counts, world.stop counts = false
  announce : ∀ counts, world.announce counts = none
  send : ∀ counts value, world.send counts value = none
  sleep : ∀ counts seconds, world.sleep counts seconds = none

theorem Surroundings.Quiet.obliging {world : Surroundings} (h : world.Quiet) : world.Obliging :=
  ⟨⟨h.stop, h.sleep⟩, h.announce⟩

theorem Surroundings.Quiet.grants {world : Surroundings} (h : world.Quiet) (k : Nat)
    (values : List String) : world.Grants k values :=
  fun _ value _ counts _ => h.send counts value

/-- Whether a request is an announcement or a send. -/
def Request.isTalk : Request → Bool
  | .announce _ _ | .send _ => true
  | _ => false

def Request.isAnnouncement : Request → Bool
  | .announce _ _ => true
  | _ => false

/-- The number of announcements, also of those that fail. -/
def started (exchanges : List Exchange) : Nat :=
  exchanges.countP fun exchange => exchange.1.isAnnouncement

/-- The announcements and sends with their answers, without looks and sleeps. -/
def talkOf (exchanges : List Exchange) : List Exchange :=
  exchanges.filter fun exchange => exchange.1.isTalk

theorem sentOf_talkOf (es : List Exchange) : sentOf (talkOf es) = sentOf es := by
  rw [sentOf, talkOf, List.filterMap_filter, sentOf]
  congr
  funext e
  obtain ⟨request, answer⟩ := e
  cases request <;> rfl

theorem started_talkOf (es : List Exchange) : started (talkOf es) = started es := by
  rw [started, talkOf, List.countP_filter, started]
  congr
  funext e
  obtain ⟨request, answer⟩ := e
  cases request <;> rfl

theorem talkOf_append (es fs : List Exchange) : talkOf (es ++ fs) = talkOf es ++ talkOf fs :=
  List.filter_append es fs

theorem Surroundings.answer_counts (world : Surroundings) (trace : Trace) (request : Request) :
    (world.answer trace request).2.counts.announcements = trace.counts.announcements +
        started [(request, (world.answer trace request).1)] ∧
      (world.answer trace request).2.counts.sends = trace.counts.sends +
        (sentOf [(request, (world.answer trace request).1)]).length := by
  cases request with
  | poll => exact ⟨rfl, rfl⟩
  | announce position total =>
    rw [answer]
    split <;> exact ⟨rfl, rfl⟩
  | send value =>
    rw [answer]
    split <;> exact ⟨rfl, rfl⟩
  | sleep seconds =>
    rw [answer]
    split <;> exact ⟨rfl, rfl⟩

namespace Plan

variable {plan : Plan} {world : Surroundings}

theorem Leads.counts {turn next : Turn} {trace last : Trace} {es : List Exchange}
    (h : plan.Leads world turn trace es next last) :
    last.counts.announcements = trace.counts.announcements + started es ∧
      last.counts.sends = trace.counts.sends + (sentOf es).length := by
  induction h with
  | nil turn trace => exact ⟨rfl, rfl⟩
  | @cons request stage p answer next trace between last es hanswer _ ih =>
    have hfirst := world.answer_counts trace request
    rw [hanswer] at hfirst
    rw [← List.singleton_append, sentOf_append, List.length_append, started, List.countP_append]
    simp only [started] at hfirst ih
    omega

/-! ## How many requests a command makes -/

def widest (plan : Plan) : Nat :=
  plan.commands.foldl (fun bound command => max bound (requestsOf command)) 4

theorem foldl_max_bounds (commands : List Command) (bound : Nat) :
    bound ≤ commands.foldl (fun bound command => max bound (requestsOf command)) bound ∧
      ∀ c ∈ commands, requestsOf c ≤
        commands.foldl (fun bound command => max bound (requestsOf command)) bound := by
  induction commands generalizing bound with
  | nil => exact ⟨Nat.le_refl bound, by simp⟩
  | cons c rest ih =>
    obtain ⟨hbound, hrest⟩ := ih (max bound (requestsOf c))
    rw [List.foldl_cons]
    refine ⟨by omega, fun d hd => ?_⟩
    rcases List.mem_cons.1 hd with rfl | hmem
    · omega
    · exact hrest d hmem

theorem widest_bounds (plan : Plan) :
    4 ≤ plan.widest ∧ ∀ c ∈ plan.commands.toList, requestsOf c ≤ plan.widest := by
  rw [widest, ← Array.foldl_toList]
  exact foldl_max_bounds plan.commands.toList 4

theorem requestsOf_le_widest {i : Nat} {c : Command} (hc : plan.commands[i]? = some c) :
    requestsOf c ≤ plan.widest := by
  rw [← Array.getElem?_toList] at hc
  exact plan.widest_bounds.2 c (List.mem_of_getElem? hc)

/-! ## Requests that are granted -/

theorem leads_poll (plan : Plan) (hrest : world.Restful) (stage : Stage) (p : Progress)
    (trace : Trace) :
    plan.Leads world (.asks .poll stage p) trace [(.poll, .stop false)]
      (plan.resume stage p (.stop false))
      { trace with counts := { trace.counts with polls := trace.counts.polls + 1 } } :=
  .cons (by rw [Surroundings.answer, hrest.stop]) (.nil _ _)

theorem leads_sleep (plan : Plan) (hrest : world.Restful) (whole : Double) (stage : Stage)
    (p : Progress) (trace : Trace) :
    ∃ last, plan.Leads world (.asks (.sleep whole) stage p) trace [(.sleep whole, .done)]
      (plan.resume stage p .done) last :=
  ⟨_, .cons (by rw [Surroundings.answer, hrest.sleep]) (.nil _ _)⟩

/-- A delay in slices: a look before each of them, and the look behind the delay. -/
theorem leads_slices (plan : Plan) (hrest : world.Restful) {n : Nat} {remaining : Double}
    (h : Sliced n remaining) (p : Progress) (trace : Trace) :
    ∃ es last, plan.Leads world (slice remaining p) trace es
        (plan.proceed { p with index := p.index + 1 }) last ∧
      talkOf es = [] ∧ es.filterMap Exchange.event? = (slices n remaining).map .slept ∧
      es.length = 2 * n + 1 := by
  induction h generalizing trace with
  | @spent remaining hspent =>
    rw [slice]
    simp only [hspent, Bool.false_eq_true, if_false]
    exact ⟨_, _, leads_poll plan hrest .afterDelay p trace, rfl, rfl, rfl⟩
  | @slice n remaining hpositive _ ih =>
    have hlook := leads_poll plan hrest (.slicing remaining) p trace
    obtain ⟨awake, hsleep⟩ := leads_sleep plan hrest
      (Double.min remaining sliceSeconds)
      (.slept remaining (Double.min remaining sliceSeconds)) p
      { trace with counts := { trace.counts with polls := trace.counts.polls + 1 } }
    obtain ⟨es, last, hothers, htalk, hslept, hlength⟩ := ih awake
    rw [slice, slices]
    simp only [hpositive, if_true]
    refine ⟨_, last, hlook.trans (hsleep.trans hothers), ?_, ?_, ?_⟩
    · rw [talkOf_append, talkOf_append, htalk]
      rfl
    · rw [List.filterMap_append, List.filterMap_append, hslept]
      rfl
    · simp only [List.length_append, List.length_singleton, hlength]
      omega

theorem leads_pause (hrest : world.Restful) {ms : Int} {line : Nat}
    (hends : (Command.delay ms line).Ends plan.stoppable) (p : Progress) (trace : Trace) :
    ∃ es last, plan.Leads world (plan.pause (seconds ms) p) trace es
        (plan.proceed { p with index := p.index + 1 }) last ∧
      talkOf es = [] ∧
      es.filterMap Exchange.event? = ((Command.delay ms line).naps plan.stoppable).map .slept ∧
      es.length + 2 ≤ requestsOf (.delay ms line) := by
  obtain ⟨hfinite, hsliced⟩ := hends
  rw [pause, if_pos hfinite, Command.naps, requestsOf]
  cases hstoppable : plan.stoppable with
  | true =>
    obtain ⟨n, hn⟩ := hsliced hstoppable
    have hcount := hn.le_of_seconds
    obtain ⟨es, last, hleads, htalk, hslept, hlength⟩ :=
      leads_slices plan hrest hn p trace
    simp only [if_true]
    refine ⟨es, last, hleads, htalk, ?_, by omega⟩
    rw [hslept, hn.slices_eq hcount]
  | false =>
    simp only [Bool.false_eq_true, if_false]
    generalize seconds ms = whole
    obtain ⟨last, hleads⟩ := leads_sleep plan hrest whole .sleeping p trace
    exact ⟨_, last, hleads, rfl, rfl, by simp⟩

/-! ## One step -/

end Plan

/-- What is left of an execution: where it goes on, or its outcome. -/
inductive Passage where
  | on (next : Progress)
  | over (outcome : Except Fault Tally)

/-- The exchanges of a command that is done, apart from sleeps. -/
def Entry.talk (total : Nat) (entry : Entry) : List Exchange :=
  (.announce (entry.1 + 1) total, .done) ::
    (entry.2.value?.map fun value => (Request.send value, Answer.done)).toList

namespace Plan

variable {plan : Plan} {world : Surroundings}

/-- The outcome at the end of the commands. -/
def verdict (plan : Plan) (p : Progress) : Except Fault Tally :=
  if p.loops.isEmpty then .ok ⟨p.steps, p.sends, plan.total⟩
  else .error (.openLoops (plan.total - 1) plan.total p.loops.length)

/-- What becomes of the step at `p`, when its announcement gets one answer and a send another: the
announcement and the send, the command if it is done, and what is left. -/
inductive Round (plan : Plan) (heard : Option Fault) (granted : String → Option Fault)
    (p : Progress) : List Exchange → Option Command → Passage → Prop where
  | concludes : plan.total ≤ p.index → plan.Round heard granted p [] none (.over (plan.verdict p))
  | exceeds : p.index < plan.total → plan.maxSteps < ((p.steps + 1 : Nat) : Int) →
      plan.Round heard granted p [] none
        (.over (.error (.runaway p.index plan.total plan.maxSteps)))
  | unheard {fault : Fault} : p.index < plan.total →
      ((p.steps + 1 : Nat) : Int) ≤ plan.maxSteps → heard = some fault →
        plan.Round heard granted p [(.announce (p.index + 1) plan.total, .failed fault)] none
          (.over (.error fault))
  | refused {value : String} {line : Nat} {fault : Fault} :
      plan.commands[p.index]? = some (.send value line) →
        ((p.steps + 1 : Nat) : Int) ≤ plan.maxSteps → heard = none → granted value = some fault →
          plan.Round heard granted p
            [(.announce (p.index + 1) plan.total, .done), (.send value, .failed fault)] none
            (.over (.error (plan.faultOf .sending p fault)))
  | breaks {c : Command} {fault : Fault} : plan.commands[p.index]? = some c →
      ((p.steps + 1 : Nat) : Int) ≤ plan.maxSteps → heard = none →
        plan.advance { p with steps := p.steps + 1 } c = .error fault →
          plan.Round heard granted p [(.announce (p.index + 1) plan.total, .done)] none
            (.over (.error fault))
  | passes {c : Command} {next : Progress} : plan.commands[p.index]? = some c →
      ((p.steps + 1 : Nat) : Int) ≤ plan.maxSteps → heard = none →
        (∀ value, c.value? = some value → granted value = none) →
          plan.advance { p with steps := p.steps + 1 } c = .ok next →
            plan.Round heard granted p (Entry.talk plan.total (p.index, c)) (some c) (.on next)

/-- The turn that what is left begins with. -/
def turnOf (plan : Plan) : Passage → Turn
  | .on next => plan.proceed next
  | .over outcome => .finished outcome

/-- The counts when a step is announced. -/
def countsAt (plan : Plan) (counts : Counts) : Counts :=
  { counts with
    polls := counts.polls + (if plan.stoppable then 1 else 0)
    announcements := counts.announcements + 1 }

def looks (plan : Plan) : List Exchange :=
  if plan.stoppable then [(.poll, .stop false)] else []

theorem leads_looks (hrest : world.Restful) {p : Progress} (hindex : p.index < plan.total)
    (trace : Trace) :
    plan.Leads world (plan.proceed p) trace plan.looks (plan.startStep p)
      { trace with counts := { trace.counts with
        polls := trace.counts.polls + (if plan.stoppable then 1 else 0) } } := by
  rw [proceed, if_neg (Nat.not_le_of_lt hindex), looks]
  cases plan.stoppable with
  | true => exact leads_poll plan hrest .beforeStep p trace
  | false => exact .nil _ _

theorem conclude_eq (p : Progress) : plan.conclude p = .finished (plan.verdict p) := by
  rw [conclude, verdict]
  split <;> rfl

theorem startStep_eq {p : Progress} (hsteps : ((p.steps + 1 : Nat) : Int) ≤ plan.maxSteps) :
    plan.startStep p = .asks (.announce (p.index + 1) plan.total) .announcing
      { p with steps := p.steps + 1 } := by
  rw [startStep, if_neg (by omega)]

theorem talkOf_looks : talkOf plan.looks = [] := by
  rw [looks]
  split <;> rfl

theorem events_looks : plan.looks.filterMap Exchange.event? = [] := by
  rw [looks]
  split <;> rfl

theorem length_looks (plan : Plan) : plan.looks.length ≤ 1 := by
  rw [looks]
  split <;> decide

/-- What a command does behind its announcement, when it is done. -/
theorem leads_perform (hrest : world.Restful) {p next : Progress} {c : Command}
    (hc : plan.commands[p.index]? = some c) (hnext : plan.advance p c = .ok next)
    (hends : c.Ends plan.stoppable) (trace : Trace)
    (hgranted : ∀ value, c.value? = some value → world.send trace.counts value = none) :
    ∃ es last, plan.Leads world (plan.perform p) trace es (plan.proceed next) last ∧
      talkOf es = (c.value?.map fun value => (Request.send value, Answer.done)).toList ∧
      es.filterMap Exchange.event? =
        (c.value?.map Event.sent).toList ++ (c.naps plan.stoppable).map .slept ∧
      es.length + 2 ≤ requestsOf c := by
  rw [perform, hc]
  cases c with
  | send value line =>
    cases hnext
    exact ⟨[(.send value, .done)], _,
      .cons (by rw [Surroundings.answer, hgranted value rfl]) (.nil _ _), rfl, rfl,
      by simp [requestsOf]⟩
  | delay ms line =>
    cases hnext
    exact leads_pause hrest hends p trace
  | loop count endAt line =>
    cases hnext
    exact ⟨[], trace, .nil _ _, rfl, rfl, by simp [requestsOf]⟩
  | loopEnd startAt line =>
    rw [advance] at hnext
    simp only [hnext]
    exact ⟨[], trace, .nil _ _, rfl, rfl, by simp [requestsOf]⟩
  | unknown name => cases hnext

/-- A command that leads nowhere ends the run without another request. -/
theorem perform_error {p : Progress} {c : Command} {fault : Fault}
    (hc : plan.commands[p.index]? = some c) (hfault : plan.advance p c = .error fault) :
    plan.perform p = .finished (.error fault) := by
  rw [perform, hc]
  cases c with
  | send value line | delay ms line | loop count endAt line => cases hfault
  | loopEnd startAt line =>
    rw [advance] at hfault
    simp only [hfault]
  | unknown name =>
    cases hfault
    rfl

/-- A step up to the answer to its announcement. -/
theorem leads_announced (hrest : world.Restful) {p : Progress} (hindex : p.index < plan.total)
    (hsteps : ((p.steps + 1 : Nat) : Int) ≤ plan.maxSteps) {trace : Trace}
    (hheard : world.announce (plan.countsAt trace.counts) = none) :
    ∃ last, plan.Leads world (plan.proceed p) trace
        (plan.looks ++ [(.announce (p.index + 1) plan.total, .done)])
        (plan.perform { p with steps := p.steps + 1 }) last ∧
      last.counts = plan.countsAt trace.counts := by
  have hstart := leads_looks hrest hindex trace
  rw [startStep_eq hsteps] at hstart
  refine ⟨⟨.step (p.index + 1) plan.total :: trace.events, plan.countsAt trace.counts⟩,
    hstart.snoc ?_, rfl⟩
  rw [Surroundings.answer]
  split
  case h_1 fault hfault => cases hfault.symm.trans hheard
  case h_2 => rfl

theorem leads_unheard (hrest : world.Restful) {p : Progress} (hindex : p.index < plan.total)
    (hsteps : ((p.steps + 1 : Nat) : Int) ≤ plan.maxSteps) {trace : Trace} {fault : Fault}
    (hheard : world.announce (plan.countsAt trace.counts) = some fault) :
    ∃ last, plan.Leads world (plan.proceed p) trace
      (plan.looks ++ [(.announce (p.index + 1) plan.total, .failed fault)])
      (.finished (.error fault)) last := by
  have hstart := leads_looks hrest hindex trace
  rw [startStep_eq hsteps] at hstart
  refine ⟨⟨trace.events, plan.countsAt trace.counts⟩, hstart.snoc ?_⟩
  rw [Surroundings.answer]
  split
  case h_1 cause hcause =>
    cases hcause.symm.trans hheard
    rfl
  case h_2 hnone => cases hnone.symm.trans hheard

/-- Where nobody asks to stop and every sleep is granted, a step is performed as its round says. -/
theorem Round.leads (hrest : world.Restful) {p : Progress} {trace : Trace} {talk : List Exchange}
    {completed : Option Command} {left : Passage}
    (h : plan.Round (world.announce (plan.countsAt trace.counts))
      (world.send (plan.countsAt trace.counts)) p talk completed left)
    (hends : ∀ c, completed = some c → c.Ends plan.stoppable) :
    ∃ es last, plan.Leads world (plan.proceed p) trace es (plan.turnOf left) last ∧
      talkOf es = talk ∧ (completed = none → talk <:+ es) ∧
      es.filterMap Exchange.event? = talk.filterMap Exchange.event? ++
        (completed.toList.flatMap (Command.naps plan.stoppable)).map .slept ∧
      es.length ≤ plan.widest := by
  have hwide := plan.widest_bounds.1
  have hlooks := plan.length_looks
  cases h with
  | concludes hindex =>
    refine ⟨[], trace, ?_, rfl, fun _ => List.suffix_refl [], rfl, Nat.zero_le _⟩
    rw [proceed, if_pos hindex, conclude_eq]
    exact .nil _ _
  | exceeds hindex hmany =>
    have hstart := leads_looks hrest hindex trace
    rw [startStep, if_pos (by omega)] at hstart
    exact ⟨_, _, hstart, talkOf_looks, fun _ => List.nil_suffix,
      by rw [events_looks]; rfl, by omega⟩
  | unheard hindex hsteps hfault =>
    obtain ⟨last, hleads⟩ := leads_unheard hrest hindex hsteps hfault
    refine ⟨_, last, hleads, ?_, fun _ => List.suffix_append _ _, ?_, ?_⟩
    · rw [talkOf_append, talkOf_looks]
      rfl
    · rw [List.filterMap_append, events_looks]
      rfl
    · rw [List.length_append, List.length_singleton]
      omega
  | @refused value line fault hc hsteps hheard hfault =>
    have hindex : p.index < plan.total := (Array.getElem?_eq_some_iff.1 hc).1
    obtain ⟨last, hleads, hcounts⟩ := leads_announced hrest hindex hsteps hheard
    have hperform : plan.perform { p with steps := p.steps + 1 } =
        .asks (.send value) .sending { p with steps := p.steps + 1 } := by rw [perform, hc]
    rw [hperform] at hleads
    have hanswer : world.answer last (.send value) = (.failed fault, last) := by
      simp only [Surroundings.answer, hcounts, hfault]
    have hall := hleads.snoc hanswer
    rw [List.append_assoc] at hall
    refine ⟨_, last, hall, ?_, fun _ => List.suffix_append _ _, ?_, ?_⟩
    · rw [talkOf_append, talkOf_looks]
      rfl
    · rw [List.filterMap_append, events_looks]
      rfl
    · simp only [List.length_append, List.length_singleton]
      omega
  | breaks hc hsteps hheard hfault =>
    have hindex : p.index < plan.total := (Array.getElem?_eq_some_iff.1 hc).1
    obtain ⟨last, hleads, _⟩ := leads_announced hrest hindex hsteps hheard
    rw [perform_error (p := { p with steps := p.steps + 1 }) hc hfault] at hleads
    refine ⟨_, last, hleads, ?_, fun _ => List.suffix_append _ _, ?_, ?_⟩
    · rw [talkOf_append, talkOf_looks]
      rfl
    · rw [List.filterMap_append, events_looks]
      rfl
    · rw [List.length_append, List.length_singleton]
      omega
  | @passes c next hc hsteps hheard hgranted hnext =>
    have hindex : p.index < plan.total := (Array.getElem?_eq_some_iff.1 hc).1
    have hrequests := requestsOf_le_widest hc
    obtain ⟨begun, hleads, hcounts⟩ := leads_announced hrest hindex hsteps hheard
    rw [← hcounts] at hgranted
    obtain ⟨es, last, hperform, htalk, hevents, hlength⟩ := leads_perform hrest
      (p := { p with steps := p.steps + 1 }) hc hnext (hends c rfl) begun hgranted
    refine ⟨_, last, hleads.trans hperform, ?_, by simp, ?_, ?_⟩
    · rw [talkOf_append, talkOf_append, talkOf_looks, htalk]
      rfl
    · rw [List.filterMap_append, List.filterMap_append, events_looks, hevents]
      cases hvalue : c.value? <;> simp [Entry.talk, hvalue, Exchange.event?]
    · simp only [List.length_append, List.length_singleton]
      omega

/-! ## Steps behind one another -/

theorem sentOf_talk (total : Nat) (entry : Entry) :
    sentOf (entry.talk total) = sentBy [entry] := by
  rw [Entry.talk, sentBy, List.filterMap_cons]
  cases entry.2.value? <;> rfl

theorem events_talk (total : Nat) (inSlices : Bool) (entry : Entry) :
    (entry.talk total).filterMap Exchange.event? ++ (entry.2.naps inSlices).map .slept =
      entry.deeds total inSlices := by
  rw [Entry.talk, Entry.deeds, List.filterMap_cons]
  cases hvalue : entry.2.value? <;> simp [Exchange.event?]

/-- From a step on, the given commands are done one after another, and then the given talk is all
there is before the outcome. -/
def Performs (plan : Plan) (world : Surroundings) (p : Progress) (trace : Trace)
    (entries : List Entry) (talk : List Exchange) (outcome : Except Fault Tally) : Prop :=
  ∃ es last, plan.Leads world (plan.proceed p) trace es (.finished outcome) last ∧
    talkOf es = entries.flatMap (Entry.talk plan.total) ++ talk ∧
    es.filterMap Exchange.event? = entries.flatMap (Entry.deeds plan.total plan.stoppable) ++
      talk.filterMap Exchange.event? ∧
    talk <:+ es ∧ es.length ≤ (entries.length + 1) * plan.widest

theorem Round.performs (hrest : world.Restful) {p : Progress} {trace : Trace}
    {talk : List Exchange} {outcome : Except Fault Tally}
    (h : plan.Round (world.announce (plan.countsAt trace.counts))
      (world.send (plan.countsAt trace.counts)) p talk none (.over outcome)) :
    plan.Performs world p trace [] talk outcome := by
  obtain ⟨es, last, hleads, htalk, hsuffix, hevents, hlength⟩ := h.leads hrest (by simp)
  refine ⟨es, last, hleads, htalk, ?_, hsuffix rfl, ?_⟩
  · rw [hevents]
    exact List.append_nil _
  · rw [List.length_nil, Nat.zero_add, Nat.one_mul]
    exact hlength

theorem Round.performs_on (hrest : world.Restful) {p next : Progress} {trace : Trace} {c : Command}
    (h : plan.Round (world.announce (plan.countsAt trace.counts))
      (world.send (plan.countsAt trace.counts)) p (Entry.talk plan.total (p.index, c)) (some c)
        (.on next)) (hends : c.Ends plan.stoppable) :
    ∃ between : Trace,
      between.counts.announcements =
        trace.counts.announcements + started (Entry.talk plan.total (p.index, c)) ∧
      between.counts.sends =
        trace.counts.sends + (sentOf (Entry.talk plan.total (p.index, c))).length ∧
      ∀ entries talk outcome, plan.Performs world next between entries talk outcome →
        plan.Performs world p trace ((p.index, c) :: entries) talk outcome := by
  obtain ⟨es, between, hleads, htalk, -, hevents, hlength⟩ :=
    h.leads hrest fun d hd => Option.some.inj hd ▸ hends
  have hcounts := hleads.counts
  rw [← started_talkOf, ← sentOf_talkOf, htalk] at hcounts
  refine ⟨between, hcounts.1, hcounts.2, ?_⟩
  rintro entries talk outcome ⟨es', last, hleads', htalk', hevents', hsuffix, hlength'⟩
  refine ⟨es ++ es', last, hleads.trans hleads', ?_, ?_, hsuffix.trans (List.suffix_append _ _), ?_⟩
  · rw [talkOf_append, htalk, htalk', List.flatMap_cons, List.append_assoc]
  · rw [List.filterMap_append, hevents, hevents', List.flatMap_cons, ← events_talk]
    simp
  · rw [List.length_append, List.length_cons, Nat.succ_mul]
    omega

theorem Performs.run (hsome : plan.total ≠ 0) {entries : List Entry} {talk : List Exchange}
    {outcome : Except Fault Tally} (h : plan.Performs world {} {} entries talk outcome)
    (hlength : entries.length ≤ plan.maxSteps.toNat) :
    ∃ trace, plan.run world = (some outcome, trace) ∧
      trace.events.reverse = entries.flatMap (Entry.deeds plan.total plan.stoppable) ++
        talk.filterMap Exchange.event? ∧
      talkOf (plan.exchanges world) = entries.flatMap (Entry.talk plan.total) ++ talk ∧
      talk <:+ plan.exchanges world := by
  obtain ⟨es, last, hleads, htalk, hevents, hsuffix, hrequests⟩ := h
  have hstart : plan.start = plan.proceed {} := if_neg hsome
  have hfew : (entries.length + 1) * plan.widest ≤ plan.requestBound :=
    Nat.mul_le_mul_right plan.widest (by omega)
  rw [← hstart] at hleads
  obtain ⟨hrun, hexchanges⟩ := run_of_leads hleads (by omega)
  have hwhole := run_events plan world
  rw [hrun, hexchanges, hevents] at hwhole
  rw [hexchanges]
  exact ⟨last, hrun, hwhole, htalk, hsuffix⟩

/-! ## A walk -/

theorem sentOf_flatMap_talk (total : Nat) (entries : List Entry) :
    sentOf (entries.flatMap (Entry.talk total)) = sentBy entries := by
  induction entries with
  | nil => rfl
  | cons entry rest ih =>
    rw [List.flatMap_cons, sentOf_append, ih, sentOf_talk, ← sentBy_append, List.singleton_append]

/-- A walk is performed step by step where its announcements and its sends are granted. -/
theorem Walk.performs (hworld : world.Obliging) {p q : Progress} {entries : List Entry}
    (h : plan.Walk p entries q) (hsteps : q.steps ≤ plan.maxSteps.toNat)
    (hends : ∀ entry ∈ entries, entry.2.Ends plan.stoppable) (trace : Trace)
    (hgrants : world.Grants trace.counts.sends (sentBy entries)) :
    ∃ between : Trace,
      between.counts.sends = trace.counts.sends + (sentBy entries).length ∧
      ∀ others talk outcome, plan.Performs world q between others talk outcome →
        plan.Performs world p trace (entries ++ others) talk outcome := by
  -- on the walk, each command with the sends that are granted behind those before it
  induction h generalizing trace with
  | stay p => exact ⟨trace, rfl, fun _ _ _ hothers => hothers⟩
  | @step p next last c entries hc hnext hrest ih =>
    obtain ⟨hlater, -⟩ := hrest.counts
    obtain ⟨hcounted, -⟩ := advance_counts hnext
    simp only at hcounted
    have hsplit : sentBy ((p.index, c) :: entries) = sentBy [(p.index, c)] ++ sentBy entries :=
      sentBy_append [(p.index, c)] entries
    rw [hsplit] at hgrants ⊢
    have hround : plan.Round (world.announce (plan.countsAt trace.counts))
        (world.send (plan.countsAt trace.counts)) p (Entry.talk plan.total (p.index, c)) (some c)
          (.on next) := by
      refine .passes hc (by omega) (hworld.announce _) (fun value hvalue => ?_) hnext
      exact hgrants 0 value (by simp [sentBy, hvalue]) _ rfl
    obtain ⟨between, -, hsent, hfirst⟩ :=
      hround.performs_on hworld.toRestful (hends _ List.mem_cons_self)
    rw [sentOf_talk] at hsent
    obtain ⟨after, hsent', hothers⟩ := ih hsteps
      (fun entry hmem => hends entry (List.mem_cons_of_mem _ hmem)) between
      (hsent ▸ hgrants.of_append)
    refine ⟨after, ?_, fun others talk outcome h => hfirst _ _ _ (hothers _ _ _ h)⟩
    rw [hsent', hsent, List.length_append, Nat.add_assoc]

/-- A walk from the start and the round that is its end are a run. -/
theorem Walk.run (hworld : world.Obliging) (hsome : plan.total ≠ 0) {q : Progress}
    {entries : List Entry} (h : plan.Walk {} entries q) (hsteps : q.steps ≤ plan.maxSteps.toNat)
    (hends : ∀ entry ∈ entries, entry.2.Ends plan.stoppable)
    (hgrants : world.Grants 0 (sentBy entries)) :
    ∃ counts : Counts, counts.sends = (sentBy entries).length ∧ ∀ talk outcome,
      plan.Round (world.announce counts) (world.send counts) q talk none (.over outcome) →
        ∃ trace, plan.run world = (some outcome, trace) ∧
          trace.events.reverse = entries.flatMap (Entry.deeds plan.total plan.stoppable) ++
            talk.filterMap Exchange.event? ∧
          talkOf (plan.exchanges world) = entries.flatMap (Entry.talk plan.total) ++ talk ∧
          talk <:+ plan.exchanges world := by
  obtain ⟨between, hsent, hothers⟩ := h.performs hworld hsteps hends {} hgrants
  refine ⟨plan.countsAt between.counts, hsent.trans (Nat.zero_add _), ?_⟩
  intro talk outcome hround
  have hall := hothers [] talk outcome (hround.performs hworld.toRestful)
  rw [List.append_nil] at hall
  refine hall.run hsome ?_
  have hcounted := h.counts.1
  simp only at hcounted
  omega

/-- A walk of as many steps as are allowed ends the run, if a command is behind it. -/
theorem Walk.run_exceeds (hworld : world.Obliging) {q : Progress} {entries : List Entry}
    (h : plan.Walk {} entries q) (hindex : q.index < plan.total)
    (hall : entries.length = plan.maxSteps.toNat)
    (hends : ∀ entry ∈ entries, entry.2.Ends plan.stoppable)
    (hgrants : world.Grants 0 (sentBy entries)) :
    ∃ trace, plan.run world = (some (.error (.runaway q.index plan.total plan.maxSteps)), trace) ∧
      trace.events.reverse = entries.flatMap (Entry.deeds plan.total plan.stoppable) := by
  have hsteps : q.steps = plan.maxSteps.toNat := by
    have hcounted := h.counts.1
    simp only at hcounted
    omega
  obtain ⟨counts, -, hrun⟩ := h.run hworld (by omega) (by omega) hends hgrants
  obtain ⟨trace, hout, hevents, -⟩ := hrun _ _ (.exceeds hindex (by omega))
  rw [List.filterMap_nil, List.append_nil] at hevents
  exact ⟨trace, hout, hevents⟩

/-- Of a walk with more steps than are allowed, as many are done as are allowed. -/
theorem Walk.run_part (hworld : world.Obliging) {last : Progress} {entries : List Entry}
    (h : plan.Walk {} entries last) (hmany : plan.maxSteps.toNat < entries.length)
    (hends : ∀ entry ∈ entries, entry.2.Ends plan.stoppable)
    (hgrants : ∀ n, world.Grants 0 (sentBy (entries.take n))) :
    ∃ i c trace, entries[plan.maxSteps.toNat]? = some (i, c) ∧
      plan.run world = (some (.error (.runaway i plan.total plan.maxSteps)), trace) ∧
      trace.events.reverse = (entries.take plan.maxSteps.toNat).flatMap
        (Entry.deeds plan.total plan.stoppable) := by
  obtain ⟨q, c, hwalk, hentry, hc⟩ := h.take hmany
  obtain ⟨trace, hout, hevents⟩ := hwalk.run_exceeds hworld (Array.getElem?_eq_some_iff.1 hc).1
    (by rw [List.length_take]; omega) (fun entry hmem => hends entry (List.mem_of_mem_take hmem))
    (hgrants _)
  exact ⟨q.index, c, trace, hentry, hout, hevents⟩

end Plan

end SerialConsole.Script
