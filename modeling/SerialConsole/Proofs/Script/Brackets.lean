import SerialConsole.Proofs.Script.Meaning

set_option autoImplicit false

/-!
# LOOPs and ENDs that do not fit

Commands need not come from a script that was accepted. `scan` reads them once, with a stack of the
places of the LOOPs that are open. An execution jumps back, but only inside of a LOOP that has its
END: what it runs up to some place are pieces in which every LOOP has its END, and the LOOPs between
them are those that the scan has on its stack (`Opened`). So it meets what the scan finds
(`scan_walk`).
-/
namespace SerialConsole.Script

/-- What a scan of the commands finds: the first place of an END that closes no LOOP or not the
innermost one, or of an unknown command; LOOPs without an END; or nothing of the sort. -/
inductive Finding where
  | broken (place : Nat)
  | unclosed
  | sound
  deriving DecidableEq, Repr

/-- Scans commands from a place on. The places of the open LOOPs are given, the innermost first. -/
def scan : Nat → List Nat → List Command → Finding
  | _, opened, [] => if opened.isEmpty then .sound else .unclosed
  | place, opened, .loop _ _ _ :: rest => scan (place + 1) (place :: opened) rest
  | place, opened, .loopEnd startAt _ :: rest =>
    match opened with
    | [] => .broken place
    | top :: outer =>
      if startAt = (top : Int) then scan (place + 1) outer rest else .broken place
  | place, _, .unknown _ :: _ => .broken place
  | place, opened, .send _ _ :: rest => scan (place + 1) opened rest
  | place, opened, .delay _ _ :: rest => scan (place + 1) opened rest

/-- The steps that a finding takes for itself. -/
def Finding.steps : Finding → Nat
  | .broken _ => 1
  | _ => 0

/-- The end of a run that goes with a finding. Commands behind a broken place are not announced. -/
def Finding.Shows (total : Nat) (outcome : Except Fault Tally) (trace : Trace) : Finding → Prop
  | .broken place => ∃ fault, outcome = .error fault ∧ fault.kind = .unbalanced ∧
      fault.place? = some (place, total) ∧
      ∀ position n, (position, n) ∈ trace.announced → position ≤ place + 1
  | .unclosed => ∃ fault, outcome = .error fault ∧ fault.kind = .unbalanced ∧
      fault.place? = some (total - 1, total)
  | .sound => ∃ tally, outcome = .ok tally

namespace Plan

variable {plan : Plan} {world : Surroundings}

/-- Commands up to a place, with the places of the LOOPs that are open there, the innermost first,
and what is run of them: pieces in which every LOOP has its END, and the open LOOPs between them. -/
inductive Opened (plan : Plan) : Nat → List Nat → List Entry → Prop where
  | base {a : Nat} {entries : List Entry} : plan.Span 0 a entries → plan.Opened a [] entries
  | loop {s a line : Nat} {count endAt : Int} {opened : List Nat} {entries body : List Entry} :
      plan.Opened s opened entries → plan.commands[s]? = some (.loop count endAt line) →
        plan.Span (s + 1) a body →
          plan.Opened a (s :: opened) (entries ++ (s, .loop count endAt line) :: body)

variable {a : Nat} {opened : List Nat} {entries : List Entry}

theorem Opened.plain (h : plan.Opened a opened entries) {c : Command}
    (hc : plan.commands[a]? = some c) (hplain : c.isPlain = true) :
    ∃ entries, plan.Opened (a + 1) opened entries := by
  cases h with
  | base hspan => exact ⟨_, .base (.plain hspan hc hplain)⟩
  | loop houter hloop hbody => exact ⟨_, .loop houter hloop (.plain hbody hc hplain)⟩

/-- The END of the innermost LOOP makes a piece of the LOOP. -/
theorem Opened.close {s line : Nat} (h : plan.Opened a (s :: opened) entries)
    (hc : plan.commands[a]? = some (.loopEnd s line)) :
    ∃ entries, plan.Opened (a + 1) opened entries := by
  cases h with
  | loop houter hloop hbody =>
    cases houter with
    | base hspan => exact ⟨_, .base (.loop hspan hloop hbody hc)⟩
    | loop houter' hloop' hbody' => exact ⟨_, .loop houter' hloop' (.loop hbody' hloop hbody hc)⟩

theorem Opened.walk (h : plan.Opened a opened entries) :
    ∃ loops, plan.Walk {} entries (past {} entries a loops) ∧
      loops.map OpenLoop.start = opened := by
  induction h with
  | base hspan => exact ⟨[], hspan.walk rfl, rfl⟩
  | @loop s a line count endAt opened entries body _ hloop hbody ih =>
    obtain ⟨loops, hwalk, hopened⟩ := ih
    have hopen := walk_loop (p := past {} entries s loops) (i := s) rfl hloop
    rw [past_past] at hopen
    have hinner := hbody.walk (p := past {} (entries ++ [(s, .loop count endAt line)]) (s + 1)
      (⟨s, count, 0⟩ :: loops)) rfl
    have hall := (hwalk.trans hopen).trans hinner
    rw [past_past, List.append_assoc, List.singleton_append] at hall
    exact ⟨_, hall, by rw [past_loops, List.map_cons, hopened]⟩

theorem Opened.mem (h : plan.Opened a opened entries) {entry : Entry} (hmem : entry ∈ entries) :
    entry.1 < a ∧ plan.commands[entry.1]? = some entry.2 := by
  induction h with
  | base hspan => exact hspan.mem hmem
  | loop _ hloop hbody ih =>
    have hle := hbody.le
    rcases List.mem_append.1 hmem with hbefore | hlater
    · exact ⟨by have := (ih hbefore).1; omega, (ih hbefore).2⟩
    rcases List.mem_cons.1 hlater with rfl | hin
    · exact ⟨by simp only; omega, hloop⟩
    · exact hbody.mem hin

/-- An execution is where a finding shows. -/
def Meets (plan : Plan) (q : Progress) : Finding → Prop
  | .broken place => q.index = place ∧ ∃ c fault, plan.commands[place]? = some c ∧
      plan.advance { q with steps := q.steps + 1 } c = .error fault
  | .unclosed => q.index = plan.total ∧ q.loops.isEmpty = false
  | .sound => q.index = plan.total ∧ q.loops.isEmpty = true

theorem advance_loopEnd_error {q : Progress} {startAt : Int} {line : Nat}
    (h : ∀ top ∈ (q.loops.map OpenLoop.start).head?, startAt ≠ (top : Int)) :
    ∃ fault, plan.advance q (.loopEnd startAt line) = .error fault := by
  rw [advance, closeLoop]
  cases hloops : q.loops with
  | nil => exact ⟨_, rfl⟩
  | cons top outer =>
    rw [hloops] at h
    exact ⟨_, if_pos (h top.start rfl)⟩

/-- Without a stop and without a failure, what a scan finds is met. -/
theorem scan_walk {rest : List Command} {place : Nat} (h : plan.Opened place opened entries)
    (hrest : ∀ k c, rest[k]? = some c → plan.commands[place + k]? = some c)
    (htotal : place + rest.length = plan.total) :
    ∃ entries q, plan.Walk {} entries q ∧
      (∀ entry ∈ entries, entry.1 < q.index ∧ plan.commands[entry.1]? = some entry.2) ∧
      plan.Meets q (scan place opened rest) := by
  -- on what is not scanned yet; the scan's stack and what is run so far go together
  induction rest generalizing place opened entries with
  | nil =>
    obtain ⟨loops, hwalk, hopened⟩ := h.walk
    refine ⟨entries, _, hwalk, fun entry hmem => h.mem hmem, ?_⟩
    subst hopened
    cases loops with
    | nil => exact ⟨htotal, rfl⟩
    | cons top outer => exact ⟨htotal, rfl⟩
  | cons c rest ih =>
    have hc : plan.commands[place]? = some c := hrest 0 c rfl
    have hlater : ∀ k c, rest[k]? = some c → plan.commands[place + 1 + k]? = some c := by
      intro k d hk
      have hd := hrest (k + 1) d hk
      rwa [show place + (k + 1) = place + 1 + k by omega] at hd
    have hlength : place + 1 + rest.length = plan.total := by
      rw [List.length_cons] at htotal
      omega
    -- a command that leads nowhere is where the walk stops
    have hbroken : (∀ q : Progress, q.loops.map OpenLoop.start = opened →
        ∃ fault, plan.advance q c = .error fault) → ∃ entries q, plan.Walk {} entries q ∧
          (∀ entry ∈ entries, entry.1 < q.index ∧ plan.commands[entry.1]? = some entry.2) ∧
          plan.Meets q (.broken place) := by
      intro hfails
      obtain ⟨loops, hwalk, hopened⟩ := h.walk
      obtain ⟨fault, hfault⟩ :=
        hfails ⟨place, loops, (past {} entries place loops).steps + 1, _⟩ hopened
      exact ⟨entries, _, hwalk, fun entry hmem => h.mem hmem, rfl, c, fault, hc, hfault⟩
    cases c with
    | send value line | delay ms line =>
      obtain ⟨_, hnext⟩ := h.plain hc rfl
      exact ih hnext hlater hlength
    | loop count endAt line => exact ih (.loop h hc (.nil _)) hlater hlength
    | loopEnd startAt line =>
      cases opened with
      | nil =>
        exact hbroken fun q hq => advance_loopEnd_error (by simp [hq])
      | cons top outer =>
        by_cases hstart : startAt = (top : Int)
        · subst hstart
          obtain ⟨_, hnext⟩ := h.close hc
          have hmet := ih hnext hlater hlength
          rwa [scan, if_pos rfl]
        · rw [scan, if_neg hstart]
          exact hbroken fun q hq => advance_loopEnd_error (by simp [hq, hstart])
    | unknown name => exact hbroken fun q _ => ⟨_, rfl⟩

/-- With enough steps allowed, an execution ends as goes with the finding that it meets. -/
theorem run_meets (hquiet : world.Quiet) (hsome : plan.total ≠ 0) {q : Progress}
    (hwalk : plan.Walk {} entries q) (hends : ∀ entry ∈ entries, entry.2.Ends plan.stoppable)
    (hbefore : ∀ entry ∈ entries, entry.1 < q.index) {finding : Finding}
    (hmeets : plan.Meets q finding)
    (hsteps : ((entries.length + finding.steps : Nat) : Int) ≤ plan.maxSteps) :
    ∃ outcome trace, plan.run world = (some outcome, trace) ∧
      finding.Shows plan.total outcome trace := by
  have hcounted := hwalk.counts.1
  simp only [Nat.zero_add] at hcounted
  obtain ⟨counts, -, hrun⟩ := hwalk.run hquiet.obliging hsome (by omega) hends (hquiet.grants 0 _)
  cases finding with
  | broken place =>
    obtain ⟨rfl, c, fault, hc, hfault⟩ := hmeets
    have hallowed : ((q.steps + 1 : Nat) : Int) ≤ plan.maxSteps := by
      rw [hcounted]
      exact hsteps
    obtain ⟨trace, hout, hevents, -⟩ :=
      hrun _ _ (.breaks hc hallowed (hquiet.announce counts) hfault)
    have hplace := advance_error hfault
    refine ⟨_, trace, hout, fault, rfl, hplace.1, hplace.2, ?_⟩
    intro position n hmem
    rw [Trace.announced_eq_visible, visible_of_announced hevents, List.filterMap_append,
      announced_of_events] at hmem
    rcases List.mem_append.1 hmem with hearlier | hlast
    · obtain ⟨entry, hentry, heq⟩ := List.mem_map.1 hearlier
      cases heq
      exact Nat.succ_le_succ (Nat.le_of_lt (hbefore entry hentry))
    · cases List.mem_singleton.1 hlast
      exact Nat.le_refl _
  | unclosed =>
    obtain ⟨hindex, hopen⟩ := hmeets
    obtain ⟨trace, hout, -⟩ := hrun _ _ (.concludes (Nat.le_of_eq hindex.symm))
    rw [verdict, hopen] at hout
    exact ⟨_, trace, hout, _, rfl, rfl, rfl⟩
  | sound =>
    obtain ⟨hindex, hclosed⟩ := hmeets
    obtain ⟨trace, hout, -⟩ := hrun _ _ (.concludes (Nat.le_of_eq hindex.symm))
    rw [verdict, hclosed] at hout
    exact ⟨_, trace, hout, _, rfl⟩

/-- With fewer steps allowed, the limit ends it. -/
theorem run_falls_short (hquiet : world.Quiet) (hsome : plan.total ≠ 0) {q : Progress}
    (hwalk : plan.Walk {} entries q) (hends : ∀ entry ∈ entries, entry.2.Ends plan.stoppable)
    {finding : Finding} (hmeets : plan.Meets q finding)
    (hsteps : plan.maxSteps < ((entries.length + finding.steps : Nat) : Int)) :
    ∃ i, (plan.run world).1 = some (.error (.runaway i plan.total plan.maxSteps)) := by
  by_cases hmany : plan.maxSteps.toNat < entries.length
  · obtain ⟨i, c, trace, -, hrun, -⟩ :=
      hwalk.run_part hquiet.obliging hmany hends fun n => hquiet.grants 0 _
    exact ⟨i, by rw [hrun]⟩
  · -- only the step of a broken place is left, or there are no steps at all
    have hindex : q.index < plan.total := by
      cases finding with
      | broken place =>
        obtain ⟨rfl, c, _, hc, _⟩ := hmeets
        exact (Array.getElem?_eq_some_iff.1 hc).1
      | unclosed | sound =>
        have hnone : entries = [] := List.eq_nil_of_length_eq_zero (by
          simp only [Finding.steps, Nat.add_zero] at hsteps
          omega)
        subst hnone
        cases hwalk
        exact Nat.pos_of_ne_zero hsome
    have hall : entries.length = plan.maxSteps.toNat := by
      have hone : finding.steps ≤ 1 := by cases finding <;> simp [Finding.steps]
      omega
    obtain ⟨trace, hrun, -⟩ :=
      hwalk.run_exceeds hquiet.obliging hindex hall hends (hquiet.grants 0 _)
    exact ⟨q.index, by rw [hrun]⟩

theorem advance_of_commands {other : Plan} (h : other.commands = plan.commands) (p : Progress)
    (c : Command) : other.advance p c = plan.advance p c := by
  obtain ⟨commands, _, _⟩ := plan
  obtain ⟨_, _, _⟩ := other
  subst h
  rfl

/-- Which commands are walked is a matter of the commands alone. -/
theorem Walk.of_commands {other : Plan} (h : other.commands = plan.commands) {p q : Progress}
    (hwalk : plan.Walk p entries q) : other.Walk p entries q := by
  induction hwalk with
  | stay p => exact .stay p
  | step hc hnext _ ih =>
    exact .step (by rw [h, hc]) (by rw [advance_of_commands h, hnext]) ih

theorem Meets.of_commands {other : Plan} (h : other.commands = plan.commands) {q : Progress}
    {finding : Finding} (hmeets : plan.Meets q finding) : other.Meets q finding := by
  have htotal : other.total = plan.total := by rw [total, total, h]
  cases finding with
  | broken place =>
    obtain ⟨hindex, c, fault, hc, hfault⟩ := hmeets
    exact ⟨hindex, c, fault, by rw [h, hc], by rw [advance_of_commands h, hfault]⟩
  | unclosed | sound => exact ⟨hmeets.1.trans htotal.symm, hmeets.2⟩

end Plan

/-! ## What of a LOOP does not matter -/

/-- The command with what matters of it: a LOOP runs once at least, and its END is not looked up. -/
def Command.normal : Command → Command
  | .loop count _ line => .loop (max 1 count) (-1) line
  | c => c

def OpenLoop.normal (l : OpenLoop) : OpenLoop :=
  { l with target := max 1 l.target }

namespace Progress

def normal (p : Progress) : Progress :=
  { p with loops := p.loops.map OpenLoop.normal }

@[simp] theorem normal_index (p : Progress) : p.normal.index = p.index := rfl

@[simp] theorem normal_steps (p : Progress) : p.normal.steps = p.steps := rfl

/-- No open loop has run less than not at all. -/
def Rounded (p : Progress) : Prop :=
  ∀ l ∈ p.loops, 0 ≤ l.completed

end Progress

/-- Turns that differ in the counts of open loops only, as far as these do not matter. -/
inductive Turn.Alike : Turn → Turn → Prop where
  | finished (outcome : Except Fault Tally) : Alike (.finished outcome) (.finished outcome)
  | asks (request : Request) (stage : Stage) {p : Progress} : p.Rounded →
      Alike (.asks request stage p) (.asks request stage p.normal)

namespace Plan

variable {plan : Plan} {p : Progress}

def normal (plan : Plan) : Plan :=
  { plan with commands := plan.commands.map Command.normal }

@[simp] theorem normal_total : plan.normal.total = plan.total :=
  Array.size_map

@[simp] theorem normal_stoppable : plan.normal.stoppable = plan.stoppable := rfl

@[simp] theorem normal_maxSteps : plan.normal.maxSteps = plan.maxSteps := rfl

theorem normal_requestBound : plan.normal.requestBound = plan.requestBound := by
  have hrequests : ∀ c : Command, requestsOf c.normal = requestsOf c := by
    intro c
    cases c <;> rfl
  rw [requestBound, requestBound, normal, Array.foldl_map]
  simp only [hrequests]

theorem alike_conclude (p : Progress) :
    (plan.conclude p).Alike (plan.normal.conclude p.normal) := by
  rw [conclude, conclude, normal_total, Progress.normal, List.isEmpty_map, List.length_map]
  split <;> exact .finished _

theorem alike_startStep (hp : p.Rounded) :
    (plan.startStep p).Alike (plan.normal.startStep p.normal) := by
  rw [startStep, startStep, normal_total, normal_maxSteps, Progress.normal_index,
    Progress.normal_steps]
  split
  · exact .finished _
  · exact .asks _ _ hp

theorem alike_proceed (hp : p.Rounded) :
    (plan.proceed p).Alike (plan.normal.proceed p.normal) := by
  rw [proceed, proceed, normal_total, normal_stoppable, Progress.normal_index]
  split
  · exact alike_conclude p
  · split
    · exact .asks _ _ hp
    · exact alike_startStep hp

theorem alike_slice (hp : p.Rounded) (remaining : Double) :
    (slice remaining p).Alike (slice remaining p.normal) := by
  rw [slice, slice]
  split <;> exact .asks _ _ hp

theorem alike_pause (hp : p.Rounded) (whole : Double) :
    (plan.pause whole p).Alike (plan.normal.pause whole p.normal) := by
  rw [pause, pause, normal_stoppable]
  split
  · split
    · exact alike_slice hp whole
    · exact .asks _ _ hp
  · exact .finished _

/-- A loop that has run is over at its count, or at one if its count is less. -/
theorem closeLoop_normal (plan : Plan) (hp : p.Rounded) (startAt : Int) :
    plan.normal.closeLoop p.normal startAt = (plan.closeLoop p startAt).map Progress.normal ∧
      ∀ next, plan.closeLoop p startAt = .ok next → next.Rounded := by
  obtain ⟨index, loops, steps, sends⟩ := p
  rw [closeLoop, closeLoop, normal_total]
  cases loops with
  | nil => exact ⟨rfl, by simp⟩
  | cons top outer =>
    have htop : 0 ≤ top.completed := hp top List.mem_cons_self
    have houter : ∀ l ∈ outer, 0 ≤ l.completed := fun l hl => hp l (List.mem_cons_of_mem _ hl)
    -- the END is reached after one round at least, so a target below one is no other than one
    have hagain : top.completed + 1 < max 1 top.target ↔ top.completed + 1 < top.target := by
      omega
    simp only [Progress.normal, List.map_cons, OpenLoop.normal, hagain]
    split
    · exact ⟨rfl, by simp⟩
    · split
      · refine ⟨rfl, fun next hnext => ?_⟩
        cases hnext
        intro l hl
        rcases List.mem_cons.1 hl with rfl | hmem
        · simp only
          omega
        · exact houter l hmem
      · refine ⟨rfl, fun next hnext => ?_⟩
        cases hnext
        exact houter

theorem alike_perform (hp : p.Rounded) :
    (plan.perform p).Alike (plan.normal.perform p.normal) := by
  have hcommand : plan.normal.commands[p.normal.index]? =
      plan.commands[p.index]?.map Command.normal := Array.getElem?_map
  rw [perform, perform, hcommand]
  cases plan.commands[p.index]? with
  | none => exact alike_conclude p
  | some c =>
    cases c with
    | send value line => exact .asks _ _ hp
    | delay ms line => exact alike_pause hp (seconds ms)
    | loop count endAt line =>
      refine alike_proceed (p := { p with
        index := p.index + 1, loops := ⟨p.index, count, 0⟩ :: p.loops }) fun l hl => ?_
      rcases List.mem_cons.1 hl with rfl | hmem
      · exact Int.le_refl 0
      · exact hp l hmem
    | loopEnd startAt line =>
      obtain ⟨hclose, hrounded⟩ := closeLoop_normal plan hp startAt
      simp only [Option.map_some, Command.normal, hclose]
      cases hnext : plan.closeLoop p startAt with
      | ok next => exact alike_proceed (hrounded next hnext)
      | error fault => exact .finished _
    | unknown name =>
      rw [Option.map_some]
      simp only [Command.normal, normal_total]
      exact .finished _

theorem faultOf_normal (stage : Stage) (p : Progress) (fault : Fault) :
    plan.normal.faultOf stage p.normal fault = plan.faultOf stage p fault := by
  cases stage <;> simp only [faultOf, normal_total, Progress.normal_index]

theorem alike_resume {stage : Stage} (hp : p.Rounded) (answer : Answer) :
    (plan.resume stage p answer).Alike (plan.normal.resume stage p.normal answer) := by
  cases answer with
  | failed fault =>
    rw [resume, resume, faultOf_normal]
    exact .finished _
  | done =>
    cases stage with
    | announcing => exact alike_perform hp
    | slept remaining taken => exact alike_slice hp _
    | _ => exact alike_proceed hp
  | stop requested =>
    cases requested with
    | true =>
      cases stage with
      | slicing remaining => exact .asks _ _ hp
      | _ =>
        simp only [resume, normal_total]
        exact .finished _
    | false =>
      cases stage with
      | slicing remaining => exact .asks _ _ hp
      | afterDelay => exact alike_proceed hp
      | _ => exact alike_startStep hp

theorem alike_start : plan.start.Alike plan.normal.start := by
  rw [start, start, normal_total]
  split
  · exact .finished _
  · exact alike_proceed (p := {}) (by simp [Progress.Rounded])

theorem drive_alike {turn other : Turn} (h : turn.Alike other) (world : Surroundings) (fuel : Nat)
    (trace : Trace) :
    plan.normal.drive world fuel other trace = plan.drive world fuel turn trace := by
  induction fuel generalizing turn other trace with
  | zero => cases h <;> rfl
  | succ fuel ih =>
    cases h with
    | finished outcome => rfl
    | asks request stage hp => exact ih (alike_resume hp _) _

/-- Counts below one run as one, and the places of ENDs that LOOPs name are not looked at, whatever
the surroundings do. -/
theorem run_normal (plan : Plan) (world : Surroundings) :
    plan.normal.run world = plan.run world := by
  rw [run, run, normal_requestBound]
  exact drive_alike alike_start world _ {}

end Plan

/-- A delay of so many milliseconds that their seconds are no double ends the run. -/
theorem Plan.perform_hugeDelay {plan : Plan} {p : Progress} {ms : Int} {line : Nat}
    (hc : plan.commands[p.index]? = some (.delay ms line))
    (hhuge : (seconds ms).isFinite = false) :
    plan.perform p = .finished (.error hugeDelay) := by
  rw [Plan.perform, hc]
  simp only
  rw [Plan.pause, hhuge]
  rfl

end SerialConsole.Script
