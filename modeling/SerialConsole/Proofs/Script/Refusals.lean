import SerialConsole.Proofs.Script.Meaning
import SerialConsole.Proofs.Script.Stopping

set_option autoImplicit false

/-!
# Sends that are refused

A send that is refused ends a run at its place in the unfolding (`run_refused`). Where nothing fails
but the sends of some values, a run of a tree is the run in which nothing fails, or it is that run
up to the first value that is refused (`leads_granted`, `leads_refused`). That value is the first
one in the unfolding of the tree, whatever its place in the script.
-/
namespace SerialConsole.Script

/-- Surroundings in which nothing fails but the sends of some values. -/
def Surroundings.refusing (refuses : String → Option Fault) : Surroundings :=
  { send := fun _ value => refuses value }

theorem Surroundings.obliging_refusing (refuses : String → Option Fault) :
    (refusing refuses).Obliging :=
  ⟨⟨fun _ => rfl, fun _ _ => rfl⟩, fun _ => rfl⟩

theorem Surroundings.grants_refusing {refuses : String → Option Fault} {values : List String}
    (h : ∀ value ∈ values, refuses value = none) (k : Nat) :
    (refusing refuses).Grants k values :=
  fun _ value hvalue _ _ => h value (List.mem_of_getElem? hvalue)

/-- Every command of a tree is run. -/
theorem Block.exists_mem_unfolding {b : Block} {start : Nat}
    (hrange : ∀ c ∈ b.commands start, c.InRange) {c : Command} (hmem : c ∈ b.commands start) :
    ∃ i, (i, c) ∈ b.unfolding start := by
  induction b generalizing start with
  | done => cases hmem
  | send value line rest ih | delay ms line rest ih =>
    rcases List.mem_cons.1 hmem with rfl | hrest
    · exact ⟨start, List.mem_cons_self⟩
    · obtain ⟨i, hi⟩ := ih (fun c hc => hrange c (List.mem_cons_of_mem _ hc)) hrest
      exact ⟨i, List.mem_cons_of_mem _ hi⟩
  | loop count line body endLine rest ihb ihr =>
    have hcount : count.toNat ≠ 0 := by
      have hpositive := (hrange _ List.mem_cons_self).1
      omega
    -- one round of the loop is in its unfolding
    have hround : ∀ e, e ∈ body.unfolding (start + 1) ++
        [(start + body.size + 1, Command.loopEnd start endLine)] →
          e ∈ (Block.loop count line body endLine rest).unfolding start := fun e he =>
      List.mem_cons_of_mem _ (List.mem_append_left _
        (List.mem_flatten.2 ⟨_, List.mem_replicate.2 ⟨hcount, rfl⟩, he⟩))
    rcases List.mem_cons.1 hmem with rfl | htail
    · exact ⟨start, List.mem_cons_self⟩
    rcases List.mem_append.1 htail with hbody | hafter
    · obtain ⟨i, hi⟩ := ihb (fun c hc =>
        hrange c (List.mem_cons_of_mem _ (List.mem_append_left _ hc))) hbody
      exact ⟨i, hround _ (List.mem_append_left _ hi)⟩
    rcases List.mem_cons.1 hafter with rfl | hrest
    · exact ⟨start + body.size + 1, hround _ (List.mem_append_right _ List.mem_cons_self)⟩
    · obtain ⟨i, hi⟩ := ihr (fun c hc => hrange c (List.mem_cons_of_mem _
        (List.mem_append_right _ (List.mem_cons_of_mem _ hc)))) hrest
      exact ⟨i, List.mem_cons_of_mem _ (List.mem_append_right _ hi)⟩

/-- A tree sends the values of its SENDs. -/
theorem mem_sentBy_iff {b : Block} (hrange : ∀ c ∈ b.commands 0, c.InRange) {value : String} :
    value ∈ sentBy (b.unfolding 0) ↔ ∃ line, .send value line ∈ b.commands 0 := by
  constructor
  · intro hmem
    obtain ⟨⟨i, c⟩, hentry, hvalue⟩ := List.mem_filterMap.1 hmem
    obtain ⟨k, _, hk⟩ := Block.mem_unfolding hentry
    cases c with
    | send first line =>
      cases hvalue
      exact ⟨line, List.mem_of_getElem? hk⟩
    | delay _ _ | loop _ _ _ | loopEnd _ _ | unknown _ => cases hvalue
  · rintro ⟨line, hmem⟩
    obtain ⟨i, hi⟩ := Block.exists_mem_unfolding hrange hmem
    exact List.mem_filterMap.2 ⟨_, hi, rfl⟩

/-- A tree sends no value that its commands do not allow. -/
theorem ne_of_mem_sentBy {b : Block} (hrange : ∀ c ∈ b.commands 0, c.InRange) {value : String}
    (hmem : value ∈ sentBy (b.unfolding 0)) : value ≠ "" := by
  obtain ⟨line, hsend⟩ := (mem_sentBy_iff hrange).1 hmem
  exact (hrange _ hsend).1

/-- A row of commands that sends a value of some sort has a first one that does. -/
theorem exists_first_send (fits : String → Bool) {entries : List Entry} {value : String}
    (hmem : value ∈ sentBy entries) (hvalue : fits value = false) :
    ∃ before i first line after, entries = before ++ (i, .send first line) :: after ∧
      (∀ value ∈ sentBy before, fits value = true) ∧ fits first = false := by
  induction entries with
  | nil => cases hmem
  | cons entry rest ih =>
    have hlater : (∀ value ∈ sentBy [entry], fits value = true) → value ∈ sentBy rest →
        ∃ before i first line after, entry :: rest = before ++ (i, .send first line) :: after ∧
          (∀ value ∈ sentBy before, fits value = true) ∧ fits first = false := by
      intro hfits hrest
      obtain ⟨before, i, first, line, after, rfl, hbefore, hfirst⟩ := ih hrest
      refine ⟨entry :: before, i, first, line, after, rfl, fun v hv => ?_, hfirst⟩
      rw [← List.singleton_append, sentBy, List.filterMap_append] at hv
      exact (List.mem_append.1 hv).elim (hfits v) (hbefore v)
    obtain ⟨i, c⟩ := entry
    cases c with
    | send first line =>
      cases hfirst : fits first with
      | false => exact ⟨[], i, first, line, rest, rfl, by simp [sentBy], hfirst⟩
      | true =>
        rcases List.mem_cons.1 hmem with rfl | hrest
        · rw [hfirst] at hvalue
          cases hvalue
        · exact hlater (List.forall_mem_singleton.2 hfirst) hrest
    | delay _ _ | loop _ _ _ | loopEnd _ _ | unknown _ =>
      exact hlater (fun _ hv => by cases hv) hmem

namespace Plan

variable {plan : Plan} {world : Surroundings} {refuses : String → Option Fault} {b : Block}
  {turn next : Turn} {trace last : Trace} {exchanges : List Exchange}

/-- Exchanges that lead to the end begin with all others. -/
theorem Leads.extends {whole : List Exchange} {outcome : Except Fault Tally} {final : Trace}
    (h : plan.Leads world turn trace exchanges next last)
    (hend : plan.Leads world turn trace whole (.finished outcome) final) :
    ∃ later, whole = exchanges ++ later ∧
      plan.Leads world next last later (.finished outcome) final := by
  induction h generalizing whole with
  | nil turn trace => exact ⟨whole, rfl, hend⟩
  | cons hanswer _ ih =>
    cases hend with
    | cons hanswer' hrest =>
      rw [hanswer] at hanswer'
      cases hanswer'
      obtain ⟨later, rfl, hlater⟩ := ih hrest
      exact ⟨later, rfl, hlater⟩

/-- A send in the unfolding of a tree that is refused ends the run with the place of its command:
what comes before it is done. -/
theorem run_refused (hworld : world.Obliging) (hcommands : plan.commands = (b.commands 0).toArray)
    (hrange : ∀ c ∈ b.commands 0, c.InRange) {before after : List Entry} {i line : Nat}
    {value : String} (hunfolding : b.unfolding 0 = before ++ (i, .send value line) :: after)
    (hsteps : ((before.length + 1 : Nat) : Int) ≤ plan.maxSteps)
    (hgrants : world.Grants 0 (sentBy before)) :
    ∃ counts : Counts, counts.sends = (sentBy before).length ∧
      ∀ fault, world.send counts value = some fault → fault.isOrdinary = true →
        ∃ trace, plan.run world = (some (.error (.sendFailed i b.size fault)), trace) ∧
          trace.events.reverse = before.flatMap (Entry.deeds b.size plan.stoppable) ++
            [.step (i + 1) b.size] ∧
          sentOf (plan.exchanges world) = sentBy before ∧
          [(.send value, .failed fault)] <:+ plan.exchanges world := by
  have htotal := total_layout hcommands
  have hwhole := walk_layout hcommands hrange
  rw [hunfolding] at hwhole
  obtain ⟨q, hwalk, hlater⟩ := hwhole.split
  have hcounted := hwalk.counts.1
  simp only [Nat.zero_add] at hcounted
  cases hlater with
  | @step _ _ _ _ _ hc _ _ =>
    have hsome : plan.total ≠ 0 := Nat.ne_of_gt
      (Nat.lt_of_le_of_lt (Nat.zero_le _) (Array.getElem?_eq_some_iff.1 hc).1)
    obtain ⟨counts, hcounts, hrun⟩ := hwalk.run hworld hsome (by omega)
      (fun entry hmem => ends_unfolding hrange
        (hunfolding ▸ List.mem_append_left _ hmem) _) hgrants
    refine ⟨counts, hcounts, fun fault hrefused hordinary => ?_⟩
    obtain ⟨trace, hout, hevents, htalk, hsuffix⟩ := hrun _ _
      (.refused hc (by omega) (hworld.announce counts) hrefused)
    rw [faultOf, if_pos hordinary, htotal] at hout
    rw [htotal] at hevents
    refine ⟨trace, hout, hevents, ?_, ?_⟩
    · rw [← sentOf_talkOf, htalk, sentOf_append, sentOf_flatMap_talk]
      exact List.append_nil _
    · exact (List.suffix_append [_] [_]).trans hsuffix

/-- When no value is refused, a tree is run to its end. -/
theorem leads_granted (hcommands : plan.commands = (b.commands 0).toArray) (hsome : b.size ≠ 0)
    (hrange : ∀ c ∈ b.commands 0, c.InRange) (hsteps : (b.steps : Int) ≤ plan.maxSteps)
    (hgranted : ∀ value ∈ sentBy (b.unfolding 0), refuses value = none) :
    ∃ exchanges trace, plan.Leads (.refusing refuses) plan.start {} exchanges
        (.finished (.ok ⟨b.steps, (sentBy (b.unfolding 0)).length, b.size⟩)) trace ∧
      sentOf exchanges = sentBy (b.unfolding 0) := by
  obtain ⟨trace, hrun, -, htalk⟩ := run_granted (Surroundings.obliging_refusing refuses) hcommands
    hsome hrange hsteps (Surroundings.grants_refusing hgranted 0)
  exact ⟨_, trace, leads_of_run hrun, by rw [← sentOf_talkOf, htalk, sentOf_flatMap_talk]⟩

/-- The first value in the unfolding of a tree that is refused ends the run with the place of its
command. -/
theorem leads_refused (hcommands : plan.commands = (b.commands 0).toArray)
    (hrange : ∀ c ∈ b.commands 0, c.InRange) (hsteps : (b.steps : Int) ≤ plan.maxSteps)
    {before after : List Entry} {i line : Nat} {value : String} {fault : Fault}
    (hunfolding : b.unfolding 0 = before ++ (i, .send value line) :: after)
    (hgranted : ∀ value ∈ sentBy before, refuses value = none)
    (hrefused : refuses value = some fault) (hordinary : fault.isOrdinary = true) :
    ∃ exchanges trace, plan.Leads (.refusing refuses) plan.start {} exchanges
        (.finished (.error (.sendFailed i b.size fault))) trace ∧
      sentOf exchanges = sentBy before := by
  have hfew : before.length + 1 ≤ b.steps := by
    rw [← b.length_unfolding 0, hunfolding, List.length_append, List.length_cons]
    omega
  obtain ⟨counts, -, hrun⟩ := run_refused (Surroundings.obliging_refusing refuses) hcommands hrange
    hunfolding (by omega) (Surroundings.grants_refusing hgranted 0)
  obtain ⟨trace, hout, -, hsent, -⟩ := hrun fault hrefused hordinary
  exact ⟨_, trace, leads_of_run hout, hsent⟩

/-- What is sent is the value of a SEND. -/
theorem Reached.sends {value : String} {stage : Stage} {p : Progress}
    (h : plan.Reached (.asks (.send value) stage p)) :
    stage = .sending ∧ ∃ line, .send value line ∈ plan.commands.toList := by
  obtain ⟨c, hc, hserves⟩ := h.serves
  rw [← Array.getElem?_toList] at hc
  cases stage with
  | sending =>
    obtain ⟨line, rfl⟩ := hserves
    exact ⟨rfl, line, List.mem_of_getElem? hc⟩
  | _ => exact hserves.elim

end Plan

end SerialConsole.Script
