import SerialConsole.Proofs.Runner.Bench
import SerialConsole.Proofs.Runner.Transmission

set_option autoImplicit false

/-!
# One script at a time

However often a runner is called, at most one run is under way (`runs_exclude`). A stop request
counts for the run that is under way and for no other: what an idle runner holds makes no difference
to anything that comes later (`Orderly.after_seen`).
-/
namespace SerialConsole

namespace Running

open Session (World)
open Script (Request Stage Progress Tally)

namespace Bench

variable {b c next : Bench} {i : Incident} {incidents since later : List Incident} {id : Nat}
  {job : Job}

theorem after_cons (h : b.does i = some next) : b.after (i :: later) = next.after later := by
  rw [after, List.foldlM_cons, h]
  rfl

theorem after_cons_eq_none (h : b.does i = none) : b.after (i :: later) = none := by
  rw [after, List.foldlM_cons, h]
  rfl

theorem after_cons_eq_some (h : b.after (i :: later) = some c) :
    ∃ next, b.does i = some next ∧ next.after later = some c := by
  rw [after, List.foldlM_cons] at h
  exact Option.bind_eq_some_iff.1 h

theorem after_append (h : b.after incidents = some c) :
    b.after (incidents ++ later) = c.after later := by
  rw [after] at h
  rw [after, List.foldlM_append, h]
  rfl

theorem after_append_eq_some (h : b.after (incidents ++ later) = some c) :
    ∃ next, b.after incidents = some next ∧ next.after later = some c := by
  rw [after, List.foldlM_append] at h
  exact Option.bind_eq_some_iff.1 h

theorem Orderly.after (h : b.Orderly) (hafter : b.after later = some c) : c.Orderly := by
  induction later generalizing b with
  | nil =>
    cases hafter
    exact h
  | cons i rest ih =>
    obtain ⟨next, hdoes, hrest⟩ := after_cons_eq_some hafter
    exact ih ((did_of_does hdoes).orderly h) hrest

theorem fresh_orderly (world : World) : Orderly { world } := by
  refine .idle rfl rfl ?_
  rintro id job ⟨request, stage, p, sending, hgoes⟩
  cases hgoes

/-! ## The course of a run -/

theorem Goes.unique {job' : Job} (h : b.Goes id job) (h' : b.Goes id job') : job = job' := by
  obtain ⟨_, _, _, _, hgoes⟩ := h
  obtain ⟨_, _, _, _, hgoes'⟩ := h'
  rw [hgoes] at hgoes'
  cases hgoes'
  rfl

theorem Goes.not_absent (h : b.Goes id job) : b.runs id ≠ .absent := by
  obtain ⟨_, _, _, _, hgoes⟩ := h
  rw [hgoes]
  exact nofun

theorem not_absent_set_over (b : Bench) (id : Nat) (outcome : Except Fault Tally) :
    (b.set id (.over outcome)).runs id ≠ .absent := by
  rw [set_self]
  exact nofun

theorem not_absent_settle (b : Bench) (id : Nat) (job : Job) (scene : Scene) :
    (b.settle id job scene).runs id ≠ .absent := by
  rcases settle_self b id job scene with hgoes | ⟨outcome, hover⟩
  · exact hgoes.not_absent
  · rw [hover]
    exact nofun

theorem Goes.not_over (h : b.Goes id job) (outcome : Except Fault Tally) :
    b.runs id ≠ .over outcome := by
  obtain ⟨_, _, _, _, hgoes⟩ := h
  rw [hgoes]
  exact nofun

inductive Fares (b next : Bench) (i : Incident) (id : Nat) : Prop where
  | stays : next.runs id = b.runs id → Fares b next i id
  | goesOn {job : Job} : b.Goes id job → next.Goes id job → Fares b next i id
  | ends {job : Job} {outcome : Except Fault Tally} : b.Goes id job →
    next.runs id = .over outcome → Fares b next i id
  | called {script format ending : String} : b.runs id = .absent → next.runs id ≠ .absent →
    i = .run id script format ending →
    (∀ job, next.Goes id job → ∃ commands, Script.parse script.toList = .ok commands ∧
      job = ⟨{ commands := commands.toArray }, format, ending⟩) → Fares b next i id

theorem Goes.settles {other : Nat} (h : b.Goes other job) (i : Incident) (scene : Scene) :
    Fares b (b.settle other job scene) i id := by
  by_cases hid : id = other
  · subst hid
    rcases settle_self b id job scene with hgoes | ⟨outcome, hover⟩
    · exact .goesOn h hgoes
    · exact .ends h hover
  · exact .stays (settle_of_ne b job scene hid)

theorem Did.fares (h : b.Did i next) (id : Nat) : Fares b next i id := by
  cases h with
  | stopped | moved | cancelled => exact .stays rfl
  | acted hgoes _ => exact Goes.settles ⟨_, _, _, _, hgoes⟩ _ _
  | brokenOff hgoes => exact Goes.settles ⟨_, _, _, _, hgoes⟩ _ _
  | @refused other script format ending fault habsent _ =>
    by_cases hid : id = other
    · subst hid
      refine .called habsent (not_absent_set_over _ _ _) rfl fun job hgoes => ?_
      exact absurd (set_self _ _ _) (hgoes.not_over _)
    · exact .stays (set_of_ne b _ hid)
  | @started other script format ending runner job note habsent hstart =>
    by_cases hid : id = other
    · subst hid
      obtain ⟨_, _, commands, hparse, rfl⟩ := Runner.start_ok hstart
      refine .called habsent (not_absent_settle _ _ _ _) rfl fun job' hgoes' => ?_
      rcases settle_self b id _ ⟨b.world, runner, _, none⟩ with hgoes | ⟨outcome, hover⟩
      · exact ⟨commands, hparse, hgoes'.unique hgoes⟩
      · exact absurd hover (hgoes'.not_over _)
    · exact .stays (settle_of_ne b _ _ hid)

theorem Did.not_absent (h : b.Did i next) (hb : b.runs id ≠ .absent) : next.runs id ≠ .absent := by
  cases h.fares id with
  | stays hsame => rwa [hsame]
  | goesOn _ hgoes => exact hgoes.not_absent
  | ends _ hover =>
    rw [hover]
    exact nofun
  | called _ hcalled => exact hcalled

theorem Did.back (h : b.Did i next) (hb : b.runs id ≠ .absent) (hgoes : next.Goes id job) :
    b.Goes id job := by
  cases h.fares id with
  | stays hsame =>
    obtain ⟨request, stage, p, sending, hthere⟩ := hgoes
    exact ⟨request, stage, p, sending, by rw [← hsame, hthere]⟩
  | goesOn hbefore hgoes' => exact hgoes'.unique hgoes ▸ hbefore
  | ends _ hover => exact absurd hover (hgoes.not_over _)
  | called habsent => exact absurd habsent hb

/-- As long as a run is under way, stop requests add up. -/
theorem Did.stopRequested (h : b.Did i next) (hrunning : b.runner.running = true) :
    next.runner.stopRequested = (b.runner.stopRequested || i.isStop) := by
  cases h with
  | refused | moved | cancelled => exact (Bool.or_false _).symm
  | started _ hstart =>
    obtain ⟨hidle, _⟩ := Runner.start_ok hstart
    rw [hrunning] at hidle
    cases hidle
  | stopped => exact (Bool.or_true _).symm
  | brokenOff =>
    rw [stopRequested_settle]
    exact (Bool.or_false _).symm
  | @acted _ a _ _ _ _ _ _ _ hact =>
    rw [stopRequested_settle, Incident.isStop]
    rcases Scene.act_cases hact with ⟨_, hrunner⟩ | ⟨_, _, _, _, hno, _, _, _, hrunner, _⟩
    · rw [hrunner]
      cases a.isStop with
      | true => exact (Bool.or_true _).symm
      | false => exact (Bool.or_false _).symm
    · rw [hrunner, hno, Bool.or_false]
      rfl

theorem Orderly.requested_since (h : b.Orderly) (hafter : b.after later = some c)
    (hb : b.runs id ≠ .absent) (hgoes : c.Goes id job) : b.Goes id job ∧
      c.runner.stopRequested = (b.runner.stopRequested || later.any Incident.isStop) := by
  induction later generalizing b with
  | nil =>
    cases hafter
    exact ⟨hgoes, (Bool.or_false _).symm⟩
  | cons i rest ih =>
    obtain ⟨next, hdoes, hrest⟩ := after_cons_eq_some hafter
    have hdid := did_of_does hdoes
    -- a run that is under way at the end was so all the time, so no other call was taken
    obtain ⟨hnext, hsince⟩ := ih (hdid.orderly h) hrest (hdid.not_absent hb)
    refine ⟨hdid.back hb hnext, ?_⟩
    obtain ⟨_, _, _, _, hthere⟩ := hdid.back hb hnext
    rw [hsince, hdid.stopRequested (h.only hthere).1, List.any_cons, Bool.or_assoc]

/-- A run that is under way was called, and its job is that of the call. -/
theorem Orderly.called (h : b.Orderly) (hafter : b.after later = some c)
    (hb : b.runs id = .absent) (hgoes : c.Goes id job) :
    ∃ before script format ending since commands,
      later = before ++ .run id script format ending :: since ∧
        Script.parse script.toList = .ok commands ∧
        job = ⟨{ commands := commands.toArray }, format, ending⟩ := by
  induction later generalizing b with
  | nil =>
    cases hafter
    exact absurd hb hgoes.not_absent
  | cons i rest ih =>
    obtain ⟨next, hdoes, hrest⟩ := after_cons_eq_some hafter
    have hdid := did_of_does hdoes
    have hnext := hdid.orderly h
    by_cases habsent : next.runs id = .absent
    · obtain ⟨before, script, format, ending, since, commands, rfl, hjob⟩ := ih hnext hrest habsent
      exact ⟨i :: before, script, format, ending, since, commands, rfl, hjob⟩
    · obtain ⟨hthere, _⟩ := hnext.requested_since hrest habsent hgoes
      cases hdid.fares id with
      | stays hsame => exact absurd (hsame.trans hb) habsent
      | goesOn hbefore | ends hbefore => exact absurd hb hbefore.not_absent
      | @called script format ending _ _ hi hmakes =>
        obtain ⟨commands, hjob⟩ := hmakes job hthere
        exact ⟨[], script, format, ending, rest, commands, by rw [hi]; rfl, hjob⟩

/-- While a run is under way, a stop was requested just when one came since its call. -/
theorem Orderly.requested_iff (h : b.Orderly) {script format ending : String}
    (hafter : b.after (incidents ++ .run id script format ending :: since) = some c)
    (hgoes : c.Goes id job) :
    c.runner.stopRequested = true ↔ ∃ i ∈ since, i.isStop = true := by
  obtain ⟨called, hcalled, hrest⟩ := after_append_eq_some hafter
  obtain ⟨next, hdoes, hsince⟩ := after_cons_eq_some hrest
  have hnext := (did_of_does hdoes).orderly (h.after hcalled)
  cases did_of_does hdoes with
  | @refused _ _ _ _ fault _ _ =>
    obtain ⟨hgoes', _⟩ := hnext.requested_since hsince (not_absent_set_over _ _ _) hgoes
    exact absurd (set_self _ _ _) (hgoes'.not_over _)
  | started _ hstart =>
    obtain ⟨_, rfl, _⟩ := Runner.start_ok hstart
    obtain ⟨_, hrequested⟩ := hnext.requested_since hsince (not_absent_settle _ _ _ _) hgoes
    rw [hrequested, stopRequested_settle, Bool.false_or, List.any_eq_true]

/-- The runner finds that a run was stopped only if a stop was requested. -/
theorem Orderly.requested_of_stopped (h : b.Orderly) {a : Act}
    (hdoes : b.does (.act id a) = some next) (hfail : ∀ fault, a ≠ .fail fault)
    {index total : Nat} {inDelay : Bool}
    (hover : next.runs id = .over (.error (.stopped index total inDelay))) :
    ∃ job, b.Goes id job ∧ b.runner.stopRequested = true := by
  cases did_of_does hdoes with
  | @acted _ _ job request stage p sending scene hgoes hact =>
    refine ⟨job, ⟨request, stage, p, sending, hgoes⟩, ?_⟩
    obtain ⟨_, _, hreached, _⟩ := h.only hgoes
    obtain ⟨c, _, hserves⟩ := hreached.serves
    have hstopped := turn_of_settle_over hover
    rcases Scene.act_cases hact with ⟨hsame, _⟩ | ⟨_, _, _, answer, _, hturn, _, hresume, _, hasked,
      hfailed⟩
    · rw [hsame] at hstopped
      cases hstopped
    · cases hturn
      rw [hresume] at hstopped
      rcases Script.Plan.resume_stopped hstopped with hstop | ⟨hstage, hfault⟩
      · exact hasked hstop
      · rcases hfailed _ hfault with heq | ⟨value, rfl⟩
        · exact absurd heq (hfail _)
        · cases stage with
          | sending => exact absurd rfl hstage
          | _ => exact hserves.elim

/-! ## Calls -/

section

variable {script format ending : String}

theorem does_refused (habsent : b.runs id = .absent) {fault : Fault}
    (hstart : b.runner.start script format ending = .error fault) :
    b.does (.run id script format ending) = some (b.set id (.over (.error fault))) := by
  rw [does, habsent]
  simp only [hstart]

/-- An idle runner takes every script that has commands. -/
theorem does_accepted (habsent : b.runs id = .absent) (hidle : b.runner.running = false)
    {commands : List Script.Command} (hparse : Script.parse script.toList = .ok commands)
    (hsome : commands ≠ []) :
    ∃ next job, b.does (.run id script format ending) = some next ∧ next.Goes id job := by
  obtain ⟨ready, note, hstart, _⟩ := start_ready hidle hparse format ending
  have hsize : commands.toArray.size ≠ 0 := by
    rw [List.size_toArray]
    exact fun hzero => hsome (List.eq_nil_of_length_eq_zero hzero)
  have hfirst : ({ commands := commands.toArray } : Script.Plan).start =
      .asks .poll .beforeStep {} := Script.Plan.start_asks hsize rfl
  rw [does, habsent]
  simp only [hstart, hfirst]
  exact ⟨_, _, rfl, _, _, _, _, set_self _ _ _⟩

end

/-! ## What an idle runner holds -/

/-- What can be told of a bench: a stop request counts only while a run is under way. -/
def seen (b : Bench) : Bench :=
  { b with runner :=
      { b.runner with stopRequested := b.runner.running && b.runner.stopRequested } }

def requesting (b : Bench) (requested : Bool) : Bench :=
  { b with runner := { b.runner with stopRequested := requested } }

theorem seen_requesting (h : b.runner.running = false) (requested : Bool) :
    (b.requesting requested).seen = b.seen := by
  simp only [seen, requesting, h, Bool.false_and]

theorem eq_of_seen (h : b.seen = c.seen) :
    b = c ∨ b.runner.running = false ∧ b = c.requesting b.runner.stopRequested := by
  obtain ⟨world, ⟨running, stopRequested, position⟩, runs⟩ := b
  obtain ⟨world', ⟨running', stopRequested', position'⟩, runs'⟩ := c
  simp only [seen, mk.injEq, Runner.mk.injEq] at h
  obtain ⟨rfl, ⟨rfl, hstop, rfl⟩, rfl⟩ := h
  cases running with
  | true =>
    cases hstop
    exact Or.inl rfl
  | false => exact Or.inr ⟨rfl, rfl⟩

theorem settle_requesting (b : Bench) (requested : Bool) (scene : Scene) :
    (b.requesting requested).settle id job scene = b.settle id job scene := by
  rw [settle, settle]
  split <;> rfl

/-- What an idle runner holds makes no difference to what happens next. -/
theorem Orderly.does_seen (h : b.Orderly) (hidle : b.runner.running = false) (requested : Bool)
    (i : Incident) : ((b.requesting requested).does i).map seen = (b.does i).map seen := by
  have hruns : ∀ id, (b.requesting requested).runs id = b.runs id := fun _ => rfl
  have hnone : ∀ id job request stage p sending,
      b.runs id ≠ .goes job request stage p sending := by
    intro id job request stage p sending hgoes
    have hrunning := (h.only hgoes).1
    rw [hidle] at hrunning
    cases hrunning
  cases i with
  | run id script format ending =>
    have hstart : (b.requesting requested).runner.start script format ending =
        b.runner.start script format ending := rfl
    rw [does, does, hruns, hstart]
    split
    · split
      · exact congrArg some (seen_requesting (b := b.set id _) hidle requested)
      · rw [settle_requesting]
        rfl
    · rfl
  | stop => rfl
  | move m =>
    rw [does, does, Option.map_map, Option.map_map]
    congr 1
    funext world
    exact seen_requesting (b := { b with world }) hidle requested
  | act id a =>
    rw [does, does, hruns]
    split
    · exact absurd ‹_› (hnone _ _ _ _ _ _)
    · rfl
  | breakOff id fault =>
    rw [does, does, hruns]
    split
    · exact absurd ‹_› (hnone _ _ _ _ _ _)
    · rfl
  | cancel caller =>
    have hworld : (b.requesting requested).world = b.world := rfl
    rw [does, does, hworld]
    split
    · rw [Option.map_map, Option.map_map]
      congr 1
      funext point
      exact seen_requesting (b := { b with world := b.world.goOn caller point .cancelled }) hidle
        requested
    · rfl

/-- What an idle runner holds makes no difference to anything that comes later. -/
theorem Orderly.after_seen (h : b.Orderly) (hidle : b.runner.running = false) (requested : Bool)
    (later : List Incident) :
    ((b.requesting requested).after later).map seen = (b.after later).map seen := by
  induction later generalizing b requested with
  | nil => exact congrArg some (seen_requesting hidle requested)
  | cons i rest ih =>
    have hnext := h.does_seen hidle requested i
    cases hdoes : b.does i with
    | none =>
      rw [hdoes, Option.map_none, Option.map_eq_none_iff] at hnext
      rw [after_cons_eq_none hdoes, after_cons_eq_none hnext]
    | some next =>
      rw [hdoes, Option.map_some] at hnext
      obtain ⟨other, hother, hseen⟩ := Option.map_eq_some_iff.1 hnext
      rw [after_cons hdoes, after_cons hother]
      -- once a run is under way both are the same, and as long as none is the claim goes on
      rcases eq_of_seen hseen with rfl | ⟨hrest, heq⟩
      · rfl
      · rw [heq] at hrest ⊢
        exact ih ((did_of_does hdoes).orderly h) hrest _

/-- In every state of a runner at most one run is under way. The runner is idle at the place
`(0, 0)` unless one is, and where that run waits, its place is the one of the command that it is at.
A call while a run is under way is refused as busy, and one whose script is not valid is refused for
that; either way nothing else changes. While a run is under way, a stop is requested just when one
came since its call, and without one the runner ends no run as stopped. What a runner without a run
holds of a stop makes no difference to anything that comes later. -/
theorem runs_exclude {world : World} (h : ({ world } : Bench).after incidents = some b) :
    (∀ id other job job', b.Goes id job → b.Goes other job' → id = other) ∧
      (b.runner.running = true ↔ ∃ id job, b.Goes id job) ∧
      (b.runner.running = false → b.runner.position = (0, 0)) ∧
      (∀ id job request stage p sending, b.runs id = .goes job request stage p sending →
        request.isAwaited = true →
        ∃ script format ending commands c, .run id script format ending ∈ incidents ∧
          Script.parse script.toList = .ok commands ∧
          job = ⟨{ commands := commands.toArray }, format, ending⟩ ∧
          commands[p.index]? = some c ∧ c.Awaits request ∧
          b.runner.position = (p.index + 1, commands.length)) ∧
      (∀ id script format ending, b.runs id = .absent →
        (b.runner.running = true → b.does (.run id script format ending) =
          some (b.set id (.over (.error .scriptBusy)))) ∧
        (b.runner.running = false →
          (∀ fault, Script.parse script.toList = .error fault →
            b.does (.run id script format ending) = some (b.set id (.over (.error fault)))) ∧
          ∀ commands, Script.parse script.toList = .ok commands → commands ≠ [] →
            ∃ next job, b.does (.run id script format ending) = some next ∧ next.Goes id job)) ∧
      (∀ id job before script format ending since, b.Goes id job →
        incidents = before ++ .run id script format ending :: since →
        (b.runner.stopRequested = true ↔ ∃ i ∈ since, i.isStop = true)) ∧
      (∀ id a next index total inDelay, (∀ fault, a ≠ .fail fault) →
        b.does (.act id a) = some next →
        next.runs id = .over (.error (.stopped index total inDelay)) →
        ∃ before script format ending since,
          incidents = before ++ .run id script format ending :: since ∧
            ∃ i ∈ since, i.isStop = true) ∧
      b.does .stop = some (b.requesting true) ∧
      (b.runner.running = false → ∀ requested later,
        ((b.requesting requested).after later).map seen = (b.after later).map seen) := by
  have hfresh := fresh_orderly world
  have hb := hfresh.after h
  refine ⟨?_, ?_, ?_, ?_, fun id script format ending habsent => ⟨?_, fun hidle => ⟨?_, ?_⟩⟩, ?_,
    ?_, rfl, hb.after_seen⟩
  · rintro id other job job' ⟨_, _, _, _, hgoes⟩ hother
    by_cases hid : id = other
    · exact hid
    · exact absurd hother ((hb.only hgoes).2.1 other job' (Ne.symm hid))
  · refine ⟨fun hrunning => ?_, fun ⟨id, job, _, _, _, _, hgoes⟩ => (hb.only hgoes).1⟩
    cases hb with
    | idle hidle =>
      rw [hidle] at hrunning
      cases hrunning
    | busy _ hgoes => exact ⟨_, _, _, _, _, _, hgoes⟩
  · intro hidle
    cases hb with
    | idle _ hzero => exact hzero
    | busy hbusy =>
      rw [hidle] at hbusy
      cases hbusy
  · intro id job request stage p sending hgoes hawaited
    obtain ⟨_, _, hat⟩ := hb.only hgoes
    obtain ⟨hposition, c, hc, hawaits⟩ := hat.awaits hawaited
    obtain ⟨before, script, format, ending, since, commands, rfl, hparse, rfl⟩ :=
      hfresh.called h rfl ⟨request, stage, p, sending, hgoes⟩
    refine ⟨script, format, ending, commands, c, ?_, hparse, rfl, ?_, hawaits, hposition⟩
    · exact List.mem_append_right _ List.mem_cons_self
    · rwa [List.getElem?_toArray] at hc
  · exact fun hbusy => does_refused habsent (Runner.start_running hbusy script format ending)
  · exact fun fault hparse => does_refused habsent (Runner.start_invalid hidle hparse format ending)
  · exact fun commands hparse hsome => does_accepted habsent hidle hparse hsome
  · rintro id job before script format ending since hgoes rfl
    exact hfresh.requested_iff h hgoes
  · intro id a next index total inDelay hfail hdoes hover
    obtain ⟨job, hgoes, hrequested⟩ := hb.requested_of_stopped hdoes hfail hover
    obtain ⟨before, script, format, ending, since, _, rfl, _⟩ := hfresh.called h rfl hgoes
    exact ⟨before, script, format, ending, since, rfl, (hfresh.requested_iff h hgoes).1 hrequested⟩

/-- A stop before a run, and one that ends it; the call in between is refused, and the run behind it
goes on. -/
theorem runs_exclude_pending_stop : ∃ b c,
    ({ world := connected } : Bench).after [.stop, .run 0 "SEND \"a\"\nDELAY 100" "text" "none",
      .act 0 .goOn, .act 0 .goOn, .stop] = some b ∧
    b.runner.position = (1, 2) ∧ b.runner.stopRequested = true ∧
    b.does (.run 1 "SEND \"b\"" "text" "none") = some (b.set 1 (.over (.error .scriptBusy))) ∧
    b.after [.run 1 "SEND \"b\"" "text" "none", .act 0 (.send 5),
      .move (.answer (.call 5) .done), .act 0 .hear, .act 0 .goOn, .stop,
      .run 2 "SEND \"c\"" "text" "none", .act 2 .goOn, .act 2 .goOn] = some c ∧
    c.runs 0 = .over (.error (.stopped 1 2 false)) ∧ c.runner.position = (1, 1) ∧
    c.runner.stopRequested = false := by
  obtain ⟨b, c, hb, hwaits, habsent, hc, hstopped, hnext, hgoesOn⟩ : ∃ b c,
      ({ world := connected } : Bench).after [.stop, .run 0 "SEND \"a\"\nDELAY 100" "text" "none",
        .act 0 .goOn, .act 0 .goOn, .stop] = some b ∧
      b.runs 0 = .goes ⟨{ commands := #[.send "a" 1, .delay 100 2] }, "text", "none"⟩
        (.send "a") .sending { steps := 1 } none ∧ b.runs 1 = .absent ∧
      b.after [.run 1 "SEND \"b\"" "text" "none", .act 0 (.send 5),
        .move (.answer (.call 5) .done), .act 0 .hear, .act 0 .goOn, .stop,
        .run 2 "SEND \"c\"" "text" "none", .act 2 .goOn, .act 2 .goOn] = some c ∧
      c.runs 0 = .over (.error (.stopped 1 2 false)) ∧
      c.runs 2 = .goes ⟨{ commands := #[.send "c" 1] }, "text", "none"⟩
        (.send "c") .sending { steps := 1 } none ∧
      c.runner.stopRequested = false := ⟨_, _, rfl, rfl, rfl, rfl, rfl, rfl, rfl⟩
  obtain ⟨_, hrunning, _, hplace, hcalls, hrequested, _⟩ := runs_exclude hb
  obtain ⟨_, _, _, hplace', _⟩ := runs_exclude ((after_append hb).trans hc)
  refine ⟨b, c, hb, ?_, ?_, ?_, hc, hstopped, ?_, hgoesOn⟩
  · obtain ⟨_, _, _, commands, _, _, _, hjob, _, _, hposition⟩ := hplace 0 _ _ _ _ _ hwaits rfl
    have hlength : 2 = commands.length := congrArg (·.plan.commands.size) hjob
    rw [hposition, ← hlength]
  · refine (hrequested 0 _ [.stop] _ _ _ [.act 0 .goOn, .act 0 .goOn, .stop]
      ⟨_, _, _, _, hwaits⟩ rfl).2 ⟨.stop, ?_, rfl⟩
    exact .tail _ (.tail _ (.head _))
  · exact (hcalls 1 _ _ _ habsent).1 (hrunning.2 ⟨0, _, _, _, _, _, hwaits⟩)
  · obtain ⟨_, _, _, commands, _, _, _, hjob, _, _, hposition⟩ := hplace' 2 _ _ _ _ _ hnext rfl
    have hlength : 1 = commands.length := congrArg (·.plan.commands.size) hjob
    rw [hposition, ← hlength]

end Bench

end Running

end SerialConsole
