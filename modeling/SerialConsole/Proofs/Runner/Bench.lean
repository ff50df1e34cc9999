import SerialConsole.Proofs.Runner.Scene
import SerialConsole.Proofs.Script.Shown

set_option autoImplicit false

/-!
# A runner that many calls share

On a `Bench` any number of tasks call one runner to run their scripts or to stop, in any order,
while the session goes on. A run ends as its script does, or because a progress call, a send or a
sleep fails. `Orderly` says how the runner goes with the runs: it is idle, or one of them is under
way and the runner shows what was announced last for it.
-/
namespace SerialConsole

namespace Runner

variable {runner ready : Runner} {script format ending : String} {job : Job} {note : Note}

theorem start_running (h : runner.running = true) (script format ending : String) :
    runner.start script format ending = .error .scriptBusy := by
  rw [start, if_pos h]

theorem start_invalid (h : runner.running = false) {fault : Fault}
    (hparse : Script.parse script.toList = .error fault) (format ending : String) :
    runner.start script format ending = .error fault := by
  rw [start, if_neg (by simp [h]), hparse]

theorem start_ok (h : runner.start script format ending = .ok (ready, job, note)) :
    runner.running = false ∧ ready = { runner with running := true, stopRequested := false } ∧
      ∃ commands, Script.parse script.toList = .ok commands ∧
        job = ⟨{ commands := commands.toArray }, format, ending⟩ := by
  rw [start] at h
  split at h
  case isTrue => cases h
  case isFalse hidle =>
    split at h
    case h_1 => cases h
    case h_2 commands hparse =>
      cases h
      exact ⟨Bool.eq_false_iff.2 hidle, rfl, commands, hparse, rfl⟩

def told (runner : Runner) (request : Script.Request) : Runner :=
  { runner with position := request.shows runner.position }

end Runner

namespace Running

open Session (World Move Result)
open Script (Turn Answer Request Stage Progress Tally)

/-- How a call that runs a script stands. It may wait for the call of a send. -/
inductive Stint where
  | absent
  | goes (job : Job) (request : Request) (stage : Stage) (p : Progress) (sending : Option Nat)
  | over (result : Except Fault Tally)

structure Bench where
  world : World
  runner : Runner := {}
  runs : Nat → Stint := fun _ => .absent

/-- Something that happens on a bench. A run may be broken off where it sleeps, and a call on the
session may be cancelled where it waits. -/
inductive Incident where
  | run (id : Nat) (script format ending : String)
  | stop
  | move (m : Move)
  | act (id : Nat) (a : Act)
  | breakOff (id : Nat) (fault : Fault)
  | cancel (caller : Caller)

def Act.isStop : Act → Bool
  | .stop => true
  | _ => false

def Incident.isStop : Incident → Bool
  | .stop => true
  | .act _ a => a.isStop
  | _ => false

namespace Bench

def set (b : Bench) (id : Nat) (stint : Stint) : Bench :=
  { b with runs := fun n => if n = id then stint else b.runs n }

/-- The bench after a run has come to a turn. -/
def settle (b : Bench) (id : Nat) (job : Job) (scene : Scene) : Bench :=
  match scene.turn with
  | .finished outcome =>
    { b with world := scene.world, runner := scene.runner.finish }.set id (.over outcome)
  | .asks request stage p =>
    { b with world := scene.world, runner := scene.runner }.set id
      (.goes job request stage p scene.sending)

/-- The bench after something has happened, if it is possible. -/
def does (b : Bench) : Incident → Option Bench
  | .run id script format ending =>
    match b.runs id with
    | .absent =>
      match b.runner.start script format ending with
      | .error fault => some (b.set id (.over (.error fault)))
      | .ok (runner, job, _) => some (b.settle id job ⟨b.world, runner, job.plan.start, none⟩)
    | _ => none
  | .stop => some { b with runner := b.runner.stop.1 }
  | .move m => (b.world.move m).map fun world => { b with world }
  | .act id a =>
    match b.runs id with
    | .goes job request stage p sending =>
      (Scene.act job ⟨b.world, b.runner, .asks request stage p, sending⟩ a).map (b.settle id job)
    | _ => none
  | .breakOff id fault =>
    match b.runs id with
    | .goes job (.sleep _) stage p sending =>
      some (b.settle id job ⟨b.world, b.runner, job.plan.resume stage p (.failed fault), sending⟩)
    | _ => none
  | .cancel caller =>
    match b.world.tasks caller with
    | .rests pause _ =>
      pause.point?.map fun point => { b with world := b.world.goOn caller point .cancelled }
    | _ => none

def after (b : Bench) (incidents : List Incident) : Option Bench :=
  incidents.foldlM does b

def Goes (b : Bench) (id : Nat) (job : Job) : Prop :=
  ∃ request stage p sending, b.runs id = .goes job request stage p sending

end Bench

/-! ## What an act does to a run -/

/-- An act asks the runner to stop, answers the script, or does nothing to either. -/
theorem Scene.act_cases {job : Job} {scene next : Scene} {a : Act}
    (h : scene.act job a = some next) :
    (next.turn = scene.turn ∧
        next.runner = if a.isStop then scene.runner.stop.1 else scene.runner) ∨
      ∃ request stage p answer, a.isStop = false ∧ scene.turn = .asks request stage p ∧
        request.Takes answer ∧ next.turn = job.plan.resume stage p answer ∧
        next.runner = scene.runner.told request ∧
        (answer = .stop true → scene.runner.stopRequested = true) ∧
        ∀ fault, answer = .failed fault → a = .fail fault ∨ ∃ value, request = .send value := by
  cases a with
  | move m =>
    obtain ⟨world, _, rfl⟩ := Option.map_eq_some_iff.1 h
    exact Or.inl ⟨rfl, rfl⟩
  | stop =>
    cases h
    exact Or.inl ⟨rfl, rfl⟩
  | send id =>
    obtain ⟨_, _, _, world, _, _, _, rfl⟩ := act_send h
    exact Or.inl ⟨rfl, rfl⟩
  | goOn =>
    rw [act] at h
    split at h
    case h_1 stage p hturn =>
      cases h
      exact Or.inr ⟨_, stage, p, .stop scene.runner.stopRequested, rfl, hturn, trivial, rfl, rfl,
        fun hstop => Answer.stop.inj hstop, by simp⟩
    case h_2 position total stage p hturn =>
      cases h
      exact Or.inr ⟨_, stage, p, .done, rfl, hturn, trivial, rfl, rfl, by simp, by simp⟩
    case h_3 seconds stage p hturn =>
      cases h
      exact Or.inr ⟨_, stage, p, .done, rfl, hturn, trivial, rfl, rfl, by simp, by simp⟩
    case h_4 => cases h
  | fail fault =>
    obtain ⟨position, total, stage, p, hturn, rfl⟩ := act_fail h
    refine Or.inr ⟨_, stage, p, .failed fault, rfl, hturn, trivial, rfl, rfl, by simp, ?_⟩
    intro other hother
    exact Or.inl (by rw [Answer.failed.inj hother])
  | hear =>
    obtain ⟨value, stage, p, id, result, _, hturn, _, _, rfl⟩ := act_hear h
    refine Or.inr ⟨_, stage, p, answerOf result, rfl, hturn, ?_, rfl, rfl, ?_, ?_⟩
    · cases result <;> exact trivial
    · cases result <;> simp [answerOf]
    · exact fun _ _ => Or.inr ⟨value, rfl⟩

namespace Bench

variable {b next : Bench} {i : Incident} {id other : Nat} {job : Job} {scene : Scene}

theorem set_self (b : Bench) (id : Nat) (stint : Stint) : (b.set id stint).runs id = stint :=
  if_pos rfl

theorem set_of_ne (b : Bench) (stint : Stint) (h : other ≠ id) :
    (b.set id stint).runs other = b.runs other :=
  if_neg h

theorem settle_of_ne (b : Bench) (job : Job) (scene : Scene) (h : other ≠ id) :
    (b.settle id job scene).runs other = b.runs other := by
  rw [settle]
  split <;> exact set_of_ne _ _ h

theorem settle_self (b : Bench) (id : Nat) (job : Job) (scene : Scene) :
    (b.settle id job scene).Goes id job ∨
      ∃ outcome, (b.settle id job scene).runs id = .over outcome := by
  rw [settle]
  split
  case h_1 outcome _ => exact Or.inr ⟨outcome, set_self _ _ _⟩
  case h_2 request stage p _ => exact Or.inl ⟨request, stage, p, _, set_self _ _ _⟩

theorem turn_of_settle_over {outcome : Except Fault Tally}
    (h : (b.settle id job scene).runs id = .over outcome) : scene.turn = .finished outcome := by
  rw [settle] at h
  split at h
  case h_1 outcome' hturn =>
    rw [set_self] at h
    cases h
    exact hturn
  case h_2 =>
    rw [set_self] at h
    cases h

theorem stopRequested_settle (b : Bench) (id : Nat) (job : Job) (scene : Scene) :
    (b.settle id job scene).runner.stopRequested = scene.runner.stopRequested := by
  rw [settle]
  split <;> rfl

theorem not_goes_set_over {outcome : Except Fault Tally}
    (h : ∀ job, other ≠ id → ¬ b.Goes other job) (job : Job) :
    ¬ (b.set id (.over outcome)).Goes other job := by
  rintro ⟨request, stage, p, sending, hgoes⟩
  by_cases hid : other = id
  · subst hid
    rw [set_self] at hgoes
    cases hgoes
  · rw [set_of_ne _ _ hid] at hgoes
    exact h job hid ⟨request, stage, p, sending, hgoes⟩

/-- Something that happens, one case for each way in which it concerns the runs. -/
inductive Did (b : Bench) : Incident → Bench → Prop where
  | refused {id : Nat} {script format ending : String} {fault : Fault} : b.runs id = .absent →
    b.runner.start script format ending = .error fault →
    Did b (.run id script format ending) (b.set id (.over (.error fault)))
  | started {id : Nat} {script format ending : String} {runner : Runner} {job : Job} {note : Note} :
    b.runs id = .absent → b.runner.start script format ending = .ok (runner, job, note) →
    Did b (.run id script format ending)
      (b.settle id job ⟨b.world, runner, job.plan.start, none⟩)
  | stopped : Did b .stop { b with runner := b.runner.stop.1 }
  | moved {m : Move} (world : World) : Did b (.move m) { b with world }
  | cancelled {caller : Caller} (world : World) : Did b (.cancel caller) { b with world }
  | acted {id : Nat} {a : Act} {job : Job} {request : Request} {stage : Stage} {p : Progress}
    {sending : Option Nat} {scene : Scene} : b.runs id = .goes job request stage p sending →
    Scene.act job ⟨b.world, b.runner, .asks request stage p, sending⟩ a = some scene →
    Did b (.act id a) (b.settle id job scene)
  | brokenOff {id : Nat} {fault : Fault} {job : Job} {seconds : Double} {stage : Stage}
    {p : Progress} {sending : Option Nat} : b.runs id = .goes job (.sleep seconds) stage p sending →
    Did b (.breakOff id fault)
      (b.settle id job ⟨b.world, b.runner, job.plan.resume stage p (.failed fault), sending⟩)

theorem did_of_does (h : b.does i = some next) : b.Did i next := by
  cases i with
  | run id script format ending =>
    rw [does] at h
    split at h
    case h_1 habsent =>
      split at h
      case h_1 fault hstart =>
        cases h
        exact .refused habsent hstart
      case h_2 runner job note hstart =>
        cases h
        exact .started habsent hstart
    case h_2 => cases h
  | stop =>
    cases h
    exact .stopped
  | move m =>
    obtain ⟨world, _, rfl⟩ := Option.map_eq_some_iff.1 h
    exact .moved world
  | act id a =>
    rw [does] at h
    split at h
    case h_1 job request stage p sending hgoes =>
      obtain ⟨scene, hact, rfl⟩ := Option.map_eq_some_iff.1 h
      exact .acted hgoes hact
    case h_2 => cases h
  | breakOff id fault =>
    rw [does] at h
    split at h
    case h_1 job seconds stage p sending hgoes =>
      cases h
      exact .brokenOff hgoes
    case h_2 => cases h
  | cancel caller =>
    rw [does] at h
    split at h
    case h_1 pause _ _ =>
      obtain ⟨point, _, rfl⟩ := Option.map_eq_some_iff.1 h
      exact .cancelled _
    case h_2 => cases h

/-! ## Runs in order -/

/-- A runner is idle, or one run is under way. -/
inductive Orderly (b : Bench) : Prop where
  | idle : b.runner.running = false → b.runner.position = (0, 0) →
    (∀ id job, ¬ b.Goes id job) → Orderly b
  | busy {id : Nat} {job : Job} {request : Request} {stage : Stage} {p : Progress}
    {sending : Option Nat} : b.runner.running = true →
    b.runs id = .goes job request stage p sending → (∀ other job, other ≠ id → ¬ b.Goes other job) →
    job.plan.At b.runner.position (.asks request stage p) → Orderly b

theorem Orderly.settle (hrunning : scene.runner.running = true)
    (hothers : ∀ other job, other ≠ id → ¬ b.Goes other job)
    (hat : job.plan.At scene.runner.position scene.turn) : (b.settle id job scene).Orderly := by
  rw [Bench.settle]
  split
  case h_1 outcome hturn =>
    exact .idle rfl rfl fun other job => not_goes_set_over (fun job => hothers other job) job
  case h_2 request stage p hturn =>
    rw [hturn] at hat
    refine .busy hrunning (set_self _ _ _) (fun other job hother => ?_) hat
    rintro ⟨request, stage, p, sending, hgoes⟩
    rw [set_of_ne _ _ hother] at hgoes
    exact hothers other job hother ⟨request, stage, p, sending, hgoes⟩

/-- A run that is under way is the only one. -/
theorem Orderly.only (h : b.Orderly) {request : Request} {stage : Stage} {p : Progress}
    {sending : Option Nat} (hgoes : b.runs id = .goes job request stage p sending) :
    b.runner.running = true ∧ (∀ other job, other ≠ id → ¬ b.Goes other job) ∧
      job.plan.At b.runner.position (.asks request stage p) := by
  cases h with
  | idle _ _ hnone => exact absurd ⟨request, stage, p, sending, hgoes⟩ (hnone id job)
  | @busy id' _ _ _ _ _ hrunning hgoes' hothers hat =>
    by_cases hid : id = id'
    · subst hid
      rw [hgoes] at hgoes'
      cases hgoes'
      exact ⟨hrunning, hothers, hat⟩
    · exact absurd ⟨request, stage, p, sending, hgoes⟩ (hothers id job hid)

theorem Orderly.same (h : b.Orderly) (hrunning : next.runner.running = b.runner.running)
    (hposition : next.runner.position = b.runner.position) (hruns : next.runs = b.runs) :
    next.Orderly := by
  have hgoes : ∀ id job, next.Goes id job → b.Goes id job := by
    rintro id job ⟨request, stage, p, sending, hgoes⟩
    exact ⟨request, stage, p, sending, by rw [← hruns, hgoes]⟩
  cases h with
  | idle hidle hzero hnone =>
    exact .idle (hrunning.trans hidle) (hposition.trans hzero) fun id job hthere =>
      hnone id job (hgoes id job hthere)
  | busy hbusy hthere hothers hat =>
    refine .busy (hrunning.trans hbusy) (by rw [hruns, hthere])
      (fun other job hother hgoesOn => hothers other job hother (hgoes other job hgoesOn)) ?_
    rw [hposition]
    exact hat

theorem Did.orderly (h : b.Did i next) (hb : b.Orderly) : next.Orderly := by
  cases h with
  | @refused id script format ending fault habsent _ =>
    have hother : ∀ other job, b.Goes other job → other ≠ id := by
      rintro other job ⟨request, stage, p, sending, hgoes⟩ rfl
      rw [habsent] at hgoes
      cases hgoes
    cases hb with
    | idle hidle hzero hnone =>
      exact .idle hidle hzero fun other =>
        not_goes_set_over fun job _ => hnone other job
    | busy hbusy hgoes hothers hat =>
      have hne := hother _ _ ⟨_, _, _, _, hgoes⟩
      exact .busy hbusy ((set_of_ne _ _ hne).trans hgoes) (fun other job hother =>
        not_goes_set_over (fun job _ => hothers other job hother) job) hat
  | started habsent hstart =>
    obtain ⟨hidle, rfl, _⟩ := Runner.start_ok hstart
    cases hb with
    | busy hbusy =>
      rw [hidle] at hbusy
      cases hbusy
    | idle _ hzero hnone =>
      refine .settle rfl (fun other job _ => hnone other job) ?_
      simp only [hzero]
      exact Script.Plan.at_start
  | stopped | moved | cancelled => exact hb.same rfl rfl rfl
  | acted hgoes hact =>
    obtain ⟨hrunning, hothers, hat⟩ := hb.only hgoes
    rcases Scene.act_cases hact with ⟨hturn, hrunner⟩ | ⟨_, _, _, _, _, hturn, htakes, hresume,
      hrunner, _⟩
    · refine .settle ?_ hothers ?_
      · rw [hrunner]
        split <;> exact hrunning
      · rw [hturn, hrunner]
        split <;> exact hat
    · cases hturn
      refine .settle ?_ hothers ?_
      · rw [hrunner]
        exact hrunning
      · rw [hresume, hrunner]
        exact hat.resume htakes
  | @brokenOff _ fault _ seconds _ _ _ hgoes =>
    obtain ⟨hrunning, hothers, hat⟩ := hb.only hgoes
    have htakes : (Request.sleep seconds).Takes (.failed fault) := trivial
    exact .settle hrunning hothers (hat.resume htakes)

end Bench

end Running

end SerialConsole
