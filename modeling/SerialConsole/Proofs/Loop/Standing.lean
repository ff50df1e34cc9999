import SerialConsole.Proofs.Loop.Waiting

set_option autoImplicit false

/-!
# An errand runs its course

Every step of a loop, whichever task takes it, leaves the errand somewhere (`Stands.step`), and so
does every course (`Stands.course`). Once the errand is over it stays over, and nothing more is
logged.
-/
namespace SerialConsole.Loop.Errand

open SerialConsole.Session (Event logged payloads)

variable {work : List Action} {ring : Log.Ring} {base : List Log.Listener} {h more : List Event}
  {l middle after : State} {a : Active} {next last : Next} {control : Control}
  {frames : List Frame} {outcome : Outcome}

/-- What is over stays over, with the same outcome, and nothing more is logged. -/
def Lasts (next : Next) (events : List Event) (last : Next) : Prop :=
  ∀ outcome, next = .over outcome → last = .over outcome ∧ logged events = []

theorem Lasts.refl (next : Next) : Lasts next [] next :=
  fun _ hover => ⟨hover, rfl⟩

theorem Lasts.of_not_over {events : List Event} (hnot : ∀ outcome, next ≠ .over outcome) :
    Lasts next events last :=
  fun outcome hover => absurd hover (hnot outcome)

theorem Lasts.trans {events : List Event} {final : Next} (h : Lasts next events last)
    (h' : Lasts last more final) : Lasts next (events ++ more) final := by
  intro outcome hover
  obtain ⟨hlast, hnone⟩ := h outcome hover
  obtain ⟨hfinal, hnone'⟩ := h' outcome hlast
  exact ⟨hfinal, by rw [Session.logged_append, hnone, hnone']; rfl⟩

/-! ## Who takes the step -/

/-- The task that runs is the main one exactly if the errand runs. -/
theorem Stands.main_runs (hs : Stands work ring base h l next) (ha : l.active = some a)
    (htask : a.task = 0) : next = .runs a.control a.frames := by
  have hmain := hs.main
  cases next with
  | runs control frames =>
    cases ha.symm.trans hmain.1
    rfl
  | waits frames awaited => exact absurd htask (hmain.1 a ha)
  | «over» outcome => exact absurd htask (hmain.1 a ha)

/-- While another task runs, or none does, the errand is idle. -/
theorem Stands.idle (hs : Stands work ring base h l next)
    (hactive : ∀ a, l.active = some a → a.task ≠ 0) : next.IsIdle := by
  have hmain := hs.main
  cases next with
  | runs control frames => exact absurd rfl (hactive _ hmain.1)
  | waits frames awaited => trivial
  | «over» outcome => trivial

/-- An idle main task is seen from outside only. -/
theorem mainIs_congr (hmain : l.MainIs next) (hidle : next.IsIdle)
    (hactive : ∀ a, after.active = some a → a.task ≠ 0)
    (hgist : (after.task 0).gist = (l.task 0).gist) : after.MainIs next := by
  cases next with
  | runs control frames => exact hidle.elim
  | waits frames awaited => exact ⟨hactive, hgist.trans hmain.2⟩
  | «over» outcome => exact ⟨hactive, hgist.trans hmain.2⟩

/-- Bookkeeping leaves the errand where it is. -/
theorem Stands.tended (hs : Stands work ring base h l next)
    (htended : l.Tended (Pardoned h) after) : Stands work ring base h after next := by
  refine ⟨htended.orderly hs.orderly, ?_, fun a ha hne => ?_, ?_, ?_⟩
  · have hmain := hs.main
    have hgist := htended.gist 0
    cases next with
    | runs control frames =>
      exact ⟨htended.active.trans hmain.1, (congrArg Gist.result hgist).trans hmain.2⟩
    | waits frames awaited => exact ⟨fun a ha => hmain.1 a (htended.active ▸ ha), hgist.trans hmain.2⟩
    | «over» outcome => exact ⟨fun a ha => hmain.1 a (htended.active ▸ ha), hgist.trans hmain.2⟩
  · rw [htended.readers]
    exact hs.helps a (htended.active ▸ ha) hne
  · rw [htended.session, htended.readers]
    exact hs.place
  · exact hs.ledger.congr (by rw [htended.session]) htended.heard

/-! ## Bystanders -/

/-- A bystander goes on, and the errand stays where it is. -/
theorem Stands.bystander {n : Nat} {own : Next}
    (hgoes : middle.Goes (Pardoned h) n own after) (hmain : middle.MainIs next)
    (hidle : next.IsIdle) (hn : n ≠ 0) (horderly : middle.Orderly (Pardoned h))
    (hown : own.Helps (Pardoned h) (0 < middle.readers.size))
    (hplace : Place work base middle.session middle.readers h next)
    (hledger : Ledger ring base (Lone work base) h after) :
    Stands work ring base h after next := by
  have hactive : ∀ a, after.active = some a →
      a.task = n ∧ a.control.Helps (Pardoned h) (0 < middle.readers.size) ∧ a.frames = [] := by
    intro a ha
    rw [hgoes.active] at ha
    cases own with
    | runs control frames =>
      cases ha
      exact ⟨rfl, hown⟩
    | waits frames awaited => cases ha
    | «over» outcome => cases ha
  refine ⟨hgoes.orderly horderly fun _ => hown, ?_, fun a ha _ => ?_, ?_, hledger⟩
  · refine mainIs_congr hmain hidle (fun a ha => ?_) (hgoes.others 0 hn.symm)
    rw [(hactive a ha).1]
    exact hn
  · rw [hgoes.readers]
    exact (hactive a ha).2
  · rw [hgoes.session, hgoes.readers]
    exact hplace

theorem pardoned_cancelled : Pardoned h .cancelled :=
  fun _ => .inr rfl

/-- What a bystander logs it has received, while the session was not told to stop. -/
theorem payload_of_helps {P : Fault → Prop} {p : Log.Direction × Bytes}
    (hcontrol : a.control.Helps P (0 < l.readers.size)) (hp : l.payload? a = some p) :
    p.1 = .received ∧ l.session.stopReading = false ∧ l.readers ≠ #[] := by
  unfold State.payload? at hp
  cases hc : a.control with
  | signal point signal =>
    rw [hc] at hp hcontrol
    dsimp only at hp
    rcases hcontrol.1 with ⟨hreads, hside⟩ | hside
    · have hreaders : l.readers ≠ #[] := by
        intro hempty
        rw [hempty] at hreads
        exact absurd hreads (Nat.lt_irrefl 0)
      cases point with
      | reading device =>
        cases signal with
        | reply reply =>
          cases reply with
          | chunk data =>
            cases data with
            | none => cases hp
            | some data =>
              simp only [Session.payload?] at hp
              cases hstop : l.session.stopReading with
              | true =>
                rw [hstop] at hp
                cases hp
              | false =>
                rw [hstop, Bool.false_or] at hp
                split at hp
                · cases hp
                · cases hp
                  exact ⟨rfl, rfl, hreaders⟩
          | _ => cases hp
        | _ => cases hp
      | readTurn device => cases signal <;> cases hp
      | _ => cases hside
    · cases point with
      | closed => cases signal <;> cases hp
      | _ => cases hside
  | _ =>
    rw [hc] at hp
    cases hp

/-- A bystander takes a step. -/
theorem Stands.bystander_advances (hs : Stands work ring base h l next)
    (ha : l.active = some a) (hn : a.task ≠ 0) :
    Stands work ring base (h ++ l.deeds a) (l.advance a) next ∧ Lasts next (l.deeds a) next := by
  obtain ⟨hcontrol, hframes⟩ := hs.helps a ha hn
  have hothers : ∀ b, l.active = some b → b.task ≠ 0 := by
    intro b hb
    cases ha.symm.trans hb
    exact hn
  have hidle := hs.idle hothers
  obtain ⟨listens, hlisteners, hlistens⟩ := hs.place.listening hidle
  have hnone : ∀ outcome, next = .over outcome → l.payload? a = none := by
    rintro outcome rfl
    cases hp : l.payload? a with
    | none => rfl
    | some p =>
      obtain ⟨_, hgoing, hreaders⟩ := payload_of_helps hcontrol hp
      cases hs.place with
      | «over» hparted _ =>
        rcases hparted.still with hempty | hstopped
        · exact absurd hempty hreaders
        · exact absurd (hgoing.symm.trans hstopped) Bool.false_ne_true
  -- what the device fails with in this step is part of the history then
  have hreply : ∀ d fault, a.control = .signal (.reading d) (.reply (.failed fault)) →
      Pardoned (h ++ l.deeds a) fault := by
    intro d fault hc hcalm
    refine .inl (hcalm (l.task a.task).caller (.read d) fault (List.mem_append_right h ?_))
    have hstep : l.sessionStep? a = some (l.session.resume (l.task a.task).caller (.reading d)
        (.reply (.failed fault))) := by
      simp only [State.sessionStep?, hc]
    rw [State.deeds_eq hstep, hc]
    exact List.mem_append_left _ (List.mem_append_left _ List.mem_cons_self)
  have ho : l.Orderly (Pardoned (h ++ l.deeds a)) := hs.orderly.mono fun _ => Pardoned.mono
  rcases State.bystander_goes ho hs.place.wired pardoned_cancelled
      (hcontrol.mono (fun _ => Pardoned.mono) id) hframes hreply with
    ⟨outcome, hstep, hwithin, hgoes⟩ | ⟨step, side, own, hstep, hbeside, hown, hgoes⟩
  · have hdeeds : l.deeds a = [] := by
      unfold State.deeds
      rw [hstep]
    rw [hdeeds, List.append_nil] at ho hwithin hgoes ⊢
    exact ⟨.bystander hgoes hs.main hidle hn ho hwithin hs.place
      (hs.ledger.congr (by rw [hgoes.session]) hgoes.heard), .refl next⟩
  · have hquiet : State.Quiet (l.deeds a) := State.beside_quiet hstep hbeside fun point signal hc => by
      rw [hc] at hcontrol
      rcases hcontrol.1 with ⟨_, hside⟩ | hside
      · exact fun h => by cases h.symm.trans hside
      · exact fun h => by cases h.symm.trans hside
    have hplace := hs.place.beside hquiet hbeside.outline hidle fun hreceived => by
      rw [State.received_payload hstep] at hreceived
      cases hp : l.payload? a with
      | none =>
        rw [hp] at hreceived
        exact absurd rfl hreceived
      | some p => exact (payload_of_helps hcontrol hp).2
    refine ⟨.bystander hgoes (mainIs_congr hs.main hidle hothers rfl) hidle hn ⟨ho.started, ho.uncancelled, ho.unwatched, ho.helps,
      ho.tells⟩ hown hplace ?_, fun outcome hover => ⟨hover, ?_⟩⟩
    · refine hs.ledger.absorb hstep hlisteners (fun hlone data hp => ?_) hs.place.told hgoes.session
        hgoes.heard
      obtain ⟨_, hgoing, hreaders⟩ := payload_of_helps hcontrol hp
      exact hlistens hlone hgoing hreaders
    · rw [State.logged_deeds hstep, hnone outcome hover]
      rfl

/-! ## Single steps -/

/-- The main task takes a step. -/
theorem Stands.advances (hwork : ∀ action ∈ work, IsWork action)
    (hs : Stands work ring base h l (.runs control frames)) :
    Advances work ring base h l ⟨0, control, frames⟩ := by
  have hplace := hs.place
  generalize hnext : Next.runs control frames = next at hplace
  cases hplace with
  | planned line hint hapart =>
    cases hnext
    exact hs.planned hapart
  | connects line hint hapart =>
    cases hnext
    exact hs.connects hapart
  | requested line hapart hfits =>
    cases hnext
    exact hs.requested hapart hfits
  | opens device line reply hapart =>
    cases hnext
    exact hs.opens hapart
  | awaitsOpening device line hapart hdevice => cases hnext
  | opened v hjoined =>
    cases hnext
    exact hs.opened hjoined
  | enters v hjoined =>
    cases hnext
    exact hs.enters hwork hjoined
  | works v hjoined hframes hactions hworks hattends =>
    cases hnext
    exact Busy.advances ⟨hs, hjoined, hframes, hactions, hattends⟩ hworks
  | rests v hjoined hframes hactions hlistens => cases hnext
  | leaves v hjoined hkeeps =>
    cases hnext
    exact hs.leaves hjoined hkeeps
  | parts v hparting hparts hkeeps =>
    cases hnext
    exact hs.parts hparting hparts hkeeps
  | awaitsParting v hparting hawaits hkeeps => cases hnext
  | unwinds hparted hunwinds =>
    cases hnext
    exact hs.unwinds hparted hunwinds
  | «over» hparted hends => cases hnext

/-- Who waits for some time for the end of another task waits for a bystander. -/
theorem Stands.timed_bystander (hs : Stands work ring base h l next) (hidle : next.IsIdle)
    {n other : Nat} {rest : List Frame} (hframes : (l.task n).frames = .timed other :: rest) :
    other ≠ 0 := by
  by_cases hn : n = 0
  · have hmain := hs.main
    have hplace := hs.place
    rw [hn] at hframes
    cases next with
    | runs control frames => exact hidle.elim
    | waits frames awaited =>
      rw [show frames = .timed other :: rest from
        (congrArg Gist.frames hmain.2).symm.trans hframes] at hplace
      generalize hf : Frame.timed other :: rest = all at hplace
      cases hplace with
      | awaitsOpening _ _ _ _ => cases hf
      | rests v _ hbusy _ _ =>
        cases hf
        exact hbusy _ List.mem_cons_self
      | awaitsParting v _ _ _ => cases hf
    | «over» outcome => cases (congrArg Gist.frames hmain.2).symm.trans hframes
  · rcases (hs.orderly.helps n hn).frames with hnil | ⟨point, hsession, _⟩
    · cases hnil.symm.trans hframes
    · cases hsession.symm.trans hframes

/-- A task goes on that was woken, the main one or a bystander. -/
theorem Stands.wakes (hs : Stands work ring base h l next) (hactive : l.active = none)
    {n ticket : Nat} {tell : Tell} (hfair : n = 0 → tell.Fair (Pardoned h)) :
    ∃ last, Stands work ring base h (l.runReady (.wake n ticket tell)) last ∧
      Lasts next [] last := by
  have hothers : ∀ a, l.active = some a → a.task ≠ 0 := by
    intro a ha
    cases hactive.symm.trans ha
  have hidle := hs.idle hothers
  have hmain := hs.main
  have hplace := hs.place
  have htimed : ∀ other rest, (l.task n).frames = .timed other :: rest → other ≠ 0 :=
    fun _ _ hframes => hs.timed_bystander hidle hframes
  rcases State.wake_goes hs.orderly n ticket hfair htimed with
    hsame | ⟨wait, told, own, hwait, htold, hresumes, hgoes⟩
  · rw [hsame]
    exact ⟨next, hs, .refl next⟩
  · have hledger : Ledger ring base (Lone work base) h (l.runReady (.wake n ticket tell)) :=
      hs.ledger.congr (by rw [hgoes.session]) hgoes.heard
    by_cases hn : n = 0
    · rw [hn] at hgoes htold hwait hresumes
      cases next with
      | runs control frames => exact hidle.elim
      | waits frames awaited =>
        have hframes : (l.task 0).frames = frames := congrArg Gist.frames hmain.2
        have hawaited : wait.awaited = awaited := by
          have h : (l.task 0).wait.map Wait.awaited = some awaited :=
            congrArg Gist.awaited hmain.2
          rw [hwait] at h
          exact Option.some.inj h
        rw [hframes, hawaited] at hresumes
        have hnew := hplace.resumes hs.orderly (htold rfl) hresumes
        have hstands : Stands work ring base (h ++ []) (l.runReady (.wake n ticket tell)) own :=
          .goes (hn ▸ hgoes) hs.orderly (congrArg Gist.result hmain.2)
            ((List.append_nil h).symm ▸ hnew) ((List.append_nil h).symm ▸ hledger)
        rw [List.append_nil] at hstands
        exact ⟨own, hstands, .of_not_over nofun⟩
      | «over» outcome =>
        have h : (l.task 0).wait.map Wait.awaited = none := congrArg Gist.awaited hmain.2
        rw [hwait] at h
        cases h
    · exact ⟨next, .bystander hgoes hmain hidle hn hs.orderly
        (hresumes.helps hs.orderly hn hwait) hplace hledger, .refl next⟩

/-- What was ready runs. -/
theorem Stands.ready (hs : Stands work ring base h l next) (hactive : l.active = none)
    {ready : Ready} (hfair : ready.Fair (Pardoned h)) :
    ∃ last, Stands work ring base h (l.runReady ready) last ∧ Lasts next [] last := by
  cases ready with
  | start n =>
    have hidle := hs.idle fun a ha => nomatch hactive.symm.trans ha
    obtain ⟨own, hown, hgoes⟩ := State.start_goes hs.orderly pardoned_cancelled hfair
    exact ⟨next, .bystander hgoes hs.main hidle hfair hs.orderly hown hs.place
      (hs.ledger.congr (by rw [hgoes.session]) hgoes.heard), .refl next⟩
  | settle n ticket tell =>
    refine ⟨next, hs.tended ?_, .refl next⟩
    unfold State.runReady
    dsimp only
    split
    · split
      · exact State.wake_tended hfair
      · exact .refl l
    · exact .refl l
  | wake n ticket tell => exact hs.wakes hactive hfair

/-- Every step of the loop leaves the errand somewhere. -/
theorem Stands.step (hwork : ∀ action ∈ work, IsWork action)
    (hs : Stands work ring base h l next) (hstep : l.step = some after) :
    ∃ last, Stands work ring base (h ++ l.events) after last ∧ Lasts next l.events last := by
  unfold State.step at hstep
  unfold State.events
  cases hactive : l.active with
  | some a =>
    rw [hactive] at hstep
    cases hstep
    by_cases htask : a.task = 0
    · cases hs.main_runs hactive htask
      obtain ⟨n, control, frames⟩ := a
      cases htask
      obtain ⟨last, hlast⟩ := hs.advances hwork
      exact ⟨last, hlast, .of_not_over nofun⟩
    · exact ⟨next, hs.bystander_advances hactive htask⟩
  | none =>
    rw [hactive] at hstep
    dsimp only at hstep ⊢
    rw [List.append_nil]
    cases hbatch : l.batch with
    | cons ready rest =>
      rw [hbatch] at hstep
      cases hstep
      have htells := hs.orderly.tells
      rw [hbatch, List.cons_append] at htells
      obtain ⟨hready, hrest⟩ := List.forall_mem_cons.1 htells
      have htaken : l.Tended (Pardoned h) { l with active := none, batch := rest } :=
        ⟨hactive.symm, rfl, rfl, rfl, fun _ => rfl,
          fun ho => ⟨ho.started, ho.uncancelled, ho.unwatched, ho.helps, hrest⟩⟩
      exact (hs.tended htaken).ready rfl hready
    | nil =>
      rw [hbatch] at hstep
      dsimp only at hstep
      split at hstep
      · cases hstep
      · cases hstep
        exact ⟨next, hs.tended State.startTurn_tended, .refl next⟩

/-- A script is told that its progress could not be announced. -/
theorem Stands.balks {job : Job} {position total : Nat} {stage : Script.Stage}
    {progress : Script.Progress} {n : Nat} (fault : Fault)
    (hs : Stands work ring base h l next) (hactive : l.active =
      some ⟨n, .turn job (.asks (.announce position total) stage progress), frames⟩) :
    ∃ last, Stands work ring base h (l.goOn n
      (.turn job (job.plan.resume stage progress (.failed fault))) frames) last ∧
        Lasts next [] last := by
  by_cases hn : n = 0
  · cases hs.main_runs hactive hn
    cases hn
    have hplace := hs.place
    have ho := hs.orderly
    generalize hnext : Next.runs (.turn job (.asks (.announce position total) stage progress))
      frames = next at hplace
    cases hplace with
    | works v hjoined hframes hactions hworks hattends =>
      cases hnext
      refine ⟨.runs (.turn job (job.plan.resume stage progress (.failed fault))) _,
        ⟨⟨ho.started, ho.uncancelled, ho.unwatched, ho.helps, ho.tells⟩, ⟨rfl, hs.main.2⟩,
          fun a ha hne => ?_, .works v hjoined hframes hactions (by trivial) fun hlone => ?_,
          hs.ledger.congr rfl rfl⟩, .of_not_over nofun⟩
      · cases ha
        exact absurd rfl hne
      · obtain ⟨hlistens, hrest, hvalues⟩ := (hattends hlone).counter_listens nofun nofun
        rw [hlistens]
        exact attends_listening hrest hvalues
    | _ => cases hnext
  · exact (hs.helps _ hactive hn).1.elim

/-! ## Whole courses -/

/-- An errand that has a result is over. -/
theorem Stands.over_of_result (hs : Stands work ring base h l next)
    (hresult : l.resultOf 0 = some outcome) : next = .over outcome := by
  have hmain := hs.main
  cases next with
  | runs control frames => cases hmain.2.symm.trans hresult
  | waits frames awaited => cases (congrArg Gist.result hmain.2).symm.trans hresult
  | «over» other => cases (congrArg Gist.result hmain.2).symm.trans hresult; rfl

/-- An errand that is over is not touched by what leaves the loop. -/
theorem Stands.leaves_loop (hs : Stands work ring base h l (.over outcome)) :
    Stands work ring base h { l with active := none, interrupted := none } (.over outcome) := by
  have ho := hs.orderly
  have hnone : ∀ a, (none : Option Active) ≠ some a := fun _ => nofun
  exact ⟨⟨ho.started, ho.uncancelled, ho.unwatched, ho.helps, ho.tells⟩,
    ⟨fun a ha => absurd ha (hnone a), hs.main.2⟩, fun a ha => absurd ha (hnone a), hs.place,
    hs.ledger.congr rfl rfl⟩

/-- Bookkeeping after a course. -/
theorem Lasts.tended {events : List Event} (hlasts : Lasts next events last)
    (hs : Stands work ring base h l last) (htended : l.Tended (Pardoned h) after) :
    ∃ last, Stands work ring base h after last ∧ Lasts next events last :=
  ⟨last, hs.tended htended, hlasts⟩

/-- An errand stands somewhere at the end of every course. -/
theorem Stands.course {events : List Event} (hwork : ∀ action ∈ work, IsWork action)
    (hs : Stands work ring base h l next) (hcourse : State.Course l events after) :
    ∃ last, Stands work ring base (h ++ events) after last ∧ Lasts next events last := by
  induction hcourse with
  | start => exact ⟨next, (List.append_nil h).symm ▸ hs, .refl next⟩
  | step _ _ hstep ih =>
    obtain ⟨middle, hmiddle, hlasts⟩ := ih
    obtain ⟨last, hlast, hmore⟩ := hmiddle.step hwork hstep
    exact ⟨last, List.append_assoc h _ _ ▸ hlast, hlasts.trans hmore⟩
  | @jump _ l _ _ _ hjump ih =>
    obtain ⟨middle, hmiddle, hlasts⟩ := ih
    unfold State.jump at hjump
    cases htimers : l.timers with
    | nil =>
      rw [htimers] at hjump
      cases hjump
    | cons timer rest =>
      rw [htimers] at hjump
      cases hjump
      refine hlasts.tended hmiddle (.trans ?_ State.startTurn_tended)
      exact ⟨rfl, rfl, rfl, rfl, fun _ => rfl,
        fun ho => ⟨ho.started, ho.uncancelled, ho.unwatched, ho.helps, ho.tells⟩⟩
  | surroundings platform now _ ih =>
    obtain ⟨middle, hmiddle, hlasts⟩ := ih
    exact hlasts.tended hmiddle ⟨rfl, rfl, rfl, rfl, fun _ => rfl,
      fun ho => ⟨ho.started, ho.uncancelled, ho.unwatched, ho.helps, ho.tells⟩⟩
  | answers _ _ _ ih =>
    obtain ⟨middle, hmiddle, hlasts⟩ := ih
    exact hlasts.tended hmiddle (State.wake_tended fun _ => trivial)
  | balks fault _ hactive ih =>
    obtain ⟨middle, hmiddle, hlasts⟩ := ih
    obtain ⟨last, hlast, hmore⟩ := hmiddle.balks fault hactive
    have hboth := hlasts.trans hmore
    rw [List.append_nil] at hboth
    exact ⟨last, hlast, hboth⟩
  | leaves _ hover ih =>
    obtain ⟨middle, hmiddle, hlasts⟩ := ih
    obtain ⟨outcome, hresult⟩ := Option.isSome_iff_exists.1 hover
    cases hmiddle.over_of_result hresult
    exact ⟨.over outcome, hmiddle.leaves_loop, hlasts⟩
  | @cancels _ l n _ hover ih =>
    obtain ⟨middle, hmiddle, hlasts⟩ := ih
    obtain ⟨outcome, hresult⟩ := Option.isSome_iff_exists.1 hover
    cases hmiddle.over_of_result hresult
    refine hlasts.tended hmiddle ?_
    by_cases hn : n = 0
    · -- a task that has ended cannot be cancelled
      have hwait : (l.task 0).wait = none :=
        Option.map_eq_none_iff.1 (congrArg Gist.awaited hmiddle.main.2)
      have hsame : l.cancel 0 = l := by
        have hpending : l.pendingWait 0 = none := by
          rw [State.pendingWait, hwait]
          rfl
        have hended : (l.task 0).result.isSome := hover
        simp only [State.cancel, hpending, State.cancelWaiting, hended, if_true]
      rw [hn, hsame]
      exact .refl l
    · exact State.cancel_tended hn hmiddle.orderly

/-! ## The beginning -/

/-- A loop whose only task has not started yet. -/
structure Fresh (work : List Action) (ring : Log.Ring) (base : List Log.Listener)
    (line : LineSettings) (hint : Option String) (l : State) : Prop where
  tasks : l.tasks = #[{
    caller := .call 0, first := .begin (.inOrder [.connect line hint, .scope work]) }]
  active : l.active = none
  ready : l.batch ++ l.queued.toList = [.start 0]
  timers : l.timers = []
  apart : Apart base l.session l.readers [] false
  ledger : Ledger ring base (Lone work base) [] l

section

variable {line : LineSettings} {hint : Option String}

theorem Fresh.task_zero (hl : Fresh work ring base line hint l) : l.task 0 = {
    caller := .call 0, first := .begin (.inOrder [.connect line hint, .scope work]) } := by
  rw [State.task, hl.tasks]
  rfl

theorem Fresh.task_succ (hl : Fresh work ring base line hint l) {n : Nat} (hn : n ≠ 0) :
    l.task n = default := by
  rw [State.task, hl.tasks]
  cases n with
  | zero => exact absurd rfl hn
  | succ n => rfl

/-- The main task starts. -/
theorem Fresh.starts (hl : Fresh work ring base line hint l) (hstep : l.step = some after) :
    Fresh work ring base line hint after ∨
      ∃ next, Stands work ring base [] after next := by
  have hready := hl.ready
  unfold State.step at hstep
  rw [hl.active] at hstep
  dsimp only at hstep
  cases hbatch : l.batch with
  | nil =>
    left
    rw [hbatch, List.nil_append] at hready
    have hqueued : l.queued.isEmpty = false := by
      rw [← Array.isEmpty_toList, hready]
      rfl
    rw [hbatch] at hstep
    simp only [hqueued] at hstep
    cases hstep
    refine ⟨hl.tasks, hl.active, ?_, ?_, hl.apart, hl.ledger.congr rfl rfl⟩
    · simp [State.startTurn, State.fireTimers, hl.timers, hready]
    · simp [State.startTurn, State.fireTimers, hl.timers]
  | cons ready rest =>
    right
    rw [hbatch] at hstep hready
    obtain ⟨rfl, hrest⟩ := List.cons.inj hready
    cases hstep
    obtain ⟨hnil, hqueued⟩ := List.append_eq_nil_iff.1 hrest
    have hstarts : ({ l with batch := rest }.runReady (.start 0)) =
        { l with batch := rest }.goOn 0 (.begin (.inOrder [.connect line hint, .scope work])) [] := by
      simp only [State.runReady, State.task, hl.tasks]
      rfl
    rw [hl.active] at hstarts
    rw [hstarts]
    refine ⟨.runs (.begin (.inOrder [.connect line hint, .scope work])) [],
      ⟨?_, ?_, ?_, fun n hn => ?_, fun ready hready => ?_⟩, ⟨rfl, ?_⟩, fun a ha hne => ?_,
      .planned line hint hl.apart, hl.ledger.congr rfl rfl⟩
    · exact hl.tasks.symm ▸ Nat.one_pos
    · exact congrArg Task.mustCancel hl.task_zero
    · exact congrArg Task.watchers hl.task_zero
    · exact (hl.task_succ hn).symm ▸ helps_default
    · rw [State.goOn, hnil, hqueued] at hready
      cases hready
    · exact congrArg Task.result hl.task_zero
    · cases ha
      exact absurd rfl hne

/-- A task that has not started waits for nothing and has no result. -/
theorem Fresh.gist (hl : Fresh work ring base line hint l) (n : Nat) : (l.task n).gist = {} := by
  by_cases hn : n = 0
  · rw [hn, hl.task_zero]
    rfl
  · rw [hl.task_succ hn]
    rfl

/-- After a course the main task has not started yet, or the errand stands somewhere. -/
theorem Fresh.course (hwork : ∀ action ∈ work, IsWork action)
    (hl : Fresh work ring base line hint l) (hcourse : State.Course l h after) :
    (h = [] ∧ Fresh work ring base line hint after) ∨
      ∃ next, Stands work ring base h after next := by
  have hgoes : ∀ {h events : List Event} {l after : State},
      (∃ next, Stands work ring base h l next) → State.Course l events after →
      ∃ next, Stands work ring base (h ++ events) after next := by
    rintro h events l after ⟨next, hs⟩ hcourse
    obtain ⟨last, hlast, _⟩ := hs.course hwork hcourse
    exact ⟨last, hlast⟩
  have hstays : ∀ {h : List Event} {l after : State},
      (∃ next, Stands work ring base h l next) → State.Course l [] after →
      ∃ next, Stands work ring base h after next := by
    intro h l after hs hcourse
    exact List.append_nil h ▸ hgoes hs hcourse
  have hwaiting : ∀ {l : State} {n : Nat} {wait : Wait}, Fresh work ring base line hint l →
      l.pendingWait n ≠ some wait := by
    intro l n wait hl hwait
    have hnone := congrArg Gist.awaited (hl.gist n)
    rw [Task.gist, State.wait_of_pendingWait hwait] at hnone
    cases hnone
  have hended : ∀ {l : State}, Fresh work ring base line hint l → ¬(l.resultOf 0).isSome := by
    intro l hl
    rw [State.resultOf_eq, hl.gist]
    exact Bool.false_ne_true
  induction hcourse with
  | start => exact .inl ⟨rfl, hl⟩
  | step _ hinterrupted hstep ih =>
    rcases ih with ⟨rfl, hfresh⟩ | hs
    · rw [State.events, hfresh.active]
      exact (hfresh.starts hstep).imp (fun h => ⟨rfl, h⟩) id
    · exact .inr (hgoes hs (.step .start hinterrupted hstep))
  | jump _ hstep hjump ih =>
    rcases ih with ⟨rfl, hfresh⟩ | hs
    · rw [State.jump, hfresh.timers] at hjump
      cases hjump
    · exact .inr (hstays hs (.jump .start hstep hjump))
  | surroundings platform now _ ih =>
    rcases ih with ⟨rfl, hfresh⟩ | hs
    · exact .inl ⟨rfl, hfresh.tasks, hfresh.active, hfresh.ready, hfresh.timers, hfresh.apart,
        hfresh.ledger.congr rfl rfl⟩
    · exact .inr (hstays hs (.surroundings platform now .start))
  | answers _ hwait hdevice ih =>
    rcases ih with ⟨rfl, hfresh⟩ | hs
    · exact absurd hwait (hwaiting hfresh)
    · exact .inr (hstays hs (.answers .start hwait hdevice))
  | balks fault _ hactive ih =>
    rcases ih with ⟨rfl, hfresh⟩ | hs
    · cases hfresh.active.symm.trans hactive
    · exact .inr (hstays hs (.balks fault .start hactive))
  | leaves _ hover ih =>
    rcases ih with ⟨rfl, hfresh⟩ | hs
    · exact absurd hover (hended hfresh)
    · exact .inr (hstays hs (.leaves .start hover))
  | cancels n _ hover ih =>
    rcases ih with ⟨rfl, hfresh⟩ | hs
    · exact absurd hover (hended hfresh)
    · exact .inr (hstays hs (.cancels n .start hover))

/-- An errand that has a result is over. -/
theorem Fresh.over (hwork : ∀ action ∈ work, IsWork action)
    (hl : Fresh work ring base line hint l) (hcourse : State.Course l h after)
    (hresult : after.resultOf 0 = some outcome) :
    Stands work ring base h after (.over outcome) := by
  rcases hl.course hwork hcourse with ⟨rfl, hfresh⟩ | ⟨next, hs⟩
  · rw [State.resultOf_eq, hfresh.gist] at hresult
    cases hresult
  · cases hs.over_of_result hresult
    exact hs

/-- Shutting down after the errand goes on with the course and keeps its outcome. -/
theorem Fresh.shutDown (hwork : ∀ action ∈ work, IsWork action)
    (hl : Fresh work ring base line hint l) (hcourse : State.Course l h after)
    (hresult : after.resultOf 0 = some outcome) :
    ∃ more, State.Course l (h ++ more) after.shutDown ∧
      after.shutDown.resultOf 0 = some outcome := by
  have hover : (after.resultOf 0).isSome := Option.isSome_iff_exists.2 ⟨outcome, hresult⟩
  obtain ⟨more, hmore⟩ := hcourse.shutDown hover
  obtain ⟨events, hevents⟩ := State.Course.start.shutDown hover
  obtain ⟨last, hlast, hlasts⟩ := (hl.over hwork hcourse hresult).course hwork hevents
  cases (hlasts outcome rfl).1
  exact ⟨more, hmore, congrArg Gist.result hlast.main.2⟩

end

end SerialConsole.Loop.Errand
