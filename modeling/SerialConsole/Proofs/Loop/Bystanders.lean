import SerialConsole.Proofs.Loop.Moves

set_option autoImplicit false

/-!
# Bystanders

A bystander stays one: whatever a read loop or a wait for the end of reading does next, it leaves the
connection alone, and the faults with which it ends are those of the device, those of the read loop
that it waits for, and its own cancellation.
-/
namespace SerialConsole.Loop

/-- The step of the session that a task takes next, if it takes one. -/
def State.sessionStep? (l : State) (a : Active) : Option Session.Step :=
  let me := (l.task a.task).caller
  match a.control with
  | .begin (.connect line hint) => some (l.session.beginConnect me line hint)
  | .begin (.send data) => some (l.session.beginSend me data)
  | .begin (.sendData data format ending) => some (l.session.beginSendData me data format ending)
  | .begin .disconnect => some (l.session.beginDisconnect me)
  | .begin .waitClosed => some l.session.beginWaitClosed
  | .readLoop device => some (l.session.beginRead me device)
  | .signal point signal => some (l.session.resume me point signal)
  | _ => none

section

variable {P : Fault → Prop} {l : State} {a : Active} {step : Session.Step} {frames : List Frame}
  {next : Next}

theorem State.advance_absorb (h : l.sessionStep? a = some step) :
    l.advance a = l.absorb a.task a.frames step := by
  obtain ⟨n, control, frames⟩ := a
  cases control with
  | begin action =>
    cases action with
    | connect line hint =>
      cases h
      rfl
    | send data =>
      cases h
      rfl
    | sendData data format ending =>
      cases h
      rfl
    | disconnect =>
      cases h
      rfl
    | waitClosed =>
      cases h
      rfl
    | _ => cases h
  | readLoop device =>
    cases h
    rfl
  | signal point signal =>
    cases h
    rfl
  | turn job turn => cases h
  | give outcome => cases h

/-- The read loop that the session belongs to, if it has one, is a bystander. -/
def State.Wired (l : State) : Prop :=
  ∀ connection, l.session.reader = some connection → l.readers.getD connection 0 ≠ 0

/-- A task takes a step beside the connection. -/
theorem State.beside_goes (ho : l.Orderly P) (hwired : l.Wired) {side : Session.Sideline}
    (hstep : l.sessionStep? a = some step) (hbeside : step.Beside l.session side) :
    ∃ next, Leads l a.frames step.pause next ∧
      { l with session := step.session, heard := l.heard ++ (told step.effects).toArray }.Goes P
        a.task next (l.advance a) := by
  rw [advance_absorb hstep]
  exact absorb_goes ho a.task a.frames (fun e he => .inl (hbeside.mild e he))
    fun connection h => hwired connection (hbeside.pause.reader_eq h)

/-- The pause of a read loop or of a wait for the end of reading leads to another such wait. -/
theorem Leads.helps (ho : l.Orderly P) (hwired : l.Wired) {side : Session.Sideline}
    {pause : Session.Pause} (hleads : Leads l [] pause next) (hbeside : pause.Beside l.session side)
    (hside : (0 < l.readers.size ∧ side = .reading) ∨ side = .awaiting)
    (hfault : ∀ fault, pause = .over (.error fault) → P fault) :
    next.Helps P (0 < l.readers.size) := by
  cases hbeside with
  | «over» result =>
    cases hleads with
    | «over» result =>
      refine ⟨fun fault h => ?_, rfl⟩
      cases result with
      | ok value => cases h
      | error fault' =>
        cases h
        exact hfault _ rfl
  | writes device data =>
    rcases hside with ⟨_, h⟩ | h
    · cases h
    · cases h
  | awaitsWriting data =>
    rcases hside with ⟨_, h⟩ | h
    · cases h
    · cases h
  | reads device =>
    have hreads : 0 < l.readers.size := by
      rcases hside with ⟨hreads, _⟩ | h
      · exact hreads
      · cases h
    cases hleads with
    | answered point hfits => exact ⟨⟨.inl ⟨hreads, rfl⟩, nofun⟩, rfl⟩
    | @asks request point awaited hnot hdevice =>
      refine ⟨⟨_, rfl, .inl ⟨hreads, rfl⟩⟩, ?_⟩
      cases awaited with
      | endOf task => exact hdevice.elim
      | resultOf task => exact hdevice.elim
      | _ => trivial
  | awaitsReading device =>
    have hreads : 0 < l.readers.size := by
      rcases hside with ⟨hreads, _⟩ | h
      · exact hreads
      · cases h
    cases hleads with
    | awaitsTurn name point => exact ⟨⟨_, rfl, .inl ⟨hreads, rfl⟩⟩, trivial⟩
  | watches hn =>
    have hne := hwired _ hn
    cases hleads with
    | watched point houtcome =>
      refine ⟨⟨.inr rfl, fun fault h => ?_⟩, rfl⟩
      refine (ho.helps _ hne).result _ houtcome fault ?_
      rename_i outcome
      cases outcome with
      | ok value => cases h
      | error other =>
        cases h
        rfl
    | watches connection point => exact ⟨⟨_, rfl, .inr rfl⟩, hne⟩

/-- A bystander fails only with what it is told, which is a fault of the device while it reads. -/
theorem fault_of_helps {reads : Prop} {point : Session.Point} {signal : Session.Signal}
    (hcontrol : (Control.signal point signal).Helps P reads) (hP : P .cancelled)
    (hreply : ∀ d fault, point = .reading d → signal = .reply (.failed fault) → P fault)
    {s : Session} {me : Caller} {fault : Fault}
    (hover : (s.resume me point signal).pause = .over (.error fault)) : P fault := by
  have hside : point.sideline? = some .reading ∨ point.sideline? = some .awaiting :=
    hcontrol.1.imp And.right id
  have htold := Session.fault_of_resume hside hover
  cases signal with
  | reply reply =>
    cases reply with
    | failed other =>
      cases htold
      cases point with
      | reading device => exact hreply device _ rfl rfl
      | readTurn device => cases hover
      | closed => cases hover
      | _ => rcases hside with hside | hside <;> cases hside
    | _ => cases htold
  | joined result =>
    cases result with
    | ok value => cases htold
    | error other =>
      cases htold
      exact hcontrol.2 _ rfl
  | cancelled =>
    cases htold
    exact hP
  | _ => cases htold

/-- What a bystander does in a step of its own: it ends, or it takes a step beside the connection
and remains a bystander. -/
theorem State.bystander_goes (ho : l.Orderly P) (hwired : l.Wired) (hP : P .cancelled)
    (hcontrol : a.control.Helps P (0 < l.readers.size)) (hframes : a.frames = [])
    (hreply : ∀ d fault, a.control = .signal (.reading d) (.reply (.failed fault)) → P fault) :
    (∃ outcome, l.sessionStep? a = none ∧ Outcome.Within P outcome ∧
        l.Goes P a.task (.over outcome) (l.advance a)) ∨
      ∃ step side next, l.sessionStep? a = some step ∧ step.Beside l.session side ∧
        next.Helps P (0 < l.readers.size) ∧
        { l with session := step.session, heard := l.heard ++ (told step.effects).toArray }.Goes P
          a.task next (l.advance a) := by
  have hbeside : ∀ (step : Session.Step) (side : Session.Sideline),
      l.sessionStep? a = some step → step.Beside l.session side →
      ((0 < l.readers.size ∧ side = .reading) ∨ side = .awaiting) →
      (∀ fault, step.pause = .over (.error fault) → P fault) →
      ∃ step side next, l.sessionStep? a = some step ∧ step.Beside l.session side ∧
        next.Helps P (0 < l.readers.size) ∧
        { l with session := step.session, heard := l.heard ++ (told step.effects).toArray }.Goes P
          a.task next (l.advance a) := by
    intro step side hstep hbeside hside hfault
    obtain ⟨next, hleads, hgoes⟩ := beside_goes ho hwired hstep hbeside
    rw [hframes] at hleads
    exact ⟨step, side, next, hstep, hbeside,
      hleads.helps ho hwired hbeside.pause hside hfault, hgoes⟩
  cases hc : a.control with
  | begin action =>
    cases action with
    | waitClosed =>
      right
      exact hbeside _ .awaiting (by simp only [sessionStep?, hc])
        (Session.beginWaitClosed_beside l.session) (.inr rfl) fun fault h =>
          absurd h (Session.beginWaitClosed_ne_error l.session fault)
    | _ =>
      rw [hc] at hcontrol
      exact hcontrol.elim
  | readLoop device =>
    right
    rw [hc] at hcontrol
    exact hbeside _ .reading (by simp only [sessionStep?, hc])
      (Session.beginRead_beside l.session (l.task a.task).caller device) (.inl ⟨hcontrol, rfl⟩)
      fun fault h => absurd h (Session.beginRead_ne_error l.session _ device fault)
  | signal point signal =>
    right
    rw [hc] at hcontrol
    have hfault : ∀ fault, (l.session.resume (l.task a.task).caller point signal).pause =
        .over (.error fault) → P fault := fun fault hover =>
      fault_of_helps hcontrol hP (fun d other hpoint hsignal =>
        hreply d other (by rw [hc, hpoint, hsignal])) hover
    rcases hcontrol.1 with ⟨hreads, hside⟩ | hside
    · exact hbeside _ .reading (by simp only [sessionStep?, hc])
        (Session.resume_beside l.session _ signal hside) (.inl ⟨hreads, rfl⟩) hfault
    · exact hbeside _ .awaiting (by simp only [sessionStep?, hc])
        (Session.resume_beside l.session _ signal hside) (.inr rfl) hfault
  | turn job turn =>
    rw [hc] at hcontrol
    exact hcontrol.elim
  | give outcome =>
    left
    rw [hc] at hcontrol
    refine ⟨outcome, by simp only [sessionStep?, hc], hcontrol, ?_⟩
    have hend : l.advance a = l.endTask a.task outcome := by
      simp only [advance, hc, hframes]
      rfl
    rw [hend]
    exact endTask_goes ho fun _ => hcontrol

/-- A bystander that goes on remains a bystander. -/
theorem Resumes.helps (ho : l.Orderly P) {n : Nat} (hn : n ≠ 0) {wait : Wait}
    {tell : Tell} (hwait : (l.task n).wait = some wait)
    (h : Resumes l.resultOf wait.awaited tell (l.task n).frames next) :
    next.Helps P (0 < l.readers.size) := by
  have hhelps := ho.helps n hn
  have hawaited := hhelps.awaited wait hwait
  have hpoint : ∀ point rest, (l.task n).frames = .session point :: rest →
      Point.Helps (0 < l.readers.size) point ∧ rest = [] := by
    intro point rest hframes
    rcases hhelps.frames with hnil | ⟨other, hsession, hpoint⟩
    · rw [hnil] at hframes
      cases hframes
    · rw [hsession] at hframes
      cases hframes
      exact ⟨hpoint, rfl⟩
  generalize hf : (l.task n).frames = frames at h hpoint
  generalize ha : wait.awaited = awaited at h hawaited
  cases h with
  | cancelled point rest => exact ⟨⟨(hpoint point rest rfl).1, nofun⟩, (hpoint point rest rfl).2⟩
  | turn point rest _ => exact ⟨⟨(hpoint point rest rfl).1, nofun⟩, (hpoint point rest rfl).2⟩
  | replied point rest reply _ =>
    exact ⟨⟨(hpoint point rest rfl).1, nofun⟩, (hpoint point rest rfl).2⟩
  | nothingYet point rest =>
    obtain ⟨hhelp, hrest⟩ := hpoint point rest rfl
    exact ⟨⟨point, hrest ▸ rfl, hhelp⟩, trivial⟩
  | @closed task _ rest outcome houtcome =>
    obtain ⟨hhelp, hrest⟩ := hpoint .closed rest rfl
    refine ⟨⟨hhelp, fun fault h => ?_⟩, hrest⟩
    cases outcome with
    | ok value => cases h
    | error other =>
      cases h
      rcases houtcome with h | h
      · cases h
      · exact (ho.helps task hawaited).result _ h _ rfl
  | readingEnded point rest inTime =>
    exact ⟨⟨(hpoint point rest rfl).1, nofun⟩, (hpoint point rest rfl).2⟩
  | joined point rest _ => exact hawaited.elim
  | gives rest outcome hnot =>
    rcases hhelps.frames with hnil | ⟨other, hsession, _⟩
    · rw [hnil] at hf
      cases hf
    · rw [hsession] at hf
      cases hf
      exact absurd rfl (hnot other)
  | abandons rest fault =>
    rcases hhelps.frames with hnil | ⟨other, hsession, _⟩
    · rw [hnil] at hf
      cases hf
    · rw [hsession] at hf
      cases hf
  | nothingLeft rest hnot =>
    rcases hhelps.frames with hnil | ⟨other, hsession, _⟩
    · exact ⟨Outcome.within_ok _, hf ▸ hnil⟩
    · rw [hsession] at hf
      exact absurd hf.symm (hnot other [])

/-- A bystander that starts is one. -/
theorem State.start_goes (ho : l.Orderly P) (hP : P .cancelled) {n : Nat} (hn : n ≠ 0) :
    ∃ next, next.Helps P (0 < l.readers.size) ∧ l.Goes P n next (l.runReady (.start n)) := by
  unfold runReady
  dsimp only
  split
  · have hmarked : l.Tended P (l.modifyTask n fun t => { t with mustCancel := false }) :=
      modifyTask_tended rfl rfl (fun h => absurd h hn) fun h => absurd h hn
    refine ⟨.runs (.give (.error .cancelled)) [], ⟨fun fault h => ?_, rfl⟩,
      (goOn_goes _ n _ []).tend hmarked⟩
    cases h
    exact hP
  · exact ⟨.runs (l.task n).first [], ⟨(ho.helps n hn).first, rfl⟩, goOn_goes l n _ []⟩

end

end SerialConsole.Loop
