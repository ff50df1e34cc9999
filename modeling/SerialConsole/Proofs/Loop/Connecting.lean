import SerialConsole.Proofs.Loop.Errand

set_option autoImplicit false

/-!
# An errand connects

From the beginning of an errand to the open device, or to a failure before it.
-/
namespace SerialConsole.Loop.Errand

open SerialConsole.Session (Event)

variable {work : List Action} {ring : Log.Ring} {base : List Log.Listener} {h more : List Event}
  {l : State} {s t : Session} {readers : Array Nat} {connecting : Bool}

theorem Apart.parted (hs : Apart base s readers h connecting) (hmore : State.Quiet more)
    (hreader : t.reader = s.reader) (hstop : t.stopReading = s.stopReading)
    (hlisteners : t.log.listeners = s.log.listeners) : Parted base t readers (h ++ more) := by
  have hunparted : ∀ e ∈ h ++ more, e.isParting = false := fun e he =>
    (List.mem_append.1 he).elim (hs.unparted e) (hmore.unparted e)
  refine ⟨hreader.trans hs.reader, ⟨fun h => ?_, fun ⟨e, he, hparting⟩ => ?_⟩, .inl hs.readers, ?_,
    fun _ => ?_, hlisteners.symm ▸ hs.listeners⟩
  · exact absurd ((hstop.trans hs.going).symm.trans h) Bool.false_ne_true
  · exact absurd ((hunparted e he).symm.trans hparting) Bool.false_ne_true
  · rw [Session.opened_append, hs.opened, hmore.opened]
    exact Nat.zero_le 1
  · rw [Session.opened_append, hs.opened, hmore.opened, Session.closed_append, hs.closed,
      hmore.closed]

theorem Apart.reaches (hs : Apart base s readers h connecting) (hmore : State.Quiet more)
    (hphase : t.phase = .connecting) (hlock : t.lifecycleLock = { held := true })
    (hreader : t.reader = s.reader) (hconnections : t.connections = s.connections)
    (hstop : t.stopReading = s.stopReading) (hlisteners : t.log.listeners = s.log.listeners) :
    Apart base t readers (h ++ more) true := by
  refine ⟨hphase, hlock, hreader.trans hs.reader, hconnections.trans hs.connections, hs.readers,
    hstop.trans hs.going, fun e he => ?_, ?_, ?_, hlisteners.symm ▸ hs.listeners⟩
  · exact (List.mem_append.1 he).elim (hs.unparted e) (hmore.unparted e)
  · rw [Session.opened_append, hs.opened, hmore.opened]
    rfl
  · rw [Session.closed_append, hs.closed, hmore.closed]
    rfl

theorem Stands.planned {line : LineSettings} {hint : Option String}
    (hs : Stands work ring base h l
      (.runs (.begin (.inOrder [.connect line hint, .scope work])) []))
    (hapart : Apart base l.session l.readers h false) :
    Advances work ring base h l ⟨0, .begin (.inOrder [.connect line hint, .scope work]), []⟩ :=
  hs.advance rfl (State.goOn_goes l 0 (.begin (.connect line hint)) [.inOrder [.scope work] []])
    hs.orderly hs.main.2 rfl rfl (.connects line hint hapart)

theorem Stands.connects {line : LineSettings} {hint : Option String}
    (hs : Stands work ring base h l (.runs (.begin (.connect line hint)) [.inOrder [.scope work] []]))
    (hapart : Apart base l.session l.readers h false) :
    Advances work ring base h l ⟨0, .begin (.connect line hint), [.inOrder [.scope work] []]⟩ := by
  have hfree : l.session.isFree .lifecycle = true := by
    simp [Session.isFree, Session.lock, hapart.lock]
  have hphase : (l.session.take .lifecycle).phase = .disconnected := hapart.phase
  have hstep : l.sessionStep? ⟨0, .begin (.connect line hint), [.inOrder [.scope work] []]⟩ =
      some (Session.connectLocked line hint (l.session.take .lifecycle)) := by
    simp only [State.sessionStep?, Session.beginConnect, Session.enter, hfree, if_true]
  unfold Session.connectLocked at hstep
  rw [if_neg (not_not_intro hphase)] at hstep
  cases hcheck : line.check with
  | error fault =>
    rw [hcheck] at hstep
    refine hs.absorb hstep (fun e he => .inl ?_) (fun _ hp => by cases hp) fun next hleads => ?_
    · exact Session.mild_wakeFirst _ _ e he
    · cases hleads with
      | «over» result =>
        exact .unwinds (hapart.parted (State.quiet_deeds hstep rfl (fun _ _ hp => by cases hp)
          (fun _ _ hp => by cases hp)) rfl rfl rfl)
          (.failed fault _ _)
  | ok value =>
    rw [hcheck] at hstep
    refine hs.absorb hstep (fun _ he => by cases he) (fun _ hp => by cases hp) fun next hleads => ?_
    cases hleads with
    | answered point hfits =>
      exact .requested line (hapart.reaches (State.quiet_deeds hstep rfl (fun _ _ hp => by cases hp)
          (fun _ _ hp => by cases hp)) rfl (by
          simp only [Session.take, Session.setLock, Session.lock, hapart.lock]) rfl rfl rfl rfl)
        hfits
    | asks point hnot _ => exact absurd rfl (hnot hint)

/-- The device was requested or opened in vain. -/
theorem Stands.refused {control : Control} {fault : Fault}
    (hs : Stands work ring base h l (.runs control [.inOrder [.scope work] []]))
    (hapart : Apart base l.session l.readers h true)
    (hstep : l.sessionStep? ⟨0, control, [.inOrder [.scope work] []]⟩ =
      some (l.session.connectFailed fault))
    (hanswer : (control.answer? (l.task 0).caller).toList.filterMap Event.opened? = []) :
    Advances work ring base h l ⟨0, control, [.inOrder [.scope work] []]⟩ := by
  refine hs.absorb hstep (fun e he => .inl ?_) (fun _ hp => by cases hp) fun next hleads => ?_
  · exact Session.mild_wakeFirst _ _ e he
  · cases hleads with
    | «over» result =>
      exact .unwinds (hapart.parted (State.quiet_deeds hstep hanswer nofun nofun) rfl rfl rfl)
        (.failed fault _ _)

theorem Stands.requested {line : LineSettings} {hint : Option String} {reply : Reply}
    (hs : Stands work ring base h l
      (.runs (.signal (.requesting line) (.reply reply)) [.inOrder [.scope work] []]))
    (hapart : Apart base l.session l.readers h true) (hfits : Fits (.request hint) reply) :
    Advances work ring base h l
      ⟨0, .signal (.requesting line) (.reply reply), [.inOrder [.scope work] []]⟩ := by
  cases reply with
  | device d =>
    have hstep : l.sessionStep? ⟨0, .signal (.requesting line) (.reply (.device d)),
        [.inOrder [.scope work] []]⟩ =
          some ⟨l.session, [], .askDevice (.openWith d line) (.opening d line)⟩ := rfl
    have hreaches := hapart.reaches (State.quiet_deeds hstep rfl (fun _ _ hp => by cases hp)
          (fun _ _ hp => by cases hp)) hapart.phase
      hapart.lock rfl rfl rfl rfl
    refine hs.absorb hstep (fun _ he => by cases he) (fun _ hp => by cases hp) fun next hleads => ?_
    cases hleads with
    | answered point _ => exact .opens d line _ hreaches
    | asks point _ hdevice => exact .awaitsOpening d line hreaches hdevice
  | failed fault => exact hs.refused hapart rfl rfl
  | done => exact hfits.elim
  | chunk data => exact hfits.elim

/-- A state in which the next task is known as a read loop. -/
def knowing (l : State) (s : Session) : State :=
  { l with session := s, active := none, readers := l.readers.push l.tasks.size }

/-- The read loop is known as a bystander before it is started. -/
theorem spawns_reader {P : Fault → Prop} (ho : l.Orderly P) (s : Session) (connection : Nat)
    (d : Handle) : (knowing l s).Orderly P ∧
      (knowing l s).Tended P ((knowing l s).spawn (.reader connection) (.readLoop d)).1 := by
  have hreads : (Control.readLoop d).Helps P (0 < (knowing l s).readers.size) := by
    simp [Control.Helps, knowing]
  refine ⟨⟨ho.started, ho.uncancelled, ho.unwatched, fun n hn => ?_, ho.tells⟩,
    State.spawn_tended hreads⟩
  exact (ho.helps n hn).mono (fun _ => id) fun _ => by simp [knowing]

/-- The device has been opened. -/
theorem Apart.joins {s : Session} {readers : Array Nat} {more : List Event} {d : Handle} {task : Nat}
    (hapart : Apart base s readers h true) (line : LineSettings) (htask : task ≠ 0)
    (hunparted : ∀ e ∈ more, e.isParting = false) (hopened : Session.opened more = [d])
    (hclosed : Session.closed more = []) :
    Joined base ((s.connectedTo d line).release .lifecycle) (readers.push task) (h ++ more) d
      false := by
  refine ⟨rfl, rfl, ?_, congrArg some hapart.connections, ?_, rfl, fun e he => ?_, ?_, ?_,
    (List.append_nil base).symm ▸ hapart.listeners⟩
  · simp [Session.release, Session.setLock, Session.lock, Session.connectedTo, hapart.lock]
  · rw [hapart.readers]
    exact htask
  · exact (List.mem_append.1 he).elim (hapart.unparted e) (hunparted e)
  · rw [Session.opened_append, hapart.opened, hopened]
    rfl
  · rw [Session.closed_append, hapart.closed, hclosed]
    rfl

/-- The device is open, and its read loop is about to start. -/
theorem Stands.opens {d : Handle} {line : LineSettings} {reply : Reply}
    (hs : Stands work ring base h l
      (.runs (.signal (.opening d line) (.reply reply)) [.inOrder [.scope work] []]))
    (hapart : Apart base l.session l.readers h true) :
    Advances work ring base h l
      ⟨0, .signal (.opening d line) (.reply reply), [.inOrder [.scope work] []]⟩ := by
  by_cases hfailed : ∃ fault, reply = .failed fault
  · obtain ⟨fault, rfl⟩ := hfailed
    exact hs.refused hapart rfl rfl
  · have hstep : l.sessionStep? ⟨0, .signal (.opening d line) (.reply reply),
        [.inOrder [.scope work] []]⟩ =
          some (Session.leave (l.session.connectedTo d line) .lifecycle
            [.startReader l.session.connections d, Session.connectedNote d line]
            (.ok .nothing)) := by
      cases reply with
      | failed fault => exact absurd ⟨fault, rfl⟩ hfailed
      | _ => rfl
    have hopened : (Control.answer? (l.task 0).caller
        (.signal (.opening d line) (.reply reply))).toList.filterMap Event.opened? = [d] := by
      cases reply with
      | failed fault => exact absurd ⟨fault, rfl⟩ hfailed
      | _ => rfl
    have hwake : (l.session.connectedTo d line).wakeFirst .lifecycle = [] := by
      unfold Session.wakeFirst
      rw [show (l.session.connectedTo d line).lock .lifecycle = { held := true } from hapart.lock]
      rfl
    unfold Session.leave at hstep
    rw [hwake, List.append_nil] at hstep
    have ho := hs.orderly
    have hjoined := hapart.joins line (Nat.ne_of_gt ho.started)
      (State.unparted_quiet hstep fun _ _ hp => by cases hp)
      ((State.opened_deeds hstep).trans hopened)
      (State.closed_quiet hstep fun _ _ hp => by cases hp)
    obtain ⟨hknown, hspawn⟩ := spawns_reader ho
      ((l.session.connectedTo d line).release .lifecycle) l.session.connections d
    have hnoted := hspawn.orderly hknown
    unfold Advances
    rw [State.advance_absorb hstep]
    refine ⟨.runs (.give (.ok .nothing)) [.inOrder [.scope work] []],
      .goes (State.goOn_goes _ 0 _ _) ⟨hnoted.started, hnoted.uncancelled, hnoted.unwatched,
        hnoted.helps, hnoted.tells⟩ ?_ (.opened .nothing hjoined) ?_⟩
    · exact (congrArg Gist.result (hspawn.gist 0)).trans hs.main.2
    · obtain ⟨listens, hlisteners⟩ := hs.place.listeners
      exact hs.ledger.absorb hstep hlisteners
        (fun _ data hdata => absurd hdata (hs.place.payload data)) hs.place.told rfl
        Array.append_empty.symm

theorem Stands.opened {d : Handle} {v : Value}
    (hs : Stands work ring base h l (.runs (.give (.ok v)) [.inOrder [.scope work] []]))
    (hjoined : Joined base l.session l.readers h d false) :
    Advances work ring base h l ⟨0, .give (.ok v), [.inOrder [.scope work] []]⟩ :=
  hs.advance rfl (State.goOn_goes l 0 (.begin (.scope work)) [.inOrder [] [v]])
    hs.orderly hs.main.2 rfl rfl (.enters v hjoined)

theorem Stands.enters {d : Handle} {v : Value} (hwork : ∀ action ∈ work, IsWork action)
    (hs : Stands work ring base h l (.runs (.begin (.scope work)) [.inOrder [] [v]]))
    (hjoined : Joined base l.session l.readers h d false) :
    Advances work ring base h l ⟨0, .begin (.scope work), [.inOrder [] [v]]⟩ := by
  cases work with
  | nil =>
    exact hs.advance rfl (State.goOn_goes l 0 (.begin .disconnect)
      [.leaving (.ok (.many [])), .inOrder [] [v]]) hs.orderly hs.main.2 rfl rfl
      (.leaves v hjoined fun ⟨⟨_, hlone⟩, _⟩ => nomatch hlone)
  | cons action rest =>
    obtain ⟨hfirst, hrest⟩ := List.forall_mem_cons.1 hwork
    refine hs.advance rfl (State.goOn_goes l 0 (.begin action)
      (stack [] false rest [] v)) hs.orderly hs.main.2 rfl rfl
      (.works v hjoined (fun _ h => nomatch h) hrest ?_ fun ⟨⟨duration, hlone⟩, _⟩ => ?_)
    · cases action with
      | listen duration => exact ⟨rfl, rfl⟩
      | run script format ending => trivial
      | sendData data format ending => trivial
      | sleep seconds => trivial
      | _ => exact hfirst.elim
    · cases hlone
      exact ⟨rfl, rfl, fun _ => ⟨rfl, .inl ⟨duration, rfl⟩⟩⟩

end SerialConsole.Loop.Errand
