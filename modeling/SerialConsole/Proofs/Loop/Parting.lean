import SerialConsole.Proofs.Loop.Working

set_option autoImplicit false

/-!
# An errand disconnects

From the disconnect to the end of the errand. The device is closed on every way through a disconnect
but those on which it failed with no ordinary fault.
-/
namespace SerialConsole.Loop.Errand

open SerialConsole.Session (Event Calm Point Signal)

variable {work : List Action} {ring : Log.Ring} {base : List Log.Listener} {h more : List Event}
  {l : State} {s t : Session} {readers : Array Nat} {d : Handle} {ended : List Handle}
  {kept outcome : Outcome} {v : Value} {point : Point} {signal : Signal} {control : Control}
  {frames : List Frame} {step : Session.Step}

/-- What the main task does adds nothing to what was received. -/
theorem Stands.received_deeds (hs : Stands work ring base h l (.runs control frames))
    (hstep : l.sessionStep? ⟨0, control, frames⟩ = some step) :
    received (h ++ l.deeds ⟨0, control, frames⟩) = received h := by
  have hnone : Session.payloads .received (l.deeds ⟨0, control, frames⟩) = [] := by
    rw [State.received_payload hstep]
    cases hp : l.payload? ⟨0, control, frames⟩ with
    | none => rfl
    | some p =>
      obtain ⟨direction, data⟩ := p
      cases direction with
      | sent => rfl
      | received => exact absurd hp (hs.place.payload data)
  rw [received, Session.payloads_append, hnone, List.append_nil, received]

/-- A session that a disconnect leaves as it has made it. -/
structure Bare (s t : Session) : Prop where
  reader : t.reader = none
  stopped : t.stopReading = true
  listeners : t.log.listeners = s.log.listeners

theorem Parting.bare (hs : Parting base s readers h d ended) : Bare s s :=
  ⟨hs.reader, hs.stopped, rfl⟩

theorem Bare.setLock (ht : Bare s t) (name : LockName) (lock : Lock) :
    Bare s (t.setLock name lock) := by
  cases name <;> exact ⟨ht.reader, ht.stopped, ht.listeners⟩

theorem Bare.phase (ht : Bare s t) (phase : Phase) : Bare s { t with phase } :=
  ⟨ht.reader, ht.stopped, ht.listeners⟩

theorem Parting.goes (hs : Parting base s readers h d ended) (ht : Bare s t)
    (hopened : Session.opened more = []) :
    Parting base t readers (h ++ more) d (ended ++ Session.closed more) := by
  obtain ⟨e, he, hparting⟩ := hs.parted
  refine ⟨ht.reader, hs.wired, ht.stopped, ⟨e, List.mem_append_left more he, hparting⟩, ?_, ?_,
    ht.listeners.symm ▸ hs.listeners⟩
  · rw [Session.opened_append, hs.opened, hopened]
    rfl
  · rw [Session.closed_append, hs.closed]

/-- A disconnect is over. -/
theorem Parting.over (hs : Parting base s readers h d ended) (hclosed : Calm h → ended = [d]) :
    Parted base s readers h := by
  refine ⟨hs.reader, hs.told, .inr hs.stopped, ?_, fun hcalm => ?_, hs.listeners⟩
  · rw [hs.opened]
    exact Nat.le_refl 1
  · rw [hs.opened, hs.closed, hclosed hcalm]

/-- A task that disconnects and is told something. -/
abbrev departing (kept : Outcome) (v : Value) (point : Point) (signal : Signal) : Active :=
  ⟨0, .signal point signal, [.leaving kept, .inOrder [] [v]]⟩

structure Departs (work : List Action) (ring : Log.Ring) (base : List Log.Listener)
    (h : List Event) (l : State) (d : Handle) (ended : List Handle) (kept : Outcome) (v : Value)
    (point : Point) (signal : Signal) : Prop where
  stands : Stands work ring base h l
    (.runs (.signal point signal) [.leaving kept, .inOrder [] [v]])
  parting : Parting base l.session l.readers h d ended
  keeps : Lone work base → Keeps (received h) kept
  answer : ∀ me, (Control.answer? me (.signal point signal)).toList.filterMap Event.opened? = []

/-- The disconnect goes on: it waits, or its wait is over already. -/
theorem Departs.absorb (hd : Departs work ring base h l d ended kept v point signal)
    (hstep : l.sessionStep? (departing kept v point signal) = some step)
    (heffects : ∀ e ∈ step.effects, e.isMild = true ∨
      ∃ connection, e = .cancelReader connection ∧ l.readers.getD connection 0 ≠ 0)
    (hreader : ∀ connection, step.pause.reader? = some connection → connection = 0)
    (hbare : Bare l.session step.session)
    (hleads : ∀ next, Leads l [.leaving kept, .inOrder [] [v]] step.pause next →
      Parting base step.session l.readers
        (h ++ l.deeds (departing kept v point signal)) d
        (ended ++ (step.pause.events (l.task 0).caller).filterMap Event.closed?) →
      (Lone work base → Keeps (received
        (h ++ l.deeds (departing kept v point signal))) kept) →
      Place work base step.session l.readers
        (h ++ l.deeds (departing kept v point signal)) next) :
    Advances work ring base h l (departing kept v point signal) := by
  have hparting := hd.parting.goes hbare ((State.opened_deeds hstep).trans (hd.answer _))
  rw [State.closed_deeds hstep] at hparting
  refine hd.stands.absorb hstep heffects (fun connection hn => ?_) fun next hnext =>
    hleads next hnext hparting ?_
  · rw [hreader connection hn]
    exact hd.parting.wired
  · rw [hd.stands.received_deeds hstep]
    exact hd.keeps

/-- The disconnect is over, with whatever result. -/
theorem Departs.over {effects : List Effect} {result : Except Fault Session.Result}
    (hd : Departs work ring base h l d ended kept v point signal)
    (hstep : l.sessionStep? (departing kept v point signal) =
      some ⟨t, effects, .over result⟩)
    (hmild : ∀ e ∈ effects, e.isMild = true) (hbare : Bare l.session t)
    (hclosed : Calm (h ++ l.deeds (departing kept v point signal)) →
      ended = [d]) :
    Advances work ring base h l (departing kept v point signal) := by
  refine hd.absorb hstep (fun e he => .inl (hmild e he)) nofun hbare
    fun next hleads hparting hkeeps => ?_
  cases hleads with
  | «over» result =>
    exact .unwinds (hparting.over fun hcalm => (List.append_nil ended).trans (hclosed hcalm))
      (.left v hkeeps)

/-- The device is about to be closed. -/
theorem Departs.closes {effects : List Effect}
    (hd : Departs work ring base h l d [] kept v point signal)
    (hstep : l.sessionStep? (departing kept v point signal) =
      some (Session.closeLocked (some d) effects t))
    (hmild : ∀ e ∈ effects, e.isMild = true) (hbare : Bare l.session t) :
    Advances work ring base h l (departing kept v point signal) := by
  refine hd.absorb hstep (fun e he => .inl (hmild e he)) nofun hbare
    fun next hleads hparting hkeeps => ?_
  cases hleads with
  | answered point _ => exact .parts v hparting (.closing _) hkeeps
  | asks point _ hdevice => exact .awaitsParting v hparting (.closing hdevice) hkeeps

/-- The disconnect waits for the writer lock and then closes the device. -/
theorem Departs.closes_next {effects : List Effect} {me : Caller}
    (hd : Departs work ring base h l d [] kept v point signal)
    (hstep : l.sessionStep? (departing kept v point signal) =
      some (t.closeNext me effects (some d)))
    (hmild : ∀ e ∈ effects, e.isMild = true) (hbare : Bare l.session t) :
    Advances work ring base h l (departing kept v point signal) := by
  by_cases hfree : t.isFree .writer = true
  · rw [Session.closeNext, if_pos hfree] at hstep
    exact hd.closes hstep hmild (hbare.setLock .writer _)
  · rw [Session.closeNext, if_neg hfree] at hstep
    refine hd.absorb hstep (fun e he => .inl (hmild e he)) (fun _ hp => by cases hp)
      (hbare.setLock .writer _)
      fun next hleads hparting hkeeps => ?_
    cases hleads with
    | awaitsTurn name point => exact .awaitsParting v hparting .closeTurn hkeeps

theorem mild_warning (text : String) : ∀ e ∈ [Session.say .warning text], e.isMild = true := by
  intro e he
  rw [List.mem_singleton.1 he]
  rfl

/-- The device was told to end a pending read. -/
theorem Departs.cancels {reply : Reply}
    (hd : Departs work ring base h l d [] kept v (.cancelling (some d) (some 0)) (.reply reply)) :
    Advances work ring base h l
      (departing kept v (.cancelling (some d) (some 0)) (.reply reply)) := by
  have hwaits : ∀ effects : List Effect, (∀ e ∈ effects, e.isMild = true) →
      l.sessionStep? (departing kept v (.cancelling (some d) (some 0)) (.reply reply)) =
          some ⟨l.session, effects, .awaitEndOfReading 0 (.endOfReading (some d) 0)⟩ →
      Advances work ring base h l
        (departing kept v (.cancelling (some d) (some 0)) (.reply reply)) := by
    intro effects hmild hstep
    refine hd.absorb hstep (fun e he => .inl (hmild e he)) (fun _ hn => (Option.some.inj hn).symm)
      hd.parting.bare fun next hleads hparting hkeeps => ?_
    cases hleads with
    | awaitsEnd connection point => exact .awaitsParting v hparting (.endOfReading _) hkeeps
  cases reply with
  | failed fault =>
    by_cases hordinary : fault.isOrdinary = true
    · refine hwaits [Session.say .warning ("Cancelling read on " ++ Session.nameOf (some d) ++
        " failed: " ++ fault.message)] (mild_warning _) ?_
      simp only [State.sessionStep?, Session.resume, Session.onReply, hordinary, if_true]
      rfl
    · have hstep : l.sessionStep? ⟨0, .signal (.cancelling (some d) (some 0))
          (.reply (.failed fault)), [.leaving kept, .inOrder [] [v]]⟩ =
            some (l.session.breakOff [] fault) := by
        simp only [State.sessionStep?, Session.resume, Session.onReply, hordinary]
        rfl
      refine hd.over hstep (Session.mild_wakeFirst _ _) ((hd.parting.bare.phase _).setLock _ _)
        fun hcalm => absurd (hcalm (l.task 0).caller (.cancelRead d) fault ?_) hordinary
      rw [State.deeds_eq hstep]
      exact List.mem_append_right h (List.mem_append_left _ (List.mem_append_left _
        List.mem_cons_self))
  | _ => exact hwaits [] Session.mild_nil rfl

/-- The read loop has ended, or the disconnect has waited long enough. -/
theorem Departs.stops_reading {inTime : Bool}
    (hd : Departs work ring base h l d [] kept v (.endOfReading (some d) 0)
      (.readingEnded inTime)) :
    Advances work ring base h l
      (departing kept v (.endOfReading (some d) 0) (.readingEnded inTime)) := by
  cases inTime with
  | true => exact hd.closes_next rfl Session.mild_nil hd.parting.bare
  | false =>
    have hstep : l.sessionStep? (departing kept v (.endOfReading (some d) 0) (.readingEnded false)) =
          some ⟨l.session, [.cancelReader 0], .joinReader 0 (.cancelledReading (some d))⟩ := rfl
    refine hd.absorb hstep (fun e he => .inr ⟨0, List.mem_singleton.1 he, hd.parting.wired⟩)
      (fun _ hn => (Option.some.inj hn).symm) hd.parting.bare fun next hleads hparting hkeeps => ?_
    cases hleads with
    | @joined _ _ outcome houtcome =>
      refine .parts v hparting (.cancelledReading _ fun fault hfault => ?_) hkeeps
      refine Pardoned.mono ((hd.stands.orderly.helps _ hd.parting.wired).result outcome houtcome
        fault ?_)
      cases outcome with
      | ok value => cases hfault
      | error other =>
        cases hfault
        rfl
    | joins connection point =>
      exact .awaitsParting v hparting (.cancelledReading hd.parting.wired) hkeeps

/-- The read loop that was cancelled has ended. -/
theorem Departs.joins {result : Except Fault Session.Result}
    (hd : Departs work ring base h l d [] kept v (.cancelledReading (some d)) (.joined result))
    (hresult : ∀ fault, result = .error fault → Pardoned h fault) :
    Advances work ring base h l
      (departing kept v (.cancelledReading (some d)) (.joined result)) := by
  cases result with
  | ok value => exact hd.closes_next rfl Session.mild_nil hd.parting.bare
  | error fault =>
    have hstep : l.sessionStep?
        (departing kept v (.cancelledReading (some d)) (.joined (.error fault))) =
          some (l.session.onJoined (l.task 0).caller (some d) (.error fault)) := rfl
    unfold Session.onJoined at hstep
    dsimp only at hstep
    by_cases hcancelled : fault.kind = .cancelled
    · rw [if_pos hcancelled] at hstep
      exact hd.closes_next hstep Session.mild_nil hd.parting.bare
    · rw [if_neg hcancelled] at hstep
      by_cases hordinary : fault.isOrdinary = true
      · rw [if_pos hordinary] at hstep
        exact hd.closes_next hstep (mild_warning _) hd.parting.bare
      · rw [if_neg hordinary] at hstep
        refine hd.over hstep (Session.mild_wakeFirst _ _) ((hd.parting.bare.phase _).setLock _ _)
          fun hcalm => ?_
        rcases hresult fault rfl hcalm.left with h | h
        · exact absurd h hordinary
        · exact absurd h hcancelled

/-- The device was closed, or that has failed. -/
theorem Departs.closed {reply : Reply}
    (hd : Departs work ring base h l d [d] kept v (.closing (some d)) (.reply reply)) :
    Advances work ring base h l
      (departing kept v (.closing (some d)) (.reply reply)) := by
  have hdisconnected : ∀ effects : List Effect, (∀ e ∈ effects, e.isMild = true) →
      l.sessionStep? (departing kept v (.closing (some d)) (.reply reply)) =
        some (l.session.disconnected effects (some d)) →
      Advances work ring base h l
        (departing kept v (.closing (some d)) (.reply reply)) := by
    intro effects hmild hstep
    refine hd.over hstep (fun e he => ?_)
      (((hd.parting.bare.setLock .writer _).phase _).setLock .lifecycle _) fun _ => rfl
    rcases List.mem_append.1 he with he | he
    · rcases List.mem_append.1 he with he | he
      · rcases List.mem_append.1 he with he | he
        · exact hmild e he
        · exact Session.mild_wakeFirst _ _ e he
      · rw [List.mem_singleton.1 he]
        rfl
    · exact Session.mild_wakeFirst _ _ e he
  cases reply with
  | failed fault =>
    by_cases hordinary : fault.isOrdinary = true
    · refine hdisconnected [Session.say .warning ("Closing " ++ Session.nameOf (some d) ++
        " failed: " ++ fault.message)] (mild_warning _) ?_
      simp only [State.sessionStep?, Session.resume, Session.onReply, hordinary, if_true]
    · have hstep : l.sessionStep? (departing kept v (.closing (some d)) (.reply (.failed fault))) =
            some ((l.session.release .writer).breakOff (l.session.wakeFirst .writer) fault) := by
        simp only [State.sessionStep?, Session.resume, Session.onReply, hordinary]
        rfl
      refine hd.over hstep (fun e he => ?_)
        (((hd.parting.bare.setLock .writer _).phase _).setLock .lifecycle _) fun _ => rfl
      rcases List.mem_append.1 he with he | he
      · exact Session.mild_wakeFirst _ _ e he
      · exact Session.mild_wakeFirst _ _ e he
  | _ => exact hdisconnected [] Session.mild_nil rfl

/-- A task that disconnects takes a step. -/
theorem Stands.parts
    (hs : Stands work ring base h l
      (.runs (.signal point signal) [.leaving kept, .inOrder [] [v]]))
    (hparting : Parting base l.session l.readers h d ended) (hparts : Parts h d ended point signal)
    (hkeeps : Lone work base → Keeps (received h) kept) :
    Advances work ring base h l (departing kept v point signal) := by
  cases hparts with
  | cancelling reply => exact Departs.cancels ⟨hs, hparting, hkeeps, fun _ => rfl⟩
  | endOfReading inTime => exact Departs.stops_reading ⟨hs, hparting, hkeeps, fun _ => rfl⟩
  | cancelledReading result hresult =>
    exact Departs.joins ⟨hs, hparting, hkeeps, fun _ => rfl⟩ hresult
  | closeTurn =>
    exact Departs.closes ⟨hs, hparting, hkeeps, fun _ => rfl⟩ rfl Session.mild_nil
      (hparting.bare.setLock .writer _)
  | closing reply => exact Departs.closed ⟨hs, hparting, hkeeps, fun _ => rfl⟩

/-- The disconnect begins. -/
theorem Stands.leaves
    (hs : Stands work ring base h l (.runs (.begin .disconnect) [.leaving kept, .inOrder [] [v]]))
    (hjoined : Joined base l.session l.readers h d false)
    (hkeeps : Lone work base → Keeps (received h) kept) :
    Advances work ring base h l ⟨0, .begin .disconnect, [.leaving kept, .inOrder [] [v]]⟩ := by
  have hfree : l.session.isFree .lifecycle = true := by
    simp [Session.isFree, Session.lock, hjoined.lock]
  have hphase : (l.session.take .lifecycle).phase ≠ .disconnected := by
    rw [show (l.session.take .lifecycle).phase = .connected from hjoined.phase]
    decide
  have hstep : l.sessionStep? ⟨0, .begin .disconnect, [.leaving kept, .inOrder [] [v]]⟩ =
      some (Session.disconnectLocked (l.task 0).caller (l.session.take .lifecycle)) := by
    simp only [State.sessionStep?, Session.beginDisconnect, Session.enter, hfree, if_true]
  unfold Session.disconnectLocked at hstep
  rw [if_neg hphase] at hstep
  dsimp only at hstep
  rw [show (l.session.take .lifecycle).device = some d from hjoined.device,
    show (l.session.take .lifecycle).reader = some 0 from hjoined.reader] at hstep
  dsimp only at hstep
  have hdeeds := State.deeds_eq hstep
  refine hs.absorb hstep (fun _ he => by cases he) (fun _ hp => by cases hp) fun next hleads => ?_
  have hparting : Parting base { l.session.take .lifecycle with
      phase := .closing, device := none, reader := none, stopReading := true } l.readers
      (h ++ l.deeds ⟨0, .begin .disconnect, [.leaving kept, .inOrder [] [v]]⟩) d [] := by
    rw [hdeeds]
    refine ⟨rfl, hjoined.wired, rfl, ⟨.asked (l.task 0).caller (.cancelRead d),
      List.mem_append_right h List.mem_cons_self, rfl⟩, ?_, ?_,
      List.append_nil base ▸ hjoined.listeners⟩
    · rw [Session.opened_append, hjoined.opened]
      rfl
    · rw [Session.closed_append, hjoined.closed]
      rfl
  have hkept : Lone work base → Keeps (received
      (h ++ l.deeds ⟨0, .begin .disconnect, [.leaving kept, .inOrder [] [v]]⟩)) kept := by
    rw [hs.received_deeds hstep]
    exact hkeeps
  cases hleads with
  | answered point _ => exact .parts v hparting (.cancelling _) hkept
  | asks point _ hdevice => exact .awaitsParting v hparting (.cancelling hdevice) hkept

/-- The outcome is handed back. -/
theorem Stands.unwinds (hs : Stands work ring base h l (.runs (.give outcome) frames))
    (hparted : Parted base l.session l.readers h)
    (hunwinds : Unwinds work base (received h) outcome frames) :
    Advances work ring base h l ⟨0, .give outcome, frames⟩ := by
  have hgives : ∀ outcome' frames', Unwinds work base (received h) outcome' frames' →
      l.advance ⟨0, .give outcome, frames⟩ = l.goOn 0 (.give outcome') frames' →
      Advances work ring base h l ⟨0, .give outcome, frames⟩ := by
    intro outcome' frames' hunwinds hadvance
    refine hs.advance rfl ?_ hs.orderly hs.main.2 rfl rfl (.unwinds hparted hunwinds)
    rw [hadvance]
    exact State.goOn_goes l 0 _ _
  cases hunwinds with
  | @left outcome kept v hkeeps =>
    cases outcome with
    | ok value => exact hgives kept _ (.kept v hkeeps) rfl
    | error fault => exact hgives (.error fault) _ (.failed fault _ _) rfl
  | kept v hkeeps =>
    cases outcome with
    | ok value =>
      refine hgives (.ok (.many [v, value])) [] (.ends fun hlone => ?_) rfl
      rintro _ ⟨⟩
      exact ⟨v, by rw [hkeeps hlone value rfl]⟩
    | error fault => exact hgives (.error fault) [] (.ends fun _ => nofun) rfl
  | failed fault rest values => exact hgives (.error fault) [] (.ends fun _ => nofun) rfl
  | ends hends =>
    exact hs.advance rfl (State.endTask_goes hs.orderly fun h => absurd rfl h) hs.orderly hs.main.2
      rfl rfl (.over hparted hends)

end SerialConsole.Loop.Errand
