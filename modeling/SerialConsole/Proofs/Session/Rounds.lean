import SerialConsole.Proofs.Session.Protocol

set_option autoImplicit false

/-!
# The device protocol over whole runs

Whatever the order in which calls on a session and its read loops take their steps, the device sees
rounds. The rounds come from the path that the history is of the course; what a connect with refused
settings does needs an invariant of its own, about one task only.
-/
namespace SerialConsole.Session

namespace World

variable {w v next : World} {me : Caller}

/-- A device call of a task is in progress. -/
def Asks (w : World) (c : Caller) (call : DeviceCall) : Prop :=
  ∃ point told, w.tasks c = .rests (.askDevice call point) told

/-! ## One task among others -/

/-- The same status, but perhaps told that a lock is free. -/
def SameButTold (before after : Status) : Prop :=
  after = before ∨ ∃ pause told, before = .rests pause told ∧ after = .rests pause true

theorem SameButTold.trans {a b c : Status} (h : SameButTold a b) (h' : SameButTold b c) :
    SameButTold a c := by
  rcases h with rfl | ⟨pause, told, rfl, rfl⟩
  · exact h'
  · rcases h' with rfl | ⟨pause', told', heq, rfl⟩
    · exact Or.inr ⟨pause, told, rfl, rfl⟩
    · cases heq
      exact Or.inr ⟨pause, told, rfl, rfl⟩

theorem tasks_effect_call (w : World) (e : Effect) (id : Nat) :
    SameButTold (w.tasks (.call id)) ((w.effect e).tasks (.call id)) := by
  cases e with
  | note n | logged entry listeners | cancelReader n => exact Or.inl rfl
  | startReader n d => exact Or.inl (setTask_of_ne _ _ fun heq => nomatch heq)
  | wake c =>
    rw [effect]
    split
    case h_1 pause told hrests =>
      by_cases hc : Caller.call id = c
      · subst hc
        exact Or.inr ⟨pause, told, hrests, setTask_self _ _ _⟩
      · exact Or.inl (setTask_of_ne _ _ hc)
    case h_2 => exact Or.inl rfl

theorem tasks_after_call (w : World) (s : Session) (effects : List Effect) (id : Nat) :
    SameButTold (w.tasks (.call id)) ((w.after s effects).tasks (.call id)) := by
  rw [after]
  have hstart : SameButTold (w.tasks (.call id))
      (({ w with session := s } : World).tasks (.call id)) := Or.inl rfl
  generalize ({ w with session := s } : World) = v at hstart
  induction effects generalizing v with
  | nil => exact hstart
  | cons e rest ih => exact ih (v.effect e) (hstart.trans (tasks_effect_call v e id))

theorem mem_history_after {s : Session} {effects : List Effect} {e : Event}
    (h : e ∈ (w.after s effects).history) : e ∈ w.history ∨ ∃ entry, e = .logged entry := by
  rw [after] at h
  have hstart : e ∈ ({ w with session := s } : World).history →
      e ∈ w.history ∨ ∃ entry, e = .logged entry := Or.inl
  generalize ({ w with session := s } : World) = v at h hstart
  induction effects generalizing v with
  | nil => exact hstart h
  | cons f rest ih =>
    refine ih (v.effect f) h fun hmem => ?_
    cases f with
    | logged entry listeners =>
      rcases List.mem_append.1 hmem with hold | hnew
      · exact hstart hold
      · exact Or.inr ⟨entry, List.mem_singleton.1 hnew⟩
    | wake c =>
      rw [effect] at hmem
      split at hmem <;> exact hstart hmem
    | note n | startReader n d | cancelReader n => exact hstart hmem

theorem mem_history_absorb {step : Step} {e : Event} (h : e ∈ (w.absorb me step).history) :
    e ∈ w.history ∨ (∃ entry, e = .logged entry) ∨ e ∈ step.pause.events me := by
  rcases List.mem_append.1 h with hafter | hpause
  · exact (mem_history_after hafter).imp_right Or.inl
  · exact Or.inr (Or.inr hpause)

/-! ## Refused settings -/

/-- A call that has not begun has asked nothing of a device, and a connect with refused settings
asks nothing: it waits for its turn or is over. -/
structure Quiet (w : World) (id : Nat) : Prop where
  absent : w.tasks (.call id) = .absent → ∀ call, .asked (.call id) call ∉ w.history
  refused : ∀ line hint fault, .begun (.call id) (.connect line hint) ∈ w.history →
    line.check = .error fault → (∀ call, .asked (.call id) call ∉ w.history) ∧
      ((∃ told, w.tasks (.call id) =
          .rests (.awaitTurn .lifecycle (.connectTurn line hint)) told) ∨
        ∃ result told, w.tasks (.call id) = .rests (.over result) told)

namespace Quiet

variable {id : Nat}

theorem happen (h : w.Quiet id) {events : List Event}
    (hbegun : ∀ operation, .begun (.call id) operation ∉ events)
    (hasked : ∀ call, .asked (.call id) call ∉ events) : (w.happen events).Quiet id := by
  have hmem : ∀ call, .asked (.call id) call ∉ w.history →
      .asked (.call id) call ∉ (w.happen events).history := by
    intro call hnot hin
    rcases List.mem_append.1 hin with hold | hnew
    · exact hnot hold
    · exact hasked call hnew
  refine ⟨fun habsent call => hmem call (h.absent habsent call), ?_⟩
  intro line hint fault hin hcheck
  rcases List.mem_append.1 hin with hold | hnew
  · obtain ⟨hnone, htask⟩ := h.refused line hint fault hold hcheck
    exact ⟨fun call => hmem call (hnone call), htask⟩
  · exact absurd hnew (hbegun _)

theorem mem_absorb {step : Step} {e : Event} (h : e ∈ (w.absorb me step).history)
    (hlogged : ∀ entry, e ≠ .logged entry) (hpause : e ∉ step.pause.events me) :
    e ∈ w.history := by
  rcases mem_history_absorb h with hold | ⟨entry, heq⟩ | hnew
  · exact hold
  · exact absurd heq (hlogged entry)
  · exact absurd hnew hpause

theorem begun_not_mem_events {c d : Caller} {operation : Operation} (pause : Pause) :
    .begun c operation ∉ pause.events d := by
  cases pause <;> simp [Pause.events]

theorem asked_not_mem_events {c : Caller} {call : DeviceCall} (pause : Pause) (hc : c ≠ me) :
    .asked c call ∉ pause.events me := by
  cases pause <;> simp [Pause.events, hc]

theorem absorb (h : w.Quiet id) (hme : .call id ≠ me) (step : Step) :
    (w.absorb me step).Quiet id := by
  have hsame : SameButTold (w.tasks (.call id)) ((w.absorb me step).tasks (.call id)) := by
    rw [World.absorb, rest]
    change SameButTold _ (((w.after step.session step.effects).setTask me _).tasks (.call id))
    rw [setTask_of_ne _ _ hme]
    exact tasks_after_call w _ _ id
  have hasked : ∀ call, .asked (.call id) call ∉ w.history →
      .asked (.call id) call ∉ (w.absorb me step).history := by
    intro call hnot hin
    exact hnot (mem_absorb hin (by simp) (asked_not_mem_events _ hme))
  refine ⟨fun habsent call => hasked call (h.absent ?_ call), ?_⟩
  · rcases hsame with heq | ⟨pause, told, _, hafter⟩
    · rw [← heq, habsent]
    · rw [hafter] at habsent
      cases habsent
  · intro line hint fault hin hcheck
    have hold := mem_absorb hin (by simp) (begun_not_mem_events _)
    obtain ⟨hnone, htask⟩ := h.refused line hint fault hold hcheck
    refine ⟨fun call => hasked call (hnone call), ?_⟩
    rcases hsame with heq | ⟨pause, told, hbefore, hafter⟩
    · rw [heq]
      exact htask
    · rw [hafter]
      rcases htask with ⟨told', heq⟩ | ⟨result, told', heq⟩
      · rw [hbefore] at heq
        cases heq
        exact Or.inl ⟨true, rfl⟩
      · rw [hbefore] at heq
        cases heq
        exact Or.inr ⟨result, true, rfl⟩

theorem tasks_absorb_me (w : World) (me : Caller) (step : Step) :
    (w.absorb me step).tasks me = .rests step.pause false :=
  setTask_self _ _ _

/-- A step of the task itself, which ends a connect with refused settings whose turn has come. -/
theorem goOn (h : w.Quiet id) {step : Step} {pause : Pause} {told : Bool}
    (htask : w.tasks (.call id) = .rests pause told) (hover : ∀ result, pause ≠ .over result)
    (hstep : ∀ line hint fault, line.check = .error fault →
      pause = .awaitTurn .lifecycle (.connectTurn line hint) →
        ∃ result, step.pause = .over result) :
    (w.absorb (.call id) step).Quiet id := by
  have hafter := tasks_absorb_me w (.call id) step
  refine ⟨fun habsent => ?_, ?_⟩
  · rw [hafter] at habsent
    cases habsent
  · intro line hint fault hin hcheck
    have hold := mem_absorb hin (by simp) (begun_not_mem_events _)
    obtain ⟨hnone, hrests⟩ := h.refused line hint fault hold hcheck
    rw [htask] at hrests
    rcases hrests with ⟨told', heq⟩ | ⟨result, told', heq⟩
    · cases heq
      obtain ⟨result, hresult⟩ := hstep line hint fault hcheck rfl
      refine ⟨fun call hmem => hnone call ?_, Or.inr ⟨result, false, by rw [hafter, hresult]⟩⟩
      refine mem_absorb hmem (by simp) ?_
      rw [hresult]
      simp [Pause.events]
    · cases heq
      exact absurd rfl (hover result)

theorem connectLocked_over {line : LineSettings} {fault : Fault}
    (hcheck : line.check = .error fault) (hint : Option String) (s : Session) :
    ∃ result, (connectLocked line hint s).pause = .over result := by
  rw [connectLocked]
  split
  · exact ⟨_, rfl⟩
  · rw [hcheck]
    exact ⟨_, rfl⟩

theorem beginConnect_waits_or_over {line : LineSettings} {fault : Fault}
    (hcheck : line.check = .error fault) (hint : Option String) (s : Session) (me : Caller) :
    (∃ result, (s.beginConnect me line hint).pause = .over result) ∨
      (s.beginConnect me line hint).pause = .awaitTurn .lifecycle (.connectTurn line hint) := by
  rw [beginConnect, enter]
  split
  · exact Or.inl (connectLocked_over hcheck hint _)
  · exact Or.inr rfl

theorem begin_connect (h : w.Quiet id) (habsent : w.tasks (.call id) = .absent)
    (operation : Operation) :
    ((w.happen [.begun (.call id) operation]).absorb (.call id)
      (operation.start w.session (.call id))).Quiet id := by
  have hafter := tasks_absorb_me (w.happen [.begun (.call id) operation]) (.call id)
    (operation.start w.session (.call id))
  refine ⟨fun hnone => ?_, ?_⟩
  · rw [hafter] at hnone
    cases hnone
  · intro line hint fault hin hcheck
    have hold := mem_absorb hin (by simp) (begun_not_mem_events _)
    rcases List.mem_append.1 hold with hbefore | hnew
    · obtain ⟨_, ⟨told, htask⟩ | ⟨result, told, htask⟩⟩ := h.refused line hint fault hbefore hcheck
      · rw [habsent] at htask
        cases htask
      · rw [habsent] at htask
        cases htask
    · cases List.mem_singleton.1 hnew
      have hpause := beginConnect_waits_or_over hcheck hint w.session (.call id)
      refine ⟨fun call hmem => ?_, ?_⟩
      · have hnone : .asked (.call id) call ∉
            (w.session.beginConnect (.call id) line hint).pause.events (.call id) := by
          rcases hpause with ⟨result, heq⟩ | heq
          · simp [heq, Pause.events]
          · simp [heq, Pause.events]
        have hasked := mem_absorb hmem (by simp) hnone
        rcases List.mem_append.1 hasked with hbefore | hsame
        · exact h.absent habsent call hbefore
        · cases List.mem_singleton.1 hsame
      · rw [hafter]
        rcases hpause with ⟨result, heq⟩ | heq
        · exact Or.inr ⟨result, false, by rw [Operation.start, heq]⟩
        · exact Or.inl ⟨false, by rw [Operation.start, heq]⟩

theorem moved (h : w.Quiet id) (hmoved : Moved w next) : next.Quiet id := by
  have htold : ∀ n, (w.toldToEnd n).Quiet id := fun n => ⟨h.absent, h.refused⟩
  have hreader : ∀ n, Caller.call id ≠ .reader n := by simp
  cases hmoved with
  | @begun other operation habsent =>
    by_cases hother : other = id
    · subst hother
      exact h.begin_connect habsent operation
    · have hne : Caller.call id ≠ .call other := fun heq => hother (Caller.call.inj heq).symm
      refine Quiet.absorb (h.happen (fun op hin => ?_) (fun call hin => ?_)) hne _
      · cases List.mem_singleton.1 hin
        exact hne rfl
      · cases List.mem_singleton.1 hin
  | @answered c call point told reply htask hadmits =>
    have hquiet : (w.happen [.answered c call reply]).Quiet id :=
      h.happen (by simp) (by simp)
    by_cases hc : Caller.call id = c
    · subst hc
      exact hquiet.goOn htask (by simp) (by simp)
    · exact hquiet.absorb hc _
  | @turned c name point htask =>
    by_cases hc : Caller.call id = c
    · subst hc
      refine h.goOn htask (by simp) fun line hint fault hcheck heq => ?_
      cases heq
      exact connectLocked_over hcheck hint _
    · exact h.absorb hc _
  | @stoppedWaiting c n point told htask =>
    by_cases hc : Caller.call id = c
    · subst hc
      exact h.goOn htask (by simp) (by simp)
    · exact h.absorb hc _
  | @joined c n point told result htask _ | @watched c n point told result htask _ =>
    by_cases hc : Caller.call id = c
    · subst hc
      exact h.goOn htask (by simp) (by simp)
    · exact h.absorb hc _
  | @startedReading n d _ _ => exact h.absorb (hreader n) _
  | @neverRead n d _ _ =>
    exact (htold n).absorb (hreader n) (w.session.finish [] (.error .cancelled))
  | @cancelledReading n _ _ _ _ _ _ => exact (htold n).absorb (hreader n) _

end Quiet

theorem Reachable.quiet (h : w.Reachable) (id : Nat) : w.Quiet id := by
  refine Reachable.induct (P := fun w => w.Quiet id) h ?_ fun v next hquiet => hquiet.moved
  intro log closeTimeout
  exact ⟨fun _ call => List.not_mem_nil, fun _ _ _ hmem => absurd hmem List.not_mem_nil⟩

/-! ## The protocol -/

/-- While a device is being closed, nothing is written. -/
theorem Sound.not_writing {course : Course} (h : w.Sound course) {c c' : Caller} {d d' : Handle}
    {data : Bytes} (hclose : w.Asks c (.close d)) : ¬ w.Asks c' (.write d' data) := by
  obtain ⟨point, told, hc⟩ := hclose
  rintro ⟨point', told', hc'⟩
  have hholds : (w.tasks c).use .writer = .holds := by
    rw [hc]
    rcases h.rests c _ told hc with haside | hholding
    · cases haside
    · cases hholding
      rfl
  have hholds' : (w.tasks c').use .writer = .holds := by
    rw [hc']
    rcases h.rests c' _ told' hc' with haside | hholding
    · cases haside
      rfl
    · cases hholding
  have hsame := (h.locks .writer).unique c c' hholds hholds'
  rw [← hsame, hc] at hc'
  cases hc'

/-- Whatever the order of steps, the calls of a device, reads aside, are the beginning of a row of
rounds. Between a successful open and the next request the device gets one end to reading and one
close, behind all writes; a write starts only after its device was opened and before that end; no
close and no write are in progress together; and a connect with refused settings makes no call. -/
theorem calls_in_rounds (w : World) (h : w.Reachable) :
    (∃ rounds, (∀ r ∈ rounds, Round r) ∧ starts w.history <+: List.flatten rounds) ∧
      (∀ before middle after c c' d line hint,
        w.history = before ++ .answered c (.openWith d line) .done ::
          (middle ++ .asked c' (.request hint) :: after) →
        (∀ c hint, .asked c (.request hint) ∉ middle) →
        ∃ payloads : List Bytes,
          starts middle = payloads.map (.write d) ++ [.cancelRead d, .close d]) ∧
      (∀ before after c d data, w.history = before ++ .asked c (.write d data) :: after →
        ∃ earlier c' line since,
          before = earlier ++ .answered c' (.openWith d line) .done :: since ∧
            ∃ payloads : List Bytes, starts since = payloads.map (.write d)) ∧
      (∀ c c' d d' data, w.Asks c (.close d) → ¬ w.Asks c' (.write d' data)) ∧
      ∀ id line hint fault call, .begun (.call id) (.connect line hint) ∈ w.history →
        line.check = .error fault → .asked (.call id) call ∉ w.history := by
  obtain ⟨course, hsound⟩ := h.sound
  have hpath := hsound.path
  refine ⟨hpath.starts_in_rounds, ?_, ?_, fun c c' d d' data => hsound.not_writing, ?_⟩
  · intro before middle after c c' d line hint hhistory hnone
    rw [hhistory] at hpath
    obtain ⟨m, _, hopen⟩ := hpath.split
    cases hopen with
    | cons hgoes hrest =>
      obtain ⟨m', hmiddle, hrequest⟩ := hrest.split
      cases hgoes with
      | aside haside => cases haside
      | opened =>
        cases hrequest with
        | cons hasked _ =>
          cases hasked with
          | aside haside => cases haside
          | request => exact hmiddle.owes rfl hnone
  · intro before after c d data hhistory
    rw [hhistory] at hpath
    obtain ⟨m, hbefore, hwrite⟩ := hpath.split
    cases hwrite with
    | cons hgoes _ =>
      cases hgoes with
      | aside haside => cases haside
      | writes =>
        rcases hbefore.since_open rfl with ⟨heq, _⟩ | hfound
        · cases heq
        · exact hfound
  · intro id line hint fault call hbegun hcheck
    exact ((h.quiet id).refused line hint fault hbegun hcheck).1 call

/-- A send is still writing when the disconnect comes; then there is no device for the next
connect. -/
theorem calls_in_rounds_connection :
    ∃ w : World, w.Reachable ∧ starts w.history = [.request none, .openWith ⟨7, "tty"⟩ {},
        .write ⟨7, "tty"⟩ [65], .cancelRead ⟨7, "tty"⟩, .close ⟨7, "tty"⟩, .request none] ∧
      ∃ rounds, (∀ r ∈ rounds, Round r) ∧ starts w.history <+: List.flatten rounds := by
  have hrun : ∃ w, (fresh {} Double.zero).run [.begin 0 (.connect {} none),
      .answer (.call 0) (.device ⟨7, "tty"⟩), .answer (.call 0) .done, .startReading 0,
      .begin 1 (.send [65]), .begin 2 .disconnect, .answer (.call 2) .done,
      .answer (.reader 0) (.failed (.portNotOpen "tty")), .stopWaiting (.call 2),
      .answer (.call 1) .done, .turn (.call 2), .answer (.call 2) .done,
      .begin 3 (.connect {} none), .answer (.call 3) (.failed .noPorts)] = some w := ⟨_, rfl⟩
  obtain ⟨w, hw⟩ := hrun
  have hreachable : w.Reachable := ⟨{}, Double.zero, _, hw⟩
  refine ⟨w, hreachable, ?_, (calls_in_rounds w hreachable).1⟩
  cases hw
  rfl

end World

end SerialConsole.Session
