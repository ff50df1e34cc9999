import SerialConsole.Proofs.Session.Invariant

set_option autoImplicit false

/-!
# What each step keeps

One lemma for each piece of a call: started in the middle of a step in which the invariant holds and
the task has the locks that the piece needs, it comes to rest in a sound world.
-/
namespace SerialConsole.Session

namespace World

theorem session_effect (w : World) (e : Effect) : (w.effect e).session = w.session := by
  cases e with
  | wake c =>
    rw [effect]
    cases w.tasks c <;> rfl
  | _ => rfl

theorem effect_withSession (w : World) (s : Session) (e : Effect) :
    ({ w with session := s } : World).effect e = { w.effect e with session := s } := by
  cases e with
  | wake c =>
    simp only [effect]
    cases w.tasks c <;> rfl
  | _ => rfl

theorem session_after (w : World) (s : Session) (effects : List Effect) :
    (w.after s effects).session = s := by
  rw [after]
  generalize hv : ({ w with session := s } : World) = v
  have hs : v.session = s := by rw [← hv]
  clear hv
  induction effects generalizing v with
  | nil => exact hs
  | cons e rest ih => exact ih (v.effect e) ((session_effect v e).trans hs)

theorem after_withSession (w : World) (s t : Session) (effects : List Effect) :
    w.after t effects = { w.after s effects with session := t } := by
  rw [after, after]
  induction effects generalizing w with
  | nil => rfl
  | cons e rest ih =>
    rw [List.foldl_cons, List.foldl_cons, effect_withSession w t, effect_withSession w s]
    exact ih (w.effect e)

theorem after_after (w : World) (s t : Session) (es fs : List Effect) :
    (w.after s es).after t fs = w.after t (es ++ fs) := by
  rw [after, ← after_withSession w s t es, after, after, List.foldl_append]

variable {w : World} {me : Caller} {held : List LockName} {course course' : Course}
  {s t : Session} {effects : List Effect}

/-- The world after a step is sound. -/
def Stays (w : World) (me : Caller) (step : Step) : Prop :=
  ∃ course, (w.absorb me step).Sound course

namespace Running

theorem changed (h : (w.after s effects).Running me held course)
    (hlocks : ∀ name, t.lock name = s.lock name) (hconnections : t.connections = s.connections)
    (hkeep : .lifecycle ∈ held ∨ Alike s t) : (w.after t effects).Running me held course := by
  have hs := session_after w s effects
  rw [after_withSession w s t effects]
  refine h.change (fun name => ?_) (fun c => Or.inl rfl) (fun n hn => ?_) h.path
    (hkeep.imp_right fun halike => ⟨rfl, ?_⟩)
  · rw [hs]
    exact hlocks name
  · rw [hs]
    change t.connections ≤ n at hn
    rw [hconnections] at hn
    refine ⟨hn, (h.fresh n ?_).2⟩
    rw [hs]
    exact hn
  · rw [hs]
    exact halike

theorem noted (h : (w.after s effects).Running me held course) (level : Level) (text : String) :
    (w.after s (effects ++ [say level text])).Running me held course := by
  rw [after, List.foldl_append]
  exact h

theorem logged (h : (w.after s effects).Running me held course) (entry : Log.Entry)
    (listeners : List Log.Listener) :
    (w.after s (effects ++ [.logged entry listeners])).Running me held course := by
  rw [after, List.foldl_append]
  have hpath : Course.Path .idle ((w.after s effects).history ++ [.logged entry]) course :=
    h.path.snoc (Course.Goes.aside rfl)
  exact h.change (fun _ => rfl) (fun _ => Or.inl rfl) (fun n hn => ⟨hn, (h.fresh n hn).2⟩) hpath
    (Or.inr ⟨rfl, ⟨rfl, rfl, rfl⟩⟩)

/-! ## Ending and waiting -/

theorem finish (h : (w.after s effects).Running me [] course) {result : Except Fault Result}
    (hover : Aside me (.over result)) : w.Stays me (s.finish effects result) :=
  ⟨course, h.rest rfl rfl (.cons (.aside rfl) (.nil course)) (Or.inl rfl) (Or.inl hover)⟩

theorem leave {name : LockName} (h : (w.after s effects).Running me [name] course)
    (hsettled : name = .lifecycle → Settled s course) {result : Except Fault Result}
    (hover : Aside me (.over result)) : w.Stays me (s.leave name effects result) := by
  have hs := session_after w s effects
  have hfree := h.release List.not_mem_nil (by rw [hs]; exact hsettled)
  rw [hs, after_after] at hfree
  exact hfree.finish hover

theorem ask (h : (w.after s effects).Running me held course) {call : DeviceCall} {point : Point}
    (hlocks : point.locks = held) (hgoes : Course.Goes course (.asked me call) course')
    (hkeep : course' = course ∨ .lifecycle ∈ held)
    (hrests : Aside me (.askDevice call point) ∨ Holding s course' me (.askDevice call point)) :
    w.Stays me ⟨s, effects, .askDevice call point⟩ := by
  refine ⟨course', h.rest hlocks rfl (.cons hgoes (.nil course')) hkeep ?_⟩
  rw [session_after]
  exact hrests

theorem enter (h : (w.after s []).Running me held course) {name : LockName} {point : Point}
    {go : Session → Step} (hnot : name ∉ held) (hlocks : point.locks = held)
    (hrests : Aside me (.awaitTurn name point))
    (hgo : s.isFree name = true → (w.after (s.take name) []).Running me (name :: held) course →
      w.Stays me (go (s.take name))) :
    w.Stays me (s.enter me name point go) := by
  rw [Session.enter]
  cases hfree : s.isFree name with
  | true => exact hgo hfree (h.take hfree)
  | false => exact ⟨course, h.await hfree hnot hlocks (Or.inl hrests)⟩

end Running

/-! ## Connecting -/

section Connecting

variable {id : Nat} {line : LineSettings} {hint : Option String} {d : Handle}

theorem connectLocked_stays (h : (w.after s []).Running (.call id) [.lifecycle] course)
    (hs : Settled s course) : w.Stays (.call id) (connectLocked line hint s) := by
  rw [connectLocked]
  cases hs with
  | connected hphase hdevice hreader =>
    rw [if_pos (by rw [hphase]; decide)]
    exact h.leave (fun _ => .connected hphase hdevice hreader) .over
  | disconnected hs =>
    rw [if_neg (by rw [hs.phase_eq]; decide)]
    cases line.check with
    | error fault => exact h.leave (fun _ => .disconnected hs) .over
    | ok _ =>
      have hconnecting : (w.after { s with phase := .connecting } []).Running (.call id)
          [.lifecycle] .idle :=
        h.changed (fun name => by cases name <;> rfl) rfl (Or.inl List.mem_cons_self)
      exact hconnecting.ask rfl .request (Or.inr List.mem_cons_self)
        (Or.inr (.requesting ⟨rfl, hs.device_eq, hs.reader_eq⟩))

theorem connectFailed_stays (h : (w.after s []).Running (.call id) [.lifecycle] .idle)
    (hs : Vacant s .connecting) (fault : Fault) : w.Stays (.call id) (s.connectFailed fault) := by
  have hfailed : (w.after { s with phase := .disconnected } []).Running (.call id)
      [.lifecycle] .idle :=
    h.changed (fun name => by cases name <;> rfl) rfl (Or.inl List.mem_cons_self)
  exact hfailed.leave (fun _ => .disconnected ⟨rfl, hs.device_eq, hs.reader_eq⟩) .over

theorem connected_stays (h : (w.after s []).Running (.call id) [.lifecycle] (.opened d)) :
    w.Stays (.call id) (leave (s.connectedTo d line) .lifecycle
      [.startReader s.connections d, connectedNote d line] (.ok .nothing)) := by
  have hreader : (w.after (s.connectedTo d line) [.startReader s.connections d]).Running
      (.call id) [.lifecycle] (.opened d) := by
    refine h.change (fun name => by cases name <;> rfl) (fun c => ?_) (fun n hn => ?_) h.path
      (Or.inl List.mem_cons_self)
    · by_cases hc : c = .reader s.connections
      · refine Or.inr ⟨?_, d, hc ▸ setTask_self _ _ _⟩
        rw [hc]
        exact (h.fresh s.connections (Nat.le_refl _)).2
      · exact Or.inl (setTask_of_ne _ _ hc)
    · change s.connections + 1 ≤ n at hn
      refine ⟨Nat.le_of_succ_le hn, ?_⟩
      have hne : Caller.reader n ≠ .reader s.connections := by
        intro heq
        cases heq
        exact Nat.not_succ_le_self _ hn
      rw [show w.after (s.connectedTo d line) [.startReader s.connections d] =
        ({ w with session := s.connectedTo d line } : World).setTask (.reader s.connections)
          (.due d) from rfl, setTask_of_ne _ _ hne]
      exact (h.fresh n (Nat.le_of_succ_le hn)).2
  exact (hreader.noted _ _).leave (fun _ => .connected rfl rfl rfl) .over

end Connecting

/-! ## Sending -/

theorem sendLocked_stays {id : Nat} (h : (w.after s []).Running (.call id) [.writer] course)
    (data : Bytes) : w.Stays (.call id) (sendLocked data s) := by
  have hlost : w.Stays (.call id) (s.leave .writer [] (.error .connectionLost)) :=
    h.leave (fun hname => nomatch hname) .over
  rw [sendLocked]
  split
  case h_1 d hphase hdevice =>
    cases h.opened (by decide) hphase hdevice
    exact h.ask rfl .writes (Or.inl rfl) (Or.inl .writing)
  case h_2 => exact hlost

theorem written_stays {id : Nat} (h : (w.after s []).Running (.call id) [.writer] course)
    (data : Bytes) : w.Stays (.call id) (s.written data) := by
  have hrecorded : (w.after (s.record .sent data) []).Running (.call id) [.writer] course :=
    h.changed (fun name => by cases name <;> rfl) rfl (Or.inr ⟨rfl, rfl, rfl⟩)
  exact (hrecorded.logged _ _).leave (fun hname => nomatch hname) .over

/-! ## Disconnecting -/

section Disconnecting

variable {id : Nat} {d : Handle}

theorem closeLocked_stays (h : (w.after s effects).Running (.call id) [.writer, .lifecycle]
    (.ending d)) (hs : Vacant s .closing) :
    w.Stays (.call id) (closeLocked (some d) effects s) :=
  h.ask rfl .closes (Or.inr (by decide)) (Or.inr (.closing hs))

theorem closeNext_stays (h : (w.after s effects).Running (.call id) [.lifecycle] (.ending d))
    (hs : Vacant s .closing) : w.Stays (.call id) (s.closeNext (.call id) effects (some d)) := by
  have hsession := session_after w s effects
  rw [closeNext]
  cases hfree : s.isFree .writer with
  | true =>
    have htaken := h.take (by rw [hsession]; exact hfree)
    rw [hsession, after_after, List.append_nil] at htaken
    exact closeLocked_stays htaken (hs.alike (alike_setLock _ _ _))
  | false =>
    have hrests : Holding s (.ending d) (.call id) (.awaitTurn .writer (.closeTurn (some d))) :=
      .closeTurn hs
    have hbusy : (w.after s effects).session.isFree .writer = false := by
      rw [hsession]
      exact hfree
    have hawaits := h.await hbusy (by decide) rfl (Or.inr (by rw [hsession]; exact hrests))
    rw [hsession, after_after, List.append_nil] at hawaits
    exact ⟨.ending d, hawaits⟩

theorem readerNext_stays (h : (w.after s effects).Running (.call id) [.lifecycle] (.ending d))
    (hs : Vacant s .closing) (reader : Option Nat) :
    w.Stays (.call id) (s.readerNext (.call id) effects (some d) reader) := by
  cases reader with
  | none => exact closeNext_stays h hs
  | some n =>
    refine ⟨.ending d, h.rest rfl rfl (.nil _) (Or.inl rfl) (Or.inr ?_)⟩
    rw [session_after]
    exact .endOfReading hs

theorem disconnectLocked_stays (h : (w.after s []).Running (.call id) [.lifecycle] course)
    (hs : Settled s course) : w.Stays (.call id) (disconnectLocked (.call id) s) := by
  rw [disconnectLocked]
  cases hs with
  | disconnected hs =>
    rw [if_pos hs.phase_eq]
    exact h.leave (fun _ => .disconnected hs) .over
  | @connected d n hphase hdevice hreader =>
    rw [if_neg (by rw [hphase]; decide), hdevice]
    have hclosing : (w.after { s with
        phase := .closing, device := none, reader := none, stopReading := true } []).Running
        (.call id) [.lifecycle] (.opened d) :=
      h.changed (fun name => by cases name <;> rfl) rfl (Or.inl List.mem_cons_self)
    exact hclosing.ask rfl .ends (Or.inr List.mem_cons_self) (Or.inr (.cancelling ⟨rfl, rfl, rfl⟩))

theorem disconnected_stays (h : (w.after s effects).Running (.call id) [.writer, .lifecycle]
    .idle) (hs : Vacant s .closing) :
    w.Stays (.call id) (s.disconnected effects (some d)) := by
  have hsession := session_after w s effects
  have hfree := h.release (by decide) (fun hname => nomatch hname)
  rw [hsession, after_after] at hfree
  have hdown : (w.after { s.release .writer with phase := .disconnected }
      (effects ++ s.wakeFirst .writer)).Running (.call id) [.lifecycle] .idle :=
    hfree.changed (fun name => by cases name <;> rfl) rfl (Or.inl List.mem_cons_self)
  exact (hdown.noted _ _).leave
    (fun _ => .disconnected ⟨rfl, hs.device_eq, hs.reader_eq⟩) .over

end Disconnecting

/-! ## Reading -/

section Reading

variable {n : Nat} {d : Handle}

theorem readNext_stays (h : (w.after s effects).Running (.reader n) [.reader] course) :
    w.Stays (.reader n) (s.readNext effects d) := by
  rw [readNext]
  cases s.stopReading with
  | true => exact h.leave (fun hname => nomatch hname) .readOver
  | false => exact h.ask rfl (.aside rfl) (Or.inl rfl) (Or.inl .reading)

theorem chunkRead_stays (h : (w.after s []).Running (.reader n) [.reader] course)
    (data : Option Bytes) : w.Stays (.reader n) (s.chunkRead d data) := by
  cases data with
  | none => exact (h.noted _ _).leave (fun hname => nomatch hname) .readOver
  | some data =>
    rw [chunkRead]
    cases s.stopReading with
    | true => exact h.leave (fun hname => nomatch hname) .readOver
    | false =>
      cases data.isEmpty with
      | true => exact readNext_stays h
      | false =>
        have hrecorded : (w.after (s.record .received data) []).Running (.reader n) [.reader]
            course :=
          h.changed (fun name => by cases name <;> rfl) rfl (Or.inr ⟨rfl, rfl, rfl⟩)
        exact readNext_stays (hrecorded.logged _ _)

theorem readFailed_stays (h : (w.after s []).Running (.reader n) [.reader] course) {fault : Fault}
    (hordinary : fault.isOrdinary = true) : w.Stays (.reader n) (s.readFailed d fault) := by
  have hfailed : (w.after { s with readError := some fault } []).Running (.reader n) [.reader]
      course :=
    h.changed (fun name => by cases name <;> rfl) rfl (Or.inr ⟨rfl, rfl, rfl⟩)
  rw [readFailed, if_neg (by rw [hordinary]; decide)]
  by_cases hstop : s.stopReading = true
  · rw [if_pos hstop]
    exact h.leave (fun hname => nomatch hname) .readOver
  · rw [if_neg hstop]
    exact (hfailed.noted _ _).leave (fun hname => nomatch hname) .readOver

end Reading

end World

end SerialConsole.Session
