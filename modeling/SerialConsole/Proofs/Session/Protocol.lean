import SerialConsole.Proofs.Session.Steps

set_option autoImplicit false

/-!
# Every move keeps the invariant

`Reachable.sound`: every world that comes about from one in which nothing had happened is sound.
-/
namespace SerialConsole.Session

namespace World

variable {w next : World} {me : Caller} {course : Course}

theorem happen_nil (w : World) : w.happen [] = w := by
  rw [happen, List.append_nil]

/-! ## Beginning -/

theorem beginConnect_stays {id : Nat}
    (h : (w.after w.session []).Running (.call id) [] course) (line : LineSettings)
    (hint : Option String) :
    w.Stays (.call id) (w.session.beginConnect (.call id) line hint) := by
  refine h.enter List.not_mem_nil rfl .connectTurn fun hfree htaken => ?_
  have hsettled : Settled w.session course := h.settled_of_isFree hfree
  exact connectLocked_stays htaken (hsettled.alike (alike_setLock _ _ _))

theorem beginSend_stays {id : Nat}
    (h : (w.after w.session []).Running (.call id) [] course) (data : Bytes) :
    w.Stays (.call id) (w.session.beginSend (.call id) data) := by
  rw [beginSend]
  by_cases hphase : w.session.phase ≠ .connected
  · rw [if_pos hphase]
    exact h.finish .over
  · rw [if_neg hphase]
    cases data.isEmpty with
    | true => exact h.finish .over
    | false =>
      exact h.enter List.not_mem_nil rfl .sendTurn fun _ htaken => sendLocked_stays htaken data

theorem beginSendData_stays {id : Nat}
    (h : (w.after w.session []).Running (.call id) [] course)
    (data format ending : String) :
    w.Stays (.call id) (w.session.beginSendData (.call id) data format ending) := by
  rw [beginSendData]
  cases Payload.encode data format ending with
  | ok bytes => exact beginSend_stays h bytes
  | error fault => exact h.finish .over

theorem beginDisconnect_stays {id : Nat}
    (h : (w.after w.session []).Running (.call id) [] course) :
    w.Stays (.call id) (w.session.beginDisconnect (.call id)) := by
  refine h.enter List.not_mem_nil rfl .disconnectTurn fun hfree htaken => ?_
  have hsettled : Settled w.session course := h.settled_of_isFree hfree
  exact disconnectLocked_stays htaken (hsettled.alike (alike_setLock _ _ _))

theorem beginWaitClosed_stays {id : Nat}
    (h : (w.after w.session []).Running (.call id) [] course) :
    w.Stays (.call id) w.session.beginWaitClosed := by
  rw [beginWaitClosed]
  cases w.session.reader with
  | some n => exact ⟨course, h.rest rfl rfl (.nil course) (Or.inl rfl) (Or.inl .watching)⟩
  | none => exact h.finish .over

theorem begin_stays {id : Nat}
    (h : (w.after w.session []).Running (.call id) [] course) (operation : Operation) :
    w.Stays (.call id) (operation.start w.session (.call id)) := by
  cases operation with
  | connect line hint => exact beginConnect_stays h line hint
  | send data => exact beginSend_stays h data
  | sendData data format ending => exact beginSendData_stays h data format ending
  | disconnect => exact beginDisconnect_stays h
  | waitClosed => exact beginWaitClosed_stays h

theorem beginRead_stays {n : Nat}
    (h : (w.after w.session []).Running (.reader n) [] course) (d : Handle) :
    w.Stays (.reader n) (w.session.beginRead (.reader n) d) :=
  h.enter List.not_mem_nil rfl .readTurn fun _ htaken => readNext_stays htaken

/-! ## Going on -/

theorem Sound.resumeNow (h : w.Sound course) {pause : Pause} {told : Bool}
    (htask : w.tasks me = .rests pause told) (hawaits : pause.awaits = none) :
    (w.after w.session []).Running me pause.locks course := by
  have hrun := h.resume htask hawaits (.nil course) (Or.inl rfl)
  rwa [happen_nil] at hrun

theorem answer_sound (h : w.Sound course) {call : DeviceCall} {point : Point} {told : Bool}
    {reply : Reply} (htask : w.tasks me = .rests (.askDevice call point) told)
    (hadmits : call.admits reply = true) :
    (w.happen [.answered me call reply]).Stays me
      (w.session.resume me point (.reply reply)) := by
  have goOn : ∀ {next : Course}, Course.Goes course (.answered me call reply) next →
      (next = course ∨ .lifecycle ∈ point.locks) →
        ((w.happen [.answered me call reply]).after w.session []).Running me point.locks next :=
    fun hgoes hkeep => h.resume htask rfl (.cons hgoes (.nil _)) hkeep
  rcases h.rests me _ told htask with haside | hholding
  · cases haside with
    | @writing id d data =>
      have hrun := goOn (.aside rfl) (Or.inl rfl)
      cases reply with
      | failed fault => exact hrun.leave (fun hname => nomatch hname) .over
      | done | device _ | chunk _ => exact written_stays hrun data
    | @reading n d =>
      have hrun := goOn (.aside rfl) (Or.inl rfl)
      cases reply with
      | failed fault => exact readFailed_stays hrun hadmits
      | chunk data => exact chunkRead_stays hrun data
      | done | device _ => cases hadmits
  · cases hholding with
    | @requesting id line hint hs =>
      cases reply with
      | failed fault =>
        exact connectFailed_stays (goOn .refused (Or.inr List.mem_cons_self)) hs fault
      | device d =>
        have hrun := goOn .offered (Or.inr List.mem_cons_self)
        exact hrun.ask rfl .opens (Or.inr List.mem_cons_self) (Or.inr (.opening hs))
      | done | chunk _ => cases hadmits
    | @opening id d line hs =>
      cases reply with
      | failed fault =>
        exact connectFailed_stays (goOn .unopened (Or.inr List.mem_cons_self)) hs _
      | done => exact connected_stays (goOn .opened (Or.inr List.mem_cons_self))
      | device _ | chunk _ => cases hadmits
    | @cancelling id d reader hs =>
      have hrun := goOn (.aside rfl) (Or.inl rfl)
      cases reply with
      | failed fault =>
        change fault.isOrdinary = true at hadmits
        rw [resume, onReply, if_pos hadmits]
        exact readerNext_stays (hrun.noted _ _) hs reader
      | done | device _ | chunk _ => exact readerNext_stays hrun hs reader
    | @closing id d hs =>
      have hrun := goOn .closed (Or.inr (List.mem_cons_of_mem _ List.mem_cons_self))
      cases reply with
      | failed fault =>
        change fault.isOrdinary = true at hadmits
        rw [resume, onReply, if_pos hadmits]
        exact disconnected_stays (hrun.noted _ _) hs
      | done | device _ | chunk _ => exact disconnected_stays hrun hs

theorem turn_sound (h : w.Sound course) {name : LockName} {point : Point}
    (htask : w.tasks me = .rests (.awaitTurn name point) true) :
    w.Stays me (w.session.resume me point .turn) := by
  have hsettled : name = .lifecycle → name ∉ point.locks → Settled w.session course := by
    rintro rfl hnot
    exact h.settled ((h.locks .lifecycle).told me (Sound.use_awaited htask hnot)).1
  rcases h.rests me _ true htask with haside | hholding
  · cases haside with
    | connectTurn =>
      exact connectLocked_stays (h.turn htask List.not_mem_nil)
        ((hsettled rfl List.not_mem_nil).alike (alike_setLock _ _ _))
    | disconnectTurn =>
      exact disconnectLocked_stays (h.turn htask List.not_mem_nil)
        ((hsettled rfl List.not_mem_nil).alike (alike_setLock _ _ _))
    | sendTurn => exact sendLocked_stays (h.turn htask List.not_mem_nil) _
    | readTurn => exact readNext_stays (h.turn htask List.not_mem_nil)
  · cases hholding with
    | closeTurn hs =>
      have hnot : LockName.writer ∉ [LockName.lifecycle] := by decide
      exact closeLocked_stays (h.turn htask hnot) (hs.alike (alike_setLock _ _ _))

theorem stopWaiting_sound (h : w.Sound course) {n : Nat} {point : Point} {told : Bool}
    (htask : w.tasks me = .rests (.awaitEndOfReading n point) told) (inTime : Bool) :
    w.Stays me (w.session.resume me point (.readingEnded inTime)) := by
  have hrun := h.resumeNow htask rfl
  rcases h.rests me _ told htask with haside | hholding
  · cases haside
  · cases hholding with
    | @endOfReading id _ d hs =>
      cases inTime with
      | true => exact closeNext_stays hrun hs
      | false =>
        have hcancelled : (w.after w.session [.cancelReader n]).Running (.call id) [.lifecycle]
            (.ending d) :=
          hrun.change (fun _ => rfl) (fun _ => Or.inl rfl)
            (fun n hn => ⟨hn, (hrun.fresh n hn).2⟩) hrun.path (Or.inl List.mem_cons_self)
        exact ⟨_, hcancelled.rest rfl rfl (.nil _) (Or.inl rfl) (Or.inr (.cancelledReading hs))⟩

theorem resultOf_cases (h : w.Sound course) {n : Nat} {result : Except Fault Result}
    (hresult : w.resultOf n = some result) :
    result = .ok .nothing ∨ result = .error .cancelled := by
  rw [resultOf] at hresult
  split at hresult
  case h_1 result' told hrests =>
    cases hresult
    rcases h.rests _ _ told hrests with haside | hholding
    · cases haside with
      | readOver => exact Or.inl rfl
      | readCancelled => exact Or.inr rfl
    · cases hholding
  case h_2 => cases hresult

theorem joinReader_sound (h : w.Sound course) {n : Nat} {point : Point} {told : Bool}
    (htask : w.tasks me = .rests (.joinReader n point) told) {result : Except Fault Result}
    (hresult : result = .ok .nothing ∨ result = .error .cancelled) :
    w.Stays me (w.session.resume me point (.joined result)) := by
  have hrun := h.resumeNow htask rfl
  rcases h.rests me _ told htask with haside | hholding
  · cases haside
  · cases hholding with
    | cancelledReading hs =>
      rcases hresult with rfl | rfl
      · exact closeNext_stays hrun hs
      · exact closeNext_stays hrun hs

theorem watchReader_sound (h : w.Sound course) {n : Nat} {point : Point} {told : Bool}
    (htask : w.tasks me = .rests (.watchReader n point) told) (result : Except Fault Result) :
    w.Stays me (w.session.resume me point (.joined result)) := by
  have hrun := h.resumeNow htask rfl
  rcases h.rests me _ told htask with haside | hholding
  · cases haside
    exact hrun.finish .over
  · cases hholding

theorem cancelReading_sound (h : w.Sound course) {n : Nat} {pause : Pause} {point : Point}
    {told : Bool} (htask : w.tasks (.reader n) = .rests pause told)
    (hpoint : pause.point? = some point) :
    w.Stays (.reader n) (w.session.resume (.reader n) point .cancelled) := by
  rcases h.rests _ _ told htask with haside | hholding
  · cases haside with
    | readOver | readCancelled => cases hpoint
    | readTurn =>
      cases hpoint
      exact (h.giveUp htask List.not_mem_nil).finish .readCancelled
    | reading =>
      cases hpoint
      have hrun := h.resumeNow htask rfl
      exact hrun.leave (fun hname => nomatch hname) .readCancelled
  · cases hholding

/-! ## Every move -/

theorem Sound.moved (h : w.Sound course) (hmoved : Moved w next) :
    ∃ course', next.Sound course' := by
  -- which read loops were told to end is nothing that the invariant speaks of
  have htold : ∀ n, (w.toldToEnd n).Sound course := fun n =>
    ⟨h.path, h.locks, h.fresh, h.rests, h.settled⟩
  cases hmoved with
  | @begun id operation habsent =>
    have hrun : (w.happen [.begun (.call id) operation]).Running (.call id) [] course :=
      h.start (fun name => by rw [habsent]; rfl) (by simp)
        (by simp [Event.isAside])
    exact begin_stays (w := w.happen [.begun (.call id) operation]) hrun operation
  | answered htask hadmits => exact answer_sound h htask hadmits
  | turned htask => exact turn_sound h htask
  | stoppedWaiting htask => exact stopWaiting_sound h htask _
  | joined htask hresult => exact joinReader_sound h htask (resultOf_cases h hresult)
  | watched htask _ => exact watchReader_sound h htask _
  | @startedReading n d hdue _ =>
    have hrun : (w.happen []).Running (.reader n) [] course :=
      h.start (fun name => by rw [hdue]; rfl)
        (h.reader_ne (by rw [hdue]; simp)) (by simp)
    rw [happen_nil] at hrun
    exact beginRead_stays hrun d
  | @neverRead n d hdue _ =>
    have hdue' : (w.toldToEnd n).tasks (.reader n) = .due d := hdue
    have hrun : ((w.toldToEnd n).happen []).Running (.reader n) [] course :=
      (htold n).start (fun name => by rw [hdue']; rfl)
        ((htold n).reader_ne (by rw [hdue']; simp)) (by simp)
    rw [happen_nil] at hrun
    exact ⟨course, hrun.rest rfl rfl (.cons (.aside rfl) (.nil course)) (Or.inl rfl)
      (Or.inl .readCancelled)⟩
  | @cancelledReading n pause point told htask hpoint _ =>
    exact cancelReading_sound (htold n) htask hpoint

theorem fresh_sound (log : Log.Ring) (closeTimeout : Double) :
    (fresh log closeTimeout).Sound .idle := by
  have hlock : ∀ name, (fresh log closeTimeout).session.lock name = {} := by
    intro name
    cases name <;> rfl
  refine ⟨.nil .idle, fun name => ?_, fun _ _ => rfl, fun c pause told hrests => ?_,
    fun _ => .disconnected ⟨rfl, rfl, rfl⟩⟩
  · rw [hlock name]
    exact Lock.Ok.unused fun _ => rfl
  · cases hrests

/-- Every world that comes about is sound. -/
theorem Reachable.sound (h : w.Reachable) : ∃ course, w.Sound course := by
  refine Reachable.induct (P := fun w => ∃ course, w.Sound course) h ?_ ?_
  · intro log closeTimeout
    exact ⟨.idle, fresh_sound log closeTimeout⟩
  · rintro v next ⟨course, hsound⟩ hmoved
    exact hsound.moved hmoved

end World

end SerialConsole.Session
