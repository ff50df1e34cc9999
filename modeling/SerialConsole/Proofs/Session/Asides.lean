import SerialConsole.Session.Call

set_option autoImplicit false

/-!
# Steps beside the connection

What any step of a call adds to the log (`Step.Logs`), and what the steps of a send, of a read loop
and of a wait for the end of reading leave alone: where the session stands and who listens to its
log (`Outline`).
-/
namespace SerialConsole

/-- What an effect adds to the log, with those who hear of it. -/
def Effect.logged? : Effect → Option (Log.Entry × List Log.Listener)
  | .logged entry listeners => some (entry, listeners)
  | _ => none

/-- Whether an effect has nothing to do with read loops. -/
def Effect.isMild : Effect → Bool
  | .startReader _ _ | .cancelReader _ => false
  | _ => true

namespace Session

/-! ## What a step logs -/

/-- What a call logs when it goes on. -/
def payload? (s : Session) : Point → Signal → Option (Log.Direction × Bytes)
  | .writing _ _, .reply (.failed _) => none
  | .writing _ data, .reply _ => some (.sent, data)
  | .reading _, .reply (.chunk (some data)) =>
    if s.stopReading || data.isEmpty then none else some (.received, data)
  | _, _ => none

/-- A step appends what it logs, if anything, and those who are registered hear of that alone. -/
structure Step.Logs (ring : Log.Ring) (payload : Option (Log.Direction × Bytes)) (step : Step) :
    Prop where
  log : step.session.log = payload.elim ring fun p => ring.append p.1 p.2
  told : step.effects.filterMap Effect.logged? =
    (payload.map fun p => (ring.nextEntry p.1 p.2, ring.listeners)).toList

section

variable {s : Session} {me : Caller} {effects : List Effect} {name : LockName}

@[simp] theorem log_setLock (s : Session) (name : LockName) (lock : Lock) :
    (s.setLock name lock).log = s.log := by
  cases name <;> rfl

@[simp] theorem log_take (s : Session) (name : LockName) : (s.take name).log = s.log :=
  log_setLock s name _

@[simp] theorem log_takeTurn (s : Session) (name : LockName) (c : Caller) :
    (s.takeTurn name c).log = s.log :=
  log_setLock s name _

@[simp] theorem log_queue (s : Session) (name : LockName) (c : Caller) :
    (s.queue name c).log = s.log :=
  log_setLock s name _

@[simp] theorem log_release (s : Session) (name : LockName) : (s.release name).log = s.log :=
  log_setLock s name _

@[simp] theorem log_giveUp (s : Session) (name : LockName) (c : Caller) :
    (s.giveUp name c).1.log = s.log :=
  log_setLock s name _

@[simp] theorem logged?_wakeFirst (s : Session) (name : LockName) :
    (s.wakeFirst name).filterMap Effect.logged? = [] := by
  unfold wakeFirst
  cases (s.lock name).waiting.head? <;> rfl

@[simp] theorem logged?_giveUp (s : Session) (name : LockName) (c : Caller) :
    (s.giveUp name c).2.filterMap Effect.logged? = [] := by
  unfold giveUp
  dsimp only
  split
  · rfl
  · exact logged?_wakeFirst _ _

@[simp] theorem logged?_say (level : Level) (text : String) :
    (say level text).logged? = none :=
  rfl

theorem leave_logs {result : Except Fault Result} (h : effects.filterMap Effect.logged? = []) :
    (s.leave name effects result).Logs s.log none := by
  refine ⟨log_release s name, ?_⟩
  simp [leave, h]

theorem finish_logs {result : Except Fault Result} (h : effects.filterMap Effect.logged? = []) :
    (s.finish effects result).Logs s.log none :=
  ⟨rfl, h⟩

theorem enter_logs {point : Point} {go : Session → Step}
    (h : (go (s.take name)).Logs s.log none) : (s.enter me name point go).Logs s.log none := by
  unfold enter
  split
  · exact h
  · exact ⟨log_queue s name me, rfl⟩

theorem connectLocked_logs (line : LineSettings) (hint : Option String) :
    (connectLocked line hint s).Logs s.log none := by
  unfold connectLocked
  split
  · exact leave_logs rfl
  · split
    · exact leave_logs rfl
    · exact ⟨rfl, rfl⟩

theorem sendLocked_logs (data : Bytes) : (sendLocked data s).Logs s.log none := by
  unfold sendLocked
  split
  · exact ⟨rfl, rfl⟩
  · exact leave_logs rfl

theorem breakOff_logs (fault : Fault) (h : effects.filterMap Effect.logged? = []) :
    (s.breakOff effects fault).Logs s.log none :=
  leave_logs (s := { s with phase := .disconnected }) h

theorem disconnected_logs {device : Option Handle} (h : effects.filterMap Effect.logged? = []) :
    (s.disconnected effects device).Logs s.log none := by
  refine ⟨?_, ?_⟩
  · simp only [disconnected, leave, log_release]
    rfl
  · simp only [disconnected, leave, List.filterMap_append, logged?_wakeFirst, h]
    rfl

theorem closeLocked_logs {device : Option Handle} (h : effects.filterMap Effect.logged? = []) :
    (closeLocked device effects s).Logs s.log none := by
  cases device with
  | none => exact disconnected_logs h
  | some d => exact ⟨rfl, h⟩

theorem closeNext_logs {device : Option Handle} (h : effects.filterMap Effect.logged? = []) :
    (s.closeNext me effects device).Logs s.log none := by
  unfold closeNext
  split
  · have hclose : (closeLocked device effects (s.take .writer)).Logs (s.take .writer).log none :=
      closeLocked_logs h
    rwa [log_take] at hclose
  · exact ⟨log_queue s .writer me, h⟩

theorem readerNext_logs {device : Option Handle} {reader : Option Nat}
    (h : effects.filterMap Effect.logged? = []) :
    (s.readerNext me effects device reader).Logs s.log none := by
  cases reader with
  | none => exact closeNext_logs h
  | some n => exact ⟨rfl, h⟩

theorem disconnectLocked_logs : (disconnectLocked me s).Logs s.log none := by
  unfold disconnectLocked
  split
  · exact leave_logs rfl
  · dsimp only
    split
    · exact ⟨rfl, rfl⟩
    · exact readerNext_logs
        (s := { s with phase := .closing, device := none, reader := none, stopReading := true }) rfl

theorem readNext_logs {device : Handle} (h : effects.filterMap Effect.logged? = []) :
    (s.readNext effects device).Logs s.log none := by
  unfold readNext
  split
  · exact leave_logs h
  · exact ⟨rfl, h⟩

theorem connectFailed_logs {fault : Fault} : (s.connectFailed fault).Logs s.log none :=
  leave_logs (s := { s with phase := .disconnected }) rfl

theorem connected_logs {device : Handle} {line : LineSettings} :
    (leave (s.connectedTo device line) .lifecycle
      [.startReader s.connections device, connectedNote device line] (.ok .nothing)).Logs
      s.log none :=
  leave_logs (s := s.connectedTo device line) rfl

theorem written_logs {data : Bytes} : (s.written data).Logs s.log (some (.sent, data)) := by
  refine ⟨log_release _ _, ?_⟩
  unfold written leave
  rw [List.filterMap_append, logged?_wakeFirst]
  rfl

theorem chunkRead_logs {device : Handle} {data : Bytes} :
    (s.chunkRead device (some data)).Logs s.log
      (if s.stopReading || data.isEmpty then none else some (.received, data)) := by
  unfold chunkRead
  dsimp only
  cases hstop : s.stopReading with
  | true => exact leave_logs rfl
  | false =>
    cases data with
    | nil => exact readNext_logs rfl
    | cons b rest =>
      have hnext : (s.record .received (b :: rest)).stopReading = false := hstop
      simp only [Bool.false_eq_true, if_false, List.isEmpty_cons, Bool.or_false, readNext, hnext]
      exact ⟨rfl, rfl⟩

theorem readFailed_logs {device : Handle} {fault : Fault} :
    (s.readFailed device fault).Logs s.log none := by
  unfold readFailed
  split
  · exact leave_logs rfl
  · split
    · exact leave_logs rfl
    · exact leave_logs (s := { s with readError := some fault }) rfl

theorem onReply_logs (point : Point) (reply : Reply) :
    (s.onReply me point reply).Logs s.log (s.payload? point (.reply reply)) := by
  cases point with
  | requesting line =>
    cases reply with
    | device device => exact ⟨rfl, rfl⟩
    | failed fault => exact connectFailed_logs
    | _ => exact finish_logs rfl
  | opening device line =>
    cases reply with
    | failed fault => exact connectFailed_logs
    | _ => exact connected_logs
  | writing device data =>
    cases reply with
    | failed fault => exact leave_logs rfl
    | _ => exact written_logs
  | cancelling device reader =>
    cases reply with
    | failed fault =>
      unfold onReply
      dsimp only
      split
      · exact readerNext_logs rfl
      · exact breakOff_logs _ rfl
    | _ => exact readerNext_logs rfl
  | closing device =>
    cases reply with
    | failed fault =>
      unfold onReply
      dsimp only
      split
      · exact disconnected_logs rfl
      · have hbreak := breakOff_logs (s := s.release .writer) fault (logged?_wakeFirst s .writer)
        rwa [log_release] at hbreak
    | _ => exact disconnected_logs rfl
  | reading device =>
    cases reply with
    | failed fault => exact readFailed_logs
    | chunk data =>
      cases data with
      | none => exact leave_logs rfl
      | some data => exact chunkRead_logs
    | _ => exact finish_logs rfl
  | _ => exact finish_logs rfl

theorem onTurn_logs (point : Point) :
    (s.onTurn me point).Logs s.log (s.payload? point .turn) := by
  cases point with
  | connectTurn line hint =>
    have h := connectLocked_logs (s := s.takeTurn .lifecycle me) line hint
    rwa [log_takeTurn] at h
  | sendTurn data =>
    have h := sendLocked_logs (s := s.takeTurn .writer me) data
    rwa [log_takeTurn] at h
  | disconnectTurn =>
    have h : (disconnectLocked me (s.takeTurn .lifecycle me)).Logs
        (s.takeTurn .lifecycle me).log none := disconnectLocked_logs
    rwa [log_takeTurn] at h
  | closeTurn device =>
    have h : (closeLocked device [] (s.takeTurn .writer me)).Logs
        (s.takeTurn .writer me).log none := closeLocked_logs rfl
    rwa [log_takeTurn] at h
  | readTurn device =>
    have h : ((s.takeTurn .reader me).readNext [] device).Logs (s.takeTurn .reader me).log none :=
      readNext_logs rfl
    rwa [log_takeTurn] at h
  | _ => exact finish_logs rfl

theorem onCancel_logs (point : Point) :
    (s.onCancel me point).Logs s.log (s.payload? point .cancelled) := by
  have hgives : ∀ name, ((s.giveUp name me).1.finish (s.giveUp name me).2
      (.error .cancelled)).Logs s.log none := by
    intro name
    have h : ((s.giveUp name me).1.finish (s.giveUp name me).2 (.error .cancelled)).Logs
        (s.giveUp name me).1.log none := finish_logs (logged?_giveUp s name me)
    rwa [log_giveUp] at h
  cases point with
  | connectTurn line hint => exact hgives .lifecycle
  | disconnectTurn => exact hgives .lifecycle
  | requesting line => exact connectFailed_logs
  | opening device line => exact connectFailed_logs
  | sendTurn data => exact hgives .writer
  | writing device data => exact leave_logs rfl
  | cancelling device reader => exact breakOff_logs _ rfl
  | endOfReading device reader => exact breakOff_logs _ rfl
  | cancelledReading device => exact closeNext_logs rfl
  | closeTurn device =>
    have h := breakOff_logs (s := (s.giveUp .writer me).1) .cancelled (logged?_giveUp s .writer me)
    rwa [log_giveUp] at h
  | closing device =>
    have h := breakOff_logs (s := s.release .writer) .cancelled (logged?_wakeFirst s .writer)
    rwa [log_release] at h
  | closed => exact finish_logs rfl
  | readTurn device => exact hgives .reader
  | reading device => exact leave_logs rfl

theorem onJoined_logs (device : Option Handle) (result : Except Fault Result) :
    (s.onJoined me device result).Logs s.log none := by
  cases result with
  | ok value => exact closeNext_logs rfl
  | error fault =>
    unfold onJoined
    dsimp only
    split
    · exact closeNext_logs rfl
    · split
      · exact closeNext_logs rfl
      · exact breakOff_logs _ rfl

/-- Whatever a call is told where it waits, the log grows by what it logs and by nothing else. -/
theorem resume_logs (s : Session) (me : Caller) (point : Point) (signal : Signal) :
    (s.resume me point signal).Logs s.log (s.payload? point signal) := by
  have hnone : ∀ point signal, (∀ reply, signal ≠ .reply reply) →
      s.payload? point signal = none := by
    intro point signal hreply
    cases signal with
    | reply reply => exact absurd rfl (hreply reply)
    | _ => cases point <;> rfl
  cases signal with
  | reply reply => exact onReply_logs point reply
  | turn => exact onTurn_logs point
  | cancelled => exact onCancel_logs point
  | readingEnded inTime =>
    rw [hnone point (.readingEnded inTime) fun _ => nofun]
    cases point with
    | endOfReading device reader =>
      unfold resume
      dsimp only
      split
      · exact closeNext_logs rfl
      · exact ⟨rfl, rfl⟩
    | _ => exact finish_logs rfl
  | joined result =>
    rw [hnone point (.joined result) fun _ => nofun]
    cases point with
    | cancelledReading device => exact onJoined_logs device result
    | _ => exact finish_logs rfl

theorem beginConnect_logs (s : Session) (me : Caller) (line : LineSettings)
    (hint : Option String) : (s.beginConnect me line hint).Logs s.log none := by
  refine enter_logs ?_
  have h := connectLocked_logs (s := s.take .lifecycle) line hint
  rwa [log_take] at h

theorem beginSend_logs (s : Session) (me : Caller) (data : Bytes) :
    (s.beginSend me data).Logs s.log none := by
  unfold beginSend
  split
  · exact finish_logs rfl
  · split
    · exact finish_logs rfl
    · refine enter_logs ?_
      have h := sendLocked_logs (s := s.take .writer) data
      rwa [log_take] at h

theorem beginSendData_logs (s : Session) (me : Caller) (data format ending : String) :
    (s.beginSendData me data format ending).Logs s.log none := by
  unfold beginSendData
  split
  · exact beginSend_logs s me _
  · exact finish_logs rfl

theorem beginDisconnect_logs (s : Session) (me : Caller) :
    (s.beginDisconnect me).Logs s.log none := by
  refine enter_logs ?_
  have h : (disconnectLocked me (s.take .lifecycle)).Logs (s.take .lifecycle).log none :=
    disconnectLocked_logs
  rwa [log_take] at h

theorem beginWaitClosed_logs (s : Session) : s.beginWaitClosed.Logs s.log none := by
  unfold beginWaitClosed
  split
  · exact ⟨rfl, rfl⟩
  · exact finish_logs rfl

theorem beginRead_logs (s : Session) (me : Caller) (device : Handle) :
    (s.beginRead me device).Logs s.log none := by
  refine enter_logs ?_
  have h : ((s.take .reader).readNext [] device).Logs (s.take .reader).log none :=
    readNext_logs rfl
  rwa [log_take] at h

end

/-! ## What a step leaves alone -/

/-- Where a session stands with its device, and who listens to its log. -/
structure Outline where
  phase : Phase
  device : Option Handle
  stopReading : Bool
  reader : Option Nat
  connections : Nat
  lifecycleLock : Lock
  listeners : List Log.Listener

def outline (s : Session) : Outline :=
  ⟨s.phase, s.device, s.stopReading, s.reader, s.connections, s.lifecycleLock, s.log.listeners⟩

/-- What a call is about that neither connects nor disconnects. -/
inductive Sideline where
  | sending
  | reading
  | awaiting
  deriving DecidableEq

/-- What a call is about that waits at a point, unless it connects or disconnects. -/
def Point.sideline? : Point → Option Sideline
  | .sendTurn _ | .writing _ _ => some .sending
  | .readTurn _ | .reading _ => some .reading
  | .closed => some .awaiting
  | _ => none

/-- The read loop for whose end a call waits. -/
def Pause.reader? : Pause → Option Nat
  | .awaitEndOfReading n _ | .joinReader n _ | .watchReader n _ => some n
  | _ => none

/-- Where such a call can wait. -/
inductive Pause.Beside (s : Session) : Sideline → Pause → Prop where
  | over {side : Sideline} (result : Except Fault Result) : Beside s side (.over result)
  | writes (device : Handle) (data : Bytes) :
    Beside s .sending (.askDevice (.write device data) (.writing device data))
  | awaitsWriting (data : Bytes) : Beside s .sending (.awaitTurn .writer (.sendTurn data))
  | reads (device : Handle) : Beside s .reading (.askDevice (.read device) (.reading device))
  | awaitsReading (device : Handle) : Beside s .reading (.awaitTurn .reader (.readTurn device))
  | watches {n : Nat} : s.reader = some n → Beside s .awaiting (.watchReader n .closed)

theorem Pause.Beside.reader_eq {s : Session} {side : Sideline} {pause : Pause} {n : Nat}
    (h : pause.Beside s side) (hreader : pause.reader? = some n) : s.reader = some n := by
  cases h with
  | watches hn =>
    cases hreader
    exact hn
  | _ => cases hreader

/-- A step that leaves the connection alone. -/
structure Step.Beside (s : Session) (side : Sideline) (step : Step) : Prop where
  outline : step.session.outline = s.outline
  mild : ∀ e ∈ step.effects, e.isMild = true
  pause : step.pause.Beside s side

section

variable {s : Session} {me : Caller} {effects : List Effect} {side : Sideline}

theorem mild_nil : ∀ e ∈ ([] : List Effect), e.isMild = true :=
  fun _ he => absurd he List.not_mem_nil

theorem mild_wakeFirst (s : Session) (name : LockName) : ∀ e ∈ s.wakeFirst name, e.isMild = true := by
  intro e he
  unfold wakeFirst at he
  cases hhead : (s.lock name).waiting.head? with
  | none => simp [hhead] at he
  | some c =>
    simp only [hhead, Option.map_some, Option.toList_some, List.mem_singleton] at he
    rw [he]
    rfl

theorem mild_giveUp (s : Session) (name : LockName) (c : Caller) :
    ∀ e ∈ (s.giveUp name c).2, e.isMild = true := by
  unfold giveUp
  dsimp only
  split
  · exact mild_nil
  · exact mild_wakeFirst _ _

/-- The locks beside the lifecycle lock are no part of the outline. -/
theorem outline_setLock {name : LockName} (lock : Lock) (h : name ≠ .lifecycle) :
    (s.setLock name lock).outline = s.outline := by
  cases name with
  | lifecycle => exact absurd rfl h
  | _ => rfl

theorem leave_beside {name : LockName} {result : Except Fault Result} (h : name ≠ .lifecycle)
    (hmild : ∀ e ∈ effects, e.isMild = true) :
    (s.leave name effects result).Beside s side :=
  ⟨outline_setLock _ h, fun e he => (List.mem_append.1 he).elim (hmild e) (mild_wakeFirst s name e),
    .over _⟩

theorem finish_beside {result : Except Fault Result} (hmild : ∀ e ∈ effects, e.isMild = true) :
    (s.finish effects result).Beside s side :=
  ⟨rfl, hmild, .over _⟩

theorem Step.Beside.congr {t : Session} {step : Step} (h : step.Beside t side)
    (ht : t.outline = s.outline) : step.Beside s side := by
  refine ⟨h.outline.trans ht, h.mild, ?_⟩
  have hreader : t.reader = s.reader := congrArg Outline.reader ht
  have hpause := h.pause
  generalize step.pause = pause at hpause ⊢
  cases hpause with
  | «over» result => exact .over result
  | writes device data => exact .writes device data
  | awaitsWriting data => exact .awaitsWriting data
  | reads device => exact .reads device
  | awaitsReading device => exact .awaitsReading device
  | watches hn => exact .watches (hreader ▸ hn)

theorem sendLocked_beside (data : Bytes) : (sendLocked data s).Beside s .sending := by
  unfold sendLocked
  split
  · exact ⟨rfl, mild_nil, .writes _ data⟩
  · exact leave_beside (by decide) mild_nil

theorem beginSend_beside (s : Session) (me : Caller) (data : Bytes) :
    (s.beginSend me data).Beside s .sending := by
  unfold beginSend
  split
  · exact finish_beside mild_nil
  · split
    · exact finish_beside mild_nil
    · unfold enter
      split
      · exact (sendLocked_beside data).congr (outline_setLock _ (by decide))
      · exact ⟨outline_setLock _ (by decide), mild_nil,
          .awaitsWriting data⟩

theorem beginSendData_beside (s : Session) (me : Caller) (data format ending : String) :
    (s.beginSendData me data format ending).Beside s .sending := by
  unfold beginSendData
  split
  · exact beginSend_beside s me _
  · exact finish_beside mild_nil

theorem beginWaitClosed_beside (s : Session) : s.beginWaitClosed.Beside s .awaiting := by
  unfold beginWaitClosed
  split
  case h_1 n hreader => exact ⟨rfl, mild_nil, .watches hreader⟩
  case h_2 => exact finish_beside mild_nil

theorem readNext_beside {device : Handle} (hmild : ∀ e ∈ effects, e.isMild = true) :
    (s.readNext effects device).Beside s .reading := by
  unfold readNext
  split
  · exact leave_beside (by decide) hmild
  · exact ⟨rfl, hmild, .reads device⟩

theorem beginRead_beside (s : Session) (me : Caller) (device : Handle) :
    (s.beginRead me device).Beside s .reading := by
  unfold beginRead enter
  split
  · exact (readNext_beside mild_nil).congr
      (outline_setLock _ (by decide))
  · exact ⟨outline_setLock _ (by decide), mild_nil,
      .awaitsReading device⟩

theorem chunkRead_beside {device : Handle} {data : Option Bytes} :
    (s.chunkRead device data).Beside s .reading := by
  have hnote : ∀ e ∈ [say .info ("End of data from " ++ device.name)], e.isMild = true := by
    intro e he
    rw [List.mem_singleton.1 he]
    rfl
  unfold chunkRead
  cases data with
  | none => exact leave_beside (by decide) hnote
  | some data =>
    dsimp only
    split
    · exact leave_beside (by decide) mild_nil
    · split
      · exact readNext_beside mild_nil
      · refine (readNext_beside (s := s.record .received data) fun e he => ?_).congr rfl
        rw [List.mem_singleton.1 he]
        rfl

theorem readFailed_beside {device : Handle} {fault : Fault} :
    (s.readFailed device fault).Beside s .reading := by
  unfold readFailed
  split
  · exact leave_beside (by decide) mild_nil
  · split
    · exact leave_beside (by decide) mild_nil
    · refine (leave_beside (s := { s with readError := some fault }) (by decide) fun e he => ?_).congr rfl
      rw [List.mem_singleton.1 he]
      rfl

theorem written_beside {data : Bytes} : (s.written data).Beside s .sending := by
  refine (leave_beside (s := s.record .sent data) (by decide) fun e he => ?_).congr rfl
  rw [List.mem_singleton.1 he]
  rfl

/-- Whatever a send, a read loop or a wait for the end of reading is told, it leaves the connection
alone. -/
theorem resume_beside (s : Session) (me : Caller) {point : Point} (signal : Signal)
    (hside : point.sideline? = some side) : (s.resume me point signal).Beside s side := by
  have hfinish : ∀ result : Except Fault Result, (s.finish [] result).Beside s side :=
    fun result => finish_beside mild_nil
  have hleave : ∀ (name : LockName) (result : Except Fault Result), name ≠ .lifecycle →
      (s.leave name [] result).Beside s side :=
    fun name result hname => leave_beside hname mild_nil
  have hgives : ∀ name, name ≠ .lifecycle → ((s.giveUp name me).1.finish (s.giveUp name me).2
      (.error .cancelled)).Beside s side :=
    fun name hname => (finish_beside (mild_giveUp s name me)).congr (outline_setLock _ hname)
  cases point with
  | sendTurn data =>
    cases hside
    cases signal with
    | turn => exact (sendLocked_beside data).congr (outline_setLock _ (by decide))
    | cancelled => exact hgives .writer (by decide)
    | _ => exact hfinish _
  | writing device data =>
    cases hside
    cases signal with
    | reply reply =>
      cases reply with
      | failed fault => exact hleave _ _ (by decide)
      | _ => exact written_beside
    | cancelled => exact hleave _ _ (by decide)
    | _ => exact hfinish _
  | readTurn device =>
    cases hside
    cases signal with
    | turn =>
      exact (readNext_beside mild_nil).congr
        (outline_setLock _ (by decide))
    | cancelled => exact hgives .reader (by decide)
    | _ => exact hfinish _
  | reading device =>
    cases hside
    cases signal with
    | reply reply =>
      cases reply with
      | failed fault => exact readFailed_beside
      | chunk data => exact chunkRead_beside
      | _ => exact hfinish _
    | cancelled => exact hleave _ _ (by decide)
    | _ => exact hfinish _
  | closed =>
    cases hside
    cases signal with
    | _ => exact hfinish _
  | _ => cases hside

/-- The fault that a call is told of where it waits. -/
def Signal.fault? : Signal → Option Fault
  | .reply (.failed fault) => some fault
  | .joined (.error fault) => some fault
  | .cancelled => some .cancelled
  | _ => none

theorem readNext_ne_error (s : Session) (effects : List Effect) (device : Handle) (fault : Fault) :
    (s.readNext effects device).pause ≠ .over (.error fault) := by
  unfold readNext
  split <;> exact nofun

theorem beginRead_ne_error (s : Session) (me : Caller) (device : Handle) (fault : Fault) :
    (s.beginRead me device).pause ≠ .over (.error fault) := by
  unfold beginRead enter
  split
  · exact readNext_ne_error _ _ device fault
  · exact nofun

theorem beginWaitClosed_ne_error (s : Session) (fault : Fault) :
    s.beginWaitClosed.pause ≠ .over (.error fault) := by
  unfold beginWaitClosed
  split <;> exact nofun

/-- A read loop and a wait for the end of reading fail only with what they are told. -/
theorem fault_of_resume {point : Point} {signal : Signal} {fault : Fault}
    (hside : point.sideline? = some .reading ∨ point.sideline? = some .awaiting)
    (h : (s.resume me point signal).pause = .over (.error fault)) :
    signal.fault? = some fault := by
  cases signal with
  | reply reply =>
    cases point with
    | reading device =>
      cases reply with
      | failed other =>
        simp only [resume, onReply, readFailed, leave] at h
        split at h
        · cases h
          rfl
        · split at h <;> cases h
      | chunk data =>
        exfalso
        simp only [resume, onReply, chunkRead] at h
        split at h
        · cases h
        · split at h
          · cases h
          · split at h
            · exact readNext_ne_error _ _ _ fault h
            · exact readNext_ne_error _ _ _ fault h
      | _ => cases h
    | readTurn device => cases h
    | closed => cases h
    | _ => rcases hside with hside | hside <;> cases hside
  | turn =>
    cases point with
    | readTurn device => exact absurd h (readNext_ne_error _ _ _ fault)
    | reading device => cases h
    | closed => cases h
    | _ => rcases hside with hside | hside <;> cases hside
  | readingEnded inTime =>
    cases point with
    | readTurn device => cases h
    | reading device => cases h
    | closed => cases h
    | _ => rcases hside with hside | hside <;> cases hside
  | joined result =>
    have hresult : result.map (fun _ => Result.nothing) = .error fault := by
      cases point with
      | readTurn device => exact Pause.over.inj h
      | reading device => exact Pause.over.inj h
      | closed => exact Pause.over.inj h
      | _ => rcases hside with hside | hside <;> cases hside
    cases result with
    | ok value => cases hresult
    | error other =>
      cases hresult
      rfl
  | cancelled =>
    cases point with
    | readTurn device =>
      cases h
      rfl
    | reading device =>
      cases h
      rfl
    | closed =>
      cases h
      rfl
    | _ => rcases hside with hside | hside <;> cases hside

end

end Session

end SerialConsole
