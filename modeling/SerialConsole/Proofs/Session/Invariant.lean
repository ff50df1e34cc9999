import SerialConsole.Proofs.Session.Course
import SerialConsole.Proofs.Session.Locks

set_option autoImplicit false

/-!
# The invariant of a session

`World.Sound` is what holds between two steps: the history is a path of the course, the locks agree
with the tasks, the task that has the lifecycle lock rests where phase and course say, and if nobody
has it the session is disconnected or connected. `World.Beside` is the same in the middle of a step
of one task, for all the others. Each thing that a step can do keeps it, and coming to rest leads
back to `World.Sound`.
-/
namespace SerialConsole.Session

/-- The locks that a task has at a point. -/
def Point.locks : Point → List LockName
  | .requesting _ | .opening _ _ | .cancelling _ _ | .endOfReading _ _ | .cancelledReading _
  | .closeTurn _ => [.lifecycle]
  | .closing _ => [.writer, .lifecycle]
  | .writing _ _ => [.writer]
  | .reading _ => [.reader]
  | _ => []

/-- The locks that a task has where it rests. -/
def Pause.locks (pause : Pause) : List LockName :=
  (pause.point?.map Point.locks).getD []

/-- The lock that a task waits for. -/
def Pause.awaits : Pause → Option LockName
  | .awaitTurn name _ => some name
  | _ => none

/-- What a task does with a lock. -/
def Status.use (name : LockName) : Status → Use
  | .rests pause told =>
    if name ∈ pause.locks then .holds
    else if pause.awaits = some name then .waits told
    else .out
  | _ => .out

theorem Status.use_waits {name : LockName} {status : Status} {told : Bool}
    (h : status.use name = .waits told) :
    ∃ pause, status = .rests pause told ∧ pause.awaits = some name := by
  cases status with
  | absent | due d => cases h
  | rests pause told' =>
    rw [use] at h
    split at h
    · cases h
    · split at h
      case isTrue hawaits =>
        cases h
        exact ⟨pause, rfl, hawaits⟩
      case isFalse => cases h

theorem Status.use_holds {name : LockName} {status : Status} (h : status.use name = .holds) :
    ∃ pause told, status = .rests pause told ∧ name ∈ pause.locks := by
  cases status with
  | absent | due d => cases h
  | rests pause told =>
    rw [use] at h
    split at h
    case isTrue hlocks => exact ⟨pause, told, rfl, hlocks⟩
    case isFalse =>
      split at h
      · cases h
      · cases h

/-- Being told changes nothing about another lock. -/
theorem Status.use_told {name other : LockName} {pause : Pause} (told : Bool)
    (hawaits : pause.awaits = some name) (hne : other ≠ name) :
    (Status.rests pause true).use other = (Status.rests pause told).use other := by
  have hother : ¬ pause.awaits = some other := by
    rw [hawaits]
    exact fun heq => hne (Option.some.inj heq).symm
  simp only [use, if_neg hother]

/-- The session is in a phase in which it holds no device. -/
structure Vacant (s : Session) (phase : Phase) : Prop where
  phase_eq : s.phase = phase
  device_eq : s.device = none
  reader_eq : s.reader = none

/-- A session whose lifecycle lock is free, and where its device then stands. -/
inductive Settled (s : Session) : Course → Prop where
  | disconnected : Vacant s .disconnected → Settled s .idle
  | connected {d : Handle} {n : Nat} : s.phase = .connected → s.device = some d →
    s.reader = some n → Settled s (.opened d)

/-- Where a task without the lifecycle lock may rest. A read loop ends with success or cancelled. -/
inductive Aside : Caller → Pause → Prop where
  | over {id : Nat} {result : Except Fault Result} : Aside (.call id) (.over result)
  | connectTurn {id : Nat} {line : LineSettings} {hint : Option String} :
    Aside (.call id) (.awaitTurn .lifecycle (.connectTurn line hint))
  | disconnectTurn {id : Nat} : Aside (.call id) (.awaitTurn .lifecycle .disconnectTurn)
  | sendTurn {id : Nat} {data : Bytes} : Aside (.call id) (.awaitTurn .writer (.sendTurn data))
  | writing {id : Nat} {d : Handle} {data : Bytes} :
    Aside (.call id) (.askDevice (.write d data) (.writing d data))
  | watching {id n : Nat} : Aside (.call id) (.watchReader n .closed)
  | readOver {n : Nat} : Aside (.reader n) (.over (.ok .nothing))
  | readCancelled {n : Nat} : Aside (.reader n) (.over (.error .cancelled))
  | readTurn {n : Nat} {d : Handle} : Aside (.reader n) (.awaitTurn .reader (.readTurn d))
  | reading {n : Nat} {d : Handle} : Aside (.reader n) (.askDevice (.read d) (.reading d))

/-- Where the task with the lifecycle lock may rest, and where the device then stands. -/
inductive Holding (s : Session) : Course → Caller → Pause → Prop where
  | requesting {id : Nat} {line : LineSettings} {hint : Option String} : Vacant s .connecting →
    Holding s .requested (.call id) (.askDevice (.request hint) (.requesting line))
  | opening {id : Nat} {d : Handle} {line : LineSettings} : Vacant s .connecting →
    Holding s (.opening d) (.call id) (.askDevice (.openWith d line) (.opening d line))
  | cancelling {id : Nat} {d : Handle} {reader : Option Nat} : Vacant s .closing →
    Holding s (.ending d) (.call id) (.askDevice (.cancelRead d) (.cancelling (some d) reader))
  | endOfReading {id n : Nat} {d : Handle} : Vacant s .closing →
    Holding s (.ending d) (.call id) (.awaitEndOfReading n (.endOfReading (some d) n))
  | cancelledReading {id n : Nat} {d : Handle} : Vacant s .closing →
    Holding s (.ending d) (.call id) (.joinReader n (.cancelledReading (some d)))
  | closeTurn {id : Nat} {d : Handle} : Vacant s .closing →
    Holding s (.ending d) (.call id) (.awaitTurn .writer (.closeTurn (some d)))
  | closing {id : Nat} {d : Handle} : Vacant s .closing →
    Holding s (.closing d) (.call id) (.askDevice (.close d) (.closing (some d)))

theorem Aside.not_locked {c : Caller} {pause : Pause} (h : Aside c pause) :
    .lifecycle ∉ pause.locks := by
  cases h <;> simp [Pause.locks, Pause.point?, Point.locks]

theorem Holding.locked {s : Session} {course : Course} {c : Caller} {pause : Pause}
    (h : Holding s course c pause) : .lifecycle ∈ pause.locks := by
  cases h <;> simp [Pause.locks, Pause.point?, Point.locks]

theorem Holding.not_connected {s : Session} {course : Course} {c : Caller} {pause : Pause}
    (h : Holding s course c pause) : s.phase ≠ .connected := by
  cases h with
  | requesting hs | opening hs | cancelling hs | endOfReading hs | cancelledReading hs
  | closeTurn hs | closing hs =>
    rw [hs.phase_eq]
    decide

/-- Two sessions that hold the same device in the same phase. -/
structure Alike (s t : Session) : Prop where
  phase_eq : t.phase = s.phase
  device_eq : t.device = s.device
  reader_eq : t.reader = s.reader

theorem Vacant.alike {s t : Session} {phase : Phase} (h : Vacant s phase) (hst : Alike s t) :
    Vacant t phase :=
  ⟨hst.phase_eq.trans h.phase_eq, hst.device_eq.trans h.device_eq, hst.reader_eq.trans h.reader_eq⟩

theorem Settled.alike {s t : Session} {course : Course} (h : Settled s course) (hst : Alike s t) :
    Settled t course := by
  cases h with
  | disconnected hs => exact .disconnected (hs.alike hst)
  | connected hphase hdevice hreader =>
    exact .connected (hst.phase_eq.trans hphase) (hst.device_eq.trans hdevice)
      (hst.reader_eq.trans hreader)

theorem Holding.alike {s t : Session} {course : Course} {c : Caller} {pause : Pause}
    (h : Holding s course c pause) (hst : Alike s t) : Holding t course c pause := by
  cases h with
  | requesting hs => exact .requesting (hs.alike hst)
  | opening hs => exact .opening (hs.alike hst)
  | cancelling hs => exact .cancelling (hs.alike hst)
  | endOfReading hs => exact .endOfReading (hs.alike hst)
  | cancelledReading hs => exact .cancelledReading (hs.alike hst)
  | closeTurn hs => exact .closeTurn (hs.alike hst)
  | closing hs => exact .closing (hs.alike hst)

theorem lock_setLock (s : Session) (name other : LockName) (lock : Lock) :
    (s.setLock name lock).lock other = if other = name then lock else s.lock other := by
  cases name <;> cases other <;> rfl

theorem alike_setLock (s : Session) (name : LockName) (lock : Lock) :
    Alike s (s.setLock name lock) := by
  cases name <;> exact ⟨rfl, rfl, rfl⟩

theorem connections_setLock (s : Session) (name : LockName) (lock : Lock) :
    (s.setLock name lock).connections = s.connections := by
  cases name <;> rfl

namespace World

/-- What holds of a world between two steps. -/
structure Sound (w : World) (course : Course) : Prop where
  path : Course.Path .idle w.history course
  locks : ∀ name, (w.session.lock name).Ok fun c => (w.tasks c).use name
  fresh : ∀ n, w.session.connections ≤ n → w.tasks (.reader n) = .absent
  rests : ∀ c pause told, w.tasks c = .rests pause told →
    Aside c pause ∨ Holding w.session course c pause
  settled : w.session.lifecycleLock.held = false → Settled w.session course

/-- What tasks do with a lock while one of them runs, of which that is given. -/
def useBeside (w : World) (me : Caller) (mine : LockName → Use) (name : LockName) (c : Caller) :
    Use :=
  if c = me then mine name else (w.tasks c).use name

/-- What holds of a world in the middle of a step of a task, which uses the locks as given. -/
structure Beside (w : World) (me : Caller) (mine : LockName → Use) (course : Course) : Prop where
  path : Course.Path .idle w.history course
  locks : ∀ name, (w.session.lock name).Ok (w.useBeside me mine name)
  fresh : ∀ n, w.session.connections ≤ n → .reader n ≠ me ∧ w.tasks (.reader n) = .absent
  rests : ∀ c, c ≠ me → ∀ pause told, w.tasks c = .rests pause told →
    Aside c pause ∨ Holding w.session course c pause
  settled : w.session.lifecycleLock.held = false → Settled w.session course

/-- The use of locks by a task that has the given ones and waits for none. -/
def having (held : List LockName) (name : LockName) : Use :=
  if name ∈ held then .holds else .out

/-- What holds in the middle of a step of a task that has the given locks. -/
abbrev Running (w : World) (me : Caller) (held : List LockName) (course : Course) : Prop :=
  w.Beside me (having held) course

variable {w w' : World} {me : Caller} {mine mine' : LockName → Use} {held : List LockName}
  {course course' : Course}

theorem having_of_mem {name : LockName} (h : name ∈ held) : having held name = .holds :=
  if_pos h

theorem having_of_not_mem {name : LockName} (h : name ∉ held) : having held name = .out :=
  if_neg h

theorem having_cons_of_ne {name other : LockName} (h : other ≠ name) :
    having (name :: held) other = having held other := by
  simp only [having, List.mem_cons, h, false_or]

theorem setTask_self (w : World) (c : Caller) (status : Status) :
    (w.setTask c status).tasks c = status :=
  if_pos rfl

theorem setTask_of_ne (w : World) {c d : Caller} (status : Status) (hc : c ≠ d) :
    (w.setTask d status).tasks c = w.tasks c :=
  if_neg hc

theorem useBeside_me (w : World) (me : Caller) (mine : LockName → Use) (name : LockName) :
    w.useBeside me mine name me = mine name :=
  if_pos rfl

theorem useBeside_of_ne {c : Caller} (name : LockName) (hc : c ≠ me) :
    w.useBeside me mine name c = (w.tasks c).use name :=
  if_neg hc

/-- Who waits for a lock rests where it waits for that one. -/
theorem Beside.waits (h : w.Beside me mine course) {name : LockName} {c : Caller} (hc : c ≠ me)
    (hmem : c ∈ (w.session.lock name).waiting) :
    ∃ pause told, w.tasks c = .rests pause told ∧ pause.awaits = some name ∧
      name ∉ pause.locks := by
  obtain ⟨told, huse⟩ := ((h.locks name).waiting_iff c).1 hmem
  rw [useBeside_of_ne _ hc] at huse
  obtain ⟨pause, hrests, hawaits⟩ := Status.use_waits huse
  refine ⟨pause, told, hrests, hawaits, fun hin => ?_⟩
  rw [hrests, Status.use, if_pos hin] at huse
  cases huse

/-- Telling the first of those who wait for a lock changes nothing else. -/
theorem wake_spec {waiting : List Caller} {name : LockName} (s : Session)
    (hwaits : ∀ c ∈ waiting, ∃ pause told, w.tasks c = .rests pause told ∧
      pause.awaits = some name ∧ name ∉ pause.locks)
    (heq : w' = w.after s (waiting.head?.map Effect.wake).toList) :
    w'.session = s ∧ w'.history = w.history ∧
      (∀ c, w'.tasks c = w.tasks c ∨ ∃ pause told, w.tasks c = .rests pause told ∧
        w'.tasks c = .rests pause true ∧ pause.awaits = some name) ∧
      ∀ c, (w'.tasks c).use name =
        if waiting.head? = some c then .waits true else (w.tasks c).use name := by
  subst heq
  cases hhead : waiting.head? with
  | none => exact ⟨rfl, rfl, fun c => Or.inl rfl, fun c => rfl⟩
  | some first =>
    obtain ⟨pause, told, hrests, hawaits, hlocks⟩ := hwaits first (List.mem_of_head? hhead)
    have hafter : w.after s ((some first).map Effect.wake).toList =
        ({ w with session := s } : World).setTask first (.rests pause true) := by
      simp only [Option.map_some, Option.toList_some, after, List.foldl_cons, List.foldl_nil,
        effect, hrests]
    rw [hafter]
    refine ⟨rfl, rfl, fun c => ?_, fun c => ?_⟩
    · by_cases hc : c = first
      · exact Or.inr ⟨pause, told, hc ▸ hrests, hc ▸ setTask_self _ _ _, hawaits⟩
      · exact Or.inl (setTask_of_ne _ _ hc)
    · by_cases hc : c = first
      · rw [hc, if_pos rfl, setTask_self, Status.use, if_neg hlocks, if_pos hawaits]
      · rw [if_neg (fun heq => hc (Option.some.inj heq).symm), setTask_of_ne _ _ hc]

/-- Changing one lock, and perhaps telling those who wait for it, keeps the rest. -/
theorem Beside.relock (h : w.Beside me mine course) {name : LockName} {lock : Lock}
    (hsession : w'.session = w.session.setLock name lock) (hhistory : w'.history = w.history)
    (htasks : ∀ c, c ≠ me → w'.tasks c = w.tasks c ∨ ∃ pause told,
      w.tasks c = .rests pause told ∧ w'.tasks c = .rests pause true ∧ pause.awaits = some name)
    (hlock : lock.Ok (w'.useBeside me mine' name))
    (hmine : ∀ other, other ≠ name → mine' other = mine other)
    (hsettled : name = .lifecycle → lock.held = false → Settled w.session course) :
    w'.Beside me mine' course := by
  have halike : Alike w.session w'.session := hsession ▸ alike_setLock w.session name lock
  refine ⟨hhistory ▸ h.path, fun other => ?_, fun n hn => ?_, fun c hc pause told hrests => ?_,
    fun hfree => ?_⟩
  · rw [hsession, lock_setLock]
    by_cases hne : other = name
    · rw [if_pos hne, hne]
      exact hlock
    · rw [if_neg hne]
      refine (h.locks other).congr fun c => ?_
      by_cases hcm : c = me
      · rw [hcm, useBeside_me, useBeside_me, hmine other hne]
      · rw [useBeside_of_ne _ hcm, useBeside_of_ne _ hcm]
        rcases htasks c hcm with heq | ⟨pause, told, hbefore, hafter, hawaits⟩
        · rw [heq]
        · rw [hbefore, hafter, Status.use_told told hawaits hne]
  · rw [hsession, connections_setLock] at hn
    obtain ⟨hne, habsent⟩ := h.fresh n hn
    refine ⟨hne, ?_⟩
    rcases htasks (.reader n) hne with heq | ⟨pause, told, hbefore, _⟩
    · rw [heq, habsent]
    · rw [habsent] at hbefore
      cases hbefore
  · have hpause : ∃ told', w.tasks c = .rests pause told' := by
      rcases htasks c hc with heq | ⟨pause', told', hbefore, hafter, _⟩
      · exact ⟨told, heq ▸ hrests⟩
      · rw [hafter] at hrests
        cases hrests
        exact ⟨told', hbefore⟩
    obtain ⟨told', hbefore⟩ := hpause
    exact (h.rests c hc pause told' hbefore).imp_right fun hholding => hholding.alike halike
  · have hlife : w'.session.lifecycleLock = w'.session.lock .lifecycle := rfl
    rw [hlife, hsession, lock_setLock] at hfree
    by_cases hname : LockName.lifecycle = name
    · rw [if_pos hname] at hfree
      exact (hsettled hname.symm hfree).alike halike
    · rw [if_neg hname] at hfree
      exact (h.settled hfree).alike halike

/-! ## What a running task can do -/

namespace Running

theorem held_true (h : w.Running me held course) {name : LockName} (hname : name ∈ held) :
    (w.session.lock name).held = true := by
  refine (h.locks name).held_iff.2 ⟨me, ?_⟩
  rw [useBeside_me, having_of_mem hname]

theorem not_free (h : w.Running me held course) (hlife : .lifecycle ∈ held) :
    ¬ w.session.lifecycleLock.held = false := by
  have hheld : w.session.lifecycleLock.held = true := h.held_true hlife
  rw [hheld]
  decide

/-- Beside a task that has the lifecycle lock, all others rest without it. -/
theorem aside (h : w.Running me held course) (hlife : .lifecycle ∈ held) {c : Caller}
    (hc : c ≠ me) {pause : Pause} {told : Bool} (hrests : w.tasks c = .rests pause told) :
    Aside c pause := by
  rcases h.rests c hc pause told hrests with haside | hholding
  · exact haside
  · have hme : w.useBeside me (having held) .lifecycle me = .holds := by
      rw [useBeside_me, having_of_mem hlife]
    have hother : w.useBeside me (having held) .lifecycle c = .holds := by
      rw [useBeside_of_ne _ hc, hrests, Status.use, if_pos hholding.locked]
    exact absurd ((h.locks .lifecycle).unique c me hother hme) hc

/-- A session is connected only where its device is open. -/
theorem opened (h : w.Running me held course) (hlife : .lifecycle ∉ held) {d : Handle}
    (hphase : w.session.phase = .connected) (hdevice : w.session.device = some d) :
    course = .opened d := by
  cases hheld : w.session.lifecycleLock.held with
  | false =>
    cases h.settled hheld with
    | disconnected hs =>
      rw [hs.phase_eq] at hphase
      cases hphase
    | connected _ hd _ =>
      rw [hd] at hdevice
      cases hdevice
      rfl
  | true =>
    obtain ⟨c, hc⟩ := (h.locks .lifecycle).held_iff.1 hheld
    by_cases hcm : c = me
    · rw [hcm, useBeside_me, having_of_not_mem hlife] at hc
      cases hc
    · rw [useBeside_of_ne _ hcm] at hc
      obtain ⟨pause, told, hrests, hlocks⟩ := Status.use_holds hc
      rcases h.rests c hcm pause told hrests with haside | hholding
      · exact absurd hlocks haside.not_locked
      · exact absurd hphase hholding.not_connected

/-- A change of the session that is no change of its locks; only the task that has the lifecycle
lock changes where the device stands. -/
theorem change (h : w.Running me held course)
    (hlocks : ∀ name, w'.session.lock name = w.session.lock name)
    (htasks : ∀ c, w'.tasks c = w.tasks c ∨
      (w.tasks c = .absent ∧ ∃ d, w'.tasks c = .due d))
    (hfresh : ∀ n, w'.session.connections ≤ n →
      w.session.connections ≤ n ∧ w'.tasks (.reader n) = .absent)
    (hpath : Course.Path .idle w'.history course')
    (hkeep : .lifecycle ∈ held ∨ (course' = course ∧ Alike w.session w'.session)) :
    w'.Running me held course' := by
  refine ⟨hpath, fun name => ?_, fun n hn => ?_, fun c hc pause told hrests => ?_, fun hfree => ?_⟩
  · rw [hlocks name]
    refine (h.locks name).congr fun c => ?_
    by_cases hcm : c = me
    · rw [hcm, useBeside_me, useBeside_me]
    · rw [useBeside_of_ne _ hcm, useBeside_of_ne _ hcm]
      rcases htasks c with heq | ⟨hbefore, d, hafter⟩
      · rw [heq]
      · rw [hbefore, hafter]
        rfl
  · obtain ⟨hn', habsent⟩ := hfresh n hn
    exact ⟨(h.fresh n hn').1, habsent⟩
  · have hbefore : w.tasks c = .rests pause told := by
      rcases htasks c with heq | ⟨_, d, hafter⟩
      · exact heq ▸ hrests
      · rw [hafter] at hrests
        cases hrests
    rcases hkeep with hlife | ⟨rfl, halike⟩
    · exact Or.inl (h.aside hlife hc hbefore)
    · exact (h.rests c hc pause told hbefore).imp_right fun hholding => hholding.alike halike
  · have hlife : w'.session.lifecycleLock = w.session.lifecycleLock := hlocks .lifecycle
    rw [hlife] at hfree
    rcases hkeep with hin | ⟨rfl, halike⟩
    · exact absurd hfree (h.not_free hin)
    · exact (h.settled hfree).alike halike

theorem settled_of_isFree (h : w.Running me held course)
    (hfree : w.session.isFree .lifecycle = true) : Settled w.session course := by
  rw [isFree, Bool.and_eq_true, Bool.not_eq_true'] at hfree
  exact h.settled hfree.1

theorem take (h : w.Running me held course) {name : LockName}
    (hfree : w.session.isFree name = true) :
    (w.after (w.session.take name) []).Running me (name :: held) course := by
  rw [isFree, Bool.and_eq_true, Bool.not_eq_true', List.isEmpty_iff] at hfree
  refine h.relock rfl rfl (fun c _ => Or.inl rfl) ?_ (fun other hother => ?_) (fun _ hheld => ?_)
  · have htaken : (w.after (w.session.take name) []).useBeside me (having (name :: held)) name me =
        .holds := by
      rw [useBeside_me, having_of_mem List.mem_cons_self]
    refine (h.locks name).take hfree.1 hfree.2 htaken fun c hc => ?_
    rw [useBeside_of_ne _ hc, useBeside_of_ne _ hc]
    rfl
  · exact having_cons_of_ne hother
  · cases hheld

theorem release {name : LockName} (h : w.Running me (name :: held) course) (hnot : name ∉ held)
    (hsettled : name = .lifecycle → Settled w.session course) :
    (w.after (w.session.release name) (w.session.wakeFirst name)).Running me held course := by
  have hme : w.useBeside me (having (name :: held)) name me = .holds := by
    rw [useBeside_me, having_of_mem List.mem_cons_self]
  have hwaits : ∀ c ∈ (w.session.lock name).waiting, c ≠ me := by
    rintro c hc rfl
    obtain ⟨told, htold⟩ := ((h.locks name).waiting_iff c).1 hc
    rw [hme] at htold
    cases htold
  obtain ⟨hsession, hhistory, htasks, huse⟩ := wake_spec (w.session.release name)
    (fun c hc => h.waits (hwaits c hc) hc) rfl
  refine h.relock hsession hhistory (fun c _ => htasks c) ?_ (fun other hother => ?_)
    (fun hname _ => hsettled hname)
  · refine (h.locks name).release hme ?_ fun c hc => ?_
    · rw [useBeside_me, having_of_not_mem hnot]
    · rw [useBeside_of_ne _ hc, useBeside_of_ne _ hc]
      exact huse c
  · exact (having_cons_of_ne hother).symm

/-- Coming to rest: the locks agree with it, and it is where the task may rest. -/
theorem settle (h : w.Running me held course) {pause : Pause} {told : Bool}
    (halike : Alike w.session w'.session)
    (hconnections : w'.session.connections = w.session.connections)
    (hlife : w'.session.lifecycleLock.held = w.session.lifecycleLock.held)
    (htask : w'.tasks me = .rests pause told) (hothers : ∀ c, c ≠ me → w'.tasks c = w.tasks c)
    (hlocks : ∀ name, (w'.session.lock name).Ok fun c => (w'.tasks c).use name)
    (hpath : Course.Path .idle w'.history course')
    (hkeep : course' = course ∨ .lifecycle ∈ held)
    (hrests : Aside me pause ∨ Holding w'.session course' me pause) : w'.Sound course' := by
  refine ⟨hpath, hlocks, fun n hn => ?_, fun c pause' told' hc => ?_, fun hfree => ?_⟩
  · rw [hconnections] at hn
    obtain ⟨hne, habsent⟩ := h.fresh n hn
    rw [hothers _ hne, habsent]
  · by_cases hcm : c = me
    · rw [hcm, htask] at hc
      cases hc
      rw [hcm]
      exact hrests
    · rw [hothers c hcm] at hc
      rcases hkeep with rfl | hin
      · exact (h.rests c hcm pause' told' hc).imp_right fun hholding => hholding.alike halike
      · exact Or.inl (h.aside hin hcm hc)
  · rw [hlife] at hfree
    rcases hkeep with rfl | hin
    · exact (h.settled hfree).alike halike
    · exact absurd hfree (h.not_free hin)

theorem rest (h : w.Running me held course) {pause : Pause} (hlocks : pause.locks = held)
    (hawaits : pause.awaits = none) (hpath : Course.Path course (pause.events me) course')
    (hkeep : course' = course ∨ .lifecycle ∈ held)
    (hrests : Aside me pause ∨ Holding w.session course' me pause) :
    (w.rest me pause).Sound course' := by
  have htask : (w.rest me pause).tasks me = .rests pause false := setTask_self _ _ _
  have hothers : ∀ c, c ≠ me → (w.rest me pause).tasks c = w.tasks c :=
    fun c hc => setTask_of_ne _ _ hc
  refine h.settle ⟨rfl, rfl, rfl⟩ rfl rfl htask hothers (fun name => ?_) (h.path.append hpath)
    hkeep hrests
  refine (h.locks name).congr fun c => ?_
  by_cases hcm : c = me
  · rw [hcm, htask, useBeside_me, Status.use, hlocks, hawaits]
    rfl
  · rw [hothers c hcm, useBeside_of_ne _ hcm]

theorem await (h : w.Running me held course) {name : LockName} {point : Point}
    (hbusy : w.session.isFree name = false) (hnot : name ∉ held) (hlocks : point.locks = held)
    (hrests : Aside me (.awaitTurn name point) ∨
      Holding w.session course me (.awaitTurn name point)) :
    ((w.after (w.session.queue name me) []).rest me (.awaitTurn name point)).Sound course := by
  have hbusy' : (w.session.lock name).held = true ∨ (w.session.lock name).waiting ≠ [] := by
    rw [isFree, Bool.and_eq_false_iff, Bool.not_eq_false'] at hbusy
    exact hbusy.imp_right fun hsome hnil => by simp [hnil] at hsome
  have htask : ((w.after (w.session.queue name me) []).rest me (.awaitTurn name point)).tasks me =
      .rests (.awaitTurn name point) false := setTask_self _ _ _
  have hothers : ∀ c, c ≠ me →
      ((w.after (w.session.queue name me) []).rest me (.awaitTurn name point)).tasks c =
        w.tasks c := fun c hc => setTask_of_ne _ _ hc
  have hpause : (Pause.awaitTurn name point).locks = held := hlocks
  have hlife : (w.session.queue name me).lifecycleLock.held = w.session.lifecycleLock.held := by
    cases name <;> rfl
  refine h.settle (alike_setLock _ _ _) (connections_setLock _ _ _) hlife htask hothers
    (fun other => ?_) (h.path.append (Course.Path.nil course)) (Or.inl rfl)
    (hrests.imp_right fun hholding => hholding.alike (alike_setLock _ _ _))
  have hlock : (w.session.queue name me).lock other =
      if other = name then
        { w.session.lock name with waiting := (w.session.lock name).waiting ++ [me] }
      else w.session.lock other := lock_setLock _ _ _ _
  change ((w.session.queue name me).lock other).Ok _
  rw [hlock]
  by_cases hother : other = name
  · rw [if_pos hother, hother]
    refine (h.locks name).queue hbusy' ?_ ?_ fun c hc => ?_
    · rw [useBeside_me, having_of_not_mem hnot]
    · rw [htask, Status.use, hpause, if_neg hnot, Pause.awaits, if_pos rfl]
    · rw [hothers c hc, useBeside_of_ne _ hc]
  · rw [if_neg hother]
    refine (h.locks other).congr fun c => ?_
    by_cases hcm : c = me
    · have hname : ¬ some name = some other := fun heq => hother (Option.some.inj heq).symm
      rw [hcm, htask, useBeside_me, Status.use, hpause, Pause.awaits, if_neg hname, having]
    · rw [hothers c hcm, useBeside_of_ne _ hcm]

end Running

/-! ## Going on -/

namespace Sound

/-- A task starts to run, and uses the locks as it did where it rested. -/
theorem beside (h : w.Sound course) {events : List Event}
    (hfresh : ∀ n, w.session.connections ≤ n → .reader n ≠ me)
    (hpath : Course.Path course events course')
    (hkeep : course' = course ∨ (w.tasks me).use .lifecycle = .holds) :
    (w.happen events).Beside me (fun name => (w.tasks me).use name) course' := by
  refine ⟨h.path.append hpath, fun name => ?_, fun n hn => ⟨hfresh n hn, h.fresh n hn⟩,
    fun c hc pause told hrests => ?_, fun hfree => ?_⟩
  · refine (h.locks name).congr fun c => ?_
    by_cases hcm : c = me
    · rw [hcm, useBeside_me]
    · rw [useBeside_of_ne _ hcm]
      rfl
  · change w.tasks c = .rests pause told at hrests
    refine (h.rests c pause told hrests).imp_right fun hholding => ?_
    rcases hkeep with rfl | hme
    · exact hholding
    · refine absurd ((h.locks .lifecycle).unique c me ?_ hme) hc
      rw [hrests, Status.use, if_pos hholding.locked]
  · change w.session.lifecycleLock.held = false at hfree
    rcases hkeep with rfl | hme
    · exact h.settled hfree
    · exact absurd hme ((h.locks .lifecycle).not_held hfree me)

theorem reader_ne (h : w.Sound course) (hme : w.tasks me ≠ .absent) (n : Nat)
    (hn : w.session.connections ≤ n) : .reader n ≠ me := by
  rintro rfl
  exact hme (h.fresh n hn)

theorem reader_ne_of_rests (h : w.Sound course) {pause : Pause} {told : Bool}
    (htask : w.tasks me = .rests pause told) (n : Nat) (hn : w.session.connections ≤ n) :
    .reader n ≠ me := by
  refine h.reader_ne ?_ n hn
  rw [htask]
  simp

theorem start (h : w.Sound course) {events : List Event}
    (huse : ∀ name, (w.tasks me).use name = .out)
    (hfresh : ∀ n, w.session.connections ≤ n → .reader n ≠ me)
    (hevents : ∀ event ∈ events, event.isAside = true) :
    (w.happen events).Running me [] course := by
  have hbeside := h.beside hfresh ((Course.Path.nil course).asides hevents) (Or.inl rfl)
  have hmine : (fun name => (w.tasks me).use name) = having [] := by
    funext name
    rw [huse name, having_of_not_mem List.not_mem_nil]
  rwa [hmine] at hbeside

/-- A task goes on from where it rests and has the locks that it had there. -/
theorem resume (h : w.Sound course) {pause : Pause} {told : Bool} {events : List Event}
    (htask : w.tasks me = .rests pause told) (hawaits : pause.awaits = none)
    (hpath : Course.Path course events course')
    (hkeep : course' = course ∨ .lifecycle ∈ pause.locks) :
    (w.happen events).Running me pause.locks course' := by
  have hmine : (fun name => (w.tasks me).use name) = having pause.locks := by
    funext name
    rw [htask, Status.use, hawaits]
    rfl
  have hbeside := h.beside (h.reader_ne_of_rests htask) hpath
    (hkeep.imp_right fun hin => by rw [htask, Status.use, if_pos hin])
  rwa [hmine] at hbeside

theorem use_awaited {name : LockName} {point : Point} {told : Bool}
    (htask : w.tasks me = .rests (.awaitTurn name point) told) (hnot : name ∉ point.locks) :
    (w.tasks me).use name = .waits told := by
  rw [htask]
  exact (if_neg hnot).trans (if_pos rfl)

theorem use_awaiting {name other : LockName} {point : Point} {told : Bool}
    (htask : w.tasks me = .rests (.awaitTurn name point) told) (hother : other ≠ name) :
    (w.tasks me).use other = having point.locks other := by
  have hname : ¬ (Pause.awaitTurn name point).awaits = some other :=
    fun heq => hother (Option.some.inj heq).symm
  rw [htask, Status.use, if_neg hname]
  rfl

/-- A task takes the lock that it was told is free. -/
theorem turn (h : w.Sound course) {name : LockName} {point : Point}
    (htask : w.tasks me = .rests (.awaitTurn name point) true) (hnot : name ∉ point.locks) :
    (w.after (w.session.takeTurn name me) []).Running me (name :: point.locks) course := by
  have hbeside := h.beside (h.reader_ne_of_rests htask) (Course.Path.nil course) (Or.inl rfl)
  have hme := use_awaited htask hnot
  refine hbeside.relock rfl (List.append_nil _).symm (fun c _ => Or.inl rfl) ?_
    (fun other hother => ?_) (fun _ hheld => ?_)
  · refine (h.locks name).takeTurn hme ?_ fun c hc => ?_
    · rw [useBeside_me, having_of_mem List.mem_cons_self]
    · rw [useBeside_of_ne _ hc]
      rfl
  · rw [use_awaiting htask hother]
    exact having_cons_of_ne hother
  · cases hheld

theorem giveUp (h : w.Sound course) {name : LockName} {point : Point} {told : Bool}
    (htask : w.tasks me = .rests (.awaitTurn name point) told) (hnot : name ∉ point.locks) :
    (w.after (w.session.giveUp name me).1 (w.session.giveUp name me).2).Running me point.locks
      course := by
  have hbeside := h.beside (h.reader_ne_of_rests htask) (Course.Path.nil course) (Or.inl rfl)
  have hme := use_awaited htask hnot
  have hwaits : ∀ c ∈ (w.session.lock name).waiting.erase me, ∃ pause told,
      w.tasks c = .rests pause told ∧ pause.awaits = some name ∧ name ∉ pause.locks := by
    intro c hc
    obtain ⟨hcm, hmem⟩ := (h.locks name).nodup.mem_erase_iff.1 hc
    exact hbeside.waits hcm hmem
  have hother : ∀ other, other ≠ name → having point.locks other = (w.tasks me).use other :=
    fun other hne => (use_awaiting htask hne).symm
  have hlock : (w.session.giveUp name me).1.lock name =
      { w.session.lock name with waiting := (w.session.lock name).waiting.erase me } := by
    rw [Session.giveUp, lock_setLock, if_pos rfl]
  cases hheld : (w.session.lock name).held with
  | true =>
    have heffects : (w.session.giveUp name me).2 = [] := by
      change (if ((w.session.giveUp name me).1.lock name).held then [] else _) = _
      rw [hlock, if_pos hheld]
    rw [heffects]
    refine hbeside.relock rfl (List.append_nil _).symm (fun c _ => Or.inl rfl) ?_ hother
      fun hname hfree => ?_
    · refine (h.locks name).giveUp hme ?_ fun c hc => ?_
      · rw [useBeside_me, having_of_not_mem hnot]
      · rw [useBeside_of_ne _ hc, hheld]
        rfl
    · change (w.session.lock name).held = false at hfree
      rw [hheld] at hfree
      cases hfree
  | false =>
    have heffects : (w.session.giveUp name me).2 =
        (((w.session.lock name).waiting.erase me).head?.map Effect.wake).toList := by
      change (if ((w.session.giveUp name me).1.lock name).held then [] else
        (((w.session.giveUp name me).1.lock name).waiting.head?.map Effect.wake).toList) = _
      rw [hlock]
      exact if_neg (by rw [hheld]; decide)
    obtain ⟨hsession, hhistory, htasks, huse⟩ := wake_spec (w.session.giveUp name me).1 hwaits rfl
    rw [heffects]
    refine hbeside.relock hsession (hhistory.trans (List.append_nil _).symm) (fun c _ => htasks c)
      ?_ hother fun hname _ => ?_
    · refine (h.locks name).giveUp hme ?_ fun c hc => ?_
      · rw [useBeside_me, having_of_not_mem hnot]
      · rw [useBeside_of_ne _ hc, huse c, hheld]
        simp only [true_and]
    · subst hname
      exact h.settled hheld

end Sound

end World

end SerialConsole.Session
