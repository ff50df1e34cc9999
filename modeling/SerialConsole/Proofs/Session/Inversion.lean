import SerialConsole.Proofs.Session.Deeds

set_option autoImplicit false

/-!
# Every move is a deed

`Sound.does`: whatever moves in a sound world, some task does one of the deeds, and nothing else
changes. For an answer and for a turn it is known which task it is.
-/
namespace SerialConsole.Session

namespace World

variable {w v next : World} {me : Caller} {course : Course} {before : List Event}

namespace Sound

/-- Who has the lifecycle lock if it is held. -/
theorem holder (h : w.Sound course) (hheld : w.session.lifecycleLock.held = true) :
    ∃ c pause told, w.tasks c = .rests pause told ∧ Holding w.session course c pause := by
  obtain ⟨c, hc⟩ := (h.locks .lifecycle).held_iff.1 hheld
  obtain ⟨pause, told, hrests, hlocks⟩ := Status.use_holds hc
  rcases h.rests c pause told hrests with haside | hholding
  · exact absurd hlocks haside.not_locked
  · exact ⟨c, pause, told, hrests, hholding⟩

theorem connected (h : w.Sound course) (hphase : w.session.phase = .connected) :
    ∃ d n, w.session.device = some d ∧ w.session.reader = some n ∧ course = .opened d := by
  cases hheld : w.session.lifecycleLock.held with
  | true =>
    obtain ⟨_, _, _, _, hholding⟩ := h.holder hheld
    exact absurd hphase hholding.not_connected
  | false =>
    cases h.settled hheld with
    | disconnected hs =>
      rw [hs.phase_eq] at hphase
      cases hphase
    | @connected d n _ hdevice hreader => exact ⟨d, n, hdevice, hreader, rfl⟩

/-! ## Starting to run -/

/-- A task is in no row but that of the lock that it awaits. -/
theorem not_mem_row (h : w.Sound course) {name : LockName}
    (hawaits : ∀ pause told, w.tasks me = .rests pause told → pause.awaits ≠ some name) :
    me ∉ (w.session.lock name).waiting := by
  intro hmem
  obtain ⟨told, huse⟩ := ((h.locks name).waiting_iff me).1 hmem
  obtain ⟨pause, hrests, hpause⟩ := Status.use_waits huse
  exact hawaits pause told hrests hpause

theorem underway (h : w.Sound course) (htasks : v.tasks = w.tasks)
    (hhistory : v.history = w.history ++ before)
    (hawaits : ∀ pause told, w.tasks me = .rests pause told → pause.awaits = none) :
    Underway w v me before w.session := by
  refine ⟨htasks, hhistory, rfl, fun name => (List.erase_of_not_mem ?_).symm⟩
  refine h.not_mem_row fun pause told hrests => ?_
  rw [hawaits pause told hrests]
  exact Option.some_ne_none name |>.symm

theorem underway_resume (h : w.Sound course) {pause : Pause} {told : Bool}
    (htask : w.tasks me = .rests pause told) (hpause : pause.awaits = none)
    (htasks : v.tasks = w.tasks) (hhistory : v.history = w.history ++ before) :
    Underway w v me before w.session := by
  refine h.underway htasks hhistory fun pause' told' hrests => ?_
  rw [htask] at hrests
  cases hrests
  exact hpause

theorem underway_absent (h : w.Sound course) {events : List Event}
    (htask : ∀ pause told, w.tasks me ≠ .rests pause told) :
    Underway w (w.happen events) me events w.session :=
  h.underway rfl rfl fun pause told hrests => absurd hrests (htask pause told)

/-- A session in which a task has left the row of the one lock that it awaited. -/
theorem underway_leaving (h : w.Sound course) {name : LockName} {point : Point} {told : Bool}
    {t : Session} (htask : w.tasks me = .rests (.awaitTurn name point) told)
    (htasks : v.tasks = w.tasks) (hhistory : v.history = w.history)
    (hbare : t.bare = w.session.bare)
    (hrows : ∀ other, (t.lock other).waiting =
      if other = name then (w.session.lock other).waiting.erase me
      else (w.session.lock other).waiting) : Underway w v me [] t := by
  refine ⟨htasks, hhistory.trans (List.append_nil _).symm, hbare, fun other => ?_⟩
  rw [hrows other]
  by_cases hother : other = name
  · rw [if_pos hother]
  · rw [if_neg hother]
    refine (List.erase_of_not_mem (h.not_mem_row fun pause' told' hrests hawaits => ?_)).symm
    rw [htask] at hrests
    cases hrests
    exact hother (Option.some.inj hawaits).symm

theorem underway_turn (h : w.Sound course) {name : LockName} {point : Point}
    (htask : w.tasks me = .rests (.awaitTurn name point) true) :
    Underway w w me [] (w.session.takeTurn name me) :=
  h.underway_leaving htask rfl rfl (bare_takeTurn _ _ _) fun other => waiting_takeTurn _ _ other _

/-! ## Going on -/

theorem begin_does (h : w.Sound course) {id : Nat} (habsent : w.tasks (.call id) = .absent)
    (operation : Operation) :
    w.Does (.call id) ((w.happen [.begun (.call id) operation]).absorb (.call id)
      (operation.start w.session (.call id))) := by
  have u : Underway w (w.happen [.begun (.call id) operation]) (.call id)
      [.begun (.call id) operation] w.session :=
    h.underway_absent (by rw [habsent]; exact fun _ _ => nofun)
  have hsettled : ∀ point, w.Gets (.call id) .lifecycle point [.begun (.call id) operation] →
      Settled w.session course := by
    intro point hgets
    cases hgets with
    | atOnce _ hfree =>
      rw [isFree, Bool.and_eq_true, Bool.not_eq_true'] at hfree
      exact h.settled hfree.1
  have hdevice : w.session.phase = .connected → ∃ d, w.session.device = some d := by
    intro hphase
    obtain ⟨d, _, hd, _⟩ := h.connected hphase
    exact ⟨d, hd⟩
  have hrefused : ∀ fault, Refuses w.session operation fault →
      w.Does (.call id) ((w.happen [.begun (.call id) operation]).absorb (.call id)
        (w.session.finish [] (.error fault))) :=
    fun fault hrefuses => ⟨_, _, _, .refused habsent hrefuses, u.finishes rfl⟩
  -- the two kinds of send differ only in where their bytes come from
  have hsend : ∀ data, operation.payload? = some (.ok data) →
      w.Does (.call id) ((w.happen [.begun (.call id) operation]).absorb (.call id)
        (w.session.beginSend (.call id) data)) := by
    intro data hpayload
    rw [beginSend]
    by_cases hphase : w.session.phase = .connected
    · rw [if_neg (not_not_intro hphase)]
      cases data with
      | nil => exact hrefused _ (.empty hpayload hphase)
      | cons b rest =>
        rw [List.isEmpty_cons, if_neg (by decide)]
        exact u.enters (.send habsent hpayload hphase (List.cons_ne_nil b rest))
          fun hgets u => sendLocked_does u hgets hdevice
    · rw [if_pos hphase]
      exact hrefused _ (.unconnected hpayload hphase)
  cases operation with
  | connect line hint =>
    exact u.enters (.connect habsent) fun hgets u => connectLocked_does u hgets (hsettled _ hgets)
  | send data => exact hsend data rfl
  | sendData data format ending =>
    rw [Operation.start, beginSendData]
    cases hencode : Payload.encode data format ending with
    | ok bytes => exact hsend bytes (congrArg some hencode)
    | error fault => exact hrefused fault (.unencoded (congrArg some hencode))
  | disconnect =>
    exact u.enters (.disconnect habsent) fun hgets u =>
      disconnectLocked_does u hgets (hsettled _ hgets)
  | waitClosed =>
    rw [Operation.start, beginWaitClosed]
    cases hreader : w.session.reader with
    | some n =>
      exact ⟨_, _, _, .watches habsent hreader,
        u.changes (fun _ => rfl) rfl (fun _ _ => List.not_mem_nil) rfl rfl⟩
    | none => exact ⟨_, _, _, .nothingToWatch habsent hreader, u.finishes rfl⟩

theorem answer_does (h : w.Sound course) {call : DeviceCall} {point : Point} {told : Bool}
    {reply : Reply} (htask : w.tasks me = .rests (.askDevice call point) told)
    (hadmits : call.admits reply = true) :
    w.Does me ((w.happen [.answered me call reply]).goOn me point (.reply reply)) := by
  have u : Underway w (w.happen [.answered me call reply]) me [.answered me call reply] w.session :=
    h.underway_resume htask rfl rfl rfl
  rcases h.rests me _ told htask with haside | hholding
  · cases haside with
    | @writing id d data =>
      cases reply with
      | failed fault =>
        exact ⟨_, _, _, .unwritten htask hadmits, u.leavesOnly (by simp) rfl⟩
      | done => exact written_does u htask
      | device _ | chunk _ => cases hadmits
    | @reading n d =>
      cases reply with
      | failed fault => exact readFailed_does u htask hadmits
      | chunk data => exact chunkRead_does u htask
      | done | device _ => cases hadmits
  · cases hholding with
    | @requesting id line hint hs =>
      cases reply with
      | failed fault => exact connectFailed_does u (.unoffered htask hs.phase_eq)
      | device d =>
        exact ⟨_, _, _, .opens htask hs.phase_eq, u.asksOnly (fun _ _ => List.not_mem_nil) rfl⟩
      | done | chunk _ => cases hadmits
    | @opening id d line hs =>
      cases reply with
      | failed fault => exact connectFailed_does u (.unopened htask hs.phase_eq)
      | done =>
        exact ⟨_, _, _, .connects htask hs, connected_changes u fun heq => nomatch heq⟩
      | device _ | chunk _ => cases hadmits
    | @cancelling id d reader hs =>
      cases reply with
      | failed fault =>
        change fault.isOrdinary = true at hadmits
        rw [goOn, Session.resume, onReply, if_pos hadmits]
        exact readerNext_does u htask hs (by simp [say]) rfl
      | done => exact readerNext_does u htask hs (fun _ _ => List.not_mem_nil) rfl
      | device _ | chunk _ => cases hadmits
    | @closing id d hs =>
      cases reply with
      | failed fault =>
        change fault.isOrdinary = true at hadmits
        rw [goOn, Session.resume, onReply, if_pos hadmits]
        exact disconnected_does u htask hs (by simp [say]) rfl
      | done => exact disconnected_does u htask hs (fun _ _ => List.not_mem_nil) rfl
      | device _ | chunk _ => cases hadmits

theorem turn_does (h : w.Sound course) {name : LockName} {point : Point}
    (htask : w.tasks me = .rests (.awaitTurn name point) true) :
    w.Does me (w.goOn me point .turn) := by
  have u := h.underway_turn htask
  have hsettled : name = .lifecycle → name ∉ point.locks → Settled w.session course := by
    rintro rfl hnot
    exact h.settled ((h.locks .lifecycle).told me (use_awaited htask hnot)).1
  rcases h.rests me _ true htask with haside | hholding
  · cases haside with
    | connectTurn => exact connectLocked_does u (.inTurn htask) (hsettled rfl List.not_mem_nil)
    | disconnectTurn =>
      exact disconnectLocked_does u (.inTurn htask) (hsettled rfl List.not_mem_nil)
    | sendTurn =>
      refine sendLocked_does u (.inTurn htask) fun hphase => ?_
      obtain ⟨d, _, hd, _⟩ := h.connected hphase
      exact ⟨d, hd⟩
    | readTurn => exact readNext_does u (.inTurn htask)
  · cases hholding with
    | closeTurn hs =>
      exact closeLocked_does u (.inTurn htask) hs (fun _ _ => List.not_mem_nil) rfl

theorem stopWaiting_does (h : w.Sound course) {n : Nat} {point : Point} {told : Bool}
    (htask : w.tasks me = .rests (.awaitEndOfReading n point) told) :
    w.Does me (w.goOn me point (.readingEnded (w.resultOf n).isSome)) := by
  have u : Underway w w me [] w.session :=
    h.underway_resume htask rfl rfl (List.append_nil _).symm
  rcases h.rests me _ told htask with haside | hholding
  · cases haside
  · cases hholding with
    | @endOfReading id _ d hs =>
      cases hresult : w.resultOf n with
      | some result =>
        have hover : w.resultOf n ≠ none := by
          rw [hresult]
          exact Option.some_ne_none result
        exact closeNext_does u (.inTime htask hover) hs (fun _ _ => List.not_mem_nil) rfl
      | none =>
        exact ⟨_, _, _, .cancelsReader htask hs hresult,
          u.changes (fun _ => rfl) rfl (by simp [Session.resume]) rfl rfl⟩

theorem joinReader_does (h : w.Sound course) {n : Nat} {point : Point} {told : Bool}
    {result : Except Fault Result} (htask : w.tasks me = .rests (.joinReader n point) told)
    (hresult : w.resultOf n = some result) : w.Does me (w.goOn me point (.joined result)) := by
  have u : Underway w w me [] w.session :=
    h.underway_resume htask rfl rfl (List.append_nil _).symm
  have hover : w.resultOf n ≠ none := by
    rw [hresult]
    exact Option.some_ne_none result
  rcases h.rests me _ told htask with haside | hholding
  · cases haside
  · cases hholding with
    | cancelledReading hs =>
      rcases resultOf_cases h hresult with rfl | rfl
      · exact closeNext_does u (.joined htask hover) hs (fun _ _ => List.not_mem_nil) rfl
      · exact closeNext_does u (.joined htask hover) hs (fun _ _ => List.not_mem_nil) rfl

theorem watchReader_does (h : w.Sound course) {n : Nat} {point : Point} {told : Bool}
    {result : Except Fault Result} (htask : w.tasks me = .rests (.watchReader n point) told)
    (hresult : w.resultOf n = some result) : w.Does me (w.goOn me point (.joined result)) := by
  have u : Underway w w me [] w.session :=
    h.underway_resume htask rfl rfl (List.append_nil _).symm
  rcases h.rests me _ told htask with haside | hholding
  · cases haside
    exact ⟨_, _, _, .watched htask hresult, u.finishes rfl⟩
  · cases hholding

theorem startReading_does (h : w.Sound course) {n : Nat} {d : Handle}
    (hdue : w.tasks (.reader n) = .due d) :
    w.Does (.reader n) (w.absorb (.reader n) (w.session.beginRead (.reader n) d)) := by
  have u : Underway w w (.reader n) [] w.session := by
    refine h.underway rfl (List.append_nil _).symm fun pause told hrests => ?_
    rw [hdue] at hrests
    cases hrests
  exact u.enters (.read hdue) fun hgets u => readNext_does u hgets

theorem neverRead_does (h : w.Sound course) {n : Nat} {d : Handle}
    (hdue : w.tasks (.reader n) = .due d) (hcancelled : w.cancelled n = true) :
    w.Does (.reader n) ((w.toldToEnd n).rest (.reader n) (.over (.error .cancelled))) := by
  have u : Underway w (w.toldToEnd n) (.reader n) [] w.session := by
    refine h.underway rfl (List.append_nil _).symm fun pause told hrests => ?_
    rw [hdue] at hrests
    cases hrests
  have hdeed : Deed w (.reader n) [.returned (.reader n) (.error .cancelled)] w.session.bare
      (.over (.error .cancelled)) :=
    .cancelled (by rw [hdue]; nofun) (by rw [resultOf, hdue]) hcancelled
  exact ⟨_, _, _, hdeed, u.finishes rfl⟩

theorem cancelReading_does (h : w.Sound course) {n : Nat} {pause : Pause} {point : Point}
    {told : Bool} (htask : w.tasks (.reader n) = .rests pause told)
    (hpoint : pause.point? = some point) (hcancelled : w.cancelled n = true) :
    w.Does (.reader n) ((w.toldToEnd n).goOn (.reader n) point .cancelled) := by
  have hdeed : Deed w (.reader n) [.returned (.reader n) (.error .cancelled)] w.session.bare
      (.over (.error .cancelled)) := by
    refine .cancelled (by rw [htask]; nofun) ?_ hcancelled
    rw [resultOf, htask]
    cases pause with
    | «over» result => cases hpoint
    | _ => rfl
  rcases h.rests _ _ told htask with haside | hholding
  · cases haside with
    | readOver | readCancelled => cases hpoint
    | readTurn =>
      cases hpoint
      have u : Underway w (w.toldToEnd n) (.reader n) []
          (w.session.giveUp .reader (.reader n)).1 :=
        h.underway_leaving htask rfl rfl (bare_giveUp _ _ _) fun other => waiting_giveUp _ _ other _
      have hchanges : Changes w ((w.toldToEnd n).absorb (.reader n)
          ((w.session.giveUp .reader (.reader n)).1.finish
            (w.session.giveUp .reader (.reader n)).2 (.error .cancelled))) (.reader n)
          [.returned (.reader n) (.error .cancelled)]
          (w.session.giveUp .reader (.reader n)).1.bare (.over (.error .cancelled)) :=
        u.changes (fun _ => rfl) rfl (startReader_not_mem_giveUp _ _ _) rfl (by
          rw [finish, event?_giveUp]
          rfl)
      rw [bare_giveUp] at hchanges
      exact ⟨_, _, _, hdeed, hchanges⟩
    | reading =>
      cases hpoint
      have u : Underway w (w.toldToEnd n) (.reader n) [] w.session :=
        h.underway_resume htask rfl rfl (List.append_nil _).symm
      exact ⟨_, _, _, hdeed, u.leavesOnly (fun _ _ => List.not_mem_nil) rfl⟩
  · cases hholding

/-! ## Every move -/

theorem does (h : w.Sound course) (hmoved : Moved w next) : ∃ me, w.Does me next := by
  cases hmoved with
  | begun habsent => exact ⟨_, h.begin_does habsent _⟩
  | answered htask hadmits => exact ⟨_, h.answer_does htask hadmits⟩
  | turned htask => exact ⟨_, h.turn_does htask⟩
  | stoppedWaiting htask => exact ⟨_, h.stopWaiting_does htask⟩
  | joined htask hresult => exact ⟨_, h.joinReader_does htask hresult⟩
  | watched htask hresult => exact ⟨_, h.watchReader_does htask hresult⟩
  | startedReading hdue _ => exact ⟨_, h.startReading_does hdue⟩
  | neverRead hdue hcancelled => exact ⟨_, h.neverRead_does hdue hcancelled⟩
  | cancelledReading htask hpoint hcancelled =>
    exact ⟨_, h.cancelReading_does htask hpoint hcancelled⟩

end Sound

/-! ## Who can do something -/

/-- A call that has not begun, or a task that is there and not over. -/
def CanGoOn (w : World) (c : Caller) : Prop :=
  (w.tasks c = .absent ∧ ∃ id, c = .call id) ∨
    (w.tasks c ≠ .absent ∧ ∀ result told, w.tasks c ≠ .rests (.over result) told)

theorem canGoOn_of_rests {c : Caller} {pause : Pause} {point : Point} {told : Bool}
    (htask : w.tasks c = .rests pause told) (hpoint : pause.point? = some point) :
    w.CanGoOn c := by
  refine Or.inr ⟨by rw [htask]; nofun, fun result told' heq => ?_⟩
  rw [htask] at heq
  cases heq
  cases hpoint

theorem canGoOn_of_absent {id : Nat} (habsent : w.tasks (.call id) = .absent) :
    w.CanGoOn (.call id) :=
  Or.inl ⟨habsent, id, rfl⟩

section

variable {c : Caller} {d : Handle} {name : LockName} {point : Point} {events : List Event}
  {s : Session} {pause : Pause}

theorem ReadingOver.canGoOn (h : w.ReadingOver c d events) : w.CanGoOn c := by
  cases h with
  | unread htask | inTime htask _ | joined htask _ => exact canGoOn_of_rests htask rfl

theorem Wants.canGoOn (h : w.Wants c name point events) : w.CanGoOn c := by
  cases h with
  | connect habsent | disconnect habsent | send habsent _ _ _ => exact canGoOn_of_absent habsent
  | read hdue => exact Or.inr ⟨by rw [hdue]; nofun, fun _ _ => by rw [hdue]; nofun⟩
  | close hover _ => exact hover.canGoOn

theorem Gets.canGoOn (h : w.Gets c name point events) : w.CanGoOn c := by
  cases h with
  | atOnce hwants _ => exact hwants.canGoOn
  | inTurn htask => exact canGoOn_of_rests htask rfl

theorem resultOf_eq_none_iff {n : Nat} : w.resultOf n = none ↔
    ∀ result told, w.tasks (.reader n) ≠ .rests (.over result) told := by
  rw [resultOf]
  constructor
  · intro h result told heq
    rw [heq] at h
    cases h
  · intro h
    split
    case h_1 result told heq => exact absurd heq (h result told)
    case h_2 => rfl

theorem Deed.canGoOn (h : w.Deed c events s pause) : w.CanGoOn c := by
  cases h with
  | queues hwants _ => exact hwants.canGoOn
  | busy hgets _ _ | misconfigured hgets _ _ | requests hgets _ _ | writes hgets _ _ | lost hgets _
  | nothingToEnd hgets _ | ends hgets _ _ _ | closes hgets _ | stopsReading hgets _
  | reads hgets _ => exact hgets.canGoOn
  | refused habsent _ | watches habsent _ | nothingToWatch habsent _ =>
    exact canGoOn_of_absent habsent
  | unoffered htask _ | opens htask _ | unopened htask _ | connects htask _
  | unwritten htask _ | written htask | waitsForReader htask _ | cancelsReader htask _ _
  | closed htask _ | watched htask _ | hears htask _ => exact canGoOn_of_rests htask rfl
  | cancelled hpresent hnone _ => exact Or.inr ⟨hpresent, resultOf_eq_none_iff.1 hnone⟩

theorem Deed.not_over (h : w.Deed c events s pause) {result : Except Fault Result} {told : Bool} :
    w.tasks c ≠ .rests (.over result) told := by
  rcases h.canGoOn with ⟨habsent, _⟩ | ⟨_, hnot⟩
  · rw [habsent]
    nofun
  · exact hnot result told

/-! ## The events of a deed -/

/-- What comes in the history before a task rests again: why it goes on, and what it logs. -/
def Leads (c : Caller) (e : Event) : Prop :=
  (∃ op, e = .begun c op) ∨ (∃ call reply, e = .answered c call reply) ∨ ∃ entry, e = .logged entry

theorem leads_begun (c : Caller) (op : Operation) : Leads c (.begun c op) :=
  Or.inl ⟨op, rfl⟩

theorem leads_answered (c : Caller) (call : DeviceCall) (reply : Reply) :
    Leads c (.answered c call reply) :=
  Or.inr (Or.inl ⟨call, reply, rfl⟩)

theorem leads_logged (c : Caller) (entry : Log.Entry) : Leads c (.logged entry) :=
  Or.inr (Or.inr ⟨entry, rfl⟩)

/-- What comes in the history before a task gets a lock. -/
def Opens (c : Caller) (e : Event) : Prop :=
  (∃ op, e = .begun c op) ∨ ∃ d reply, e = .answered c (.cancelRead d) reply

theorem Opens.leads {e : Event} (h : Opens c e) : Leads c e := by
  obtain ⟨op, rfl⟩ | ⟨d, reply, rfl⟩ := h
  · exact leads_begun c op
  · exact leads_answered c _ reply

theorem ReadingOver.opens (h : w.ReadingOver c d events) : ∀ e ∈ events, Opens c e := by
  cases h with
  | unread _ => exact List.forall_mem_singleton.2 (Or.inr ⟨_, _, rfl⟩)
  | inTime _ _ | joined _ _ => exact List.forall_mem_nil _

theorem Wants.opens (h : w.Wants c name point events) : ∀ e ∈ events, Opens c e := by
  cases h with
  | connect _ | disconnect _ | send _ _ _ _ =>
    exact List.forall_mem_singleton.2 (Or.inl ⟨_, rfl⟩)
  | read _ => exact List.forall_mem_nil _
  | close hover _ => exact hover.opens

theorem Gets.opens (h : w.Gets c name point events) : ∀ e ∈ events, Opens c e := by
  cases h with
  | atOnce hwants _ => exact hwants.opens
  | inTurn _ => exact List.forall_mem_nil _

theorem Hears.events_split {t : Session} {n : Nat} (h : Hears t n d events s pause) :
    ∃ before, events = before ++ pause.events (.reader n) ∧
      ∀ e ∈ before, Leads (.reader n) e := by
  cases h with
  | endsData | drops _ | readsAgain _ | interrupted _ | breaks _ =>
    exact ⟨[_], rfl, List.forall_mem_singleton.2 (leads_answered _ _ _)⟩
  | receives _ _ =>
    exact ⟨[_, _], rfl, List.forall_mem_cons.2
      ⟨leads_answered _ _ _, List.forall_mem_singleton.2 (leads_logged _ _)⟩⟩

theorem Deed.events_split (h : w.Deed c events s pause) :
    ∃ before, events = before ++ pause.events c ∧ ∀ e ∈ before, Leads c e := by
  cases h with
  | queues hwants _ =>
    exact ⟨events, (List.append_nil events).symm, fun e he => (hwants.opens e he).leads⟩
  | busy hgets _ _ | misconfigured hgets _ _ | requests hgets _ _ | writes hgets _ _ | lost hgets _
  | nothingToEnd hgets _ | ends hgets _ _ _ | closes hgets _ | stopsReading hgets _
  | reads hgets _ => exact ⟨_, rfl, fun e he => (hgets.opens e he).leads⟩
  | refused _ _ | watches _ _ | nothingToWatch _ _ =>
    exact ⟨[_], rfl, List.forall_mem_singleton.2 (leads_begun _ _)⟩
  | unoffered _ _ | opens _ _ | unopened _ _ | connects _ _ | unwritten _ _ | waitsForReader _ _
  | closed _ _ => exact ⟨[_], rfl, List.forall_mem_singleton.2 (leads_answered _ _ _)⟩
  | written _ =>
    exact ⟨[_, _], rfl, List.forall_mem_cons.2
      ⟨leads_answered _ _ _, List.forall_mem_singleton.2 (leads_logged _ _)⟩⟩
  | hears _ hhears => exact hhears.events_split
  | cancelsReader _ _ _ | watched _ _ | cancelled _ _ _ => exact ⟨[], rfl, List.forall_mem_nil _⟩

/-- What is true before a task gets a lock, and of what it then does, is true of its whole deed. -/
theorem Gets.forall_events (h : w.Gets c name point events) {P : Event → Prop}
    (hopens : ∀ e, Opens c e → P e) {last : Event} (hlast : P last) : ∀ e ∈ events ++ [last], P e :=
  List.forall_mem_append.2
    ⟨fun e he => hopens e (h.opens e he), List.forall_mem_singleton.2 hlast⟩

theorem Deed.mem_events (h : w.Deed me events s pause) {e : Event} (he : e ∈ events) :
    Leads me e ∨ (∃ result, pause = .over result ∧ e = .returned me result) ∨
      ∃ call point, pause = .askDevice call point ∧ e = .asked me call := by
  obtain ⟨before, rfl, hbefore⟩ := h.events_split
  rcases List.mem_append.1 he with hin | hin
  · exact Or.inl (hbefore e hin)
  · cases pause with
    | «over» result => exact Or.inr (Or.inl ⟨result, rfl, List.mem_singleton.1 hin⟩)
    | askDevice call point => exact Or.inr (Or.inr ⟨call, point, rfl, List.mem_singleton.1 hin⟩)
    | awaitTurn _ _ | awaitEndOfReading _ _ | joinReader _ _ | watchReader _ _ => cases hin

theorem Deed.of_returned (h : w.Deed me events s pause) {result : Except Fault Result}
    (he : .returned c result ∈ events) : c = me ∧ pause = .over result := by
  rcases h.mem_events he with hleads | ⟨_, rfl, heq⟩ | ⟨_, _, _, heq⟩
  · obtain ⟨_, heq⟩ | ⟨_, _, heq⟩ | ⟨_, heq⟩ := hleads <;> cases heq
  · cases heq
    exact ⟨rfl, rfl⟩
  · cases heq

theorem Deed.of_asked (h : w.Deed me events s pause) {call : DeviceCall}
    (he : .asked c call ∈ events) : c = me ∧ ∃ point, pause = .askDevice call point := by
  rcases h.mem_events he with hleads | ⟨_, _, heq⟩ | ⟨_, point, rfl, heq⟩
  · obtain ⟨_, heq⟩ | ⟨_, _, heq⟩ | ⟨_, heq⟩ := hleads <;> cases heq
  · cases heq
  · cases heq
    exact ⟨rfl, point, rfl⟩

end

/-! ## The others -/

namespace Changes

variable {events : List Event} {s : Session} {pause : Pause} {c : Caller}

/-- Another task is where it was, or it is the read loop that the deed brings. -/
theorem tasks_of_ne (h : w.Changes next me events s pause) (hsound : w.Sound course)
    (hc : c ≠ me) : SameButTold (w.tasks c) (next.tasks c) ∨
      c = .reader w.session.connections ∧ s.connections ≠ w.session.connections ∧
        w.tasks c = .absent ∧ ∃ d, s.device = some d ∧ next.tasks c = .due d := by
  by_cases hcount : s.connections = w.session.connections
  · exact Or.inl (h.others c hc (Or.inr hcount))
  · by_cases hnew : c = .reader w.session.connections
    · subst hnew
      exact Or.inr ⟨rfl, hcount, hsound.fresh _ (Nat.le_refl _), h.born hcount⟩
    · exact Or.inl (h.others c hc (Or.inl hnew))

theorem call_of_ne (h : w.Changes next me events s pause) {id : Nat} (hc : .call id ≠ me) :
    SameButTold (w.tasks (.call id)) (next.tasks (.call id)) :=
  h.others _ hc (Or.inl fun heq => nomatch heq)

theorem rested (h : w.Changes next me events s pause) (hsound : w.Sound course) (hc : c ≠ me)
    {there : Pause} {told : Bool} (hrests : next.tasks c = .rests there told) :
    ∃ told, w.tasks c = .rests there told := by
  rcases h.tasks_of_ne hsound hc with (heq | ⟨pause', told', hbefore, hafter⟩) |
    ⟨_, _, _, d, _, hdue⟩
  · exact ⟨told, heq ▸ hrests⟩
  · rw [hafter] at hrests
    cases hrests
    exact ⟨told', hbefore⟩
  · rw [hdue] at hrests
    cases hrests

theorem rests (h : w.Changes next me events s pause) (hsound : w.Sound course) (hc : c ≠ me)
    {there : Pause} {told : Bool} (hrests : w.tasks c = .rests there told) :
    ∃ told, next.tasks c = .rests there told := by
  rcases h.tasks_of_ne hsound hc with (heq | ⟨pause', told', hbefore, hafter⟩) | ⟨_, _, habsent, _⟩
  · exact ⟨told, heq.trans hrests⟩
  · rw [hbefore] at hrests
    cases hrests
    exact ⟨true, hafter⟩
  · rw [habsent] at hrests
    cases hrests

end Changes

/-! ## Runs -/

theorem run_append {moves more : List Move} (hrun : w.run moves = some v) :
    w.run (moves ++ more) = v.run more := by
  have hmoves : moves.foldlM move w = some v := hrun
  rw [run, List.foldlM_append, hmoves]
  rfl

theorem Reachable.run (h : w.Reachable) {moves : List Move} (hrun : w.run moves = some v) :
    v.Reachable := by
  obtain ⟨log, closeTimeout, before, hbefore⟩ := h
  exact ⟨log, closeTimeout, before ++ moves, (run_append hbefore).trans hrun⟩

theorem Reachable.move (h : w.Reachable) {m : Move} (hmove : w.move m = some next) :
    next.Reachable :=
  h.run (show w.run [m] = some next from run_cons_eq_some.2 ⟨next, hmove, rfl⟩)

theorem Reachable.does (h : w.Reachable) {m : Move} (hmove : w.move m = some next) :
    ∃ me, w.Does me next := by
  obtain ⟨course, hsound⟩ := h.sound
  exact hsound.does (moved_of_move hmove)

/-- What holds at one time and what every move keeps holds at all later times. -/
theorem Reachable.keeps_move {P : World → Prop} (h : w.Reachable) {moves : List Move}
    (hrun : w.run moves = some v) (start : P w)
    (keep : ∀ u next m, u.Reachable → u.move m = some next → P u → P next) : P v := by
  induction moves generalizing w with
  | nil =>
    cases hrun
    exact start
  | cons m rest ih =>
    obtain ⟨next, hmove, hrest⟩ := run_cons_eq_some.1 hrun
    exact ih (h.move hmove) hrest (keep w next m h hmove start)

theorem Reachable.keeps {P : World → Prop} (h : w.Reachable) {moves : List Move}
    (hrun : w.run moves = some v) (start : P w)
    (keep : ∀ u next me course, u.Reachable → u.Sound course → u.Does me next → P u → P next) :
    P v := by
  refine h.keeps_move hrun start fun u next m hu hmove hbefore => ?_
  obtain ⟨course, hsound⟩ := hu.sound
  obtain ⟨me, hdoes⟩ := hu.does hmove
  exact keep u next me course hu hsound hdoes hbefore

/-- What holds at first and what every move keeps holds always. -/
theorem Reachable.always_move {P : World → Prop} (h : w.Reachable)
    (start : ∀ log closeTimeout, P (fresh log closeTimeout))
    (keep : ∀ u next m, u.Reachable → u.move m = some next → P u → P next) : P w := by
  obtain ⟨log, closeTimeout, moves, hrun⟩ := h
  have hfresh : (fresh log closeTimeout).Reachable := ⟨log, closeTimeout, [], rfl⟩
  exact hfresh.keeps_move hrun (start log closeTimeout) keep

theorem Reachable.always {P : World → Prop} (h : w.Reachable)
    (start : ∀ log closeTimeout, P (fresh log closeTimeout))
    (keep : ∀ u next me course, u.Reachable → u.Sound course → u.Does me next → P u → P next) :
    P w := by
  obtain ⟨log, closeTimeout, moves, hrun⟩ := h
  have hfresh : (fresh log closeTimeout).Reachable := ⟨log, closeTimeout, [], rfl⟩
  exact hfresh.keeps hrun (start log closeTimeout) keep

end World

end SerialConsole.Session
