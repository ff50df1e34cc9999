import SerialConsole.Proofs.Session.Inversion

set_option autoImplicit false

/-!
# The phases of a session

What phase, device, read loop and lifecycle lock of a session have to do with each other, and in
which order phases follow. That there is never more than one read loop that has not ended needs an
invariant of its own, `Tended`: such a loop is the latest one, and it belongs to the session or a
disconnect still waits for it.
-/
namespace SerialConsole

/-- The phases that follow each other. -/
inductive Phase.Leads : Phase → Phase → Prop where
  | requests : Leads .disconnected .connecting
  | fails : Leads .connecting .disconnected
  | opens : Leads .connecting .connected
  | ends : Leads .connected .closing
  | closes : Leads .closing .disconnected

namespace Session

/-- The read loop that a disconnect still waits for. -/
def Pause.pending : Pause → Option Nat
  | .askDevice _ (.cancelling _ reader) => reader
  | .awaitEndOfReading n _ | .joinReader n _ => some n
  | _ => none

/-- The read loop that a task still waits for in order to close the device. -/
def Status.pending : Status → Option Nat
  | .rests pause _ => pause.pending
  | _ => none

theorem Holding.vacant {s : Session} {course : Course} {c : Caller} {pause : Pause}
    (h : Holding s course c pause) : Vacant s .connecting ∨ Vacant s .closing := by
  cases h with
  | requesting hs | opening hs => exact Or.inl hs
  | cancelling hs | endOfReading hs | cancelledReading hs | closeTurn hs | closing hs =>
    exact Or.inr hs

namespace World

variable {w next : World} {me : Caller} {course : Course} {events : List Event} {s : Session}
  {pause : Pause}

/-! ## The order of phases -/

theorem Deed.leads (h : w.Deed me events s pause) :
    s.phase = w.session.phase ∨ Phase.Leads w.session.phase s.phase := by
  cases h with
  | requests _ hphase _ =>
    rw [hphase]
    exact Or.inr .requests
  | unoffered _ hphase | unopened _ hphase =>
    rw [hphase]
    exact Or.inr .fails
  | connects _ hs =>
    rw [hs.phase_eq]
    exact Or.inr .opens
  | ends _ hphase _ _ =>
    rw [hphase]
    exact Or.inr .ends
  | closed _ hs =>
    rw [hs.phase_eq]
    exact Or.inr .closes
  | hears _ hhears => exact Or.inl hhears.alike.phase_eq
  | _ => exact Or.inl rfl

theorem Does.leads (h : w.Does me next) :
    next.session.phase = w.session.phase ∨ Phase.Leads w.session.phase next.session.phase := by
  obtain ⟨events, s, pause, hdeed, hchanges⟩ := h
  rw [phase_of_bare hchanges.bare]
  exact hdeed.leads

/-! ## Phase, device and lifecycle lock -/

theorem Sound.held_iff (h : w.Sound course) : w.session.lifecycleLock.held = true ↔
    w.session.phase = .connecting ∨ w.session.phase = .closing := by
  constructor
  · intro hheld
    obtain ⟨_, _, _, _, hholding⟩ := h.holder hheld
    exact hholding.vacant.imp (fun hs => hs.phase_eq) fun hs => hs.phase_eq
  · intro hphase
    cases hheld : w.session.lifecycleLock.held with
    | true => rfl
    | false =>
      cases h.settled hheld with
      | disconnected hs =>
        rw [hs.phase_eq] at hphase
        rcases hphase with heq | heq <;> cases heq
      | connected hconnected _ _ =>
        rw [hconnected] at hphase
        rcases hphase with heq | heq <;> cases heq

theorem Sound.vacant_of_not_connected (h : w.Sound course) (hphase : w.session.phase ≠ .connected) :
    w.session.device = none ∧ w.session.reader = none := by
  cases hheld : w.session.lifecycleLock.held with
  | true =>
    obtain ⟨_, _, _, _, hholding⟩ := h.holder hheld
    rcases hholding.vacant with hs | hs
    · exact ⟨hs.device_eq, hs.reader_eq⟩
    · exact ⟨hs.device_eq, hs.reader_eq⟩
  | false =>
    cases h.settled hheld with
    | disconnected hs => exact ⟨hs.device_eq, hs.reader_eq⟩
    | connected hconnected _ _ => exact absurd hconnected hphase

theorem Sound.connected_iff_device (h : w.Sound course) :
    w.session.phase = .connected ↔ ∃ d, w.session.device = some d := by
  constructor
  · intro hphase
    obtain ⟨d, _, hd, _⟩ := h.connected hphase
    exact ⟨d, hd⟩
  · rintro ⟨d, hd⟩
    by_cases hphase : w.session.phase = .connected
    · exact hphase
    · rw [(h.vacant_of_not_connected hphase).1] at hd
      cases hd

theorem Sound.connected_iff_reader (h : w.Sound course) :
    w.session.phase = .connected ↔ ∃ n, w.session.reader = some n := by
  constructor
  · intro hphase
    obtain ⟨_, n, _, hn, _⟩ := h.connected hphase
    exact ⟨n, hn⟩
  · rintro ⟨n, hn⟩
    by_cases hphase : w.session.phase = .connected
    · exact hphase
    · rw [(h.vacant_of_not_connected hphase).2] at hn
      cases hn

/-! ## Read loops -/

/-- A read loop exists and has not ended. -/
def Unfinished (w : World) (n : Nat) : Prop :=
  w.tasks (.reader n) ≠ .absent ∧ w.resultOf n = none

/-- Read loops that have not ended are looked after. -/
structure Tended (w : World) : Prop where
  named : ∀ n, w.session.reader = some n → n + 1 = w.session.connections
  awaited : ∀ c n, (w.tasks c).pending = some n → n + 1 = w.session.connections
  unfinished : ∀ n, w.Unfinished n → w.session.reader = some n ∨ ∃ c, (w.tasks c).pending = some n

theorem Tended.latest (h : w.Tended) {n : Nat} (hn : w.Unfinished n) :
    n + 1 = w.session.connections := by
  rcases h.unfinished n hn with hreader | ⟨c, hc⟩
  · exact h.named n hreader
  · exact h.awaited c n hc

/-- Who waits for a read loop is a call that has the lifecycle lock, and the session is closing. -/
theorem Sound.pending_holds (h : w.Sound course) {c : Caller} {n : Nat}
    (hpending : (w.tasks c).pending = some n) : (w.tasks c).use .lifecycle = .holds ∧
      w.session.phase = .closing ∧ ∃ id, c = .call id := by
  cases htask : w.tasks c with
  | absent | due d =>
    rw [htask] at hpending
    cases hpending
  | rests pause told =>
    rw [htask] at hpending
    rcases h.rests c pause told htask with haside | hholding
    · cases haside <;> cases hpending
    · refine ⟨if_pos hholding.locked, ?_⟩
      cases hholding with
      | requesting | opening | closeTurn | closing => cases hpending
      | cancelling hs | endOfReading hs | cancelledReading hs => exact ⟨hs.phase_eq, _, rfl⟩

theorem pending_of_sameButTold {a b : Status} (h : SameButTold a b) : b.pending = a.pending := by
  rcases h with rfl | ⟨pause, told, rfl, rfl⟩ <;> rfl

theorem Changes.pending_of_ne (h : w.Changes next me events s pause) (hsound : w.Sound course)
    {c : Caller} (hc : c ≠ me) : (next.tasks c).pending = (w.tasks c).pending := by
  rcases h.tasks_of_ne hsound hc with hsame | ⟨_, _, habsent, d, _, hdue⟩
  · exact pending_of_sameButTold hsame
  · rw [habsent, hdue]
    rfl

theorem ReadingOver.over {c : Caller} {d : Handle} (h : w.ReadingOver c d events) {n : Nat}
    (hpending : (w.tasks c).pending = some n) : w.resultOf n ≠ none := by
  cases h with
  | unread htask =>
    rw [htask] at hpending
    cases hpending
  | inTime htask hover | joined htask hover =>
    rw [htask] at hpending
    cases hpending
    exact hover

theorem Wants.over {name : LockName} {point : Point} (h : w.Wants me name point events) {n : Nat}
    (hpending : (w.tasks me).pending = some n) : w.resultOf n ≠ none := by
  cases h with
  | connect htask | disconnect htask | send htask _ _ _ | read htask =>
    rw [htask] at hpending
    cases hpending
  | close hover _ => exact hover.over hpending

theorem Gets.over {name : LockName} {point : Point} (h : w.Gets me name point events) {n : Nat}
    (hpending : (w.tasks me).pending = some n) : w.resultOf n ≠ none := by
  cases h with
  | atOnce hwants _ => exact hwants.over hpending
  | inTurn htask =>
    rw [htask] at hpending
    cases hpending

/-- A disconnect goes on to wait for the read loop until that has ended. -/
theorem Deed.pending (hsound : w.Sound course) (h : w.Deed me events s pause) {n : Nat}
    (hpending : (w.tasks me).pending = some n) : pause.pending = some n ∨ w.resultOf n ≠ none := by
  cases h with
  | waitsForReader htask _ | cancelsReader htask _ _ =>
    rw [htask] at hpending
    exact Or.inl hpending
  | queues hwants _ => exact Or.inr (hwants.over hpending)
  | busy hgets _ _ | misconfigured hgets _ _ | requests hgets _ _ | writes hgets _ _ | lost hgets _
  | nothingToEnd hgets _ | ends hgets _ _ _ | closes hgets _ | stopsReading hgets _
  | reads hgets _ => exact Or.inr (hgets.over hpending)
  | unoffered htask _ | opens htask _ | unopened htask _ | connects htask _ | refused htask _
  | unwritten htask _ | written htask | closed htask _ | watches htask _ | nothingToWatch htask _
  | watched htask _ | hears htask _ =>
    rw [htask] at hpending
    cases hpending
  | cancelled _ _ _ =>
    obtain ⟨_, _, id, hid⟩ := hsound.pending_holds hpending
    cases hid

theorem Changes.pending (h : w.Changes next me events s pause) (hsound : w.Sound course)
    (hdeed : w.Deed me events s pause) {c : Caller} {n : Nat}
    (hpending : (w.tasks c).pending = some n) (hn : w.resultOf n = none) :
    ∃ c, (next.tasks c).pending = some n := by
  by_cases hc : c = me
  · subst hc
    refine ⟨c, ?_⟩
    rw [h.mine]
    exact (hdeed.pending hsound hpending).resolve_right fun hover => hover hn
  · exact ⟨c, (h.pending_of_ne hsound hc).trans hpending⟩

theorem unfinished_of_sameButTold {n : Nat}
    (hsame : SameButTold (w.tasks (.reader n)) (next.tasks (.reader n))) (h : next.Unfinished n) :
    w.Unfinished n := by
  obtain ⟨hpresent, hnone⟩ := h
  rw [resultOf_eq_none_iff] at hnone
  rcases hsame with heq | ⟨pause, told, hbefore, hafter⟩
  · rw [heq] at hpresent hnone
    exact ⟨hpresent, resultOf_eq_none_iff.2 hnone⟩
  · refine ⟨by rw [hbefore]; nofun, resultOf_eq_none_iff.2 fun result told' heq => ?_⟩
    rw [hbefore] at heq
    cases heq
    exact hnone result true hafter

theorem Changes.unfinished (h : w.Changes next me events s pause) (hsound : w.Sound course)
    (hdeed : w.Deed me events s pause) {n : Nat} (hn : next.Unfinished n) : w.Unfinished n ∨
      n = w.session.connections ∧ s.connections ≠ w.session.connections := by
  by_cases hme : .reader n = me
  · subst hme
    rcases hdeed.canGoOn with ⟨_, id, hid⟩ | ⟨hpresent, hnone⟩
    · cases hid
    · exact Or.inl ⟨hpresent, resultOf_eq_none_iff.2 hnone⟩
  · rcases h.tasks_of_ne hsound hme with hsame | ⟨hnew, hcount, _⟩
    · exact Or.inl (unfinished_of_sameButTold hsame hn)
    · exact Or.inr ⟨Caller.reader.inj hnew, hcount⟩

/-- The connection that a session is at, and how many there were, change only with a connect and
with the start of a disconnect. -/
theorem Deed.reader_cases (h : w.Deed me events s pause) :
    (s.reader = w.session.reader ∧ s.connections = w.session.connections ∧
      ∀ n, pause.pending = some n → (w.tasks me).pending = some n) ∨
    (Vacant w.session .connecting ∧ (w.tasks me).use .lifecycle = .holds ∧
      s.reader = some w.session.connections ∧ s.connections = w.session.connections + 1 ∧
      (w.tasks me).pending = none ∧ pause.pending = none) ∨
    (∃ n, w.session.reader = some n ∧ s.reader = none ∧
      s.connections = w.session.connections ∧ pause.pending = some n) := by
  cases h with
  | connects htask hs =>
    rw [htask]
    exact Or.inr (Or.inl ⟨hs, rfl, rfl, rfl, rfl, rfl⟩)
  | @ends c events d n hgets _ _ hreader =>
    exact Or.inr (Or.inr ⟨n, hreader, rfl, rfl, rfl⟩)
  | waitsForReader htask _ | cancelsReader htask _ _ =>
    rw [htask]
    exact Or.inl ⟨rfl, rfl, fun n hn => hn⟩
  | hears _ hhears =>
    refine Or.inl ⟨hhears.alike.reader_eq, hhears.connections_eq, fun n hn => ?_⟩
    rcases hhears.pause_cases with rfl | rfl <;> cases hn
  | _ => exact Or.inl ⟨rfl, rfl, fun n hn => nomatch hn⟩

theorem Tended.does (h : w.Tended) (hsound : w.Sound course) (hdoes : w.Does me next) :
    next.Tended := by
  obtain ⟨events, s, pause, hdeed, hchanges⟩ := hdoes
  have hreader := reader_of_bare hchanges.bare
  have hconnections := connections_of_bare hchanges.bare
  have hmine : (next.tasks me).pending = pause.pending := by
    rw [hchanges.mine]
    rfl
  have hothers : ∀ c, c ≠ me → (next.tasks c).pending = (w.tasks c).pending :=
    fun c hc => hchanges.pending_of_ne hsound hc
  rcases hdeed.reader_cases with ⟨hsame, hcount, hpause⟩ |
    ⟨hs, hholds, hnew, hcount, hbefore, hafter⟩ | ⟨n, hold, hnone, hcount, hpause⟩
  · refine ⟨fun n hn => ?_, fun c n hc => ?_, fun n hn => ?_⟩
    · rw [hreader, hsame] at hn
      rw [hconnections, hcount]
      exact h.named n hn
    · rw [hconnections, hcount]
      by_cases hcm : c = me
      · rw [hcm, hmine] at hc
        exact h.awaited me n (hpause n hc)
      · rw [hothers c hcm] at hc
        exact h.awaited c n hc
    · rcases hchanges.unfinished hsound hdeed hn with hn | ⟨_, hne⟩
      · rcases h.unfinished n hn with hin | ⟨c, hc⟩
        · exact Or.inl ((hreader.trans hsame).trans hin)
        · exact Or.inr (hchanges.pending hsound hdeed hc hn.2)
      · exact absurd hcount hne
  · -- the connecting task has the lifecycle lock, so nobody waits for a read loop
    have hnobody : ∀ c n, (w.tasks c).pending ≠ some n := by
      intro c n hc
      have hsame := (hsound.locks .lifecycle).unique c me (hsound.pending_holds hc).1 hholds
      rw [hsame, hbefore] at hc
      cases hc
    refine ⟨fun n hn => ?_, fun c n hc => ?_, fun n hn => ?_⟩
    · rw [hreader, hnew] at hn
      cases hn
      rw [hconnections, hcount]
    · by_cases hcm : c = me
      · rw [hcm, hmine, hafter] at hc
        cases hc
      · rw [hothers c hcm] at hc
        exact absurd hc (hnobody c n)
    · rcases hchanges.unfinished hsound hdeed hn with hn | ⟨rfl, _⟩
      · rcases h.unfinished n hn with hin | ⟨c, hc⟩
        · rw [hs.reader_eq] at hin
          cases hin
        · exact absurd hc (hnobody c n)
      · exact Or.inl (hreader.trans hnew)
  · refine ⟨fun m hm => ?_, fun c m hc => ?_, fun m hm => ?_⟩
    · rw [hreader, hnone] at hm
      cases hm
    · rw [hconnections, hcount]
      by_cases hcm : c = me
      · rw [hcm, hmine, hpause] at hc
        cases hc
        exact h.named n hold
      · rw [hothers c hcm] at hc
        exact h.awaited c m hc
    · rcases hchanges.unfinished hsound hdeed hm with hm | ⟨_, hne⟩
      · rcases h.unfinished m hm with hin | ⟨c, hc⟩
        · rw [hold] at hin
          cases hin
          exact Or.inr ⟨me, hmine.trans hpause⟩
        · exact Or.inr (hchanges.pending hsound hdeed hc hm.2)
      · exact absurd hcount hne

theorem fresh_tended (log : Log.Ring) (closeTimeout : Double) :
    (fresh log closeTimeout).Tended := by
  refine ⟨fun n hn => ?_, fun c n hc => ?_, fun n hn => absurd rfl hn.1⟩
  · cases hn
  · cases hc

theorem Reachable.tended (h : w.Reachable) : w.Tended :=
  h.always fresh_tended fun _ _ _ _ _ hsound hdoes htended => htended.does hsound hdoes

/-! ## A busy session -/

theorem kind_of_check {line : LineSettings} {fault : Fault} (h : line.check = .error fault) :
    fault.kind = .openFailed := by
  rw [LineSettings.check] at h
  -- one case for each setting that can be out of range
  repeat' split at h
  all_goals first | (cases h; rfl) | cases h

theorem kind_of_decode {text : List Char} {fault : Fault} (h : Hex.decode text = .error fault) :
    fault.kind = .hexFormat := by
  simp only [Hex.decode] at h
  split at h
  · cases h
  · split at h
    · cases h
      rfl
    · split at h
      · cases h
        rfl
      · cases h

theorem kind_of_encode {data format ending : String} {fault : Fault}
    (h : Payload.encode data format ending = .error fault) :
    fault.kind = .hexFormat ∨ fault.kind = .format := by
  rw [Payload.encode] at h
  split at h
  · split at h
    · exact Or.inl (kind_of_decode h)
    · cases h
      exact Or.inl rfl
  · split at h
    · split at h
      · cases h
      · cases h
        exact Or.inr rfl
    · cases h
      exact Or.inr rfl

theorem Refuses.kind_ne_busy {op : Operation} {fault : Fault} (h : Refuses s op fault) :
    fault.kind ≠ .sessionBusy := by
  cases h with
  | unencoded hpayload =>
    cases op with
    | sendData data format ending =>
      rcases kind_of_encode (Option.some.inj hpayload) with hkind | hkind
      · rw [hkind]
        decide
      · rw [hkind]
        decide
    | send data => cases hpayload
    | connect _ _ | disconnect | waitClosed => cases hpayload
  | unconnected | empty => exact fun hkind => nomatch hkind

theorem kind_writeFault (d : Handle) {fault : Fault} (hordinary : fault.isOrdinary = true) :
    (writeFault d fault).kind = .writeFailed := by
  rw [writeFault]
  split
  case isTrue hpasses =>
    rcases hpasses with hkind | hnot
    · exact hkind
    · exact absurd hordinary hnot
  case isFalse => rfl

theorem kind_openFault_ne_busy (d : Handle) (fault : Fault) :
    (openFault d fault).kind ≠ .sessionBusy := by
  rw [openFault]
  split
  case isTrue hpasses =>
    intro hkind
    rcases hpasses with heq | heq | hnot
    · rw [hkind] at heq
      cases heq
    · rw [hkind] at heq
      cases heq
    · rw [Fault.isOrdinary, hkind] at hnot
      exact hnot rfl
  case isFalse => exact fun hkind => nomatch hkind

/-- A call that fails because of a busy session found it connected, unless the platform itself
failed so. -/
theorem Deed.finds_busy (hsound : w.Sound course) (h : w.Deed me events s pause) {fault : Fault}
    (hpause : pause = .over (.error fault)) (hkind : fault.kind = .sessionBusy) :
    (∃ hint, .answered me (.request hint) (.failed fault) ∈ events) ∨
      w.session.phase = .connected ∧ ∃ d, w.session.device = some d ∧
        fault = .sessionBusy d.name Phase.connected.word := by
  cases h with
  | @busy _ _ _ _ d _ hphase hdevice =>
    cases hpause
    exact Or.inr ⟨hphase, d, hdevice, rfl⟩
  | misconfigured _ _ hcheck =>
    cases hpause
    rw [kind_of_check hcheck] at hkind
    cases hkind
  | @unoffered _ _ hint _ _ _ _ =>
    cases hpause
    exact Or.inl ⟨hint, List.mem_cons_self⟩
  | unopened _ _ =>
    cases hpause
    exact absurd hkind (kind_openFault_ne_busy _ _)
  | refused _ hrefuses =>
    cases hpause
    exact absurd hkind hrefuses.kind_ne_busy
  | lost _ _ =>
    cases hpause
    cases hkind
  | unwritten _ hordinary =>
    cases hpause
    rw [kind_writeFault _ hordinary] at hkind
    cases hkind
  | watched _ hresult =>
    rcases resultOf_cases hsound hresult with rfl | rfl
    · cases hpause
    · cases hpause
      cases hkind
  | cancelled _ _ _ =>
    cases hpause
    cases hkind
  | hears _ hhears => rcases hhears.pause_cases with rfl | rfl <;> cases hpause
  | _ => cases hpause

theorem Reachable.finds_busy (h : w.Reachable) {m : Move} {new : List Event} {c : Caller}
    {fault : Fault} (hmove : w.move m = some next) (hnew : next.history = w.history ++ new)
    (hreturned : .returned c (.error fault) ∈ new) (hkind : fault.kind = .sessionBusy) :
    (∃ hint, .answered c (.request hint) (.failed fault) ∈ new) ∨
      w.session.phase = .connected ∧ ∃ d, w.session.device = some d ∧
        fault = .sessionBusy d.name Phase.connected.word := by
  obtain ⟨_, hsound⟩ := h.sound
  obtain ⟨me, events, s, pause, hdeed, hchanges⟩ := h.does hmove
  have hevents : events = new := List.append_cancel_left (hchanges.history.symm.trans hnew)
  rw [← hevents] at hreturned ⊢
  obtain ⟨rfl, hpause⟩ := hdeed.of_returned hreturned
  exact hdeed.finds_busy hsound hpause hkind

/-- At every point at which tasks give way: a session is connected exactly when it has a device,
and exactly when it has a read loop; its lifecycle lock is held exactly while it is connecting or
closing; at most one read loop has not ended; phases follow each other in the one order that there
is; and a call fails because of a busy session only if that is connected, and names its device,
unless the fault is the platform's own. -/
theorem phases_agree (w : World) (h : w.Reachable) :
    (w.session.phase = .connected ↔ ∃ d, w.session.device = some d) ∧
      (w.session.phase = .connected ↔ ∃ n, w.session.reader = some n) ∧
      (w.session.lifecycleLock.held = true ↔
        w.session.phase = .connecting ∨ w.session.phase = .closing) ∧
      (∀ m n, w.Unfinished m → w.Unfinished n → m = n) ∧
      (∀ m next, w.move m = some next →
        next.session.phase = w.session.phase ∨
          Phase.Leads w.session.phase next.session.phase) ∧
      ∀ m next new c fault, w.move m = some next → next.history = w.history ++ new →
        .returned c (.error fault) ∈ new → fault.kind = .sessionBusy →
        (∃ hint, .answered c (.request hint) (.failed fault) ∈ new) ∨
          w.session.phase = .connected ∧ ∃ d, w.session.device = some d ∧
            fault = .sessionBusy d.name Phase.connected.word := by
  obtain ⟨course, hsound⟩ := h.sound
  refine ⟨hsound.connected_iff_device, hsound.connected_iff_reader, hsound.held_iff, ?_, ?_, ?_⟩
  · intro m n hm hn
    have hlatest := (h.tended.latest hm).trans (h.tended.latest hn).symm
    exact Nat.succ.inj hlatest
  · intro m next hmove
    obtain ⟨me, hdoes⟩ := h.does hmove
    exact hdoes.leads
  · intro m next new c fault
    exact h.finds_busy

/-- A second connect finds the session connected to a device, and names that. -/
theorem phases_agree_busy :
    ∃ w next : World, w.Reachable ∧ w.move (.begin 1 (.connect {} none)) = some next ∧
      next.history = w.history ++ [.begun (.call 1) (.connect {} none),
        .returned (.call 1) (.error (.sessionBusy "tty" "connected"))] ∧
      w.session.phase = .connected ∧ ∃ d, w.session.device = some d ∧
        Fault.sessionBusy "tty" "connected" = .sessionBusy d.name Phase.connected.word := by
  have hrun : ∃ w, (fresh {} Double.zero).run [.begin 0 (.connect {} none),
      .answer (.call 0) (.device ⟨7, "tty"⟩), .answer (.call 0) .done] = some w := ⟨_, rfl⟩
  obtain ⟨w, hw⟩ := hrun
  have hreachable : w.Reachable := ⟨{}, Double.zero, _, hw⟩
  have hmove : ∃ next, w.move (.begin 1 (.connect {} none)) = some next ∧
      next.history = w.history ++ [.begun (.call 1) (.connect {} none),
        .returned (.call 1) (.error (.sessionBusy "tty" "connected"))] := by
    cases hw
    exact ⟨_, rfl, rfl⟩
  obtain ⟨next, hnext, hhistory⟩ := hmove
  refine ⟨w, next, hreachable, hnext, hhistory, ?_⟩
  rcases (phases_agree w hreachable).2.2.2.2.2 _ next _ (.call 1) _ hnext hhistory
    (List.mem_cons_of_mem _ List.mem_cons_self) rfl with ⟨hint, hin⟩ | hfound
  · simp at hin
  · exact hfound

end World

end Session

end SerialConsole
