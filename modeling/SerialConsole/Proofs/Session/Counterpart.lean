import SerialConsole.Proofs.Session.Idling

set_option autoImplicit false

/-!
# A world without one of its calls

While a session has no device, a connect that fails in the end leaves no trace in it: next to the
world in which it tries, there is the world in which it never came, nor anything that has begun
since (`Counterpart`). The tasks that were there before go on in both worlds in the same way
(`Counterpart.follows`), and what the others do changes nothing in the second (`Counterpart.skips`).
When the others are over, the two worlds have the same future (`Counterpart.twins`).
-/
namespace SerialConsole.Session

/-- Whether a task is there. -/
def Status.isThere : Status → Bool
  | .absent => false
  | _ => true

theorem Status.awake_isThere (status : Status) : status.awake.isThere = status.isThere := by
  cases status <;> rfl

theorem Status.awake_awake (status : Status) : status.awake.awake = status.awake := by
  cases status <;> rfl

/-- Whether a task is told twice does not matter, nor who tells it first. -/
theorem Status.awake_comm (p q : Prop) [Decidable p] [Decidable q] (status : Status) :
    (if p then (if q then status.awake else status).awake
      else if q then status.awake else status) =
    if q then (if p then status.awake else status).awake
      else if p then status.awake else status := by
  by_cases hp : p <;> by_cases hq : q <;> simp [hp, hq, awake_awake]

theorem eq_of_bare {s t : Session} (hbare : s.bare = t.bare)
    (hlifecycle : s.lifecycleLock = t.lifecycleLock) (hreader : s.readerLock = t.readerLock)
    (hwriter : s.writerLock = t.writerLock) : s = t := by
  have hs : s = { s.bare with
      lifecycleLock := s.lifecycleLock
      readerLock := s.readerLock
      writerLock := s.writerLock } := rfl
  rw [hs, hbare, hlifecycle, hreader, hwriter]
  rfl

namespace World

/-- Whether a task other than the call was there: a read loop, or a call that had begun. -/
def hadBefore (w : World) (id : Nat) : Caller → Bool
  | .reader _ => true
  | .call other => other ≠ id && (w.tasks (.call other)).isThere

theorem hadBefore_self (w : World) (id : Nat) : w.hadBefore id (.call id) = false := by
  simp [hadBefore]

theorem ne_of_hadBefore {w : World} {id : Nat} {c c' : Caller} (hc : w.hadBefore id c = true)
    (hc' : w.hadBefore id c' = false) : c ≠ c' := by
  rintro rfl
  exact absurd (hc.symm.trans hc') (by decide)

/-- `v` is what `w` would be if the call had not come, nor anything that was not there at `first`.
A task that waits behind the call in `w` is told in `v` that the lock is free. -/
structure Counterpart (first : World) (id : Nat) (w v : World) : Prop where
  bare : v.session.bare = { w.session.bare with phase := .disconnected }
  free : v.session.lifecycleLock.held = false
  reader : v.session.readerLock = w.session.readerLock
  writer : v.session.writerLock = w.session.writerLock
  row : ∃ later, w.session.lifecycleLock.waiting = v.session.lifecycleLock.waiting ++ later ∧
    ∀ c ∈ later, first.hadBefore id c = false
  rowBefore : ∀ c ∈ v.session.lifecycleLock.waiting, first.hadBefore id c = true
  writing : ∀ c ∈ w.session.writerLock.waiting, first.hadBefore id c = true
  cancelled : v.cancelled = w.cancelled
  tasks : ∀ c, first.hadBefore id c = true → v.tasks c =
    if w.session.lifecycleLock.held = true ∧ v.session.lifecycleLock.waiting.head? = some c then
      (w.tasks c).awake
    else w.tasks c
  begun : ∀ i, first.hadBefore id (.call i) = true → (w.tasks (.call i)).isThere = true
  absent : ∀ i, first.hadBefore id (.call i) = false → i ≠ id → v.tasks (.call i) = .absent
  own : (v.tasks (.call id)).Inert

/-- The world without a call that is about to get the lifecycle lock by the move: if it has waited
for its turn, it is cancelled. -/
def withdrawn (w : World) (id : Nat) (point : Point) : Move → World
  | .begin _ _ => w
  | _ => w.goOn (.call id) point .cancelled

/-- The world while a connect has the lifecycle lock. -/
def connecting (w : World) (id : Nat) : World :=
  { w with session := { w.session.takeTurn .lifecycle (.call id) with phase := .connecting } }

section

variable {w : World} {id : Nat} {op : Operation} {line : LineSettings} {hint : Option String}
  {m : Move} {course : Course} {c : Caller}

theorem EntersBy.withdrawn_eq (h : w.EntersBy id op (.connectTurn line hint) m)
    (hsound : w.Sound course) : ∃ status history, status.Inert ∧
      w.withdrawn id (.connectTurn line hint) m = { w with
        session := (w.session.giveUp .lifecycle (.call id)).1
        tasks := fun c =>
          if c = .call id then status
          else if (w.session.lifecycleLock.waiting.erase (.call id)).head? = some c then
            (w.tasks c).awake
          else w.tasks c
        history } := by
  have hheld := h.not_held hsound
  cases h with
  | atOnce habsent hfree =>
    rw [isFree, Bool.and_eq_true, List.isEmpty_iff] at hfree
    have hnone : w.session.lifecycleLock.waiting = [] := hfree.2
    have hsession : (w.session.giveUp .lifecycle (.call id)).1 = w.session := by
      change { w.session with lifecycleLock := { w.session.lifecycleLock with
        waiting := w.session.lifecycleLock.waiting.erase (.call id) } } = w.session
      have herase : w.session.lifecycleLock.waiting.erase (.call id) =
          w.session.lifecycleLock.waiting := by rw [hnone, List.erase_nil]
      rw [herase]
    have htasks : (fun c => if c = .call id then .absent
        else if (w.session.lifecycleLock.waiting.erase (.call id)).head? = some c then
          (w.tasks c).awake
        else w.tasks c) = w.tasks := by
      funext c
      by_cases hc : c = .call id
      · rw [if_pos hc, hc, habsent]
      · rw [if_neg hc, hnone]
        exact if_neg (by simp)
    refine ⟨.absent, w.history, .absent, ?_⟩
    rw [hsession, htasks]
    rfl
  | inTurn htask =>
    refine ⟨.rests (.over (.error .cancelled)) false,
      w.history ++ [.returned (.call id) (.error .cancelled)], .over, ?_⟩
    have hleft : ((w.session.giveUp .lifecycle (.call id)).1.lock .lifecycle).held = false := hheld
    have heffects : (w.session.giveUp .lifecycle (.call id)).2 =
        (w.session.giveUp .lifecycle (.call id)).1.wakeFirst .lifecycle :=
      if_neg (Bool.eq_false_iff.1 hleft)
    change w.absorb (.call id) ((w.session.giveUp .lifecycle (.call id)).1.finish
      (w.session.giveUp .lifecycle (.call id)).2 (.error .cancelled)) = _
    rw [absorb, finish, heffects, after_wakeFirst]
    rfl

/-- Who waits for a lock was there. -/
theorem Sound.isThere_of_waits (h : w.Sound course) {name : LockName}
    (hc : c ∈ (w.session.lock name).waiting) : (w.tasks c).isThere = true := by
  obtain ⟨told, hwaits⟩ := ((h.locks name).waiting_iff c).1 hc
  obtain ⟨pause, hrests, -⟩ := Status.use_waits hwaits
  rw [hrests]
  rfl

theorem hadBefore_of_waits (h : w.Sound course) {name : LockName}
    (hc : c ∈ (w.session.lock name).waiting) (hne : c ≠ .call id) : w.hadBefore id c = true := by
  cases c with
  | reader n => rfl
  | call i =>
    have hi : i ≠ id := fun heq => hne (congrArg Caller.call heq)
    rw [hadBefore, h.isThere_of_waits hc]
    simp [hi]

theorem isThere_of_hadBefore {i : Nat} (h : w.hadBefore id (.call i) = true) :
    (w.tasks (.call i)).isThere = true := by
  rw [hadBefore, Bool.and_eq_true] at h
  exact h.2

theorem absent_of_not_hadBefore {i : Nat} (h : w.hadBefore id (.call i) = false) (hi : i ≠ id) :
    w.tasks (.call i) = .absent := by
  cases htask : w.tasks (.call i) with
  | absent => rfl
  | due d | rests pause told =>
    rw [hadBefore, htask] at h
    simp [hi, Status.isThere] at h

/-- A connect that begins and the same world without it. -/
theorem EntersBy.counterpart (h : w.EntersBy id op (.connectTurn line hint) m)
    (hsound : w.Sound course) (hphase : w.session.phase = .disconnected) :
    Counterpart w id (w.connecting id) (w.withdrawn id (.connectTurn line hint) m) := by
  obtain ⟨status, history, hstatus, heq⟩ := h.withdrawn_eq hsound
  have hrow : ∀ c ∈ w.session.lifecycleLock.waiting.erase (.call id), w.hadBefore id c = true := by
    intro c hc
    obtain ⟨hne, hmem⟩ := ((hsound.locks .lifecycle).nodup.mem_erase_iff).1 hc
    exact hadBefore_of_waits hsound hmem hne
  rw [heq]
  exact {
    bare := by
      change w.session.bare = { w.session.bare with phase := .disconnected }
      rw [← hphase]
      rfl
    free := h.not_held hsound
    reader := rfl
    writer := rfl
    row := ⟨[], (List.append_nil _).symm, List.forall_mem_nil _⟩
    rowBefore := hrow
    writing := fun c hc => by
      refine hadBefore_of_waits hsound (show c ∈ (w.session.lock .writer).waiting from hc) ?_
      rintro rfl
      obtain ⟨told, hwaits⟩ := ((hsound.locks .writer).waiting_iff _).1 hc
      cases h with
      | atOnce habsent _ =>
        rw [habsent] at hwaits
        cases hwaits
      | inTurn htask =>
        rw [htask] at hwaits
        cases hwaits
    cancelled := rfl
    tasks := fun c hc => by
      refine (if_neg (ne_of_hadBefore hc (hadBefore_self w id))).trans ?_
      exact ite_congr (propext (and_iff_right rfl).symm) (fun _ => rfl) fun _ => rfl
    begun := fun i hi => isThere_of_hadBefore hi
    absent := fun i hi hne => by
      have hnot : (.call i : Caller) ≠ .call id := fun heq => hne (Caller.call.inj heq)
      refine (if_neg hnot).trans ((if_neg fun hhead => ?_).trans (absent_of_not_hadBefore hi hne))
      exact ne_of_hadBefore (hrow _ (List.mem_of_head? hhead)) hi rfl
    own := by
      change Status.Inert (ite _ _ _)
      rwa [if_pos rfl] }

end

namespace Counterpart

variable {first w v next : World} {id : Nat} {m : Move} {step : Step} {course : Course}
  {me c : Caller}

theorem head?_append {row later : List Caller}
    (hlater : ∀ c ∈ later, first.hadBefore id c = false) (hc : first.hadBefore id c = true) :
    (row ++ later).head? = some c ↔ row.head? = some c := by
  cases row with
  | cons c' rest => rfl
  | nil =>
    exact ⟨fun hhead => absurd rfl (ne_of_hadBefore hc (hlater c (List.mem_of_head? hhead))), nofun⟩

theorem head?_eq (h : Counterpart first id w v) (hc : first.hadBefore id c = true) :
    w.session.lifecycleLock.waiting.head? = some c ↔
      v.session.lifecycleLock.waiting.head? = some c := by
  obtain ⟨later, hrow, hlater⟩ := h.row
  rw [hrow]
  exact head?_append hlater hc

/-- Who was there before is in the one world as in the other, unless it waits behind the call. -/
theorem tasks_eq (h : Counterpart first id w v) (hc : first.hadBefore id c = true)
    (hnot : w.session.lifecycleLock.held = true →
      c ∉ w.session.lifecycleLock.waiting) : v.tasks c = w.tasks c := by
  rw [h.tasks c hc, if_neg]
  rintro ⟨hheld, hhead⟩
  exact hnot hheld (List.mem_of_head? ((h.head?_eq hc).2 hhead))

/-! ## What the others do -/

/-- Another comes to rest without touching the session. -/
theorem rests (h : Counterpart first id w v) (hme : first.hadBefore id me = false)
    (events : List Event) (pause : Pause) :
    Counterpart first id ((w.happen events).absorb me ⟨w.session, [], pause⟩) v := by
  have htasks : ∀ c, first.hadBefore id c = true →
      ((w.happen events).absorb me ⟨w.session, [], pause⟩).tasks c = w.tasks c :=
    fun c hc => setTask_of_ne _ _ (ne_of_hadBefore hc hme)
  exact { h with
    tasks := fun c hc => by
      rw [htasks c hc]
      exact h.tasks c hc
    begun := fun i hi => by
      rw [htasks _ hi]
      exact h.begun i hi }

/-- Another waits for the lifecycle lock. -/
theorem queues (h : Counterpart first id w v) (hme : first.hadBefore id me = false)
    (events : List Event) (point : Point) :
    Counterpart first id ((w.happen events).absorb me
      ⟨w.session.queue .lifecycle me, [], .awaitTurn .lifecycle point⟩) v := by
  have hrests := h.rests hme events (.awaitTurn .lifecycle point)
  obtain ⟨later, hrow, hlater⟩ := h.row
  exact { hrests with
    row := by
      refine ⟨later ++ [me], ?_, ?_⟩
      · change w.session.lifecycleLock.waiting ++ [me] = _
        rw [hrow, List.append_assoc]
      · exact List.forall_mem_append.2 ⟨hlater, List.forall_mem_singleton.2 hme⟩ }

/-- Another gets the lifecycle lock and gives it back. -/
theorem passes (h : Counterpart first id w v) (hme : first.hadBefore id me = false)
    (hempty : v.session.lifecycleLock.waiting = []) (hfree : w.session.lifecycleLock.held = false)
    (events : List Event) (result : Except Fault Result) :
    Counterpart first id ((w.happen events).absorb me
      (leave (w.session.takeTurn .lifecycle me) .lifecycle [] result)) v := by
  obtain ⟨later, hrow, hlater⟩ := h.row
  rw [hempty, List.nil_append] at hrow
  have hothers : ∀ c, first.hadBefore id c = true → ((w.happen events).absorb me
      (leave (w.session.takeTurn .lifecycle me) .lifecycle [] result)).tasks c = w.tasks c := by
    intro c hc
    rw [absorb_leave]
    refine (if_neg (ne_of_hadBefore hc hme)).trans (if_neg fun hhead => ?_)
    have hmem := List.mem_of_mem_erase (List.mem_of_head? hhead)
    exact ne_of_hadBefore hc (hlater c (hrow ▸ hmem)) rfl
  rw [absorb_leave] at hothers ⊢
  exact { h with
    bare := h.bare
    row := by
      refine ⟨later.erase me, ?_, fun c hc => hlater c (List.mem_of_mem_erase hc)⟩
      rw [hempty, List.nil_append, ← hrow]
      rfl
    tasks := fun c hc => by
      rw [hothers c hc, if_neg (by rw [hempty]; simp)]
      exact h.tasks_eq hc fun hheld => absurd (hfree.symm.trans hheld) (by decide)
    begun := fun i hi => by
      rw [hothers _ hi]
      exact h.begun i hi }

/-- What a task does that was not there before changes nothing in the other world. -/
theorem skips (h : Counterpart first id w v) (hsound : w.Sound course) (hstep : w.Idles m step)
    (hme : first.hadBefore id m.caller = false) :
    Counterpart first id ((w.happen m.begun).absorb m.caller step) v := by
  cases hstep with
  | ends _ | joins _ _ => exact h.rests hme _ _
  | queues _ => exact h.queues hme _ _
  | passes _ hfree =>
    rw [isFree, Bool.and_eq_true, Bool.not_eq_true', List.isEmpty_iff] at hfree
    obtain ⟨later, hrow, _⟩ := h.row
    have hnone : v.session.lifecycleLock.waiting ++ later = [] := hrow ▸ hfree.2
    exact h.passes hme (List.append_eq_nil_iff.1 hnone).1 hfree.1 _ _
  | @finds c _ _ htask _ =>
    obtain ⟨hfree, hhead⟩ := (hsound.locks .lifecycle).told _ (hsound.mem_waiting htask).1
    obtain ⟨later, hrow, _⟩ := h.row
    change w.session.lifecycleLock.waiting.head? = some c at hhead
    rw [hrow] at hhead
    refine h.passes hme ?_ hfree _ _
    cases hwaiting : v.session.lifecycleLock.waiting with
    | nil => rfl
    | cons c' rest =>
      rw [hwaiting] at hhead
      cases hhead
      exact absurd rfl (ne_of_hadBefore (h.rowBefore c (hwaiting ▸ List.mem_cons_self)) hme)
  | loses htask =>
    exact absurd rfl (ne_of_hadBefore (h.writing _ (hsound.mem_waiting htask).2) hme)

/-! ## What the tasks do that were there -/

theorem isThere_leave {s : Session} {name : LockName} {result : Except Fault Result}
    (h : (w.tasks c).isThere = true) :
    ((w.absorb me (s.leave name [] result)).tasks c).isThere = true := by
  rw [absorb_leave]
  change Status.isThere (ite _ _ _) = true
  split
  · rfl
  · split
    · rwa [Status.awake_isThere]
    · exact h

/-- Who gives a lock back tells nobody who was not there before, if only such tasks wait for it. -/
theorem tasks_leave {s : Session} {name : LockName} {result : Except Fault Result}
    (hme : first.hadBefore id me = true)
    (hrow : ∀ c ∈ (s.lock name).waiting, first.hadBefore id c = true)
    (hc : first.hadBefore id c = false) :
    (w.absorb me (s.leave name [] result)).tasks c = w.tasks c := by
  rw [absorb_leave]
  refine (if_neg (ne_of_hadBefore hme hc).symm).trans (if_neg fun hhead => ?_)
  exact ne_of_hadBefore (hrow c (List.mem_of_head? hhead)) hc rfl

/-- A call waits for nothing in the row of the lifecycle lock unless it rests there. -/
theorem not_mem_row (hsound : w.Sound course) (huse : (w.tasks c).use .lifecycle = .out) :
    c ∉ w.session.lifecycleLock.waiting := by
  intro hmem
  obtain ⟨told, hwaits⟩ := ((hsound.locks .lifecycle).waiting_iff c).1 hmem
  rw [huse] at hwaits
  cases hwaits

theorem phase_eq (h : Counterpart first id w v) : v.session.phase = .disconnected :=
  (congrArg Session.phase h.bare :)

theorem resultOf_eq (h : Counterpart first id w v) (hsound : w.Sound course) {n : Nat}
    {result : Except Fault Result} (hresult : w.resultOf n = some result) :
    v.resultOf n = some result := by
  have hsame : v.tasks (.reader n) = w.tasks (.reader n) := by
    refine h.tasks_eq rfl fun _ => not_mem_row hsound ?_
    rw [resultOf] at hresult
    split at hresult
    case h_1 htask =>
      rw [htask]
      rfl
    case h_2 => cases hresult
  rw [resultOf, hsame]
  exact hresult

theorem follows_finds (h : Counterpart first id w v) (hsound : w.Sound course) {point : Point}
    {result : Except Fault Result} (hc : first.hadBefore id c = true)
    (htask : w.tasks c = .rests (.awaitTurn .lifecycle point) true)
    (hturn : ∀ s : Session, s.phase = .disconnected →
      s.onTurn c point = leave (s.takeTurn .lifecycle c) .lifecycle [] result) :
    ∃ next, v.move (.turn c) = some next ∧ next.session.bare = v.session.bare ∧
      Counterpart first id
        (w.absorb c (leave (w.session.takeTurn .lifecycle c) .lifecycle [] result)) next := by
  obtain ⟨hfree, hhead⟩ := (hsound.locks .lifecycle).told _ (hsound.mem_waiting htask).1
  have hsame : ∀ c, first.hadBefore id c = true → v.tasks c = w.tasks c := fun c hc =>
    h.tasks_eq hc fun hheld => absurd (hfree.symm.trans hheld) (by decide)
  have hmove : v.move (.turn c) = some (v.absorb c
      (leave (v.session.takeTurn .lifecycle c) .lifecycle [] result)) := by
    rw [move_turn ((hsame c hc).trans htask), goOn, Session.resume, hturn _ h.phase_eq]
  refine ⟨_, hmove, ?_, ?_⟩
  · rw [session_absorb]
    exact (bare_release _ _).trans (bare_takeTurn _ _ _)
  have hbefore : ∀ c' ∈ v.session.lifecycleLock.waiting.erase c, first.hadBefore id c' = true :=
    fun c' hc' => h.rowBefore c' (List.mem_of_mem_erase hc')
  have hmem : c ∈ v.session.lifecycleLock.waiting := List.mem_of_head? ((h.head?_eq hc).1 hhead)
  obtain ⟨later, hrow, hlater⟩ := h.row
  have herase : w.session.lifecycleLock.waiting.erase c =
      v.session.lifecycleLock.waiting.erase c ++ later := by
    rw [hrow, List.erase_append_left _ hmem]
  have hthere : ∀ i, first.hadBefore id (.call i) = true → ((w.absorb c
      (leave (w.session.takeTurn .lifecycle c) .lifecycle [] result)).tasks (.call i)).isThere =
        true := fun i hi => isThere_leave (h.begun i hi)
  have hothers : ∀ c', first.hadBefore id c' = false → (v.absorb c
      (leave (v.session.takeTurn .lifecycle c) .lifecycle [] result)).tasks c' = v.tasks c' :=
    fun c' hc' => tasks_leave hc hbefore hc'
  rw [absorb_leave] at hthere hothers
  rw [absorb_leave, absorb_leave]
  exact { h with
    bare := h.bare
    free := rfl
    row := ⟨later, herase, hlater⟩
    rowBefore := hbefore
    tasks := fun c' hc' => by
      have hhead : (w.session.lifecycleLock.waiting.erase c).head? = some c' ↔
          (v.session.lifecycleLock.waiting.erase c).head? = some c' := by
        rw [herase]
        exact head?_append hlater hc'
      refine Eq.trans ?_ (if_neg fun hheld => Bool.false_ne_true hheld.1).symm
      refine ite_congr rfl (fun _ => rfl) fun _ => ite_congr (propext hhead.symm) ?_ ?_
      · exact fun _ => congrArg Status.awake (hsame c' hc')
      · exact fun _ => hsame c' hc'
    begun := hthere
    absent := fun i hi hne => (hothers _ hi).trans (h.absent i hi hne)
    own := by
      rw [hothers _ (hadBefore_self first id)]
      exact h.own }

/-- A send that loses its turn does so in both worlds. -/
theorem follows_loses (h : Counterpart first id w v) (hsound : w.Sound course) {data : Bytes}
    (hc : first.hadBefore id c = true)
    (htask : w.tasks c = .rests (.awaitTurn .writer (.sendTurn data)) true) :
    ∃ next, v.move (.turn c) = some next ∧ next.session.bare = v.session.bare ∧
      Counterpart first id (w.absorb c
        (leave (w.session.takeTurn .writer c) .writer [] (.error .connectionLost))) next := by
  have hnot : c ∉ w.session.lifecycleLock.waiting := not_mem_row hsound (by
    rw [htask]
    rfl)
  have hsame : v.tasks c = w.tasks c := h.tasks_eq hc fun _ => hnot
  have hmove : v.move (.turn c) = some (v.absorb c
      (leave (v.session.takeTurn .writer c) .writer [] (.error .connectionLost))) := by
    have hphase : (v.session.takeTurn .writer c).phase ≠ .connected := by
      change v.session.phase ≠ .connected
      rw [h.phase_eq]
      decide
    rw [move_turn (hsame.trans htask), goOn, Session.resume, onTurn, sendLocked_lost hphase]
  refine ⟨_, hmove, ?_, ?_⟩
  · rw [session_absorb]
    exact (bare_release _ _).trans (bare_takeTurn _ _ _)
  have hwriter : v.session.writerLock = w.session.writerLock := h.writer
  have hbefore : ∀ c' ∈ w.session.writerLock.waiting.erase c, first.hadBefore id c' = true :=
    fun c' hc' => h.writing c' (List.mem_of_mem_erase hc')
  have hthere : ∀ i, first.hadBefore id (.call i) = true → ((w.absorb c
      (leave (w.session.takeTurn .writer c) .writer [] (.error .connectionLost))).tasks
        (.call i)).isThere = true := fun i hi => isThere_leave (h.begun i hi)
  have hothers : ∀ c', first.hadBefore id c' = false → (v.absorb c
      (leave (v.session.takeTurn .writer c) .writer [] (.error .connectionLost))).tasks c' =
        v.tasks c' :=
    fun c' hc' => by
      refine tasks_leave hc ?_ hc'
      change ∀ c' ∈ v.session.writerLock.waiting.erase c, _
      rwa [hwriter]
  rw [absorb_leave] at hthere hothers
  rw [absorb_leave, absorb_leave]
  exact { h with
    bare := h.bare
    writer := by
      change Lock.mk false (v.session.writerLock.waiting.erase c) =
        Lock.mk false (w.session.writerLock.waiting.erase c)
      rw [hwriter]
    writing := hbefore
    tasks := fun c' hc' => by
      have htasks := h.tasks c' hc'
      change (ite _ _ (ite ((v.session.writerLock.waiting.erase c).head? = some c') _ _) : Status) =
        ite _ (Status.awake (ite _ _ (ite _ _ _))) (ite _ _ (ite _ _ _))
      rw [hwriter, htasks]
      by_cases heq : c' = c
      · subst heq
        have hhead : v.session.lifecycleLock.waiting.head? ≠ some c' := fun hhead =>
          hnot (List.mem_of_head? ((h.head?_eq hc').2 hhead))
        exact (if_pos rfl).trans ((if_neg fun hq => hhead hq.2).trans (if_pos rfl)).symm
      · simp only [if_neg heq]
        exact Status.awake_comm _ _ _
    begun := hthere
    absent := fun i hi hne => (hothers _ hi).trans (h.absent i hi hne)
    own := by
      rw [hothers _ (hadBefore_self first id)]
      exact h.own }

/-- A task that waits for the end of a read loop goes on in both worlds. -/
theorem follows_joins (h : Counterpart first id w v) (hsound : w.Sound course) {n : Nat}
    {told : Bool} {result : Except Fault Result} (hc : first.hadBefore id c = true)
    (htask : w.tasks c = .rests (.watchReader n .closed) told)
    (hresult : w.resultOf n = some result) :
    ∃ next, v.move (.join c) = some next ∧ next.session.bare = v.session.bare ∧
      Counterpart first id (w.absorb c (w.session.finish [] (result.map fun _ => .nothing)))
        next := by
  have hnot : c ∉ w.session.lifecycleLock.waiting := not_mem_row hsound (by
    rw [htask]
    rfl)
  have hsame : v.tasks c = w.tasks c := h.tasks_eq hc fun _ => hnot
  have hmove : v.move (.join c) = some (v.absorb c
      (v.session.finish [] (result.map fun _ => .nothing))) := by
    rw [World.move, hsame.trans htask]
    change (v.resultOf n).map _ = _
    rw [h.resultOf_eq hsound hresult]
    rfl
  refine ⟨_, hmove, rfl, ?_⟩
  have hothers : ∀ {u : World} {c' : Caller}, c' ≠ c →
      (u.absorb c (u.session.finish [] (result.map fun _ => .nothing))).tasks c' = u.tasks c' :=
    fun hne => setTask_of_ne _ _ hne
  have hnew : ∀ {c'}, first.hadBefore id c' = false → c' ≠ c :=
    fun hc' => (ne_of_hadBefore hc hc').symm
  exact { h with
    tasks := fun c' hc' => by
      by_cases heq : c' = c
      · subst heq
        have hhead : v.session.lifecycleLock.waiting.head? ≠ some c' := fun hhead =>
          hnot (List.mem_of_head? ((h.head?_eq hc').2 hhead))
        exact (setTask_self _ _ _).trans
          ((if_neg fun hq => hhead hq.2).trans (setTask_self _ _ _)).symm
      · rw [hothers heq, hothers heq]
        exact h.tasks c' hc'
    begun := fun i hi => by
      by_cases heq : Caller.call i = c
      · rw [heq, Quiet.tasks_absorb_me]
        rfl
      · rw [hothers heq]
        exact h.begun i hi
    absent := fun i hi hne => (hothers (hnew hi)).trans (h.absent i hi hne)
    own := by
      rw [hothers (hnew (hadBefore_self first id))]
      exact h.own }

/-- What a task does that was there before, it does in both worlds. -/
theorem follows (h : Counterpart first id w v) (hsound : w.Sound course) (hstep : w.Idles m step)
    (hme : first.hadBefore id m.caller = true) :
    ∃ next, v.move m = some next ∧ next.session.bare = v.session.bare ∧
      Counterpart first id ((w.happen m.begun).absorb m.caller step) next := by
  cases hstep with
  | ends habsent | queues habsent | passes habsent _ =>
    have hthere := h.begun _ hme
    rw [habsent] at hthere
    cases hthere
  | finds htask hturn =>
    rw [show (Move.turn _).begun = [] from rfl, happen_nil]
    exact h.follows_finds hsound hme htask hturn
  | loses htask =>
    rw [show (Move.turn _).begun = [] from rfl, happen_nil]
    exact h.follows_loses hsound hme htask
  | joins htask hresult =>
    rw [show (Move.join _).begun = [] from rfl, happen_nil]
    exact h.follows_joins hsound hme htask hresult

/-! ## The end of the connect -/

/-- The connect fails and gives the lifecycle lock back. -/
theorem fails (h : Counterpart first id w v) (hheld : w.session.lifecycleLock.held = true)
    (events : List Event) (fault : Fault) :
    Counterpart first id
      ((w.happen events).absorb (.call id) (w.session.connectFailed fault)) v := by
  have hthere : ∀ i, first.hadBefore id (.call i) = true → (((w.happen events).absorb (.call id)
      (w.session.connectFailed fault)).tasks (.call i)).isThere = true :=
    fun i hi => isThere_leave (h.begun i hi)
  rw [connectFailed, absorb_leave] at hthere ⊢
  exact { h with
    bare := h.bare
    tasks := fun c hc => by
      have hne := ne_of_hadBefore hc (hadBefore_self first id)
      refine Eq.trans ?_ ((if_neg fun hq => Bool.false_ne_true hq.1).trans (if_neg hne)).symm
      rw [h.tasks c hc]
      exact ite_congr (propext ((and_iff_right hheld).trans (h.head?_eq hc).symm))
        (fun _ => rfl) fun _ => rfl
    begun := hthere }

theorem bare_eq (h : Counterpart first id w v) (hphase : w.session.phase = .disconnected) :
    v.session.bare = w.session.bare := by
  rw [h.bare, ← hphase]
  rfl

/-- A call that was not there before is there no more once it is over. -/
theorem inert_of_not_before (hover : (w.tasks (.call id)).Inert)
    (hrest : ∀ i, first.tasks (.call i) = .absent → (w.tasks (.call i)).Inert)
    (hc : first.hadBefore id c = false) : ∃ i, c = .call i ∧ (w.tasks c).Inert := by
  cases c with
  | reader n => cases hc
  | call i =>
    refine ⟨i, rfl, ?_⟩
    by_cases hi : i = id
    · rw [hi]
      exact hover
    · exact hrest i (absent_of_not_hadBefore hc hi)

/-- When the connect has failed and what has begun since is over, both worlds have the same future.
-/
theorem twins (h : Counterpart first id w v) (hsound : w.Sound course)
    (hphase : w.session.phase = .disconnected) {result : Except Fault Result} {told : Bool}
    (hover : w.tasks (.call id) = .rests (.over result) told)
    (hrest : ∀ i, first.tasks (.call i) = .absent → (w.tasks (.call i)).Inert) :
    Twins (fun c => first.hadBefore id c = false ∧ w.tasks c ≠ .absent) w.history v.history
      w v := by
  have hinert : ∀ {c}, first.hadBefore id c = false → ∃ i, c = .call i ∧ (w.tasks c).Inert :=
    inert_of_not_before (hover ▸ .over) hrest
  have hfree := hsound.not_held_disconnected hphase
  have hrow : w.session.lifecycleLock.waiting = v.session.lifecycleLock.waiting := by
    obtain ⟨later, hrow, hlater⟩ := h.row
    cases later with
    | nil => rw [hrow, List.append_nil]
    | cons c rest =>
      -- who waits in the row is not over
      obtain ⟨i, -, hc⟩ := hinert (hlater c List.mem_cons_self)
      have hmem : c ∈ w.session.lifecycleLock.waiting := hrow ▸ by simp
      obtain ⟨told, hwaits⟩ := ((hsound.locks .lifecycle).waiting_iff c).1 hmem
      cases hstatus : w.tasks c with
      | absent | due d =>
        rw [hstatus] at hwaits
        cases hwaits
      | rests pause told =>
        rw [hstatus] at hwaits hc
        cases hc
        cases hwaits
  refine ⟨?_, h.cancelled.symm, ⟨[], by simp, by simp⟩, fun c hc => ?_, fun c hc => ?_⟩
  · refine eq_of_bare (h.bare_eq hphase).symm ?_ h.reader.symm h.writer.symm
    have hlocks : ∀ a b : Lock, a.held = b.held → a.waiting = b.waiting → a = b := by
      rintro ⟨_, _⟩ ⟨_, _⟩ rfl rfl
      rfl
    exact hlocks _ _ (hfree.trans h.free.symm) hrow
  · cases hbefore : first.hadBefore id c with
    | true =>
      exact (h.tasks_eq hbefore fun hheld => absurd (hfree.symm.trans hheld) (by decide)).symm
    | false =>
      obtain ⟨i, rfl, -⟩ := hinert hbefore
      have habsent : w.tasks (.call i) = .absent := by
        by_contra hpresent
        exact hc ⟨hbefore, hpresent⟩
      have hi : i ≠ id := by
        rintro rfl
        rw [hover] at habsent
        cases habsent
      rw [habsent, h.absent i hbefore hi]
  · obtain ⟨i, rfl, hi⟩ := hinert hc.1
    refine ⟨⟨i, rfl⟩, hi, ?_⟩
    by_cases heq : i = id
    · rw [heq]
      exact h.own
    · rw [h.absent i hc.1 heq]
      exact .absent

end Counterpart

end World

end SerialConsole.Session
