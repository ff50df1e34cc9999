import SerialConsole.Proofs.Session.Inbound

set_option autoImplicit false

/-!
# Orders to end

`Sound.does_move`: a move is a deed of the task that makes it. A read loop that a disconnect joins
is over or was told to end (`Reachable.ordered`), and the order stands until the read loop follows
it.
-/
namespace SerialConsole.Session

/-- Who makes a move. -/
def Move.caller : Move → Caller
  | .begin id _ => .call id
  | .answer c _ | .turn c | .stopWaiting c | .join c => c
  | .startReading n | .cancelReading n => .reader n

/-! ## Who tells a read loop to end -/

section

variable {s : Session} {me : Caller} {effects : List Effect} {name : LockName}

/-- A step that tells no read loop to end. -/
def Step.Spares (step : Step) : Prop :=
  ∀ n, .cancelReader n ∉ step.effects

theorem order_not_mem_wakeFirst (s : Session) (name : LockName) (n : Nat) :
    .cancelReader n ∉ s.wakeFirst name := by
  rw [wakeFirst]
  cases (s.lock name).waiting.head? <;> simp

theorem order_not_mem_giveUp (s : Session) (name : LockName) (c : Caller) (n : Nat) :
    .cancelReader n ∉ (s.giveUp name c).2 := by
  rw [giveUp]
  split
  · exact List.not_mem_nil
  · exact order_not_mem_wakeFirst _ _ n

theorem leave_spares (h : ∀ n, .cancelReader n ∉ effects) (result : Except Fault Result) :
    (s.leave name effects result).Spares := by
  intro n hmem
  rcases List.mem_append.1 hmem with hin | hin
  · exact h n hin
  · exact order_not_mem_wakeFirst s name n hin

theorem enter_spares {point : Point} {go : Session → Step} (h : ∀ s, (go s).Spares) :
    (s.enter me name point go).Spares := by
  rw [enter]
  split
  · exact h _
  · exact fun n => List.not_mem_nil

theorem connectLocked_spares (line : LineSettings) (hint : Option String) :
    (s.connectLocked line hint).Spares := by
  rw [connectLocked]
  split
  · exact leave_spares (by simp) _
  · split
    · exact leave_spares (by simp) _
    · exact fun n => List.not_mem_nil

theorem sendLocked_spares (data : Bytes) : (s.sendLocked data).Spares := by
  rw [sendLocked]
  split
  · exact fun n => List.not_mem_nil
  · exact leave_spares (by simp) _

theorem beginSend_spares (data : Bytes) : (s.beginSend me data).Spares := by
  rw [beginSend]
  split
  · exact fun n => List.not_mem_nil
  · split
    · exact fun n => List.not_mem_nil
    · exact enter_spares fun s => sendLocked_spares data

theorem disconnected_spares (h : ∀ n, .cancelReader n ∉ effects) (device : Option Handle) :
    (s.disconnected effects device).Spares := by
  refine leave_spares (fun n hmem => ?_) _
  simp only [List.mem_append, List.mem_singleton, say, reduceCtorEq, or_false] at hmem
  rcases hmem with hin | hin
  · exact h n hin
  · exact order_not_mem_wakeFirst s .writer n hin

theorem closeLocked_spares (h : ∀ n, .cancelReader n ∉ effects) (device : Option Handle) :
    (s.closeLocked device effects).Spares := by
  cases device with
  | some d => exact h
  | none => exact disconnected_spares h none

theorem closeNext_spares (h : ∀ n, .cancelReader n ∉ effects) (device : Option Handle) :
    (s.closeNext me effects device).Spares := by
  rw [closeNext]
  split
  · exact closeLocked_spares h device
  · exact h

theorem readerNext_spares (h : ∀ n, .cancelReader n ∉ effects) (device : Option Handle)
    (reader : Option Nat) : (s.readerNext me effects device reader).Spares := by
  cases reader with
  | some n => exact h
  | none => exact closeNext_spares h device

theorem disconnectLocked_spares : (s.disconnectLocked me).Spares := by
  rw [disconnectLocked]
  split
  · exact leave_spares (by simp) _
  · simp only
    split
    · exact fun n => List.not_mem_nil
    · exact readerNext_spares (by simp) _ _

theorem readNext_spares (h : ∀ n, .cancelReader n ∉ effects) (d : Handle) :
    (s.readNext effects d).Spares := by
  rw [readNext]
  split
  · exact leave_spares h _
  · exact h

theorem start_spares (operation : Operation) : (operation.start s me).Spares := by
  cases operation with
  | connect line hint => exact enter_spares fun s => connectLocked_spares line hint
  | send data => exact beginSend_spares data
  | sendData data format ending =>
    rw [Operation.start, beginSendData]
    split
    · exact beginSend_spares _
    · exact fun n => List.not_mem_nil
  | disconnect => exact enter_spares fun s => disconnectLocked_spares
  | waitClosed =>
    rw [Operation.start, beginWaitClosed]
    split <;> exact fun n => List.not_mem_nil

theorem chunkRead_spares (d : Handle) (data : Option Bytes) : (s.chunkRead d data).Spares := by
  cases data with
  | none => exact leave_spares (by simp [say]) _
  | some data =>
    rw [chunkRead]
    split
    · exact leave_spares (by simp) _
    · split
      · exact readNext_spares (by simp) d
      · exact readNext_spares (by simp [recorded]) d

theorem readFailed_spares (d : Handle) (fault : Fault) : (s.readFailed d fault).Spares := by
  rw [readFailed]
  split
  · exact leave_spares (by simp) _
  · split
    · exact leave_spares (by simp) _
    · exact leave_spares (by simp [say]) _

theorem onReply_spares (point : Point) (reply : Reply) : (s.onReply me point reply).Spares := by
  cases point with
  | requesting line =>
    cases reply with
    | failed fault => exact leave_spares (by simp) _
    | done | device _ | chunk _ => exact fun n => List.not_mem_nil
  | opening d line =>
    cases reply with
    | failed fault => exact leave_spares (by simp) _
    | done | device _ | chunk _ => exact leave_spares (by simp [connectedNote, say]) _
  | writing d data =>
    cases reply with
    | failed fault => exact leave_spares (by simp) _
    | done | device _ | chunk _ => exact leave_spares (by simp [recorded]) _
  | cancelling device reader =>
    cases reply with
    | failed fault =>
      rw [onReply]
      split
      · exact readerNext_spares (by simp [say]) device reader
      · exact leave_spares (by simp) _
    | done | device _ | chunk _ => exact readerNext_spares (by simp) device reader
  | closing device =>
    cases reply with
    | failed fault =>
      rw [onReply]
      split
      · exact disconnected_spares (by simp [say]) device
      · exact leave_spares (order_not_mem_wakeFirst s .writer) _
    | done | device _ | chunk _ => exact disconnected_spares (by simp) device
  | reading d =>
    cases reply with
    | failed fault => exact readFailed_spares d fault
    | chunk data => exact chunkRead_spares d data
    | done | device _ => exact fun n => List.not_mem_nil
  | _ => exact fun n => List.not_mem_nil

theorem onTurn_spares (point : Point) : (s.onTurn me point).Spares := by
  cases point with
  | connectTurn line hint => exact connectLocked_spares line hint
  | sendTurn data => exact sendLocked_spares data
  | disconnectTurn => exact disconnectLocked_spares
  | closeTurn device => exact closeLocked_spares (by simp) device
  | readTurn d => exact readNext_spares (by simp) d
  | _ => exact fun n => List.not_mem_nil

theorem onJoined_spares (device : Option Handle) (result : Except Fault Result) :
    (s.onJoined me device result).Spares := by
  cases result with
  | ok _ => exact closeNext_spares (by simp) device
  | error fault =>
    rw [onJoined]
    split
    · exact closeNext_spares (by simp) device
    · split
      · exact closeNext_spares (by simp [say]) device
      · exact leave_spares (by simp) _

theorem joined_spares (point : Point) (result : Except Fault Result) :
    (s.resume me point (.joined result)).Spares := by
  cases point with
  | cancelledReading device => exact onJoined_spares device result
  | _ => exact fun n => List.not_mem_nil

theorem onCancel_spares (point : Point) : (s.onCancel me point).Spares := by
  cases point with
  | connectTurn _ _ | disconnectTurn | sendTurn _ | readTurn _ =>
    exact order_not_mem_giveUp s _ me
  | closeTurn _ => exact leave_spares (order_not_mem_giveUp s _ me) _
  | cancelledReading device => exact closeNext_spares (by simp) device
  | closing _ => exact leave_spares (order_not_mem_wakeFirst s .writer) _
  | closed => exact fun n => List.not_mem_nil
  | requesting _ | opening _ _ | writing _ _ | cancelling _ _ | endOfReading _ _ | reading _ =>
    exact leave_spares (by simp) _

end

namespace World

variable {w next : World} {me c : Caller} {course : Course} {pause : Pause} {point : Point}
  {n : Nat}

/-! ## Who moves -/

theorem Sound.does_move (h : w.Sound course) {m : Move} (hmove : w.move m = some next) :
    w.Does m.caller next := by
  cases m with
  | begin id operation =>
    rw [move] at hmove
    split at hmove
    case h_1 habsent =>
      cases hmove
      exact h.begin_does habsent operation
    case h_2 => cases hmove
  | answer c reply =>
    rw [move] at hmove
    split at hmove
    case h_1 call point told htask =>
      split at hmove
      case isTrue hadmits =>
        cases hmove
        exact h.answer_does htask hadmits
      case isFalse => cases hmove
    case h_2 => cases hmove
  | turn c =>
    rw [move] at hmove
    split at hmove
    case h_1 name point htask =>
      cases hmove
      exact h.turn_does htask
    case h_2 => cases hmove
  | stopWaiting c =>
    rw [move] at hmove
    split at hmove
    case h_1 n point told htask =>
      cases hmove
      exact h.stopWaiting_does htask
    case h_2 => cases hmove
  | join c =>
    rw [move] at hmove
    split at hmove
    case h_1 n point told htask =>
      obtain ⟨result, hresult, rfl⟩ := Option.map_eq_some_iff.1 hmove
      exact h.joinReader_does htask hresult
    case h_2 n point told htask =>
      obtain ⟨result, hresult, rfl⟩ := Option.map_eq_some_iff.1 hmove
      exact h.watchReader_does htask hresult
    case h_3 => cases hmove
  | startReading n =>
    rw [move] at hmove
    split at hmove
    case h_1 d hdue =>
      split at hmove
      case isTrue => cases hmove
      case isFalse =>
        cases hmove
        exact h.startReading_does hdue
    case h_2 => cases hmove
  | cancelReading n =>
    rw [move] at hmove
    split at hmove
    case isTrue htold =>
      split at hmove
      case h_1 d hdue =>
        cases hmove
        exact h.neverRead_does hdue htold
      case h_2 pause told htask =>
        obtain ⟨point, hpoint, rfl⟩ := Option.map_eq_some_iff.1 hmove
        exact h.cancelReading_does htask hpoint htold
      case h_3 => cases hmove
    case isFalse => cases hmove

/-! ## Read loops that were told to end -/

theorem cancelled_after (w : World) (s : Session) (effects : List Effect) (n : Nat) :
    (w.after s effects).cancelled n = true ↔
      .cancelReader n ∈ effects ∨ w.cancelled n = true := by
  rw [after]
  have hstart : ({ w with session := s } : World).cancelled n = w.cancelled n := rfl
  rw [← hstart]
  generalize ({ w with session := s } : World) = v
  induction effects generalizing v with
  | nil => simp
  | cons effect rest ih =>
    rw [List.foldl_cons]
    refine (ih _).trans ?_
    cases effect with
    | cancelReader k =>
      simp only [World.effect, List.mem_cons, Effect.cancelReader.injEq, Bool.or_eq_true,
        decide_eq_true_eq]
      constructor
      · rintro (h | h | h)
        · exact Or.inl (Or.inr h)
        · exact Or.inl (Or.inl h)
        · exact Or.inr h
      · rintro ((h | h) | h)
        · exact Or.inr (Or.inl h)
        · exact Or.inl h
        · exact Or.inr (Or.inr h)
    | wake d =>
      have hsame : (v.effect (.wake d)).cancelled n = v.cancelled n := by
        rw [World.effect]
        split <;> rfl
      simp [hsame]
    | note note | logged entry listeners | startReader k d => simp [World.effect, happen, setTask]

theorem cancelled_absorb (w : World) (me : Caller) (step : Step) (n : Nat) :
    (w.absorb me step).cancelled n = true ↔
      .cancelReader n ∈ step.effects ∨ w.cancelled n = true :=
  cancelled_after w step.session step.effects n

theorem Sound.of_awaitsEnd (h : w.Sound course) {told : Bool}
    (htask : w.tasks c = .rests (.awaitEndOfReading n point) told) :
    ∃ id d, c = .call id ∧ point = .endOfReading d n := by
  rcases h.rests _ _ told htask with haside | hholding
  · cases haside
  · cases hholding
    exact ⟨_, _, rfl, rfl⟩

/-- Which read loops are told to end after a move: those that were, but for the one that follows the
order, and those that somebody stops waiting for before they are over. -/
theorem Sound.orders_of_move (h : w.Sound course) {m : Move} (hmove : w.move m = some next) :
    ∃ effects : List Effect,
      (∀ n, next.cancelled n = true ↔
        .cancelReader n ∈ effects ∨ w.cancelled n = true ∧ m ≠ .cancelReading n) ∧
      ∀ n, .cancelReader n ∈ effects → ∃ c point told, m = .stopWaiting c ∧
        w.tasks c = .rests (.awaitEndOfReading n point) told ∧ w.resultOf n = none := by
  have hplain : ∀ {v : World} {me : Caller} {step : Step}, v.cancelled = w.cancelled →
      (∀ n, m ≠ .cancelReading n) → ∀ n, (v.absorb me step).cancelled n = true ↔
        .cancelReader n ∈ step.effects ∨ w.cancelled n = true ∧ m ≠ .cancelReading n := by
    intro v me step hv hm n
    rw [cancelled_absorb, hv, and_iff_left (hm n)]
  cases m with
  | begin id operation =>
    rw [move] at hmove
    split at hmove
    · cases hmove
      exact ⟨_, hplain rfl (by simp), fun n hn => absurd hn (start_spares operation n)⟩
    · cases hmove
  | answer c reply =>
    rw [move] at hmove
    split at hmove
    · split at hmove
      · cases hmove
        exact ⟨_, hplain rfl (by simp), fun n hn => absurd hn (onReply_spares _ reply n)⟩
      · cases hmove
    · cases hmove
  | turn c =>
    rw [move] at hmove
    split at hmove
    · cases hmove
      exact ⟨_, hplain rfl (by simp), fun n hn => absurd hn (onTurn_spares _ n)⟩
    · cases hmove
  | stopWaiting c =>
    rw [move] at hmove
    split at hmove
    case h_1 k point told htask =>
      cases hmove
      obtain ⟨id, d, rfl, rfl⟩ := h.of_awaitsEnd htask
      refine ⟨_, hplain rfl (by simp), fun n hn => ?_⟩
      cases hover : (w.resultOf k).isSome with
      | true =>
        rw [hover] at hn
        exact absurd hn (closeNext_spares (by simp) d n)
      | false =>
        rw [hover] at hn
        cases List.mem_singleton.1 hn
        exact ⟨_, _, told, rfl, htask, Option.isSome_eq_false_iff.1 hover |> Option.isNone_iff_eq_none.1⟩
    case h_2 => cases hmove
  | join c =>
    rw [move] at hmove
    split at hmove
    · obtain ⟨result, _, rfl⟩ := Option.map_eq_some_iff.1 hmove
      exact ⟨_, hplain rfl (by simp), fun n hn => absurd hn (joined_spares _ result n)⟩
    · obtain ⟨result, _, rfl⟩ := Option.map_eq_some_iff.1 hmove
      exact ⟨_, hplain rfl (by simp), fun n hn => absurd hn (joined_spares _ result n)⟩
    · cases hmove
  | startReading k =>
    rw [move] at hmove
    split at hmove
    · split at hmove
      · cases hmove
      · cases hmove
        exact ⟨_, hplain rfl (by simp), fun n hn =>
          absurd hn (enter_spares (fun s => readNext_spares (by simp) _) n)⟩
    · cases hmove
  | cancelReading k =>
    have hkept : ∀ n, (w.toldToEnd k).cancelled n = true ↔
        w.cancelled n = true ∧ Move.cancelReading k ≠ .cancelReading n := by
      intro n
      simp only [toldToEnd, Bool.and_eq_true, decide_eq_true_eq, ne_eq, Move.cancelReading.injEq]
      rw [and_comm, @eq_comm Nat n k]
    rw [move] at hmove
    split at hmove
    · split at hmove
      · cases hmove
        exact ⟨[], fun n => (hkept n).trans (by simp), by simp⟩
      · obtain ⟨point, _, rfl⟩ := Option.map_eq_some_iff.1 hmove
        refine ⟨_, fun n => (cancelled_absorb _ _ _ n).trans (or_congr Iff.rfl (hkept n)),
          fun n hn => absurd hn (onCancel_spares point n)⟩
      · cases hmove
    · cases hmove

/-- The order to end is only taken back when the read loop follows it. -/
theorem Sound.cancelled_move (h : w.Sound course) {m : Move} (hmove : w.move m = some next)
    (htold : w.cancelled n = true) : next.cancelled n = true ∨ m = .cancelReading n := by
  obtain ⟨effects, hcancelled, _⟩ := h.orders_of_move hmove
  by_cases hm : m = .cancelReading n
  · exact Or.inr hm
  · exact Or.inl ((hcancelled n).2 (Or.inr ⟨htold, hm⟩))

/-- A read loop is told to end by who waits for that. -/
theorem Sound.cancelled_back (h : w.Sound course) {m : Move} (hmove : w.move m = some next)
    (htold : next.cancelled n = true) : w.cancelled n = true ∨
      ∃ c point told, w.tasks c = .rests (.awaitEndOfReading n point) told := by
  obtain ⟨effects, hcancelled, horders⟩ := h.orders_of_move hmove
  rcases (hcancelled n).1 htold with horder | ⟨hbefore, _⟩
  · obtain ⟨c, point, told, _, htask, _⟩ := horders n horder
    exact Or.inr ⟨c, point, told, htask⟩
  · exact Or.inl hbefore

/-- A read loop that follows the order to end is over. -/
theorem Sound.cancelReading_ends (h : w.Sound course)
    (hmove : w.move (.cancelReading n) = some next) :
    next.tasks (.reader n) = .rests (.over (.error .cancelled)) false := by
  rw [move] at hmove
  split at hmove
  · split at hmove
    case h_1 d hdue =>
      cases hmove
      exact setTask_self _ _ _
    case h_2 pause told htask =>
      obtain ⟨point, hpoint, rfl⟩ := Option.map_eq_some_iff.1 hmove
      have hover : ((w.toldToEnd n).session.resume (.reader n) point .cancelled).pause =
          .over (.error .cancelled) := by
        rcases h.rests _ _ _ htask with haside | hholding
        · cases haside with
          | readOver | readCancelled => cases hpoint
          | readTurn | reading =>
            cases hpoint
            rfl
        · cases hholding
      rw [goOn, Quiet.tasks_absorb_me, hover]
    case h_3 => cases hmove
  · cases hmove

/-- A read loop that is over keeps its result. -/
theorem Changes.result_stays {events : List Event} {s : Session}
    (hchanges : w.Changes next me events s pause) (hdeed : w.Deed me events s pause)
    (hsound : w.Sound course) {result : Except Fault Result} (hresult : w.resultOf n = some result) :
    next.resultOf n = some result := by
  rw [resultOf] at hresult
  split at hresult
  case h_1 result' told hrests =>
    have hc : .reader n ≠ me := by
      rintro rfl
      exact hdeed.not_over hrests
    obtain ⟨told', hrests'⟩ := hchanges.rests hsound hc hrests
    rw [resultOf, hrests', ← hresult]
  case h_2 => cases hresult

/-- What has come over stays over. -/
theorem Changes.over_stays {events : List Event} {s : Session}
    (hchanges : w.Changes next me events s pause) (hdeed : w.Deed me events s pause)
    (hsound : w.Sound course) (hover : w.resultOf n ≠ none) : next.resultOf n ≠ none := by
  obtain ⟨result, hresult⟩ := Option.ne_none_iff_exists'.1 hover
  rw [hchanges.result_stays hdeed hsound hresult]
  exact Option.some_ne_none result

theorem Deed.of_joins {events : List Event} {s : Session}
    (h : w.Deed me events s (.joinReader n point)) :
    ∃ point told, w.tasks me = .rests (.awaitEndOfReading n point) told ∧ w.resultOf n = none := by
  cases h with
  | hears _ hhears => cases hhears
  | cancelsReader htask _ hnone => exact ⟨_, _, htask, hnone⟩

/-- Who gives up waiting for a read loop tells it to end. -/
theorem Sound.stopWaiting_orders (h : w.Sound course) {m : Move} {told : Bool}
    (htask : w.tasks m.caller = .rests (.awaitEndOfReading n point) told)
    (hnone : w.resultOf n = none) (hmove : w.move m = some next) : next.cancelled n = true := by
  obtain ⟨id, d, hid, rfl⟩ := h.of_awaitsEnd htask
  cases m with
  | stopWaiting c =>
    simp only [Move.caller] at htask
    rw [move, htask] at hmove
    cases hmove
    rw [goOn, hnone]
    exact (cancelled_absorb _ _ _ n).2 (Or.inl List.mem_cons_self)
  | begin id operation | answer c reply | turn c | join c =>
    simp only [Move.caller] at htask
    rw [move, htask] at hmove
    cases hmove
  | startReading k | cancelReading k => cases hid

/-- A read loop that a disconnect joins is over, or was told to end. -/
theorem Reachable.ordered (h : w.Reachable) {told : Bool}
    (hjoins : w.tasks c = .rests (.joinReader n point) told) :
    w.resultOf n ≠ none ∨ w.cancelled n = true := by
  have hall := h.always_move (P := fun w => ∀ c point told,
    w.tasks c = .rests (.joinReader n point) told → w.resultOf n ≠ none ∨ w.cancelled n = true)
    (fun _ _ _ _ _ => nofun) fun u next m hu hmove ih c point told hjoins => by
      obtain ⟨course, hsound⟩ := hu.sound
      obtain ⟨events, s, pause, hdeed, hchanges⟩ := hsound.does_move hmove
      by_cases hc : c = m.caller
      · rw [hc, hchanges.mine] at hjoins
        cases hjoins
        obtain ⟨there, told', htask, hnone⟩ := hdeed.of_joins
        exact Or.inr (hsound.stopWaiting_orders htask hnone hmove)
      · obtain ⟨told', hjoins'⟩ := hchanges.rested hsound hc hjoins
        rcases ih c point told' hjoins' with hover | htold
        · exact Or.inl (hchanges.over_stays hdeed hsound hover)
        · rcases hsound.cancelled_move hmove htold with htold' | rfl
          · exact Or.inr htold'
          · exact Or.inl (by simp [resultOf, hsound.cancelReading_ends hmove])
  exact hall c point told hjoins

/-- Only a read loop that there is was told to end. -/
theorem Reachable.not_cancelled (h : w.Reachable) (hn : w.session.connections ≤ n) :
    w.cancelled n = false := by
  have hall := h.always_move (P := fun w => ∀ n, w.cancelled n = true → n < w.session.connections)
    (fun _ _ _ => nofun) fun u next m hu hmove ih n htold => by
      obtain ⟨course, hsound⟩ := hu.sound
      obtain ⟨events, s, pause, hdeed, hchanges⟩ := hsound.does_move hmove
      have hgrows : u.session.connections ≤ next.session.connections := by
        rw [connections_of_bare hchanges.bare]
        rcases hdeed.reader_cases with ⟨_, hcount, _⟩ | ⟨_, _, _, hcount, _⟩ | ⟨_, _, _, hcount, _⟩
        all_goals omega
      rcases hsound.cancelled_back hmove htold with hbefore | ⟨c, point, told, hawaits⟩
      · exact Nat.lt_of_lt_of_le (ih n hbefore) hgrows
      · have hcount := hu.tended.awaited c n (by rw [hawaits]; rfl)
        omega
  refine Bool.eq_false_iff.2 fun htold => ?_
  exact absurd (hall n htold) (Nat.not_lt.2 hn)

/-- Every connection has had its read loop. -/
theorem Reachable.born (h : w.Reachable) : ∀ n < w.session.connections,
    w.tasks (.reader n) ≠ .absent := by
  refine h.always (P := fun w => ∀ n < w.session.connections, w.tasks (.reader n) ≠ .absent)
    (fun _ _ n hn => absurd hn (Nat.not_lt_zero n)) ?_
  rintro u next me course _ hsound ⟨events, s, pause, hdeed, hchanges⟩ ih n hn
  have hconnections : next.session.connections = s.connections := by
    rw [← hchanges.bare]
    rfl
  by_cases hme : .reader n = me
  · rw [hme, hchanges.mine]
    nofun
  · by_cases hold : n < u.session.connections
    · rcases hchanges.tasks_of_ne hsound hme with hsame | ⟨_, _, _, d, _, hdue⟩
      · intro habsent
        rcases hsame with heq | ⟨there, told, _, heq⟩
        · exact ih n hold (heq.symm.trans habsent)
        · rw [habsent] at heq
          cases heq
      · rw [hdue]
        nofun
    · rw [hconnections] at hn
      rcases hdeed.reader_cases with ⟨_, hcount, _⟩ | ⟨_, _, _, hcount, _⟩ | ⟨_, _, _, hcount, _⟩
      · omega
      · have hnew : n = u.session.connections := by omega
        obtain ⟨d, _, hdue⟩ := hchanges.born (by omega)
        rw [hnew, hdue]
        nofun
      · omega

end World

end SerialConsole.Session
