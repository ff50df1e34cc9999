import SerialConsole.Proofs.Session.Isolation

set_option autoImplicit false

/-!
# The log of what was sent

The sent entries of a log are the writes that succeeded. `Mirrored` is the shape that a history has
because a successful write, its entry and the end of its send come in one step; everything about the
order of writes and entries is read off it.
-/
namespace SerialConsole

/-- A log to which some entries were appended, in order. -/
inductive Log.Ring.Grows (log : Log.Ring) : List Log.Entry → Log.Ring → Prop where
  | same : Grows log [] log
  | append {entries : List Log.Entry} {grown : Log.Ring} {direction : Log.Direction}
    {data : Bytes} : Grows log entries grown →
    Grows log (entries ++ [grown.nextEntry direction data]) (grown.append direction data)

namespace Session

def Event.logged? : Event → Option Log.Entry
  | .logged entry => some entry
  | _ => none

/-- The entries that were logged, in order. -/
def logged (history : List Event) : List Log.Entry :=
  history.filterMap Event.logged?

/-- What was logged in one direction. -/
def Event.payload? (direction : Log.Direction) : Event → Option Bytes
  | .logged entry => if entry.direction = direction then some entry.data else none
  | _ => none

/-- The payloads of the entries of one direction, in order. -/
def payloads (direction : Log.Direction) (history : List Event) : List Bytes :=
  history.filterMap (Event.payload? direction)

/-- What was written if the event is the end of a successful write. -/
def Event.written? : Event → Option Bytes
  | .answered _ (.write _ data) .done => some data
  | _ => none

/-- What successful writes wrote, in the order in which they ended. -/
def transmitted (history : List Event) : List Bytes :=
  history.filterMap Event.written?

/-- Every successful write is followed by its entry and the end of its send, and there are no other
sent entries. -/
inductive Mirrored : List Event → Prop where
  | nil : Mirrored []
  | aside {events : List Event} {e : Event} : Mirrored events → e.written? = none →
    e.payload? .sent = none → Mirrored (events ++ [e])
  | write {events : List Event} {c : Caller} {d : Handle} {entry : Log.Entry} : Mirrored events →
    entry.direction = .sent → Mirrored (events ++ [.answered c (.write d entry.data) .done,
      .logged entry, .returned c (.ok (.entry entry))])

namespace Mirrored

variable {history before after : List Event} {c : Caller} {d : Handle} {data : Bytes}
  {entry : Log.Entry}

theorem asides {events : List Event} (h : Mirrored history)
    (hevents : ∀ e ∈ events, e.written? = none ∧ e.payload? .sent = none) :
    Mirrored (history ++ events) := by
  induction events generalizing history with
  | nil => rwa [List.append_nil]
  | cons e rest ih =>
    obtain ⟨⟨hwritten, hsent⟩, hrest⟩ := List.forall_mem_cons.1 hevents
    have hall := ih (h.aside hwritten hsent) hrest
    rwa [List.append_assoc, List.singleton_append] at hall

theorem payloads_eq (h : Mirrored history) : payloads .sent history = transmitted history := by
  induction h with
  | nil => rfl
  | @aside events e _ hwritten hsent ih =>
    rw [payloads, transmitted, List.filterMap_append, List.filterMap_append, List.filterMap_cons,
      List.filterMap_cons, hwritten, hsent]
    exact congrArg (· ++ []) ih
  | @write events c d entry _ hdirection ih =>
    have hsent : Event.payload? .sent (.logged entry) = some entry.data := if_pos hdirection
    have hblock : payloads .sent [.answered c (.write d entry.data) .done, .logged entry,
        .returned c (.ok (.entry entry))] = [entry.data] := by
      rw [payloads, List.filterMap_cons, List.filterMap_cons, hsent]
      rfl
    rw [payloads, transmitted, List.filterMap_append, List.filterMap_append]
    exact congr (congrArg (· ++ ·) ih) hblock

/-- The end of a successful write or a sent entry stands in a history beside the other one. -/
theorem around (h : Mirrored history) {e : Event} (hhistory : history = before ++ e :: after)
    (he : e.written? ≠ none ∨ e.payload? .sent ≠ none) :
    ∃ c d entry rest, entry.direction = .sent ∧
      ((e = .answered c (.write d entry.data) .done ∧
          after = .logged entry :: .returned c (.ok (.entry entry)) :: rest) ∨
        ∃ first, e = .logged entry ∧ before = first ++ [.answered c (.write d entry.data) .done] ∧
          after = .returned c (.ok (.entry entry)) :: rest) := by
  induction h generalizing after with
  | nil => simp at hhistory
  | @aside events f _ hwritten hsent ih =>
    rcases split_append hhistory with ⟨rest, hin, rfl⟩ | ⟨middle, rfl, hin⟩
    · obtain ⟨c, d, entry, tail, hdirection, ⟨rfl, rfl⟩ | ⟨first, rfl, hfirst, rfl⟩⟩ := ih hin
      · exact ⟨c, d, entry, tail ++ [f], hdirection, Or.inl ⟨rfl, rfl⟩⟩
      · exact ⟨c, d, entry, tail ++ [f], hdirection, Or.inr ⟨first, rfl, hfirst, rfl⟩⟩
    · cases middle with
      | nil =>
        cases hin
        rcases he with hnot | hnot
        · exact absurd hwritten hnot
        · exact absurd hsent hnot
      | cons x xs => simp at hin
  | @write events c d entry _ hdirection ih =>
    rcases split_append hhistory with ⟨rest, hin, rfl⟩ | ⟨middle, rfl, hin⟩
    · obtain ⟨c, d, entry, tail, hentry, ⟨rfl, rfl⟩ | ⟨first, rfl, hfirst, rfl⟩⟩ := ih hin
      · exact ⟨c, d, entry, _, hentry, Or.inl ⟨rfl, rfl⟩⟩
      · exact ⟨c, d, entry, _, hentry, Or.inr ⟨first, rfl, hfirst, rfl⟩⟩
    · refine ⟨c, d, entry, [], hdirection, ?_⟩
      match middle, hin with
      | [], hin =>
        cases hin
        exact Or.inl ⟨rfl, rfl⟩
      | [_], hin =>
        cases hin
        exact Or.inr ⟨events, rfl, rfl, rfl⟩
      | [_, _], hin =>
        cases hin
        rcases he with hnot | hnot <;> exact absurd rfl hnot
      | _ :: _ :: _ :: xs, hin => simp at hin

theorem behind_write (h : Mirrored history)
    (hhistory : history = before ++ .answered c (.write d data) .done :: after) :
    ∃ entry rest, after = .logged entry :: .returned c (.ok (.entry entry)) :: rest ∧
      entry.direction = .sent ∧ entry.data = data := by
  obtain ⟨_, _, entry, rest, hdirection, ⟨heq, hafter⟩ | ⟨_, heq, _⟩⟩ :=
    h.around hhistory (Or.inl (Option.some_ne_none data))
  · cases heq
    exact ⟨entry, rest, hafter, hdirection, rfl⟩
  · cases heq

theorem around_entry (h : Mirrored history) (hhistory : history = before ++ .logged entry :: after)
    (hdirection : entry.direction = .sent) :
    ∃ first c d rest, before = first ++ [.answered c (.write d entry.data) .done] ∧
      after = .returned c (.ok (.entry entry)) :: rest := by
  have hsent : Event.payload? .sent (.logged entry) ≠ none := by
    rw [Event.payload?, if_pos hdirection]
    exact Option.some_ne_none _
  obtain ⟨c, d, _, rest, _, ⟨heq, _⟩ | ⟨first, heq, hbefore, hafter⟩⟩ :=
    h.around hhistory (Or.inr hsent)
  · cases heq
  · cases heq
    exact ⟨first, c, d, rest, hbefore, hafter⟩

end Mirrored

/-- What a send gives back: the entry of its own write, which is in the history between that write
and the end of the send, or a fault, and then it has written nothing. -/
inductive Outcome (history : List Event) (c : Caller) (payload : Except Fault Bytes) :
    Except Fault Result → Prop where
  | entry {d : Handle} {entry : Log.Entry} {before after : List Event} :
    payload = .ok entry.data → entry.direction = .sent →
    history = before ++ .answered c (.write d entry.data) .done :: .logged entry ::
      .returned c (.ok (.entry entry)) :: after →
    Outcome history c payload (.ok (.entry entry))
  | fault {fault : Fault} :
    payload = .error fault ∨ fault.kind = .notConnected ∨ fault.kind = .emptyPayload ∨
      fault.kind = .writeFailed →
    (∀ d data, .answered c (.write d data) .done ∉ history) →
    Outcome history c payload (.error fault)

theorem Unsent.kind {op : Operation} {payload : Except Fault Bytes} {fault : Fault}
    (h : Unsent op fault) (hop : op.payload? = some payload) :
    payload = .error fault ∨ fault.kind = .notConnected ∨ fault.kind = .emptyPayload ∨
      fault.kind = .writeFailed := by
  cases h with
  | unencoded hpayload =>
    rw [hop] at hpayload
    exact Or.inl (Option.some.inj hpayload)
  | refused _ hkind => exact Or.inr (hkind.imp_right fun h => Or.inl h.2)

/-- A send that has begun waits for its turn, writes or has come to its end. -/
theorem Stage.of_send {id : Nat} {status : Status} {mine : List Event} (h : Stage id status mine)
    {op : Operation} {payload : Except Fault Bytes} (hop : op.payload? = some payload)
    (hbegun : .begun (.call id) op ∈ mine) :
    (∃ data told, status = .rests (.awaitTurn .writer (.sendTurn data)) told) ∨
      (∃ d data told, status = .rests (.askDevice (.write d data) (.writing d data)) told) ∨
        ∃ result, .returned (.call id) result ∈ mine := by
  cases h with
  | absent => cases hbegun
  | aside hnone _ honce =>
    rcases List.mem_cons.1 hbegun with heq | hin
    · cases heq
      rw [hop] at hnone
      cases hnone
    · exact absurd hin (honce op)
  | waits _ => exact Or.inl ⟨_, _, rfl⟩
  | writes _ => exact Or.inr (Or.inl ⟨_, _, _, rfl⟩)
  | unsent _ | unwritten _ _ | written _ => exact Or.inr (Or.inr ⟨_, by simp; rfl⟩)

/-- A send that has come to its end has failed without a successful write, or gives back an entry
after one. -/
theorem Stage.of_ended {id : Nat} {status : Status} {mine : List Event} (h : Stage id status mine)
    {op : Operation} {payload : Except Fault Bytes} (hop : op.payload? = some payload)
    (hbegun : .begun (.call id) op ∈ mine) {result : Except Fault Result}
    (hreturned : .returned (.call id) result ∈ mine) :
    (∃ fault, result = .error fault ∧ (payload = .error fault ∨ fault.kind = .notConnected ∨
        fault.kind = .emptyPayload ∨ fault.kind = .writeFailed) ∧
      ∀ d data, .answered (.call id) (.write d data) .done ∉ mine) ∨
    ∃ d data entry, result = .ok (.entry entry) ∧ payload = .ok data ∧
      .answered (.call id) (.write d data) .done ∈ mine ∧
      ∀ other, .returned (.call id) other ∈ mine → other = result := by
  cases h with
  | absent => cases hbegun
  | aside hnone _ honce =>
    rcases List.mem_cons.1 hbegun with heq | hin
    · cases heq
      rw [hop] at hnone
      cases hnone
    · exact absurd hin (honce op)
  | waits _ | writes _ => simp at hreturned
  | @unsent op' fault _ hwhy =>
    obtain rfl : op = op' := by simpa using hbegun
    obtain rfl : result = .error fault := by simpa using hreturned
    exact Or.inl ⟨fault, rfl, hwhy.kind hop, fun d data => by simp⟩
  | @unwritten op' d data fault _ _ hordinary =>
    obtain rfl : op = op' := by simpa using hbegun
    obtain rfl : result = .error (writeFault d fault) := by simpa using hreturned
    exact Or.inl ⟨_, rfl, Or.inr (Or.inr (Or.inr (World.kind_writeFault d hordinary))),
      fun d data => by simp⟩
  | @written op' d data entry _ hpayload =>
    obtain rfl : op = op' := by simpa using hbegun
    obtain rfl : result = .ok (.entry entry) := by simpa using hreturned
    rw [hop] at hpayload
    exact Or.inr ⟨d, data, entry, rfl, Option.some.inj hpayload, by simp,
      fun other hother => by simpa using hother⟩

namespace World

variable {w v next : World} {me c : Caller} {course : Course} {events : List Event}
  {s : Session} {pause : Pause} {d : Handle} {data : Bytes}

/-! ## The log and the history -/

theorem Opens.logged? {e : Event} (h : Opens c e) : e.logged? = none := by
  obtain ⟨_, rfl⟩ | ⟨_, _, rfl⟩ := h <;> rfl

theorem Opens.mirrored {e : Event} (h : Opens c e) :
    e.written? = none ∧ e.payload? .sent = none := by
  obtain ⟨_, rfl⟩ | ⟨_, _, rfl⟩ := h <;> exact ⟨rfl, rfl⟩

/-- What a deed appends to the log: nothing, what a send has written or what a read loop has
read. -/
inductive Logs (w : World) (me : Caller) (events : List Event) (s : Session) : Prop where
  | nothing : logged events = [] → s.log = w.session.log → Logs w me events s
  | sent {d : Handle} {data : Bytes} {told : Bool} :
    w.tasks me = .rests (.askDevice (.write d data) (.writing d data)) told →
    logged events = [w.session.log.nextEntry .sent data] →
    s.log = w.session.log.append .sent data → Logs w me events s
  | received {n : Nat} {d : Handle} {data : Bytes} {told : Bool} : me = .reader n →
    w.tasks me = .rests (.askDevice (.read d) (.reading d)) told →
    w.session.stopReading = false → s.phase = w.session.phase →
    logged events = [w.session.log.nextEntry .received data] →
    s.log = w.session.log.append .received data → Logs w me events s

theorem Deed.logs (h : w.Deed me events s pause) : w.Logs me events s := by
  cases h with
  | queues hwants _ =>
    exact .nothing (List.filterMap_eq_nil_iff.2 fun f hf => (hwants.opens f hf).logged?) rfl
  | busy hgets _ _ | misconfigured hgets _ _ | requests hgets _ _ | writes hgets _ _ | lost hgets _
  | nothingToEnd hgets _ | ends hgets _ _ _ | closes hgets _ | stopsReading hgets _
  | reads hgets _ =>
    exact .nothing (List.filterMap_eq_nil_iff.2
      (hgets.forall_events (fun _ hf => hf.logged?) rfl)) rfl
  | written htask => exact .sent htask rfl rfl
  | hears htask hhears =>
    cases hhears with
    | receives hgoes _ => exact .received rfl htask hgoes rfl rfl rfl
    | _ => exact .nothing rfl rfl
  | _ => exact .nothing rfl rfl

theorem Reachable.log_grows (h : w.Reachable) {moves : List Move} (hrun : w.run moves = some v) :
    ∃ new, v.history = w.history ++ new ∧ w.session.log.Grows (logged new) v.session.log := by
  refine Reachable.keeps (P := fun u => ∃ new, u.history = w.history ++ new ∧
    w.session.log.Grows (logged new) u.session.log) h hrun
    ⟨[], (List.append_nil _).symm, .same⟩ ?_
  rintro u next me course _ _ ⟨events, s, pause, hdeed, hchanges⟩ ⟨new, hnew, hgrows⟩
  refine ⟨new ++ events, by rw [hchanges.history, hnew, List.append_assoc], ?_⟩
  rw [log_of_bare hchanges.bare, logged, List.filterMap_append]
  cases hdeed.logs with
  | nothing hnone hlog =>
    rw [show events.filterMap Event.logged? = [] from hnone, hlog, List.append_nil]
    exact hgrows
  | sent _ hone hlog | received _ _ _ _ hone hlog =>
    rw [show events.filterMap Event.logged? = [_] from hone, hlog]
    exact hgrows.append

theorem run_grows {log : Log.Ring} {closeTimeout : Double} {moves : List Move}
    (hrun : (fresh log closeTimeout).run moves = some w) :
    log.Grows (logged w.history) w.session.log := by
  have hfresh : (fresh log closeTimeout).Reachable := ⟨log, closeTimeout, [], rfl⟩
  obtain ⟨new, hnew, hgrows⟩ := hfresh.log_grows hrun
  rw [hnew]
  exact hgrows

/-! ## Writes and entries -/

/-- A deed is a successful write with its entry, or it has nothing to do with either. -/
theorem Deed.mirrors (h : w.Deed me events s pause) {history : List Event}
    (hhistory : Mirrored history) : Mirrored (history ++ events) := by
  cases h with
  | queues hwants _ => exact hhistory.asides fun f hf => (hwants.opens f hf).mirrored
  | busy hgets _ _ | misconfigured hgets _ _ | requests hgets _ _ | writes hgets _ _ | lost hgets _
  | nothingToEnd hgets _ | ends hgets _ _ _ | closes hgets _ | stopsReading hgets _
  | reads hgets _ =>
    exact hhistory.asides (hgets.forall_events (fun _ hf => hf.mirrored) ⟨rfl, rfl⟩)
  | @written _ data d _ _ =>
    have hdirection : (w.session.log.nextEntry .sent data).direction = .sent := rfl
    exact hhistory.write hdirection
  | hears _ hhears =>
    refine hhistory.asides ?_
    cases hhears <;> simp [Event.written?, Event.payload?, Log.Ring.nextEntry]
  | _ =>
    refine hhistory.asides ?_
    simp [Event.written?, Event.payload?]

theorem Reachable.mirrored (h : w.Reachable) : Mirrored w.history := by
  refine Reachable.always (P := fun u => Mirrored u.history) h (fun _ _ => .nil) ?_
  rintro u next me course _ _ ⟨events, s, pause, hdeed, hchanges⟩ hmirrored
  rw [hchanges.history]
  exact hdeed.mirrors hmirrored

/-! ## What a send gives back -/

theorem Reachable.outcome (h : w.Reachable) {id : Nat} {op : Operation}
    {payload : Except Fault Bytes} {result : Except Fault Result}
    (hbegun : .begun (.call id) op ∈ w.history) (hop : op.payload? = some payload)
    (hreturned : .returned (.call id) result ∈ w.history) :
    Outcome w.history (.call id) payload result := by
  rcases (h.stage id).of_ended hop (mem_own.2 ⟨hbegun, rfl⟩) (mem_own.2 ⟨hreturned, rfl⟩) with
    ⟨fault, rfl, hwhy, hnone⟩ | ⟨d, data, entry, rfl, rfl, hwritten, honly⟩
  · exact .fault hwhy fun d data hmem => hnone d data (mem_own.2 ⟨hmem, rfl⟩)
  · obtain ⟨before, after, hhistory⟩ := List.append_of_mem (mem_own.1 hwritten).1
    obtain ⟨logged, rest, rfl, hdirection, rfl⟩ := h.mirrored.behind_write hhistory
    -- the send ends only once, so this is the entry that it gives back
    have hends : .returned (.call id) (.ok (.entry logged)) ∈ own (.call id) w.history := by
      refine mem_own.2 ⟨?_, rfl⟩
      rw [hhistory]
      simp
    cases honly _ hends
    exact .entry rfl hdirection hhistory

theorem Reachable.history_grows (h : w.Reachable) {moves : List Move}
    (hrun : w.run moves = some v) : ∃ new, v.history = w.history ++ new := by
  refine Reachable.keeps (P := fun u => ∃ new, u.history = w.history ++ new) h hrun
    ⟨[], (List.append_nil _).symm⟩ ?_
  rintro u next me course _ _ ⟨events, s, pause, _, hchanges⟩ ⟨new, hnew⟩
  exact ⟨new ++ events, by rw [hchanges.history, hnew, List.append_assoc]⟩

theorem Reachable.returns (h : w.Reachable) {id : Nat} {op : Operation}
    {payload : Except Fault Bytes} (hop : op.payload? = some payload)
    (hbegun : .begun (.call id) op ∈ w.history) : ∃ more later result,
      w.run more = some later ∧ .returned (.call id) result ∈ later.history := by
  -- it is at its end as soon as its task is over
  have hover : ∀ more later result told, w.run more = some later →
      later.tasks (.call id) = .rests (.over result) told →
      ∃ result, .returned (.call id) result ∈ later.history := by
    intro more later result told hrun htask
    obtain ⟨new, hnew⟩ := h.history_grows hrun
    have hlater : .begun (.call id) op ∈ own (.call id) later.history := by
      refine mem_own.2 ⟨?_, rfl⟩
      rw [hnew]
      exact List.mem_append_left new hbegun
    rcases ((h.run hrun).stage id).of_send hop hlater with ⟨_, _, heq⟩ | ⟨_, _, _, heq⟩ |
      ⟨result, hmem⟩
    · rw [htask] at heq
      cases heq
    · rw [htask] at heq
      cases heq
    · exact ⟨result, (mem_own.1 hmem).1⟩
  have hends : (∃ result, .returned (.call id) result ∈ w.history) ∨ ∃ more later result told,
      w.run more = some later ∧ later.tasks (.call id) = .rests (.over result) told := by
    rcases (h.stage id).of_send hop (mem_own.2 ⟨hbegun, rfl⟩) with ⟨data, told, htask⟩ |
      ⟨d, data, told, htask⟩ | ⟨result, hmem⟩
    · exact Or.inr (h.send_ends htask)
    · exact Or.inr (h.write_ends ⟨_, told, htask⟩)
    · exact Or.inl ⟨result, (mem_own.1 hmem).1⟩
  rcases hends with ⟨result, hmem⟩ | ⟨more, later, result, told, hrun, htask⟩
  · exact ⟨[], w, result, rfl, hmem⟩
  · obtain ⟨result, hmem⟩ := hover more later result told hrun htask
    exact ⟨more, later, result, hrun, hmem⟩

/-- A write that fails ends its send with a fault of writing and leaves the session as it was but
for its locks. -/
theorem Reachable.write_fails (h : w.Reachable) (hasks : w.Asks c (.write d data)) {fault : Fault}
    (hmove : w.move (.answer c (.failed fault)) = some next) :
    next.history = w.history ++ [.answered c (.write d data) (.failed fault),
        .returned c (.error (writeFault d fault))] ∧
      (writeFault d fault).kind = .writeFailed ∧ next.session.bare = w.session.bare := by
  obtain ⟨_, hsound⟩ := h.sound
  obtain ⟨_, told, htask⟩ := hsound.writing_holds hasks
  rw [World.move, htask] at hmove
  split at hmove
  case h_1 call point told' heq =>
    cases heq
    split at hmove
    case isTrue hordinary =>
      cases hmove
      have u : Underway w (w.happen [.answered c (.write d data) (.failed fault)]) c
          [.answered c (.write d data) (.failed fault)] w.session :=
        hsound.underway_resume htask rfl rfl rfl
      have hchanges : Changes w ((w.happen [.answered c (.write d data) (.failed fault)]).absorb c
          (w.session.leave .writer [] (.error (writeFault d fault)))) c
          [.answered c (.write d data) (.failed fault),
            .returned c (.error (writeFault d fault))] w.session.bare
          (.over (.error (writeFault d fault))) := u.leavesOnly (by simp) rfl
      exact ⟨hchanges.history, kind_writeFault d hordinary, hchanges.bare⟩
    case isFalse => cases hmove
  case h_2 hnone => exact absurd rfl (hnone _ _ _)

/-- Over every run, the log has grown by the entries that the history says were logged, and the
payloads of the sent ones are those of the successful writes in the order in which these ended:
each entry has its write right before it and the end of its send right behind it. A send that has
begun can always come to its end, and then gives back the entry of its own write, or a fault, having
written nothing. A failed write ends its send with a fault of writing and changes nothing else. -/
theorem sent_log_mirrors_writes (log : Log.Ring) (closeTimeout : Double) (moves : List Move)
    (w : World) (hrun : (fresh log closeTimeout).run moves = some w) :
    log.Grows (logged w.history) w.session.log ∧
      payloads .sent w.history = transmitted w.history ∧
      (∀ before entry after, w.history = before ++ .logged entry :: after →
        entry.direction = .sent → ∃ first c d rest,
          before = first ++ [.answered c (.write d entry.data) .done] ∧
            after = .returned c (.ok (.entry entry)) :: rest) ∧
      (∀ id op payload, .begun (.call id) op ∈ w.history → op.payload? = some payload →
        (∃ more later result, w.run more = some later ∧
          .returned (.call id) result ∈ later.history) ∧
        ∀ result, .returned (.call id) result ∈ w.history →
          Outcome w.history (.call id) payload result) ∧
      ∀ c d data fault next, w.Asks c (.write d data) →
        w.move (.answer c (.failed fault)) = some next →
        next.history = w.history ++ [.answered c (.write d data) (.failed fault),
            .returned c (.error (writeFault d fault))] ∧
          (writeFault d fault).kind = .writeFailed ∧ next.session.bare = w.session.bare := by
  have h : w.Reachable := ⟨log, closeTimeout, moves, hrun⟩
  refine ⟨run_grows hrun, h.mirrored.payloads_eq, fun before entry after => h.mirrored.around_entry,
    fun id op payload hbegun hop => ⟨h.returns hop hbegun, fun result => h.outcome hbegun hop⟩,
    fun c d data fault next hasks hmove => h.write_fails hasks hmove⟩

/-- One send has written and another one is writing when a disconnect has begun; the second write
then fails. -/
theorem sent_log_mirrors_writes_failing :
    ∃ w next : World, payloads .sent w.history = [[65]] ∧ transmitted w.history = [[65]] ∧
      w.session.phase = .closing ∧ w.Asks (.call 2) (.write ⟨7, "tty"⟩ [66]) ∧
      w.move (.answer (.call 2) (.failed (.portNotOpen "tty"))) = some next ∧
      payloads .sent w.history = transmitted w.history ∧
      next.session.bare = w.session.bare := by
  have hrun : ∃ w, (fresh {} Double.zero).run [.begin 0 (.connect {} none),
      .answer (.call 0) (.device ⟨7, "tty"⟩), .answer (.call 0) .done, .startReading 0,
      .begin 1 (.send [65]), .begin 2 (.send [66]), .answer (.call 1) .done, .turn (.call 2),
      .begin 3 .disconnect] = some w := ⟨_, rfl⟩
  obtain ⟨w, hw⟩ := hrun
  have hstate : payloads .sent w.history = [[65]] ∧ transmitted w.history = [[65]] ∧
      w.session.phase = .closing ∧ w.Asks (.call 2) (.write ⟨7, "tty"⟩ [66]) ∧
      ∃ next, w.move (.answer (.call 2) (.failed (.portNotOpen "tty"))) = some next := by
    cases hw
    exact ⟨rfl, rfl, rfl, ⟨_, _, rfl⟩, _, rfl⟩
  obtain ⟨hsent, hwritten, hphase, hasks, next, hmove⟩ := hstate
  obtain ⟨_, hmirrors, _, _, hfails⟩ := sent_log_mirrors_writes {} Double.zero _ w hw
  exact ⟨w, next, hsent, hwritten, hphase, hasks, hmove, hmirrors,
    (hfails _ _ _ _ next hasks hmove).2.2⟩

end World

end Session

end SerialConsole
