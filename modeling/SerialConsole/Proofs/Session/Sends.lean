import SerialConsole.Proofs.Session.Phases

set_option autoImplicit false

/-!
# The life of a send

What a call has done so far are its `own` events. `Stage` says how far a call is and what it has
done by then: a send has begun and waits for its turn, its one write is in progress, or it is over,
refused without a write or after that write. `Reachable.stage`: every call is at some stage.
-/
namespace SerialConsole.Session

/-- Who did something. An entry of the log is nobody's. -/
def Event.caller? : Event → Option Caller
  | .begun c _ | .asked c _ | .answered c _ _ | .returned c _ => some c
  | .logged _ => none

/-- What a caller has done. -/
def own (c : Caller) (history : List Event) : List Event :=
  history.filter fun e => e.caller? = some c

theorem own_append (c : Caller) (es fs : List Event) : own c (es ++ fs) = own c es ++ own c fs :=
  List.filter_append es fs

theorem own_cons {c : Caller} {e : Event} (he : e.caller? = some c) (es : List Event) :
    own c (e :: es) = e :: own c es :=
  List.filter_cons_of_pos (decide_eq_true he)

theorem own_logged (c : Caller) (entry : Log.Entry) (es : List Event) :
    own c (.logged entry :: es) = own c es :=
  List.filter_cons_of_neg (by rw [decide_eq_true_eq]; nofun)

theorem own_singleton {c : Caller} {e : Event} (he : e.caller? = some c) : own c [e] = [e] :=
  own_cons he []

theorem own_pair {c : Caller} {e f : Event} (he : e.caller? = some c) (hf : f.caller? = some c) :
    own c [e, f] = [e, f] := by
  rw [own_cons he, own_singleton hf]

theorem mem_own {c : Caller} {e : Event} {history : List Event} :
    e ∈ own c history ↔ e ∈ history ∧ e.caller? = some c := by
  rw [own, List.mem_filter, decide_eq_true_eq]

theorem begun_not_mem_own {c : Caller} {es : List Event} (h : ∀ op, .begun c op ∉ es)
    (op : Operation) : .begun c op ∉ own c es :=
  fun hmem => h op (mem_own.1 hmem).1

/-- Whether a task waits for its turn to write, or writes. -/
def Pause.isSending : Pause → Bool
  | .awaitTurn _ (.sendTurn _) | .askDevice _ (.writing _ _) => true
  | _ => false

/-- Why a send fails without a write. -/
inductive Unsent (op : Operation) : Fault → Prop where
  | unencoded {fault : Fault} : op.payload? = some (.error fault) → Unsent op fault
  | refused {data : Bytes} {fault : Fault} : op.payload? = some (.ok data) →
    fault.kind = .notConnected ∨ data = [] ∧ fault.kind = .emptyPayload → Unsent op fault

/-- How far a call is, and what it has done by then. Of calls that are no sends it is enough to
know that they are none. -/
inductive Stage (id : Nat) : Status → List Event → Prop where
  | absent : Stage id .absent []
  | aside {op : Operation} {pause : Pause} {told : Bool} {events : List Event} :
    op.payload? = none → pause.isSending = false → (∀ op, .begun (.call id) op ∉ events) →
    Stage id (.rests pause told) (.begun (.call id) op :: events)
  | waits {op : Operation} {data : Bytes} {told : Bool} : op.payload? = some (.ok data) →
    Stage id (.rests (.awaitTurn .writer (.sendTurn data)) told) [.begun (.call id) op]
  | writes {op : Operation} {d : Handle} {data : Bytes} {told : Bool} :
    op.payload? = some (.ok data) →
    Stage id (.rests (.askDevice (.write d data) (.writing d data)) told)
      [.begun (.call id) op, .asked (.call id) (.write d data)]
  | unsent {op : Operation} {fault : Fault} {told : Bool} : Unsent op fault →
    Stage id (.rests (.over (.error fault)) told)
      [.begun (.call id) op, .returned (.call id) (.error fault)]
  | unwritten {op : Operation} {d : Handle} {data : Bytes} {fault : Fault} {told : Bool} :
    op.payload? = some (.ok data) → fault.isOrdinary = true →
    Stage id (.rests (.over (.error (writeFault d fault))) told)
      [.begun (.call id) op, .asked (.call id) (.write d data),
        .answered (.call id) (.write d data) (.failed fault),
        .returned (.call id) (.error (writeFault d fault))]
  | written {op : Operation} {d : Handle} {data : Bytes} {entry : Log.Entry} {told : Bool} :
    op.payload? = some (.ok data) →
    Stage id (.rests (.over (.ok (.entry entry))) told)
      [.begun (.call id) op, .asked (.call id) (.write d data),
        .answered (.call id) (.write d data) .done, .returned (.call id) (.ok (.entry entry))]

namespace Stage

variable {id : Nat} {before after : Status} {mine : List Event}

theorem told (h : Stage id before mine) (hsame : World.SameButTold before after) :
    Stage id after mine := by
  rcases hsame with rfl | ⟨pause, told, rfl, rfl⟩
  · exact h
  · cases h with
    | aside hop hsending honce => exact .aside hop hsending honce
    | waits hop => exact .waits hop
    | writes hop => exact .writes hop
    | unsent hwhy => exact .unsent hwhy
    | unwritten hop hordinary => exact .unwritten hop hordinary
    | written hop => exact .written hop

theorem of_sendTurn {name : LockName} {data : Bytes} {told : Bool}
    (h : Stage id (.rests (.awaitTurn name (.sendTurn data)) told) mine) :
    ∃ op, op.payload? = some (.ok data) ∧ mine = [.begun (.call id) op] := by
  cases h with
  | aside _ hsending _ => cases hsending
  | waits hop => exact ⟨_, hop, rfl⟩

theorem of_writing {call : DeviceCall} {d : Handle} {data : Bytes} {told : Bool}
    (h : Stage id (.rests (.askDevice call (.writing d data)) told) mine) :
    ∃ op, op.payload? = some (.ok data) ∧
      mine = [.begun (.call id) op, .asked (.call id) (.write d data)] := by
  cases h with
  | aside _ hsending _ => cases hsending
  | writes hop => exact ⟨_, hop, rfl⟩

/-- A call that neither is over nor has anything to do with writing is no send. -/
theorem goOn {pause pause' : Pause} {told told' : Bool} {events : List Event}
    (h : Stage id (.rests pause told) mine) (hover : ∀ result, pause ≠ .over result)
    (hbefore : pause.isSending = false) (hafter : pause'.isSending = false)
    (honce : ∀ op, .begun (.call id) op ∉ events) :
    Stage id (.rests pause' told') (mine ++ events) := by
  cases h with
  | aside hop _ hmine =>
    refine .aside hop hafter fun op hmem => ?_
    rcases List.mem_append.1 hmem with hin | hin
    · exact hmine op hin
    · exact honce op hin
  | waits _ | writes _ => cases hbefore
  | unsent _ | unwritten _ _ | written _ => exact absurd rfl (hover _)

end Stage

namespace World

variable {w next : World} {me c : Caller} {course : Course} {events mine : List Event}
  {s : Session} {pause : Pause} {id : Nat} {name : LockName} {point : Point} {d : Handle}

theorem ReadingOver.stage (h : w.ReadingOver (.call id) d events)
    (hstage : Stage id (w.tasks (.call id)) mine) (told : Bool) :
    Stage id (.rests (.awaitTurn .writer (.closeTurn (some d))) told)
      (mine ++ own (.call id) events) := by
  cases h with
  | unread htask | inTime htask _ | joined htask _ =>
    rw [htask] at hstage
    exact hstage.goOn (fun _ => nofun) rfl rfl (begun_not_mem_own (by simp))

theorem Wants.stage (h : w.Wants (.call id) name point events)
    (hstage : Stage id (w.tasks (.call id)) mine) (told : Bool) :
    Stage id (.rests (.awaitTurn name point) told) (mine ++ own (.call id) events) := by
  cases h with
  | connect habsent | disconnect habsent =>
    rw [habsent] at hstage
    cases hstage
    rw [own_singleton rfl]
    exact .aside rfl rfl fun _ => List.not_mem_nil
  | send habsent hpayload _ _ =>
    rw [habsent] at hstage
    cases hstage
    rw [own_singleton rfl]
    exact .waits hpayload
  | close hover _ => exact hover.stage hstage told

theorem Gets.stage (h : w.Gets (.call id) name point events)
    (hstage : Stage id (w.tasks (.call id)) mine) :
    Stage id (.rests (.awaitTurn name point) true) (mine ++ own (.call id) events) := by
  cases h with
  | atOnce hwants _ => exact hwants.stage hstage true
  | inTurn htask =>
    rw [htask] at hstage
    rw [own, List.filter_nil, List.append_nil]
    exact hstage

theorem Gets.stage_goOn (h : w.Gets (.call id) name point events)
    (hstage : Stage id (w.tasks (.call id)) mine)
    (hbefore : (Pause.awaitTurn name point).isSending = false) (hafter : pause.isSending = false) :
    Stage id (.rests pause false) (mine ++ own (.call id) (events ++ pause.events (.call id))) := by
  rw [own_append, ← List.append_assoc]
  refine (h.stage hstage).goOn (fun _ => nofun) hbefore hafter (begun_not_mem_own fun op => ?_)
  exact Quiet.begun_not_mem_events pause

theorem Deed.stage (h : w.Deed (.call id) events s pause)
    (hstage : Stage id (w.tasks (.call id)) mine) :
    Stage id (.rests pause false) (mine ++ own (.call id) events) := by
  cases h with
  | queues hwants _ => exact hwants.stage hstage false
  | busy hgets _ _ | misconfigured hgets _ _ | requests hgets _ _ | nothingToEnd hgets _
  | ends hgets _ _ _ | closes hgets _ => exact hgets.stage_goOn hstage rfl rfl
  | unoffered htask _ | opens htask _ | unopened htask _ | connects htask _
  | waitsForReader htask _ | cancelsReader htask _ _ | closed htask _ | watched htask _ =>
    rw [htask] at hstage
    exact hstage.goOn (fun _ => nofun) rfl rfl (begun_not_mem_own (by simp))
  | watches habsent _ | nothingToWatch habsent _ =>
    rw [habsent] at hstage
    cases hstage
    rw [own_cons rfl]
    exact .aside rfl rfl (begun_not_mem_own (by simp))
  | refused habsent hrefuses =>
    rw [habsent] at hstage
    cases hstage
    rw [own_pair rfl rfl]
    cases hrefuses with
    | unencoded hpayload => exact .unsent (.unencoded hpayload)
    | unconnected hpayload _ => exact .unsent (.refused hpayload (Or.inl rfl))
    | empty hpayload _ => exact .unsent (.refused hpayload (Or.inr ⟨rfl, rfl⟩))
  | writes hgets _ _ =>
    obtain ⟨op, hop, hbegun⟩ := (hgets.stage hstage).of_sendTurn
    rw [own_append, ← List.append_assoc, hbegun, own_singleton rfl]
    exact .writes hop
  | lost hgets _ =>
    obtain ⟨op, hop, hbegun⟩ := (hgets.stage hstage).of_sendTurn
    rw [own_append, ← List.append_assoc, hbegun, own_singleton rfl]
    exact .unsent (.refused hop (Or.inl rfl))
  | unwritten htask hordinary =>
    rw [htask] at hstage
    obtain ⟨op, hop, rfl⟩ := hstage.of_writing
    rw [own_pair rfl rfl]
    exact .unwritten hop hordinary
  | written htask =>
    rw [htask] at hstage
    obtain ⟨op, hop, rfl⟩ := hstage.of_writing
    rw [own_cons rfl, own_logged, own_singleton rfl]
    exact .written hop

/-- Nobody does anything in the deed of another. -/
theorem Deed.own_of_ne (h : w.Deed me events s pause) (hc : c ≠ me) : own c events = [] := by
  refine List.filter_eq_nil_iff.2 fun e he hown => ?_
  rw [decide_eq_true_eq] at hown
  rcases h.mem_events he with hleads | ⟨_, _, rfl⟩ | ⟨_, _, _, rfl⟩
  · obtain ⟨_, rfl⟩ | ⟨_, _, rfl⟩ | ⟨_, rfl⟩ := hleads
    · exact hc (Option.some.inj hown).symm
    · exact hc (Option.some.inj hown).symm
    · cases hown
  · exact hc (Option.some.inj hown).symm
  · exact hc (Option.some.inj hown).symm

theorem Changes.own_of_ne (h : w.Changes next me events s pause) (hdeed : w.Deed me events s pause)
    (hc : c ≠ me) : own c next.history = own c w.history := by
  rw [h.history, own_append, hdeed.own_of_ne hc, List.append_nil]

theorem Does.stage (h : w.Does me next)
    (hstage : Stage id (w.tasks (.call id)) (own (.call id) w.history)) :
    Stage id (next.tasks (.call id)) (own (.call id) next.history) := by
  obtain ⟨events, s, pause, hdeed, hchanges⟩ := h
  by_cases hme : .call id = me
  · subst hme
    rw [hchanges.mine, hchanges.history, own_append]
    exact hdeed.stage hstage
  · rw [hchanges.own_of_ne hdeed hme]
    exact hstage.told (hchanges.call_of_ne hme)

/-- Every call is at some stage. -/
theorem Reachable.stage (h : w.Reachable) (id : Nat) :
    Stage id (w.tasks (.call id)) (own (.call id) w.history) :=
  h.always (fun _ _ => .absent) fun _ _ _ _ _ _ hdoes hstage => hdoes.stage hstage

end World

end SerialConsole.Session
