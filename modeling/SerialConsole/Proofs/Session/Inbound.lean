import SerialConsole.Proofs.Session.SentLog

set_option autoImplicit false

/-!
# What is received

The received entries of a log are what the read loops were given. `heard` says what is to be logged
of one connection: the chunks of its read loop up to the end of data, a failed read or the stop.
`Attended` is a history in which that is what was logged, and `Account` is the part of it that a
connection has so far, with what the session remembers of it.
-/
namespace SerialConsole.Session

/-- Whether a connection begins with an event. -/
def Event.isOpen : Event → Bool
  | .answered _ (.openWith _ _) .done => true
  | _ => false

/-- How many connections a history has. -/
def opens (history : List Event) : Nat :=
  history.countP Event.isOpen

/-- A chunk with something in it that a read loop was given. -/
def Event.chunk? (n : Nat) : Event → Option Bytes
  | .answered (.reader m) (.read _) (.chunk (some data)) =>
    if m = n ∧ data ≠ [] then some data else none
  | _ => none

/-- Whether a read loop is listened to no longer: it was given the end of data or a fault, or a
disconnect has told it to stop. -/
def Event.stops (n : Nat) : Event → Bool
  | .answered (.reader m) (.read _) (.chunk none) => m = n
  | .answered (.reader m) (.read _) (.failed _) => m = n
  | .asked _ (.cancelRead _) => true
  | _ => false

/-- The fault of a failed read. -/
def Event.readFault? : Event → Option Fault
  | .answered _ (.read _) (.failed fault) => some fault
  | _ => none

/-- What is to be logged of what a read loop was given. -/
def heard (n : Nat) (during : List Event) : List Bytes :=
  (during.takeWhile fun e => !e.stops n).filterMap (Event.chunk? n)

/-- The fault that a read loop ended with, if it was listened to until then. -/
def readFailure (n : Nat) (during : List Event) : Option Fault :=
  (during.find? (Event.stops n)).bind Event.readFault?

/-- A history whose received entries are what was heard, connection by connection. -/
inductive Attended : List Event → Prop where
  | unconnected {events : List Event} : (∀ e ∈ events, e.isOpen = false) →
    payloads .received events = [] → Attended events
  | connection {before during : List Event} {c : Caller} {d : Handle} {line : LineSettings} :
    Attended before → (∀ e ∈ during, e.isOpen = false) →
    (∀ m d' reply, .answered (.reader m) (.read d') reply ∈ during →
      m = opens before ∧ d' = d) →
    payloads .received during = heard (opens before) during →
    Attended (before ++ .answered c (.openWith d line) .done :: during)

/-! ## Longer histories -/

section

variable {n : Nat} {xs ys : List Event}

theorem payloads_append (direction : Log.Direction) (xs ys : List Event) :
    payloads direction (xs ++ ys) = payloads direction xs ++ payloads direction ys :=
  List.filterMap_append

theorem listens_or_stopped (n : Nat) (xs : List Event) :
    (∀ e ∈ xs, e.stops n = false) ∨ ∃ e ∈ xs, e.stops n = true := by
  by_cases h : ∃ e ∈ xs, e.stops n = true
  · exact Or.inr h
  · exact Or.inl fun e he => Bool.eq_false_iff.2 fun hstops => h ⟨e, he, hstops⟩

theorem heard_append (h : ∀ e ∈ xs, e.stops n = false) (ys : List Event) :
    heard n (xs ++ ys) = heard n xs ++ heard n ys := by
  have hall : ∀ e ∈ xs, (!e.stops n) = true := by
    intro e he
    rw [h e he]
    rfl
  have hxs := @List.takeWhile_append_of_pos _ _ xs [] hall
  rw [List.append_nil, List.takeWhile_nil, List.append_nil] at hxs
  rw [heard, List.takeWhile_append_of_pos hall, List.filterMap_append, heard, hxs]
  rfl

theorem heard_append_stopped (h : ∃ e ∈ xs, e.stops n = true) (ys : List Event) :
    heard n (xs ++ ys) = heard n xs := by
  have htake : (xs ++ ys).takeWhile (fun e => !e.stops n) = xs.takeWhile fun e => !e.stops n := by
    induction xs with
    | nil =>
      obtain ⟨e, he, _⟩ := h
      cases he
    | cons x rest ih =>
      rw [List.cons_append, List.takeWhile_cons, List.takeWhile_cons]
      cases hx : x.stops n with
      | true => rfl
      | false =>
        refine congrArg (x :: ·) (ih ?_)
        obtain ⟨e, he, hstops⟩ := h
        rcases List.mem_cons.1 he with rfl | hin
        · rw [hx] at hstops
          cases hstops
        · exact ⟨e, hin, hstops⟩
  rw [heard, htake, heard]

theorem find_stop_eq_none (h : ∀ e ∈ xs, e.stops n = false) :
    xs.find? (Event.stops n) = none :=
  List.find?_eq_none.2 fun e he => by rw [h e he]; decide

theorem readFailure_eq_none (h : ∀ e ∈ xs, e.stops n = false) : readFailure n xs = none := by
  rw [readFailure, find_stop_eq_none h]
  rfl

theorem readFailure_append (h : ∀ e ∈ xs, e.stops n = false) (ys : List Event) :
    readFailure n (xs ++ ys) = readFailure n ys := by
  rw [readFailure, List.find?_append, find_stop_eq_none h, Option.none_or, readFailure]

theorem readFailure_append_stopped (h : ∃ e ∈ xs, e.stops n = true) (ys : List Event) :
    readFailure n (xs ++ ys) = readFailure n xs := by
  rw [readFailure, List.find?_append]
  cases hfind : xs.find? (Event.stops n) with
  | none =>
    obtain ⟨e, he, hstops⟩ := h
    exact absurd hstops (List.find?_eq_none.1 hfind e he)
  | some e => rw [Option.some_or, readFailure, hfind]

/-- What is behind a stop is not heard, and what is nothing to be heard is not either. -/
theorem unheard_append
    (h : (∃ e ∈ xs, e.stops n = true) ∨ heard n ys = [] ∧ readFailure n ys = none) :
    heard n (xs ++ ys) = heard n xs ∧ readFailure n (xs ++ ys) = readFailure n xs := by
  rcases listens_or_stopped n xs with hlistens | hstopped
  · rcases h with ⟨e, he, hstops⟩ | ⟨hheard, hfailure⟩
    · rw [hlistens e he] at hstops
      cases hstops
    · rw [heard_append hlistens, hheard, List.append_nil, readFailure_append hlistens, hfailure,
        readFailure_eq_none hlistens]
      exact ⟨rfl, rfl⟩
  · exact ⟨heard_append_stopped hstopped ys, readFailure_append_stopped hstopped ys⟩

theorem opens_append (xs ys : List Event) : opens (xs ++ ys) = opens xs + opens ys :=
  List.countP_append

theorem opens_eq_zero (h : ∀ e ∈ xs, e.isOpen = false) : opens xs = 0 :=
  List.countP_eq_zero.2 fun e he => by rw [h e he]; decide

end

/-! ## Events that have nothing to do with reading -/

/-- Whether an event has nothing to do with reading. -/
def Event.isSilent : Event → Bool
  | .answered _ (.read _) _ => false
  | .answered _ (.openWith _ _) .done => false
  | .asked _ (.cancelRead _) => false
  | .logged entry => entry.direction ≠ .received
  | _ => true

theorem Event.silent {e : Event} (h : e.isSilent = true) : e.isOpen = false ∧
    (∀ n, e.stops n = false) ∧ (∀ n, e.chunk? n = none) ∧ e.payload? .received = none := by
  cases e with
  | begun c op | returned c result => exact ⟨rfl, fun _ => rfl, fun _ => rfl, rfl⟩
  | asked c call => cases call <;> first | exact ⟨rfl, fun _ => rfl, fun _ => rfl, rfl⟩ | cases h
  | answered c call reply =>
    cases c <;> cases call <;> cases reply <;>
      first | exact ⟨rfl, fun _ => rfl, fun _ => rfl, rfl⟩ | cases h
  | logged entry =>
    refine ⟨rfl, fun _ => rfl, fun _ => rfl, if_neg ?_⟩
    exact of_decide_eq_true h

section

variable {n : Nat} {ys : List Event}

theorem heard_silent (h : ∀ e ∈ ys, e.isSilent = true) : heard n ys = [] := by
  refine List.filterMap_eq_nil_iff.2 fun e he => ?_
  have hmem : e ∈ ys := (List.takeWhile_prefix _).subset he
  exact (Event.silent (h e hmem)).2.2.1 n

theorem readFailure_silent (h : ∀ e ∈ ys, e.isSilent = true) : readFailure n ys = none :=
  readFailure_eq_none fun e he => (Event.silent (h e he)).2.1 n

theorem payloads_silent (h : ∀ e ∈ ys, e.isSilent = true) : payloads .received ys = [] :=
  List.filterMap_eq_nil_iff.2 fun e he => (Event.silent (h e he)).2.2.2

end

/-! ## The account of a connection -/

/-- What the history since a connection began has of its read loop, and what the session remembers
of that. -/
structure Account (n : Nat) (d : Handle) (since : List Event) (s : Session) : Prop where
  unopened : ∀ e ∈ since, e.isOpen = false
  readers : ∀ m d' reply, .answered (.reader m) (.read d') reply ∈ since → m = n ∧ d' = d
  received : payloads .received since = heard n since
  failure : s.readError = readFailure n since
  stopped : s.stopReading = true ↔ ∃ c d, .asked c (.cancelRead d) ∈ since

/-- The device that a task reads from or is to read from. -/
def Pause.reads : Pause → Option Handle
  | .awaitTurn _ (.readTurn d) | .askDevice _ (.reading d) => some d
  | _ => none

def Status.reads : Status → Option Handle
  | .due d => some d
  | .rests pause _ => pause.reads
  | .absent => none

namespace Account

variable {n : Nat} {d : Handle} {xs ys : List Event} {s t : Session}

theorem stops (h : Account n d xs s) (hstop : s.stopReading = true) :
    ∃ e ∈ xs, e.stops n = true := by
  obtain ⟨c, d, hmem⟩ := h.stopped.1 hstop
  exact ⟨_, hmem, rfl⟩

theorem append (h : Account n d xs s) (hopen : ∀ e ∈ ys, e.isOpen = false)
    (hreaders : ∀ m d' reply, .answered (.reader m) (.read d') reply ∈ ys → m = n ∧ d' = d)
    (hreceived : payloads .received (xs ++ ys) = heard n (xs ++ ys))
    (hfailure : t.readError = readFailure n (xs ++ ys))
    (hstop : t.stopReading = true ↔ s.stopReading = true ∨ ∃ c d, .asked c (.cancelRead d) ∈ ys) :
    Account n d (xs ++ ys) t := by
  refine ⟨fun e he => (List.mem_append.1 he).elim (h.unopened e) (hopen e),
    fun m d' reply he => (List.mem_append.1 he).elim (h.readers m d' reply) (hreaders m d' reply),
    hreceived, hfailure, ?_⟩
  rw [hstop, h.stopped]
  constructor
  · rintro (⟨c, d, hmem⟩ | ⟨c, d, hmem⟩)
    · exact ⟨c, d, List.mem_append_left ys hmem⟩
    · exact ⟨c, d, List.mem_append_right xs hmem⟩
  · rintro ⟨c, d, hmem⟩
    exact (List.mem_append.1 hmem).imp (fun hin => ⟨c, d, hin⟩) fun hin => ⟨c, d, hin⟩

/-- Nothing is heard, and the session changes only if it is told to stop. -/
theorem unheard (h : Account n d xs s) (hopen : ∀ e ∈ ys, e.isOpen = false)
    (hreaders : ∀ m d' reply, .answered (.reader m) (.read d') reply ∈ ys → m = n ∧ d' = d)
    (hreceived : payloads .received ys = [])
    (hheard : (∃ e ∈ xs, e.stops n = true) ∨ heard n ys = [] ∧ readFailure n ys = none)
    (herror : t.readError = s.readError)
    (hstop : t.stopReading = true ↔ s.stopReading = true ∨ ∃ c d, .asked c (.cancelRead d) ∈ ys) :
    Account n d (xs ++ ys) t := by
  obtain ⟨hsame, hfailure⟩ := unheard_append hheard
  refine h.append hopen hreaders ?_ ?_ hstop
  · rw [payloads_append, hreceived, List.append_nil, hsame, h.received]
  · rw [herror, hfailure, h.failure]

theorem silent (h : Account n d xs s) (hys : ∀ e ∈ ys, e.isSilent = true)
    (herror : t.readError = s.readError) (hstop : t.stopReading = s.stopReading) :
    Account n d (xs ++ ys) t := by
  refine h.unheard (fun e he => (Event.silent (hys e he)).1) (fun m d' reply he => ?_)
    (payloads_silent hys) (Or.inr ⟨heard_silent hys, readFailure_silent hys⟩) herror ?_
  · cases hys _ he
  · rw [hstop]
    refine ⟨Or.inl, fun hcases => hcases.resolve_right ?_⟩
    rintro ⟨c, d', he⟩
    cases hys _ he

theorem congr (h : Account n d xs s) (herror : t.readError = s.readError)
    (hstop : t.stopReading = s.stopReading) : Account n d xs t :=
  ⟨h.unopened, h.readers, h.received, herror.trans h.failure, by rw [hstop]; exact h.stopped⟩

theorem stop (h : Account n d xs s) {c : Caller} {d' : Handle}
    (hys : ∀ e ∈ ys, e.isSilent = true) (herror : t.readError = s.readError)
    (hstop : t.stopReading = true) :
    Account n d (xs ++ (ys ++ [.asked c (.cancelRead d')])) t := by
  have hbefore : Account n d (xs ++ ys) s := h.silent hys rfl rfl
  rw [← List.append_assoc]
  refine hbefore.unheard ?_ ?_ rfl (Or.inr ⟨rfl, rfl⟩) herror ?_
  · exact List.forall_mem_singleton.2 rfl
  · intro m d' reply he
    cases List.mem_singleton.1 he
  · exact ⟨fun _ => Or.inr ⟨c, d', List.mem_singleton.2 rfl⟩, fun _ => hstop⟩

theorem hears (h : Account n d xs s) {pause : Pause} (hhears : World.Hears s n d ys t pause)
    (hlistens : s.stopReading = false → ∀ e ∈ xs, e.stops n = false) :
    Account n d (xs ++ ys) t := by
  have hopen : ∀ e ∈ ys, e.isOpen = false := by
    cases hhears <;> simp [Event.isOpen]
  have hreaders : ∀ m d' reply, .answered (.reader m) (.read d') reply ∈ ys → m = n ∧ d' = d := by
    intro m d' reply he
    cases hhears <;> simp at he <;> exact ⟨he.1, he.2.1⟩
  have hstop : t.stopReading = true ↔
      s.stopReading = true ∨ ∃ c d, .asked c (.cancelRead d) ∈ ys := by
    cases hhears <;> simp [bare, record]
  cases hhears with
  | endsData =>
    refine h.unheard hopen hreaders rfl (Or.inr ⟨?_, ?_⟩) rfl hstop
    · simp [heard, Event.stops]
    · simp [readFailure, Event.stops, Event.readFault?]
  | drops hstopped | interrupted hstopped =>
    exact h.unheard hopen hreaders rfl (Or.inl (h.stops hstopped)) rfl hstop
  | readsAgain hgoes =>
    refine h.unheard hopen hreaders rfl (Or.inr ⟨?_, ?_⟩) rfl hstop
    · simp [heard, Event.stops, Event.chunk?]
    · simp [readFailure, Event.stops]
  | @receives data hgoes hdata =>
    have hxs := hlistens hgoes
    refine h.append hopen hreaders ?_ ?_ hstop
    · rw [payloads_append, h.received, heard_append hxs]
      have hone : Event.chunk? n (.answered (.reader n) (.read d) (.chunk (some data))) =
          some data := if_pos ⟨rfl, hdata⟩
      refine congrArg (heard n xs ++ ·) (Eq.symm ?_)
      change List.filterMap (Event.chunk? n) (_ :: _) = [data]
      rw [List.filterMap_cons, hone]
      rfl
    · have hnone : s.readError = none := h.failure.trans (readFailure_eq_none hxs)
      rw [readFailure_append hxs]
      exact hnone
  | @breaks fault hgoes =>
    have hxs := hlistens hgoes
    refine h.append hopen hreaders ?_ ?_ hstop
    · rw [payloads_append, h.received, heard_append hxs]
      refine congrArg (heard n xs ++ ·) ?_
      simp [payloads, Event.payload?, heard, Event.stops]
    · rw [readFailure_append hxs]
      simp [readFailure, Event.stops, Event.readFault?]

end Account

namespace World

variable {w v next : World} {me c : Caller} {course : Course} {events since : List Event}
  {s : Session} {pause : Pause} {n : Nat} {d : Handle}

/-! ## What a deed has to do with reading -/

/-- A deed has nothing to do with reading, tells the read loop to stop, handles an answer to a read
or begins a connection. -/
inductive Heeds (w : World) : Caller → List Event → Session → Pause → Prop where
  | silent {c : Caller} {events : List Event} {s : Session} {pause : Pause} :
    (∀ e ∈ events, e.isSilent = true) → s.readError = w.session.readError →
    s.stopReading = w.session.stopReading → s.connections = w.session.connections →
    Heeds w c events s pause
  | stops {c : Caller} {before : List Event} {d : Handle} {s : Session} {pause : Pause} :
    (∀ e ∈ before, e.isSilent = true) → s.readError = w.session.readError →
    s.stopReading = true → s.connections = w.session.connections →
    Heeds w c (before ++ [.asked c (.cancelRead d)]) s pause
  | hears {n : Nat} {d : Handle} {told : Bool} {events : List Event} {s : Session} {pause : Pause} :
    w.tasks (.reader n) = .rests (.askDevice (.read d) (.reading d)) told →
    Hears w.session n d events s pause → Heeds w (.reader n) events s pause
  | connects {c : Caller} {d : Handle} {line : LineSettings} {pause : Pause} :
    Heeds w c [.answered c (.openWith d line) .done, .returned c (.ok .nothing)]
      (w.session.connectedTo d line).bare pause

theorem Opens.isSilent {e : Event} (h : Opens c e) : e.isSilent = true := by
  obtain ⟨_, rfl⟩ | ⟨_, _, rfl⟩ := h <;> rfl

theorem Deed.heeds (h : w.Deed me events s pause) : w.Heeds me events s pause := by
  cases h with
  | queues hwants _ => exact .silent (fun f hf => (hwants.opens f hf).isSilent) rfl rfl rfl
  | busy hgets _ _ | misconfigured hgets _ _ | requests hgets _ _ | writes hgets _ _ | lost hgets _
  | nothingToEnd hgets _ | closes hgets _ | stopsReading hgets _ | reads hgets _ =>
    exact .silent (hgets.forall_events (fun _ hf => hf.isSilent) rfl) rfl rfl rfl
  | ends hgets _ _ _ => exact .stops (fun f hf => (hgets.opens f hf).isSilent) rfl rfl rfl
  | hears htask hhears => exact .hears htask hhears
  | connects _ _ => exact .connects
  | _ => exact .silent (by simp [Event.isSilent, Log.Ring.nextEntry]) rfl rfl rfl

theorem Gets.reads (h : w.Gets (.reader n) .reader (.readTurn d) events) :
    (w.tasks (.reader n)).reads = some d := by
  cases h with
  | atOnce hwants _ =>
    cases hwants with
    | read hdue =>
      rw [hdue]
      rfl
  | inTurn htask =>
    rw [htask]
    rfl

theorem Deed.reads_same (h : w.Deed (.reader n) events s pause) (hd : pause.reads = some d) :
    (w.tasks (.reader n)).reads = some d := by
  cases h with
  | queues hwants _ =>
    cases hwants with
    | read hdue =>
      rw [hdue]
      exact hd
  | reads hgets _ =>
    rw [hgets.reads]
    exact hd
  | hears htask hhears =>
    rw [htask]
    rcases hhears.pause_cases with rfl | rfl
    · cases hd
    · exact hd
  | _ => cases hd

theorem reads_of_sameButTold {a b : Status} (h : SameButTold a b) : b.reads = a.reads := by
  rcases h with rfl | ⟨pause, told, rfl, rfl⟩ <;> rfl

theorem Hears.over_of_stops {t : Session} (h : Hears t n d events s pause) {m : Nat} {e : Event}
    (he : e ∈ events) (hstops : e.stops m = true) : pause = .over (.ok .nothing) := by
  cases h with
  | endsData | drops _ | interrupted _ | breaks _ => rfl
  | readsAgain _ | receives _ _ =>
    simp only [List.mem_cons, List.not_mem_nil, or_false] at he
    obtain rfl | rfl | rfl := he <;> cases hstops

/-! ## The current connection -/

/-- What holds of the connection that began last. -/
structure Listening (w : World) (n : Nat) (d : Handle) (since : List Event) : Prop where
  account : Account n d since w.session
  count : n + 1 = w.session.connections
  listens : w.Unfinished n → w.session.stopReading = false → ∀ e ∈ since, e.stops n = false
  reads : ∀ d', (w.tasks (.reader n)).reads = some d' → d' = d

theorem unfinished_of_reading {told : Bool}
    (htask : w.tasks (.reader n) = .rests (.askDevice (.read d) (.reading d)) told) :
    w.Unfinished n := by
  refine ⟨by rw [htask]; nofun, resultOf_eq_none_iff.2 fun result told' heq => ?_⟩
  rw [htask] at heq
  cases heq

/-- What a deed leaves behind at a connection. If it ends the reading, either the read loop has
been told to stop or it is over. -/
theorem Listening.account_does (h : w.Listening n d since)
    (hlatest : ∀ m, w.Unfinished m → m = n) (hdeed : w.Deed me events s pause)
    (hcount : s.connections = w.session.connections) :
    Account n d (since ++ events) s ∧ ∀ e ∈ events, e.stops n = true →
      s.stopReading = true ∨ me = .reader n ∧ pause = .over (.ok .nothing) := by
  cases hdeed.heeds with
  | silent hsilent herror hstop _ =>
    refine ⟨h.account.silent hsilent herror hstop, fun e he hstops => ?_⟩
    rw [(Event.silent (hsilent e he)).2.1 n] at hstops
    cases hstops
  | stops hsilent herror hstop _ =>
    exact ⟨h.account.stop hsilent herror hstop, fun _ _ _ => Or.inl hstop⟩
  | connects => exact absurd hcount (Nat.succ_ne_self _)
  | @hears m d' told _ _ _ htask hhears =>
    have hm : m = n := hlatest m (unfinished_of_reading htask)
    subst hm
    have hd : d' = d := h.reads d' (by rw [htask]; rfl)
    subst hd
    exact ⟨h.account.hears hhears (h.listens (unfinished_of_reading htask)),
      fun e he hstops => Or.inr ⟨rfl, hhears.over_of_stops he hstops⟩⟩

theorem Listening.does (h : w.Listening n d since) (hsound : w.Sound course)
    (htended : w.Tended) (hdeed : w.Deed me events s pause)
    (hchanges : w.Changes next me events s pause)
    (hcount : s.connections = w.session.connections) : next.Listening n d (since ++ events) := by
  have hlatest : ∀ m, w.Unfinished m → m = n := fun m hm =>
    Nat.succ.inj ((htended.latest hm).trans h.count.symm)
  obtain ⟨haccount, hends⟩ := h.account_does hlatest hdeed hcount
  have hstop : next.session.stopReading = s.stopReading := stopReading_of_bare hchanges.bare
  have herror : next.session.readError = s.readError := readError_of_bare hchanges.bare
  refine ⟨haccount.congr herror hstop, ?_, fun hn hgoes e he => ?_, fun d' hd' => ?_⟩
  · rw [connections_of_bare hchanges.bare, hcount]
    exact h.count
  · rw [hstop] at hgoes
    rcases List.mem_append.1 he with hin | hin
    · refine h.listens ?_ ?_ e hin
      · exact (hchanges.unfinished hsound hdeed hn).resolve_right fun hnew => hnew.2 hcount
      · refine Bool.eq_false_iff.2 fun hstopped => ?_
        obtain ⟨c, d', hmem⟩ := h.account.stopped.1 hstopped
        rw [haccount.stopped.2 ⟨c, d', List.mem_append_left events hmem⟩] at hgoes
        cases hgoes
    · refine Bool.eq_false_iff.2 fun hstops => ?_
      rcases hends e hin hstops with hstopped | ⟨rfl, rfl⟩
      · rw [hgoes] at hstopped
        cases hstopped
      · exact resultOf_eq_none_iff.1 hn.2 _ _ hchanges.mine
  · by_cases hme : .reader n = me
    · subst hme
      rw [hchanges.mine] at hd'
      exact h.reads d' (hdeed.reads_same hd')
    · rw [reads_of_sameButTold (hchanges.others _ hme (Or.inr hcount))] at hd'
      exact h.reads d' hd'

theorem Changes.begins {line : LineSettings} (hchanges : w.Changes next me
      [.answered me (.openWith d line) .done, .returned me (.ok .nothing)]
      (w.session.connectedTo d line).bare pause)
    (hopens : opens w.history = w.session.connections) :
    next.Listening (opens w.history) d [.returned me (.ok .nothing)] := by
  have herror : next.session.readError = none := readError_of_bare hchanges.bare
  have hstop : next.session.stopReading = false := stopReading_of_bare hchanges.bare
  have hcount : next.session.connections = w.session.connections + 1 :=
    connections_of_bare hchanges.bare
  have haccount : Account (opens w.history) d [.returned me (.ok .nothing)] next.session := by
    refine ⟨List.forall_mem_singleton.2 rfl, fun m d' reply he => ?_, rfl, herror, ?_⟩
    · cases List.mem_singleton.1 he
    · rw [hstop]
      refine ⟨nofun, ?_⟩
      rintro ⟨c, d', he⟩
      cases List.mem_singleton.1 he
  refine ⟨haccount, ?_, fun _ _ => List.forall_mem_singleton.2 rfl, fun d' hd' => ?_⟩
  · rw [hopens, hcount]
  · obtain ⟨d'', hd'', hdue⟩ := hchanges.born (Nat.succ_ne_self _)
    rw [hopens, hdue] at hd'
    cases hd''
    cases hd'
    rfl

/-! ## All connections -/

/-- There was no connection yet, or all earlier ones were attended to and the last one goes on. -/
inductive Attends (w : World) : Prop where
  | unconnected : w.session.connections = 0 → (∀ e ∈ w.history, e.isOpen = false) →
    payloads .received w.history = [] → w.session.readError = none → Attends w
  | connection {before since : List Event} {c : Caller} {d : Handle} {line : LineSettings} :
    w.history = before ++ .answered c (.openWith d line) .done :: since → Attended before →
    w.Listening (opens before) d since → Attends w

theorem Attends.attended (h : w.Attends) : Attended w.history := by
  cases h with
  | unconnected _ hnone hreceived _ => exact .unconnected hnone hreceived
  | connection hhistory hbefore hlistening =>
    have haccount := hlistening.account
    rw [hhistory]
    exact .connection hbefore haccount.unopened haccount.readers haccount.received

theorem Attends.opens_eq (h : w.Attends) : opens w.history = w.session.connections := by
  cases h with
  | unconnected hcount hnone _ _ => rw [hcount, opens_eq_zero hnone]
  | @connection before since c d line hhistory _ hlistening =>
    have hone : opens (.answered c (.openWith d line) .done :: since) = 1 := by
      rw [opens, List.countP_cons_of_pos rfl]
      exact congrArg (· + 1) (opens_eq_zero hlistening.account.unopened)
    rw [hhistory, opens_append, hone]
    exact hlistening.count

/-- Where there is no read loop, nothing is received. -/
theorem Heeds.quiet (h : w.Heeds me events s pause)
    (hcount : s.connections = w.session.connections)
    (hnone : ∀ m pause told, w.tasks (.reader m) ≠ .rests pause told) :
    (∀ e ∈ events, e.isOpen = false) ∧ payloads .received events = [] ∧
      s.readError = w.session.readError := by
  cases h with
  | silent hsilent herror _ _ =>
    exact ⟨fun e he => (Event.silent (hsilent e he)).1, payloads_silent hsilent, herror⟩
  | stops hsilent herror _ _ =>
    refine ⟨List.forall_mem_append.2 ⟨fun e he => (Event.silent (hsilent e he)).1,
      List.forall_mem_singleton.2 rfl⟩, ?_, herror⟩
    rw [payloads_append, payloads_silent hsilent]
    rfl
  | connects => exact absurd hcount (Nat.succ_ne_self _)
  | hears htask _ => exact absurd htask (hnone _ _ _)

theorem Attends.does (h : w.Attends) (hsound : w.Sound course) (htended : w.Tended)
    (hdoes : w.Does me next) : next.Attends := by
  obtain ⟨events, s, pause, hdeed, hchanges⟩ := hdoes
  have hattended := h.attended
  have hopens := h.opens_eq
  by_cases hcount : s.connections = w.session.connections
  · cases h with
    | @connection before since c d line hhistory hbefore hlistening =>
      have hnext : next.history =
          before ++ .answered c (.openWith d line) .done :: (since ++ events) := by
        rw [hchanges.history, hhistory, List.append_assoc]
        rfl
      exact .connection hnext hbefore (hlistening.does hsound htended hdeed hchanges hcount)
    | unconnected hzero hnone hreceived herror =>
      have habsent : ∀ m pause told, w.tasks (.reader m) ≠ .rests pause told := by
        intro m pause told htask
        rw [hsound.fresh m (by rw [hzero]; exact Nat.zero_le m)] at htask
        cases htask
      have hquiet := hdeed.heeds.quiet hcount habsent
      refine .unconnected ?_ ?_ ?_ ?_
      · rw [connections_of_bare hchanges.bare, hcount, hzero]
      · rw [hchanges.history]
        exact fun e he => (List.mem_append.1 he).elim (hnone e) (hquiet.1 e)
      · rw [hchanges.history, payloads_append, hreceived, hquiet.2.1]
        rfl
      · rw [readError_of_bare hchanges.bare, hquiet.2.2, herror]
  · cases hdeed.heeds with
    | silent _ _ _ hsame | stops _ _ _ hsame => exact absurd hsame hcount
    | hears _ hhears => exact absurd hhears.connections_eq hcount
    | connects =>
      exact .connection hchanges.history hattended (hchanges.begins hopens)

theorem Reachable.attends (h : w.Reachable) : w.Attends :=
  h.always (fun _ _ => .unconnected rfl (List.forall_mem_nil _) rfl rfl)
    fun _ _ _ _ hreach hsound hdoes hattends => hattends.does hsound hreach.tended hdoes

/-! ## Received entries and phases -/

theorem Deed.closing_stops (h : w.Deed me events s pause)
    (hstop : w.session.phase = .closing → w.session.stopReading = true)
    (hphase : s.phase = .closing) : s.stopReading = true := by
  cases h with
  | requests _ _ _ | unoffered _ _ | unopened _ _ | connects _ _ | closed _ _ => cases hphase
  | ends _ _ _ _ => rfl
  | hears _ hhears => cases hhears <;> exact hstop hphase
  | _ => exact hstop hphase

theorem Reachable.closing_stops (h : w.Reachable) :
    w.session.phase = .closing → w.session.stopReading = true := by
  refine Reachable.always
    (P := fun u => u.session.phase = .closing → u.session.stopReading = true) h
    (fun _ _ => nofun) ?_
  rintro u next me course _ _ ⟨events, s, pause, hdeed, hchanges⟩ hstop
  rw [phase_of_bare hchanges.bare, stopReading_of_bare hchanges.bare]
  exact hdeed.closing_stops hstop

theorem Reachable.reads_connected (h : w.Reachable) (hn : w.Unfinished n)
    (hgoes : w.session.stopReading = false) : w.session.phase = .connected := by
  obtain ⟨_, hsound⟩ := h.sound
  rcases h.tended.unfinished n hn with hreader | ⟨c, hc⟩
  · exact hsound.connected_iff_reader.2 ⟨n, hreader⟩
  · rw [h.closing_stops (hsound.pending_holds hc).2.1] at hgoes
    cases hgoes

theorem mem_logged {entry : Log.Entry} {events : List Event} (h : .logged entry ∈ events) :
    entry ∈ logged events :=
  List.mem_filterMap.2 ⟨_, h, rfl⟩

/-- A received entry is logged by the read loop of a connection, and the connection lasts. -/
theorem Deed.received_connected (hreach : w.Reachable) (h : w.Deed me events s pause)
    {entry : Log.Entry} (hmem : .logged entry ∈ events) (hdirection : entry.direction = .received) :
    w.session.phase = .connected ∧ s.phase = .connected := by
  have hentry := mem_logged hmem
  cases h.logs with
  | nothing hnone _ =>
    rw [hnone] at hentry
    cases hentry
  | sent _ hone _ =>
    rw [hone] at hentry
    cases List.mem_singleton.1 hentry
    cases hdirection
  | received hme htask hgoes hphase _ _ =>
    subst hme
    have hconnected := hreach.reads_connected (unfinished_of_reading htask) hgoes
    exact ⟨hconnected, hphase.trans hconnected⟩

theorem Deed.chunk_dropped (hreach : w.Reachable) (hsound : w.Sound course)
    (h : w.Deed me events s pause) {data : Option Bytes}
    (hmem : .answered (.reader n) (.read d) (.chunk data) ∈ events)
    (hphase : w.session.phase ≠ .connected) : s.log = w.session.log := by
  have hme : .reader n = me := by
    by_cases heq : .reader n = me
    · exact heq
    · have hown := mem_own (c := .reader n).2 ⟨hmem, rfl⟩
      rw [h.own_of_ne heq] at hown
      cases hown
  subst hme
  cases h.logs with
  | nothing _ hlog => exact hlog
  | sent htask _ _ =>
    rcases hsound.rests _ _ _ htask with haside | hholding
    · cases haside
    · cases hholding
  | received _ htask hgoes _ _ _ =>
    exact absurd (hreach.reads_connected (unfinished_of_reading htask) hgoes) hphase

/-- Over every run, the log has grown by the entries that the history says were logged, and at each
connection the received ones are the chunks with something in them that its read loop was given,
up to the end of data, a failed read or the stop by a disconnect; before the first connection there
are none. Since the last connection began the session remembers the fault that ended its reading, if
one did, and whether it was told to stop. Received entries are logged only while the session is
connected, and a chunk that comes otherwise is dropped. -/
theorem received_log_mirrors_reads (log : Log.Ring) (closeTimeout : Double) (moves : List Move)
    (w : World) (hrun : (fresh log closeTimeout).run moves = some w) :
    log.Grows (logged w.history) w.session.log ∧ Attended w.history ∧
      ((opens w.history = 0 ∧ w.session.readError = none) ∨
        ∃ before c d line since,
          w.history = before ++ .answered c (.openWith d line) .done :: since ∧
          (∀ e ∈ since, e.isOpen = false) ∧
          w.session.readError = readFailure (opens before) since ∧
          (w.session.stopReading = true ↔ ∃ c d, .asked c (.cancelRead d) ∈ since)) ∧
      ∀ m next new, w.move m = some next → next.history = w.history ++ new →
        (∀ entry, .logged entry ∈ new → entry.direction = .received →
          w.session.phase = .connected ∧ next.session.phase = .connected) ∧
        ∀ n d data, .answered (.reader n) (.read d) (.chunk data) ∈ new →
          w.session.phase ≠ .connected → next.session.log = w.session.log := by
  have h : w.Reachable := ⟨log, closeTimeout, moves, hrun⟩
  refine ⟨run_grows hrun, h.attends.attended, ?_, fun m next new hmove hnew => ?_⟩
  · cases h.attends with
    | unconnected _ hnone _ herror => exact Or.inl ⟨opens_eq_zero hnone, herror⟩
    | connection hhistory _ hlistening =>
      have haccount := hlistening.account
      exact Or.inr ⟨_, _, _, _, _, hhistory, haccount.unopened, haccount.failure,
        haccount.stopped⟩
  · obtain ⟨_, hsound⟩ := h.sound
    obtain ⟨me, events, s, pause, hdeed, hchanges⟩ := h.does hmove
    have hevents : events = new := List.append_cancel_left (hchanges.history.symm.trans hnew)
    subst hevents
    rw [phase_of_bare hchanges.bare, log_of_bare hchanges.bare]
    exact ⟨fun entry => hdeed.received_connected h,
      fun n d data hmem => hdeed.chunk_dropped h hsound hmem⟩

/-- The second of two connections has received a chunk and is told to stop; the chunk that comes
then is dropped. -/
theorem received_log_mirrors_reads_stopped :
    ∃ w next : World, w.session.phase = .closing ∧ payloads .received w.history = [[1], [2]] ∧
      w.move (.answer (.reader 1) (.chunk (some [3]))) = some next ∧
      Attended w.history ∧ next.session.log = w.session.log := by
  have hrun : ∃ w, (fresh {} Double.zero).run [.begin 0 (.connect {} none),
      .answer (.call 0) (.device ⟨7, "tty"⟩), .answer (.call 0) .done, .startReading 0,
      .answer (.reader 0) (.chunk (some [1])), .answer (.reader 0) (.chunk (some [])),
      .answer (.reader 0) (.chunk none), .begin 1 .disconnect, .answer (.call 1) .done,
      .stopWaiting (.call 1), .answer (.call 1) .done, .begin 2 (.connect {} none),
      .answer (.call 2) (.device ⟨8, "usb"⟩), .answer (.call 2) .done, .startReading 1,
      .answer (.reader 1) (.chunk (some [2])), .begin 3 .disconnect] = some w := ⟨_, rfl⟩
  obtain ⟨w, hw⟩ := hrun
  have hstate : w.session.phase = .closing ∧ payloads .received w.history = [[1], [2]] ∧
      ∃ next, w.move (.answer (.reader 1) (.chunk (some [3]))) = some next ∧
        next.history = w.history ++ [.answered (.reader 1) (.read ⟨8, "usb"⟩) (.chunk (some [3])),
          .returned (.reader 1) (.ok .nothing)] := by
    cases hw
    exact ⟨rfl, rfl, _, rfl, rfl⟩
  obtain ⟨hphase, hreceived, next, hmove, hnew⟩ := hstate
  obtain ⟨_, hattended, _, hmoves⟩ := received_log_mirrors_reads {} Double.zero _ w hw
  refine ⟨w, next, hphase, hreceived, hmove, hattended, ?_⟩
  refine (hmoves _ next _ hmove hnew).2 1 ⟨8, "usb"⟩ (some [3]) List.mem_cons_self ?_
  rw [hphase]
  decide

end World

end SerialConsole.Session
