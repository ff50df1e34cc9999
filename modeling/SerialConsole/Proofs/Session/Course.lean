import SerialConsole.Proofs.Session.Interleaving

set_option autoImplicit false

/-!
# The course of a device

The device calls of a session, reads aside, make an automaton go: `Course.Path` is a run of it over
a history. What the automaton takes comes in rounds: a request, an open if the request gave a
device, and if that succeeded some writes, one end to reading and one close.
-/
namespace SerialConsole.Session

/-- The call that an event starts, if it is not a read. -/
def Event.start? : Event → Option DeviceCall
  | .asked _ (.read _) => none
  | .asked _ call => some call
  | _ => none

/-- The calls that were started, reads aside, in order. -/
def starts (history : List Event) : List DeviceCall :=
  history.filterMap Event.start?

/-- Whether an event is none of those that tell where the device stands. -/
def Event.isAside : Event → Bool
  | .asked _ (.read _) => true
  | .asked _ _ => false
  | .answered _ (.request _) _ => false
  | .answered _ (.openWith _ _) _ => false
  | .answered _ (.close _) _ => false
  | _ => true

/-- Where the device of a session stands: `offered` is between the answer to a request and the
open, `ending` from the end to reading on, and `closing` until the close has returned. -/
inductive Course where
  | idle
  | requested
  | offered (device : Handle)
  | opening (device : Handle)
  | opened (device : Handle)
  | ending (device : Handle)
  | closing (device : Handle)
  deriving DecidableEq, Repr

namespace Course

inductive Goes : Course → Event → Course → Prop where
  | aside {course : Course} {event : Event} : event.isAside = true → Goes course event course
  | request {c : Caller} {hint : Option String} :
    Goes .idle (.asked c (.request hint)) .requested
  | offered {c : Caller} {hint : Option String} {d : Handle} :
    Goes .requested (.answered c (.request hint) (.device d)) (.offered d)
  | refused {c : Caller} {hint : Option String} {fault : Fault} :
    Goes .requested (.answered c (.request hint) (.failed fault)) .idle
  | opens {c : Caller} {d : Handle} {line : LineSettings} :
    Goes (.offered d) (.asked c (.openWith d line)) (.opening d)
  | unopened {c : Caller} {d : Handle} {line : LineSettings} {fault : Fault} :
    Goes (.opening d) (.answered c (.openWith d line) (.failed fault)) .idle
  | opened {c : Caller} {d : Handle} {line : LineSettings} :
    Goes (.opening d) (.answered c (.openWith d line) .done) (.opened d)
  | writes {c : Caller} {d : Handle} {data : Bytes} :
    Goes (.opened d) (.asked c (.write d data)) (.opened d)
  | ends {c : Caller} {d : Handle} : Goes (.opened d) (.asked c (.cancelRead d)) (.ending d)
  | closes {c : Caller} {d : Handle} : Goes (.ending d) (.asked c (.close d)) (.closing d)
  | closed {c : Caller} {d : Handle} {reply : Reply} :
    Goes (.closing d) (.answered c (.close d) reply) .idle

/-- A run of the automaton over some events. -/
inductive Path : Course → List Event → Course → Prop where
  | nil (course : Course) : Path course [] course
  | cons {first next last : Course} {event : Event} {events : List Event} :
    Goes first event next → Path next events last → Path first (event :: events) last

theorem Path.append {first next last : Course} {es fs : List Event} (h : Path first es next)
    (h' : Path next fs last) : Path first (es ++ fs) last := by
  induction h with
  | nil course => exact h'
  | cons hgoes _ ih => exact Path.cons hgoes (ih h')

theorem Path.split {first last : Course} {es fs : List Event} (h : Path first (es ++ fs) last) :
    ∃ next, Path first es next ∧ Path next fs last := by
  induction es generalizing first with
  | nil => exact ⟨first, Path.nil first, h⟩
  | cons e rest ih =>
    cases h with
    | cons hgoes hrest =>
      obtain ⟨next, hes, hfs⟩ := ih hrest
      exact ⟨next, Path.cons hgoes hes, hfs⟩

theorem Path.snoc {first next last : Course} {es : List Event} {event : Event}
    (h : Path first es next) (hgoes : Goes next event last) : Path first (es ++ [event]) last :=
  h.append (Path.cons hgoes (Path.nil last))

/-- Events aside leave the course as it is. -/
theorem Path.asides {first last : Course} {es fs : List Event} (h : Path first es last)
    (hfs : ∀ event ∈ fs, event.isAside = true) : Path first (es ++ fs) last := by
  induction fs generalizing es with
  | nil => rwa [List.append_nil]
  | cons event rest ih =>
    have hone := h.snoc (Goes.aside (hfs event List.mem_cons_self))
    have hall := ih hone fun f hf => hfs f (List.mem_cons_of_mem event hf)
    rwa [List.append_assoc, List.singleton_append] at hall

end Course

/-! ## Rounds -/

/-- The calls of one round: there was no device, it could not be opened, or it was opened, written
to, told to end reading and closed. -/
inductive Round : List DeviceCall → Prop where
  | refused (hint : Option String) : Round [.request hint]
  | unopened (hint : Option String) (d : Handle) (line : LineSettings) :
    Round [.request hint, .openWith d line]
  | connection (hint : Option String) (d : Handle) (line : LineSettings) (payloads : List Bytes) :
    Round (.request hint :: .openWith d line ::
      (payloads.map (.write d) ++ [.cancelRead d, .close d]))

namespace Course

/-- The calls of the round that a course is in the middle of. -/
inductive Partial : Course → List DeviceCall → Prop where
  | idle : Partial .idle []
  | requested (hint : Option String) : Partial .requested [.request hint]
  | offered (hint : Option String) (d : Handle) : Partial (.offered d) [.request hint]
  | opening (hint : Option String) (d : Handle) (line : LineSettings) :
    Partial (.opening d) [.request hint, .openWith d line]
  | opened (hint : Option String) (d : Handle) (line : LineSettings) (payloads : List Bytes) :
    Partial (.opened d) (.request hint :: .openWith d line :: payloads.map (.write d))
  | ending (hint : Option String) (d : Handle) (line : LineSettings) (payloads : List Bytes) :
    Partial (.ending d) (.request hint :: .openWith d line ::
      (payloads.map (.write d) ++ [.cancelRead d]))
  | closing (hint : Option String) (d : Handle) (line : LineSettings) (payloads : List Bytes) :
    Partial (.closing d) (.request hint :: .openWith d line ::
      (payloads.map (.write d) ++ [.cancelRead d, .close d]))

theorem start_of_aside {event : Event} (h : event.isAside = true) : event.start? = none := by
  cases event with
  | asked c call => cases call <;> simp_all [Event.isAside, Event.start?]
  | _ => rfl

/-- Every event goes on with the round, or ends it and starts no call. -/
theorem Goes.round {first last : Course} {event : Event} {calls : List DeviceCall}
    (h : Goes first event last) (hcalls : Partial first calls) :
    Partial last (calls ++ event.start?.toList) ∨
      (Round calls ∧ last = .idle ∧ event.start? = none) := by
  cases h with
  | aside haside =>
    rw [start_of_aside haside]
    exact Or.inl (by simpa using hcalls)
  | @request c hint =>
    cases hcalls
    exact Or.inl (Partial.requested hint)
  | offered =>
    cases hcalls with
    | requested hint => exact Or.inl (Partial.offered hint _)
  | refused =>
    cases hcalls with
    | requested hint => exact Or.inr ⟨Round.refused hint, rfl, rfl⟩
  | @opens c d line =>
    cases hcalls with
    | offered hint => exact Or.inl (Partial.opening hint d line)
  | unopened =>
    cases hcalls with
    | opening hint d line => exact Or.inr ⟨Round.unopened hint _ line, rfl, rfl⟩
  | opened =>
    cases hcalls with
    | opening hint d line => exact Or.inl (Partial.opened hint _ line [])
  | @writes c d data =>
    cases hcalls with
    | opened hint _ line payloads =>
      have hnext := Partial.opened hint d line (payloads ++ [data])
      rw [List.map_append] at hnext
      exact Or.inl hnext
  | @ends c d =>
    cases hcalls with
    | opened hint _ line payloads => exact Or.inl (Partial.ending hint d line payloads)
  | @closes c d =>
    cases hcalls with
    | ending hint _ line payloads =>
      have hnext := Partial.closing hint d line payloads
      refine Or.inl ?_
      simpa [Event.start?] using hnext
  | @closed c d reply =>
    cases hcalls with
    | closing hint _ line payloads => exact Or.inr ⟨Round.connection hint d line payloads, rfl, rfl⟩

theorem starts_cons (event : Event) (events : List Event) :
    starts (event :: events) = event.start?.toList ++ starts events := by
  rw [starts, List.filterMap_cons]
  cases event.start? <;> rfl

/-- The calls of a path go on with the round that has begun, and then make rounds. -/
theorem Path.rounds {first last : Course} {events : List Event} {calls : List DeviceCall}
    (h : Path first events last) (hcalls : Partial first calls) :
    ∃ rounds tail, (∀ r ∈ rounds, Round r) ∧ Partial last tail ∧
      calls ++ starts events = List.flatten rounds ++ tail := by
  induction h generalizing calls with
  | nil course => exact ⟨[], calls, by simp, hcalls, List.append_nil calls⟩
  | cons hgoes _ ih =>
    rw [starts_cons]
    rcases hgoes.round hcalls with hnext | ⟨hround, rfl, hnone⟩
    · obtain ⟨rounds, tail, hrounds, htail, heq⟩ := ih hnext
      exact ⟨rounds, tail, hrounds, htail, by rw [← heq, List.append_assoc]⟩
    · obtain ⟨rounds, tail, hrounds, htail, heq⟩ := ih Partial.idle
      refine ⟨calls :: rounds, tail, List.forall_mem_cons.2 ⟨hround, hrounds⟩, htail, ?_⟩
      rw [hnone, List.flatten_cons, List.append_assoc, ← heq]
      rfl

/-- The calls of a round that has begun can be continued to a round. -/
theorem Partial.extends_round {course : Course} {calls : List DeviceCall}
    (h : Partial course calls) : calls = [] ∨ ∃ round, Round round ∧ calls <+: round := by
  cases h with
  | idle => exact Or.inl rfl
  | requested hint | offered hint =>
    exact Or.inr ⟨_, Round.refused hint, List.prefix_refl _⟩
  | opening hint d line => exact Or.inr ⟨_, Round.unopened hint d line, List.prefix_refl _⟩
  | opened hint d line payloads =>
    exact Or.inr ⟨_, Round.connection hint d line payloads, [.cancelRead d, .close d], rfl⟩
  | ending hint d line payloads =>
    refine Or.inr ⟨_, Round.connection hint d line payloads, [.close d], ?_⟩
    simp
  | closing hint d line payloads =>
    exact Or.inr ⟨_, Round.connection hint d line payloads, List.prefix_refl _⟩

/-- The calls of a history that the automaton takes are the beginning of a row of rounds. -/
theorem Path.starts_in_rounds {last : Course} {history : List Event}
    (h : Path .idle history last) :
    ∃ rounds, (∀ r ∈ rounds, Round r) ∧ starts history <+: List.flatten rounds := by
  obtain ⟨rounds, tail, hrounds, htail, heq⟩ := h.rounds Partial.idle
  rw [List.nil_append] at heq
  rcases htail.extends_round with rfl | ⟨round, hround, more, hmore⟩
  · exact ⟨rounds, hrounds, [], by rw [heq, List.append_nil, List.append_nil]⟩
  · refine ⟨rounds ++ [round], ?_, more, ?_⟩
    · intro r hr
      rcases List.mem_append.1 hr with hr | hr
      · exact hrounds r hr
      · cases List.mem_singleton.1 hr
        exact hround
    · rw [heq, List.append_assoc, hmore, List.flatten_append, List.flatten_singleton]

/-! ## From an open to the next request -/

/-- The calls that a course behind its open still owes before it is idle, no request coming. -/
def Owes : Course → List DeviceCall → Prop
  | .opened d, calls => ∃ payloads : List Bytes,
    calls = payloads.map (.write d) ++ [.cancelRead d, .close d]
  | .ending d, calls => calls = [.close d]
  | .closing _, calls => calls = []
  | .idle, calls => calls = []
  | _, _ => True

theorem Path.owes {first last : Course} {events : List Event} (h : Path first events last)
    (hlast : last = .idle) (hnone : ∀ c hint, Event.asked c (.request hint) ∉ events) :
    first.Owes (starts events) := by
  induction h with
  | nil course =>
    rw [hlast]
    rfl
  | @cons first next last event events hgoes _ ih =>
    have htail : next.Owes (starts events) :=
      ih hlast fun c hint hmem => hnone c hint (List.mem_cons_of_mem event hmem)
    rw [starts_cons]
    cases hgoes with
    | aside haside =>
      rw [start_of_aside haside]
      exact htail
    | @request c hint => exact absurd List.mem_cons_self (hnone c hint)
    | offered | refused | opens | unopened | opened => trivial
    | @writes c d data =>
      obtain ⟨payloads, hpayloads⟩ := htail
      exact ⟨data :: payloads, congrArg (DeviceCall.write d data :: ·) hpayloads⟩
    | @ends c d => exact ⟨[], congrArg (DeviceCall.cancelRead d :: ·) htail⟩
    | @closes c d => exact congrArg (DeviceCall.close d :: ·) htail
    | closed => exact htail

/-! ## From a write back to its open -/

/-- Before a course at which a device is open there was its open, and since then only writes. -/
theorem Path.since_open {first last : Course} {events : List Event} {d : Handle}
    (h : Path first events last) (hlast : last = .opened d) :
    (first = .opened d ∧ ∃ payloads : List Bytes, starts events = payloads.map (.write d)) ∨
      ∃ before c line since, events = before ++ .answered c (.openWith d line) .done :: since ∧
        ∃ payloads : List Bytes, starts since = payloads.map (.write d) := by
  induction h with
  | nil course => exact Or.inl ⟨hlast, [], rfl⟩
  | @cons first next last event events hgoes _ ih =>
    rcases ih hlast with ⟨rfl, payloads, hpayloads⟩ | ⟨before, c, line, since, rfl, hsince⟩
    · cases hgoes with
      | aside haside =>
        refine Or.inl ⟨rfl, payloads, ?_⟩
        rw [starts_cons, start_of_aside haside, hpayloads]
        rfl
      | @opened c _ line => exact Or.inr ⟨[], c, line, events, rfl, payloads, hpayloads⟩
      | @writes c _ data =>
        refine Or.inl ⟨rfl, data :: payloads, ?_⟩
        rw [starts_cons, hpayloads]
        rfl
    · exact Or.inr ⟨event :: before, c, line, since, rfl, hsince⟩

end Course

end SerialConsole.Session
