import SerialConsole.Proofs.Loop.Parting

set_option autoImplicit false

/-!
# An errand waits

While the main task waits, and after it has ended, bystanders take their steps. They leave the errand
where it is. What they receive is heard by the counter, since nothing is read before the device is
open or after a disconnect has begun.
-/
namespace SerialConsole.Loop

/-- Whether a task does nothing of its own. -/
def Next.IsIdle : Next → Prop
  | .runs _ _ => False
  | .waits _ _ | .over _ => True

/-- A wait for the device ends with its answer, or goes on. -/
theorem Resumes.of_device {P : Fault → Prop} {result : Nat → Option Outcome} {awaited : Awaited}
    {tell : Tell} {point : Session.Point} {frames : List Frame} {next : Next}
    (hdevice : awaited.IsDevice) (hfair : tell.Fair P)
    (h : Resumes result awaited tell (.session point :: frames) next) :
    (∃ reply, next = .runs (.signal point (.reply reply)) frames) ∨
      ∃ awaited : Awaited, awaited.IsDevice ∧ next = .waits (.session point :: frames) awaited := by
  generalize hf : Frame.session point :: frames = all at h
  cases h with
  | cancelled point frames => exact hfair.elim
  | turn point frames hturn =>
    rcases hturn with rfl | rfl
    · exact hdevice.elim
    · exact hdevice.elim
  | replied point frames reply _ =>
    cases hf
    exact .inl ⟨reply, rfl⟩
  | nothingYet point frames =>
    cases hf
    exact .inr ⟨.input, trivial, rfl⟩
  | closed frames _ => exact hdevice.elim
  | readingEnded point frames inTime => exact hdevice.elim
  | joined point frames _ => exact hdevice.elim
  | gives frames outcome hnot =>
    cases hf
    exact absurd rfl (hnot point)
  | abandons frames fault => cases hf
  | nothingLeft frames hnot => exact absurd hf.symm (hnot point _)

namespace Errand

open SerialConsole.Session (Event Calm Point Signal payloads)

variable {work : List Action} {ring : Log.Ring} {base : List Log.Listener} {h more : List Event}
  {l : State} {s t : Session} {readers : Array Nat} {d : Handle} {ended : List Handle}
  {listens : Bool} {before : List Frame} {rest : List Action} {values : List Value} {v : Value}
  {frame : Frame} {kept : Outcome} {point : Point} {awaited : Awaited} {tell : Tell} {next : Next}

/-! ## The end of a wait -/

/-- The work goes on. -/
theorem Joined.resumes (hs : Joined base s readers h d listens)
    (hframes : ∀ other ∈ frame :: before, IsBusy other) (hactions : ∀ action ∈ rest, IsWork action)
    (hlistens : Lone work base → listens = true ∧ rest = [] ∧ values = [])
    (hfair : tell.Fair (Pardoned h))
    (hresumes : Resumes l.resultOf awaited tell (stack (frame :: before) listens rest values v)
      next) :
    Place work base s readers h next := by
  obtain ⟨hframe, hbefore⟩ := List.forall_mem_cons.1 hframes
  have hworks : ∀ (before' : List Frame) (control : Control),
      (∀ other ∈ before', IsBusy other) → Works (before' = [] ∧ listens = false) control →
      Place work base s readers h (.runs control (stack before' listens rest values v)) :=
    fun before' control hbefore' hworks => .works v hs hbefore' hactions hworks fun hlone => by
      obtain ⟨hlistens, hrest, hvalues⟩ := hlistens hlone
      rw [hlistens]
      exact attends_listening hrest hvalues
  generalize hf : stack (frame :: before) listens rest values v = all at hresumes
  cases hresumes with
  | cancelled point frames => exact hfair.elim
  | turn point frames _ =>
    cases hf
    exact hworks before _ hbefore hframe
  | replied point frames reply _ =>
    cases hf
    exact hworks before _ hbefore hframe
  | nothingYet point frames =>
    cases hf
    exact .rests v hs hframes hactions hlistens
  | closed frames _ =>
    cases hf
    exact hworks before _ hbefore hframe
  | readingEnded point frames inTime =>
    cases hf
    exact hworks before _ hbefore hframe
  | joined point frames _ =>
    cases hf
    exact hworks before _ hbefore hframe
  | gives frames outcome _ =>
    cases hf
    exact hworks before _ hbefore trivial
  | abandons frames fault =>
    cases hf
    exact .rests v hs (List.forall_mem_cons.2 ⟨hframe, hbefore⟩) hactions hlistens
  | nothingLeft frames _ =>
    cases hf
    exact hworks (frame :: before) _ hframes trivial

/-- The disconnect goes on. -/
theorem Parting.resumes (hs : Parting base s readers h d ended)
    (hawaits : AwaitsParting d ended point awaited)
    (hkeeps : Lone work base → Keeps (received h) kept) (ho : l.Orderly (Pardoned h))
    (hfair : tell.Fair (Pardoned h))
    (hresumes : Resumes l.resultOf awaited tell
      [.session point, .leaving kept, .inOrder [] [v]] next) :
    Place work base s readers h next := by
  cases hawaits with
  | cancelling hdevice =>
    rcases hresumes.of_device hdevice hfair with ⟨reply, rfl⟩ | ⟨awaited, hdevice, rfl⟩
    · exact .parts v hs (.cancelling reply) hkeeps
    · exact .awaitsParting v hs (.cancelling hdevice) hkeeps
  | endOfReading task =>
    cases hresumes with
    | cancelled point frames => exact hfair.elim
    | turn point frames hturn => rcases hturn with h | h <;> cases h
    | replied point frames reply hdevice => exact hdevice.elim
    | readingEnded point frames inTime => exact .parts v hs (.endOfReading inTime) hkeeps
    | gives frames outcome hnot => exact absurd rfl (hnot _)
    | nothingLeft frames hnot => exact absurd rfl (hnot _ _)
  | cancelledReading htask =>
    cases hresumes with
    | cancelled point frames => exact hfair.elim
    | turn point frames hturn => rcases hturn with h | h <;> cases h
    | replied point frames reply hdevice => exact hdevice.elim
    | @joined _ _ point frames outcome houtcome =>
      refine .parts v hs (.cancelledReading _ fun fault hfault => ?_) hkeeps
      cases outcome with
      | ok value => cases hfault
      | error other =>
        cases hfault
        rcases houtcome with rfl | h | h
        · exact hfair _ rfl
        · cases h
        · exact (ho.helps _ htask).result _ h _ rfl
    | gives frames outcome hnot => exact absurd rfl (hnot _)
    | nothingLeft frames hnot => exact absurd rfl (hnot _ _)
  | closeTurn =>
    cases hresumes with
    | cancelled point frames => exact hfair.elim
    | turn point frames _ => exact .parts v hs .closeTurn hkeeps
    | replied point frames reply hdevice => exact hdevice.elim
    | gives frames outcome hnot => exact absurd rfl (hnot _)
    | nothingLeft frames hnot => exact absurd rfl (hnot _ _)
  | closing hdevice =>
    rcases hresumes.of_device hdevice hfair with ⟨reply, rfl⟩ | ⟨awaited, hdevice, rfl⟩
    · exact .parts v hs (.closing reply) hkeeps
    · exact .awaitsParting v hs (.closing hdevice) hkeeps

/-- The main task goes on from where it waits. -/
theorem Place.resumes {frames : List Frame}
    (hplace : Place work base s readers h (.waits frames awaited)) (ho : l.Orderly (Pardoned h))
    (hfair : tell.Fair (Pardoned h)) (hresumes : Resumes l.resultOf awaited tell frames next) :
    Place work base s readers h next := by
  cases hplace with
  | awaitsOpening device line hs hdevice =>
    rcases hresumes.of_device hdevice hfair with ⟨reply, rfl⟩ | ⟨awaited, hdevice, rfl⟩
    · exact .opens device line reply hs
    · exact .awaitsOpening device line hs hdevice
  | rests v hs hframes hactions hlistens =>
    exact hs.resumes hframes hactions hlistens hfair hresumes
  | awaitsParting v hs hawaits hkeeps => exact hs.resumes hawaits hkeeps ho hfair hresumes

/-! ## Steps of others -/

/-- Wherever the errand stands, the read loop of the session is a bystander. -/
theorem Place.wired (hplace : Place work base s readers h next) (connection : Nat)
    (hreader : s.reader = some connection) : readers.getD connection 0 ≠ 0 := by
  have hnone : s.reader ≠ none := fun h => nomatch h.symm.trans hreader
  have hjoined : ∀ {d : Handle} {listens : Bool}, Joined base s readers h d listens →
      readers.getD connection 0 ≠ 0 := by
    intro d listens hs
    cases hs.reader.symm.trans hreader
    exact hs.wired
  cases hplace with
  | planned _ _ hs => exact absurd hs.reader hnone
  | connects _ _ hs => exact absurd hs.reader hnone
  | requested _ hs _ => exact absurd hs.reader hnone
  | opens _ _ _ hs => exact absurd hs.reader hnone
  | awaitsOpening _ _ hs _ => exact absurd hs.reader hnone
  | opened _ hs => exact hjoined hs
  | enters _ hs => exact hjoined hs
  | works _ hs _ _ _ _ => exact hjoined hs
  | rests _ hs _ _ _ => exact hjoined hs
  | leaves _ hs _ => exact hjoined hs
  | parts _ hs _ _ => exact absurd hs.reader hnone
  | awaitsParting _ hs _ _ => exact absurd hs.reader hnone
  | unwinds hs _ => exact absurd hs.reader hnone
  | «over» hs _ => exact absurd hs.reader hnone

/-- While something is read the counter listens, if all the work is to listen. -/
theorem Place.listening (hplace : Place work base s readers h next) (hidle : next.IsIdle) :
    ∃ listens, s.log.listeners.Perm (base ++ counting listens) ∧
      (Lone work base → s.stopReading = false → readers ≠ #[] → listens = true) := by
  have hbare : ∀ {listeners : List Log.Listener}, listeners.Perm base →
      listeners.Perm (base ++ counting false) :=
    fun hperm => (List.append_nil base).symm ▸ hperm
  cases hplace with
  | awaitsOpening _ _ hs _ =>
    exact ⟨false, hbare hs.listeners, fun _ _ hreaders => absurd hs.readers hreaders⟩
  | @rests _ listens _ _ _ _ _ _ hs _ _ hlistens =>
    exact ⟨listens, hs.listeners, fun hlone _ _ => (hlistens hlone).1⟩
  | awaitsParting _ hs _ _ =>
    exact ⟨false, hbare hs.listeners, fun _ hgoing _ =>
      absurd (hgoing.symm.trans hs.stopped) Bool.false_ne_true⟩
  | «over» hs _ =>
    refine ⟨false, hbare hs.listeners, fun _ hgoing hreaders => ?_⟩
    rcases hs.still with hnone | hstopped
    · exact absurd hnone hreaders
    · exact absurd (hgoing.symm.trans hstopped) Bool.false_ne_true
  | _ => exact hidle.elim

section

variable (hmore : State.Quiet more) (ht : t.outline = s.outline)
include hmore ht

theorem Apart.beside {connecting : Bool} (hs : Apart base s readers h connecting) :
    Apart base t readers (h ++ more) connecting := by
  have hphase : t.phase = s.phase := congrArg Session.Outline.phase ht
  have hstop : t.stopReading = s.stopReading := congrArg Session.Outline.stopReading ht
  have hreader : t.reader = s.reader := congrArg Session.Outline.reader ht
  have hlock : t.lifecycleLock = s.lifecycleLock := congrArg Session.Outline.lifecycleLock ht
  have hconnections : t.connections = s.connections := congrArg Session.Outline.connections ht
  have hlisteners : t.log.listeners = s.log.listeners := congrArg Session.Outline.listeners ht
  refine ⟨hphase.trans hs.phase, hlock.trans hs.lock, hreader.trans hs.reader,
    hconnections.trans hs.connections, hs.readers, hstop.trans hs.going, fun e he => ?_, ?_, ?_,
    hlisteners.symm ▸ hs.listeners⟩
  · exact (List.mem_append.1 he).elim (hs.unparted e) (hmore.unparted e)
  · rw [Session.opened_append, hs.opened, hmore.opened]
    rfl
  · rw [Session.closed_append, hs.closed, hmore.closed]
    rfl

theorem Parting.beside (hs : Parting base s readers h d ended) :
    Parting base t readers (h ++ more) d ended := by
  have hstop : t.stopReading = s.stopReading := congrArg Session.Outline.stopReading ht
  have hreader : t.reader = s.reader := congrArg Session.Outline.reader ht
  have hlisteners : t.log.listeners = s.log.listeners := congrArg Session.Outline.listeners ht
  have hgoes := hs.goes (t := t) ⟨hreader.trans hs.reader, hstop.trans hs.stopped, hlisteners⟩
    hmore.opened
  rwa [hmore.closed, List.append_nil] at hgoes

theorem Parted.beside (hs : Parted base s readers h) : Parted base t readers (h ++ more) := by
  have hstop : t.stopReading = s.stopReading := congrArg Session.Outline.stopReading ht
  have hreader : t.reader = s.reader := congrArg Session.Outline.reader ht
  have hlisteners : t.log.listeners = s.log.listeners := congrArg Session.Outline.listeners ht
  have hopened : Session.opened (h ++ more) = Session.opened h := by
    rw [Session.opened_append, hmore.opened, List.append_nil]
  refine ⟨hreader.trans hs.reader, ?_, hs.still.imp id hstop.trans, hopened ▸ hs.opened,
    fun hcalm => ?_, hlisteners.symm ▸ hs.listeners⟩
  · rw [hstop, hs.told]
    constructor
    · rintro ⟨e, he, hparting⟩
      exact ⟨e, List.mem_append_left more he, hparting⟩
    · rintro ⟨e, he, hparting⟩
      rcases List.mem_append.1 he with he | he
      · exact ⟨e, he, hparting⟩
      · exact absurd ((hmore.unparted e he).symm.trans hparting) Bool.false_ne_true
  · rw [hopened, Session.closed_append, hmore.closed, List.append_nil, hs.closed hcalm.left]

/-- A step of a bystander leaves the errand where it waits. Something is received only while the
session was not told to stop and there are read loops. -/
theorem Place.beside (hplace : Place work base s readers h next) (hidle : next.IsIdle)
    (hreceived : payloads .received more ≠ [] → s.stopReading = false ∧ readers ≠ #[]) :
    Place work base t readers (h ++ more) next := by
  have hsame : s.stopReading = true ∨ readers = #[] → received (h ++ more) = received h := by
    intro hstill
    have hnone : payloads .received more = [] := by
      by_cases hnone : payloads .received more = []
      · exact hnone
      · obtain ⟨hgoing, hreaders⟩ := hreceived hnone
        rcases hstill with hstopped | hempty
        · exact absurd (hgoing.symm.trans hstopped) Bool.false_ne_true
        · exact absurd hempty hreaders
    rw [received, Session.payloads_append, hnone, List.append_nil, received]
  cases hplace with
  | awaitsOpening device line hs hdevice =>
    exact .awaitsOpening device line (hs.beside hmore ht) hdevice
  | rests v hs hframes hactions hlistens =>
    exact .rests v (hs.beside hmore ht) hframes hactions hlistens
  | awaitsParting v hs hawaits hkeeps =>
    refine .awaitsParting v (hs.beside hmore ht) hawaits ?_
    rw [hsame (.inl hs.stopped)]
    exact hkeeps
  | «over» hs hends =>
    refine .over (hs.beside hmore ht) ?_
    rw [hsame hs.still.symm]
    exact hends
  | _ => exact hidle.elim

end

end Errand

end SerialConsole.Loop
