import SerialConsole.Device.SerialDevice

set_option autoImplicit false

/-!
# Uses of a serial device

What a sequence of uses of a device comes to on its line, whatever the line answers. The open port
is read off what was done before: it is the port of the last open that succeeded, as long as no
close has followed. `only_open_port_used` says that nothing but this port is ever called on.
-/
namespace SerialConsole

namespace SerialDevice

/-- A use of a device, with what the line answers to the calls that it may come to. A line that
refuses to open gives a fault. -/
inductive Use where
  | openWith (settings : LineSettings) (refusal : Option Fault)
  | read (isOpen : Bool) (waiting : Except Fault Int) (answer : Except Fault Bytes)
  | cancelRead (isOpen canCancel : Bool) (answer : Except Fault Unit)
  | write (isOpen : Bool) (data : Bytes) (written flushed : Except Fault Unit)
  | close (answer : Except Fault Unit)

/-- What a use came to: the calls on the line and the result. Only a read gives bytes. -/
structure Effect where
  calls : List LineCall
  result : Except Fault (Option Bytes)

/-- A device, and how many ports its line has opened. -/
structure Desk where
  device : SerialDevice
  opened : Nat := 0

/-- The desk after a use, and what the use came to. Ports are numbered by the opens that
succeeded. -/
def Desk.use (desk : Desk) : Use → Desk × Effect
  | .openWith settings refusal =>
    let answer := match refusal with
      | none => .ok desk.opened
      | some fault => .error fault
    let (device, calls, result) := desk.device.openWith settings answer
    (⟨device, desk.opened + if result.isOk then 1 else 0⟩, ⟨calls, result.map fun _ => none⟩)
  | .read isOpen waiting answer =>
    let (calls, result) := desk.device.read isOpen waiting answer
    (desk, ⟨calls, result⟩)
  | .cancelRead isOpen canCancel answer =>
    let (calls, result) := desk.device.cancelRead isOpen canCancel answer
    (desk, ⟨calls, result.map fun _ => none⟩)
  | .write isOpen data written flushed =>
    let (calls, result) := desk.device.write isOpen data written flushed
    (desk, ⟨calls, result.map fun _ => none⟩)
  | .close answer =>
    let (device, calls, result) := desk.device.close answer
    ({ desk with device }, ⟨calls, result.map fun _ => none⟩)

/-- The uses one after the other, each with what it came to. -/
def Desk.course (desk : Desk) : List Use → List (Use × Effect)
  | [] => []
  | use :: rest => (use, (desk.use use).2) :: (desk.use use).1.course rest

/-- All calls of a course. -/
def callsOf (past : List (Use × Effect)) : List LineCall :=
  past.flatMap fun done => done.2.calls

/-! ## The open port -/

/-- An open that succeeded. -/
def opens : Use × Effect → Bool
  | (.openWith _ _, effect) => effect.result.isOk
  | _ => false

def closes : Use × Effect → Bool
  | (.close _, _) => true
  | _ => false

/-- The port of the last open that succeeded, as long as no close has followed. -/
def Current (past : List (Use × Effect)) (port : Nat) : Prop :=
  ∃ before done after, past = before ++ done :: after ∧ opens done = true ∧
    port = before.countP opens ∧ ∀ later ∈ after, opens later = false ∧ closes later = false

variable {past : List (Use × Effect)} {done : Use × Effect} {port : Nat}

theorem not_current_nil : ¬ Current [] port := by
  rintro ⟨before, done, after, hpast, _⟩
  simp at hpast

theorem current_concat : Current (past ++ [done]) port ↔
    opens done = true ∧ port = past.countP opens ∨
      opens done = false ∧ closes done = false ∧ Current past port := by
  constructor
  · -- the open in question is the new use, or the new use is the last behind it
    rintro ⟨before, first, after, hpast, hopens, hport, hafter⟩
    rcases List.eq_nil_or_concat after with rfl | ⟨inner, last, rfl⟩
    · obtain ⟨rfl, hlast⟩ := List.append_inj' hpast rfl
      cases hlast
      exact Or.inl ⟨hopens, hport⟩
    · rw [List.concat_eq_append, ← List.cons_append, ← List.append_assoc] at hpast
      obtain ⟨hinner, hlast⟩ := List.append_inj' hpast rfl
      cases hlast
      have hdone := hafter done (by simp)
      exact Or.inr ⟨hdone.1, hdone.2, before, first, inner, hinner, hopens, hport,
        fun later hlater => hafter later (by simp [hlater])⟩
  · rintro (⟨hopens, hport⟩ | ⟨hopens, hcloses, before, first, after, hpast, hfirst, hport, hafter⟩)
    · exact ⟨past, done, [], rfl, hopens, hport, by simp⟩
    · refine ⟨before, first, after ++ [done], by simp [hpast], hfirst, hport, fun later hlater => ?_⟩
      rcases List.mem_append.1 hlater with hafter' | hlast
      · exact hafter later hafter'
      · rw [List.mem_singleton.1 hlast]
        exact ⟨hopens, hcloses⟩

/-! ## What a use may come to -/

/-- Settings that a serial line can have. -/
def Supported (settings : LineSettings) : Prop :=
  settings.parity ∈ LineSettings.parityChoices ∧ settings.stopBits ∈ LineSettings.stopBitChoices ∧
    settings.dataBits ∈ LineSettings.dataBitChoices

/-- A fault of a serial line, a timeout included. -/
def OfLine (fault : Fault) : Prop :=
  fault.kind = .serialLine ∨ fault.kind = .serialTimeout

/-- How a fault of a write or a flush surfaces: as a failed write if it is one of the line, and
otherwise as it is. -/
def Surfaces (fault met : Fault) : Prop :=
  OfLine fault ∧ met.kind = .writeFailed ∨ ¬ OfLine fault ∧ met = fault

/-- How a fault of an open surfaces: as a failed open with that cause if it is one of the line or
about a value, and otherwise as it is. -/
def OpenSurfaces (fault met : Fault) : Prop :=
  (OfLine fault ∨ fault.kind.isValue = true) ∧ met.kind = .openFailed ∧ met.cause? = some fault ∨
    ¬ (OfLine fault ∨ fault.kind.isValue = true) ∧ met = fault

/-- What a use may come to, given the open port. -/
inductive Serves (device : SerialDevice) (current : Option Nat) : Use → Effect → Prop
  | unsupported {settings : LineSettings} {refusal : Option Fault} {met : Fault}
      (hsettings : ¬ Supported settings) (hkind : met.kind = .openFailed) :
      Serves device current (.openWith settings refusal) ⟨[], .error met⟩
  | refused {settings : LineSettings} {fault met : Fault} (hsettings : Supported settings)
      (hmet : OpenSurfaces fault met) :
      Serves device current (.openWith settings (some fault))
        ⟨[.openPort device.name settings device.readTimeout device.writeTimeout], .error met⟩
  | opened {settings : LineSettings} (hsettings : Supported settings) :
      Serves device current (.openWith settings none)
        ⟨[.openPort device.name settings device.readTimeout device.writeTimeout], .ok none⟩
  | noRead {isOpen : Bool} {waiting : Except Fault Int} {answer : Except Fault Bytes}
      (hnone : current = none ∨ isOpen = false) :
      Serves device current (.read isOpen waiting answer) ⟨[], .ok none⟩
  | unreadable {port : Nat} {fault : Fault} {answer : Except Fault Bytes}
      (hcurrent : current = some port) :
      Serves device current (.read true (.error fault) answer) ⟨[], .error fault⟩
  | read {port : Nat} {waiting size : Int} {answer : Except Fault Bytes}
      (hcurrent : current = some port) (hlow : 1 ≤ size) (hhigh : size ≤ max 1 device.readSize) :
      Serves device current (.read true (.ok waiting) answer) ⟨[.read port size], answer.map some⟩
  | noCancel {isOpen canCancel : Bool} {answer : Except Fault Unit}
      (hnone : current = none ∨ isOpen = false ∨ canCancel = false) :
      Serves device current (.cancelRead isOpen canCancel answer) ⟨[], .ok none⟩
  | cancel {port : Nat} {answer : Except Fault Unit} (hcurrent : current = some port) :
      Serves device current (.cancelRead true true answer)
        ⟨[.cancel port], answer.map fun _ => none⟩
  | noWrite {isOpen : Bool} {data : Bytes} {written flushed : Except Fault Unit} {met : Fault}
      (hnone : current = none ∨ isOpen = false) (hkind : met.kind = .writeFailed) :
      Serves device current (.write isOpen data written flushed) ⟨[], .error met⟩
  | unwritten {port : Nat} {data : Bytes} {fault met : Fault} {flushed : Except Fault Unit}
      (hcurrent : current = some port) (hmet : Surfaces fault met) :
      Serves device current (.write true data (.error fault) flushed)
        ⟨[.write port data], .error met⟩
  | unflushed {port : Nat} {data : Bytes} {fault met : Fault} (hcurrent : current = some port)
      (hmet : Surfaces fault met) :
      Serves device current (.write true data (.ok ()) (.error fault))
        ⟨[.write port data, .flush port], .error met⟩
  | written {port : Nat} {data : Bytes} (hcurrent : current = some port) :
      Serves device current (.write true data (.ok ()) (.ok ()))
        ⟨[.write port data, .flush port], .ok none⟩
  | noClose {answer : Except Fault Unit} (hnone : current = none) :
      Serves device current (.close answer) ⟨[], .ok none⟩
  | close {port : Nat} {answer : Except Fault Unit} (hcurrent : current = some port) :
      Serves device current (.close answer) ⟨[.close port], answer.map fun _ => none⟩

variable {device : SerialDevice} {current : Option Nat} {opened : Nat} {use : Use} {effect : Effect}

theorem unsupported?_eq_none {settings : LineSettings} :
    unsupported? settings = none ↔ Supported settings := by
  unfold unsupported? Supported
  simp only [Bool.not_eq_true', List.contains_eq_mem, decide_eq_false_iff_not]
  constructor
  · intro h
    split at h
    · cases h
    · split at h
      · cases h
      · split at h
        · cases h
        · simp_all
  · rintro ⟨hparity, hstop, hdata⟩
    simp [hparity, hstop, hdata]

theorem openSurfaces (name : String) (fault : Fault) :
    OpenSurfaces fault (if isRefusal fault then .openRefused name fault else fault) := by
  have hrefusal : isRefusal fault = true ↔ OfLine fault ∨ fault.kind.isValue = true := by
    simp only [isRefusal, OfLine, Bool.or_eq_true, decide_eq_true_eq]
  split
  case isTrue h => exact Or.inl ⟨hrefusal.1 h, rfl, rfl⟩
  case isFalse h => exact Or.inr ⟨fun hline => h (hrefusal.2 hline), rfl⟩

theorem surfaces_writeFault (device : SerialDevice) (fault : Fault) :
    Surfaces fault (device.writeFault fault) := by
  unfold writeFault
  split
  case isTrue h => exact Or.inl ⟨Or.inr h, rfl⟩
  case isFalse htimeout =>
    split
    case isTrue h => exact Or.inl ⟨Or.inl h, rfl⟩
    case isFalse hline =>
      refine Or.inr ⟨fun h => ?_, rfl⟩
      rcases h with h | h
      · exact hline h
      · exact htimeout h

theorem one_le_askSize (waiting : Int) : 1 ≤ device.askSize waiting := by
  unfold askSize
  omega

theorem askSize_le (waiting : Int) : device.askSize waiting ≤ max 1 device.readSize := by
  unfold askSize
  omega

/-- The desk of a device that holds a port, or none. -/
def Desk.holding (device : SerialDevice) (current : Option Nat) (opened : Nat) : Desk :=
  ⟨{ device with port := current }, opened⟩

theorem use_serves (device : SerialDevice) (current : Option Nat) (opened : Nat) (use : Use) :
    Serves device current use ((Desk.holding device current opened).use use).2 := by
  cases use with
  | openWith settings refusal =>
    simp only [Desk.use, Desk.holding, SerialDevice.openWith]
    cases hsettings : unsupported? settings with
    | some fault =>
      refine .unsupported (fun hsupported => ?_) rfl
      cases hsettings.symm.trans (unsupported?_eq_none.2 hsupported)
    | none =>
      have hsupported := unsupported?_eq_none.1 hsettings
      cases refusal with
      | none => exact .opened hsupported
      | some fault => exact .refused hsupported (openSurfaces device.name fault)
  | read isOpen waiting answer =>
    simp only [Desk.use, Desk.holding, SerialDevice.read, usable?]
    cases isOpen with
    | false => exact .noRead (Or.inr rfl)
    | true =>
      cases current with
      | none => exact .noRead (Or.inl rfl)
      | some port =>
        cases waiting with
        | error fault => exact .unreadable rfl
        | ok waiting =>
          exact .read rfl (one_le_askSize waiting)
            (@askSize_le { device with port := some port } waiting)
  | cancelRead isOpen canCancel answer =>
    simp only [Desk.use, Desk.holding, SerialDevice.cancelRead, usable?]
    cases isOpen with
    | false => exact .noCancel (Or.inr (Or.inl rfl))
    | true =>
      cases current with
      | none => exact .noCancel (Or.inl rfl)
      | some port =>
        cases canCancel with
        | false => exact .noCancel (Or.inr (Or.inr rfl))
        | true => exact .cancel rfl
  | write isOpen data written flushed =>
    simp only [Desk.use, Desk.holding, SerialDevice.write, usable?]
    cases isOpen with
    | false => exact .noWrite (Or.inr rfl) rfl
    | true =>
      cases current with
      | none => exact .noWrite (Or.inl rfl) rfl
      | some port =>
        cases written with
        | error fault => exact .unwritten rfl (surfaces_writeFault _ fault)
        | ok _ =>
          cases flushed with
          | error fault => exact .unflushed rfl (surfaces_writeFault _ fault)
          | ok _ => exact .written rfl
  | close answer =>
    simp only [Desk.use, Desk.holding, SerialDevice.close]
    cases current with
    | none => exact .noClose rfl
    | some port => exact .close rfl

/-! ## The course of the uses -/

/-- The port that a device holds behind a use. -/
def heldAfter (current : Option Nat) (opened : Nat) (done : Use × Effect) : Option Nat :=
  if opens done then some opened else if closes done then none else current

theorem use_holding (device : SerialDevice) (current : Option Nat) (opened : Nat) (use : Use) :
    let done := (use, ((Desk.holding device current opened).use use).2)
    ((Desk.holding device current opened).use use).1 =
      Desk.holding device (heldAfter current opened done) (opened + if opens done then 1 else 0) := by
  cases use with
  | openWith settings refusal =>
    cases hsettings : unsupported? settings with
    | some fault =>
      simp only [Desk.use, Desk.holding, SerialDevice.openWith, hsettings]
      rfl
    | none =>
      cases refusal <;>
        (simp only [Desk.use, Desk.holding, SerialDevice.openWith, hsettings]; rfl)
  | read isOpen waiting answer => rfl
  | cancelRead isOpen canCancel answer => rfl
  | write isOpen data written flushed => rfl
  | close answer =>
    simp only [Desk.use, Desk.holding, SerialDevice.close, heldAfter, opens, closes]
    cases current <;> rfl

theorem Serves.count_close (h : Serves device current use effect) (port : Nat) :
    effect.calls.count (.close port) =
      if closes (use, effect) = true ∧ current = some port then 1 else 0 := by
  cases h with
  | close hcurrent =>
    rw [List.count_singleton, hcurrent]
    simp [closes]
  | noClose hnone => simp [closes, hnone]
  | _ => simp [closes]

/-- What a device holds, in the terms of what was done before. No port is closed twice, and neither
the open port nor one that is still to come is closed at all. -/
structure Held (past : List (Use × Effect)) (current : Option Nat) (opened : Nat) : Prop where
  counts : opened = past.countP opens
  isCurrent : ∀ port, current = some port ↔ Current past port
  below : ∀ port, current = some port → port < opened
  once : ∀ port, (callsOf past).count (.close port) ≤ 1
  fresh : ∀ port, current = some port ∨ opened ≤ port → (callsOf past).count (.close port) = 0

theorem held_nil : Held [] none 0 where
  counts := rfl
  isCurrent := fun port => iff_of_false (by simp) not_current_nil
  below := by simp
  once := by simp [callsOf]
  fresh := by simp [callsOf]

theorem closes_of_opens (h : opens done = true) : closes done = false := by
  obtain ⟨use, effect⟩ := done
  cases use <;> first | rfl | cases h

theorem count_close_concat (hserves : Serves device current use effect) (port : Nat) :
    (callsOf (past ++ [(use, effect)])).count (.close port) =
      (callsOf past).count (.close port) +
        if closes (use, effect) = true ∧ current = some port then 1 else 0 := by
  rw [callsOf, List.flatMap_append, List.count_append, List.flatMap_singleton,
    hserves.count_close port]
  rfl

theorem heldAfter_opens (h : opens done = true) : heldAfter current opened done = some opened := by
  rw [heldAfter, if_pos h]

theorem heldAfter_closes (h : opens done = false) (hcloses : closes done = true) :
    heldAfter current opened done = none := by
  rw [heldAfter, h, if_neg Bool.false_ne_true, if_pos hcloses]

theorem heldAfter_other (h : opens done = false) (hcloses : closes done = false) :
    heldAfter current opened done = current := by
  rw [heldAfter, h, hcloses, if_neg Bool.false_ne_true, if_neg Bool.false_ne_true]

theorem Held.isCurrent_step (h : Held past current opened) (port : Nat) :
    heldAfter current opened done = some port ↔ Current (past ++ [done]) port := by
  rw [current_concat, ← h.isCurrent, ← h.counts]
  cases hopens : opens done with
  | true =>
    rw [heldAfter_opens hopens]
    constructor
    · exact fun hport => Or.inl ⟨rfl, (Option.some.inj hport).symm⟩
    · rintro (⟨_, rfl⟩ | ⟨hfalse, _⟩)
      · rfl
      · cases hfalse
  | false =>
    cases hcloses : closes done with
    | true => simp [heldAfter_closes hopens hcloses]
    | false => simp [heldAfter_other hopens hcloses]

theorem Held.below_step (h : Held past current opened) (port : Nat)
    (hport : heldAfter current opened done = some port) :
    port < opened + if opens done then 1 else 0 := by
  cases hopens : opens done with
  | true =>
    rw [heldAfter_opens hopens] at hport
    cases hport
    exact Nat.lt_succ_self opened
  | false =>
    cases hcloses : closes done with
    | true =>
      rw [heldAfter_closes hopens hcloses] at hport
      cases hport
    | false =>
      rw [heldAfter_other hopens hcloses] at hport
      exact h.below port hport

theorem Held.step (h : Held past current opened) (hserves : Serves device current use effect) :
    Held (past ++ [(use, effect)]) (heldAfter current opened (use, effect))
      (opened + if opens (use, effect) then 1 else 0) := by
  refine ⟨?_, h.isCurrent_step, h.below_step, fun port => ?_, fun port hport => ?_⟩
  · rw [List.countP_append, List.countP_singleton, h.counts]
  · -- only the held port is closed, and that one was not closed before
    rw [count_close_concat hserves]
    have honce := h.once port
    split
    case isTrue hclosed =>
      have hfresh := h.fresh port (Or.inl hclosed.2)
      omega
    case isFalse => omega
  · rw [count_close_concat hserves]
    cases hopens : opens (use, effect) with
    | true =>
      rw [hopens, heldAfter_opens hopens] at hport
      have hnew : opened ≤ port := by
        rcases hport with hsame | hlater
        · exact Nat.le_of_eq (Option.some.inj hsame)
        · exact Nat.le_of_succ_le hlater
      rw [h.fresh port (Or.inr hnew), closes_of_opens hopens, if_neg (by simp)]
    | false =>
      rw [hopens, if_neg Bool.false_ne_true, Nat.add_zero] at hport
      cases hcloses : closes (use, effect) with
      | true =>
        rw [heldAfter_closes hopens hcloses] at hport
        have hnew : opened ≤ port := hport.resolve_left (by simp)
        -- a close gives up the held port, which is older than all that are still to come
        have hother : current ≠ some port := fun hsame => by
          have := h.below port hsame
          omega
        rw [h.fresh port (Or.inr hnew), if_neg fun hclosed => hother hclosed.2]
      | false =>
        rw [heldAfter_other hopens hcloses] at hport
        rw [h.fresh port hport, if_neg (by simp)]

theorem course_cons (device : SerialDevice) (current : Option Nat) (opened : Nat) (use : Use)
    (rest : List Use) :
    let done := (use, ((Desk.holding device current opened).use use).2)
    (Desk.holding device current opened).course (use :: rest) =
      done :: (Desk.holding device (heldAfter current opened done)
        (opened + if opens done then 1 else 0)).course rest := by
  simp only [Desk.course, use_holding]

theorem Held.course (h : Held past current opened) (uses : List Use) :
    (∀ before use effect later,
        (Desk.holding device current opened).course uses = before ++ (use, effect) :: later →
          ∃ held, (∀ port, held = some port ↔ Current (past ++ before) port) ∧
            Serves device held use effect) ∧
      ∀ port, (callsOf (past ++ (Desk.holding device current opened).course uses)).count
        (.close port) ≤ 1 := by
  induction uses generalizing past current opened with
  | nil =>
    refine ⟨fun before use effect later hcourse => ?_, fun port => ?_⟩
    · simp [Desk.course] at hcourse
    · simpa [Desk.course] using h.once port
  | cons first rest ih =>
    have hserves := use_serves device current opened first
    obtain ⟨hrest, honce⟩ := ih (h.step hserves)
    rw [course_cons]
    refine ⟨fun before use effect later hcourse => ?_, fun port => ?_⟩
    · cases before with
      | nil =>
        obtain ⟨hfirst, _⟩ := List.cons.inj hcourse
        cases hfirst
        exact ⟨current, by simpa using h.isCurrent, hserves⟩
      | cons done before =>
        obtain ⟨rfl, hlater⟩ := List.cons.inj hcourse
        simpa using hrest before use effect later hlater
    · simpa using honce port

/-- From a new device on, whatever is done and whatever the line answers: a call on a port goes to
the port of the last open that succeeded, as long as no close has followed, and each use comes to
what `Serves` says. No port is closed twice. -/
theorem only_open_port_used (device : SerialDevice) (uses : List Use) :
    (∀ before use effect later,
        (Desk.holding device none 0).course uses = before ++ (use, effect) :: later →
          ∃ held, (∀ port, held = some port ↔ Current before port) ∧
            Serves device held use effect) ∧
      ∀ port, (callsOf ((Desk.holding device none 0).course uses)).count (.close port) ≤ 1 :=
  held_nil.course uses

/-- An open that fails between an open and a read, and two closes. -/
def reopening : List Use :=
  [.openWith {} none, .openWith {} (some (.external .serialLine "busy")),
    .read true (.ok 9999) (.ok [65]), .close (.ok ()), .close (.ok ())]

theorem only_open_port_used_reopened :
    let course := (Desk.holding { name := "line" } none 0).course reopening
    Current (course.take 2) 0 ∧ Serves { name := "line" } (some 0)
        (.read true (.ok 9999) (.ok [65])) ⟨[.read 0 4096], .ok (some [65])⟩ ∧
      (callsOf course).count (.close 0) ≤ 1 := by
  intro course
  obtain ⟨huses, honce⟩ := only_open_port_used { name := "line" } reopening
  obtain ⟨held, hcurrent, hserves⟩ := huses (course.take 2) (.read true (.ok 9999) (.ok [65]))
    ⟨[.read 0 4096], .ok (some [65])⟩ (course.drop 3) (by rfl)
  have hheld : held = some 0 := by
    cases hserves with
    | read hport => exact hport
  subst hheld
  exact ⟨(hcurrent 0).1 rfl, hserves, honce 0⟩

end SerialDevice

end SerialConsole
