import SerialConsole.Log.Ring
import Mathlib.Data.List.Induction

set_option autoImplicit false

/-!
# Registrations and their unsubscribers

Each call that registers a listener hands out an unsubscriber, and unsubscribers may be called in
any order and any number of times. An unsubscriber does not know its own registration: it takes out
the first one of its listener, if there is one. So its first call does what it should, a later call
does nothing only while the listener has no registration, and otherwise it takes out a registration
that another unsubscriber stands for (`live_registrations`).
-/
namespace SerialConsole.Log

/-- A call that registered a listener, and whether its unsubscriber was called. -/
structure Subscription where
  listener : Listener
  spent : Bool := false
  deriving DecidableEq, Repr

/-- A call from outside or from a listener. The unsubscribers are numbered from zero. -/
inductive Turn where
  | subscribe (listener : Listener)
  | unsubscribe (ticket : Nat)
  | add (direction : Direction) (data : Bytes)
  | clear
  deriving DecidableEq, Repr

/-- A log with the subscriptions to it, the oldest first. -/
structure Register where
  ring : Ring
  subscriptions : List Subscription := []

namespace Register

/-- A new log. -/
def opened (capacity : Nat) (clock : Clock) : Register :=
  { ring := { capacity, clock } }

def take (register : Register) : Turn → Register
  | .subscribe listener =>
    { ring := register.ring.subscribe listener
      subscriptions := register.subscriptions ++ [{ listener }] }
  | .unsubscribe ticket =>
    match register.subscriptions[ticket]? with
    | none => register
    | some subscription =>
      { ring := register.ring.unsubscribe subscription.listener
        subscriptions := register.subscriptions.set ticket { subscription with spent := true } }
  | .add direction data => { register with ring := register.ring.append direction data }
  | .clear => { register with ring := register.ring.clear }

def after (register : Register) (turns : List Turn) : Register :=
  turns.foldl take register

/-- How many registrations a listener has. -/
def live (register : Register) (listener : Listener) : Nat :=
  register.ring.listeners.count listener

/-- How many of a listener's subscriptions have an unsubscriber that was not called. -/
def owed (register : Register) (listener : Listener) : Nat :=
  register.subscriptions.countP fun subscription =>
    subscription.listener == listener && !subscription.spent

/-- A turn that calls an unsubscriber of the listener again, while the listener is registered. -/
def Strays (register : Register) (listener : Listener) : Turn → Prop
  | .unsubscribe ticket =>
    register.subscriptions[ticket]? = some ⟨listener, true⟩ ∧ 0 < register.live listener
  | _ => False

variable {register : Register} {listener : Listener} {ticket : Nat}
  {subscription : Subscription}

theorem after_concat (register : Register) (turns : List Turn) (turn : Turn) :
    register.after (turns ++ [turn]) = (register.after turns).take turn := by
  rw [after, List.foldl_append]
  rfl

/-! ## One turn -/

theorem take_unsubscribe (h : register.subscriptions[ticket]? = some subscription) :
    register.take (.unsubscribe ticket) = Register.mk
      (register.ring.unsubscribe subscription.listener)
      (register.subscriptions.set ticket ⟨subscription.listener, true⟩) := by
  rw [take, h]

theorem take_unsubscribe_none (h : register.subscriptions[ticket]? = none) :
    register.take (.unsubscribe ticket) = register := by
  rw [take, h]

theorem live_subscribe (register : Register) (listener other : Listener) :
    (register.take (.subscribe other)).live listener =
      register.live listener + if other == listener then 1 else 0 := by
  change (register.ring.listeners ++ [other]).count listener = _
  rw [List.count_append, List.count_singleton]
  rfl

theorem owed_subscribe (register : Register) (listener other : Listener) :
    (register.take (.subscribe other)).owed listener =
      register.owed listener + if other == listener then 1 else 0 := by
  change (register.subscriptions ++ [Subscription.mk other false]).countP _ = _
  rw [List.countP_append, List.countP_singleton]
  simp only [Bool.not_false, Bool.and_true]
  rfl

/-- An unsubscriber takes one registration of its listener, if there is one. -/
theorem live_unsubscribe (h : register.subscriptions[ticket]? = some subscription)
    (listener : Listener) :
    (register.take (.unsubscribe ticket)).live listener =
      register.live listener - if subscription.listener == listener then 1 else 0 := by
  rw [take_unsubscribe h]
  exact List.count_erase

theorem owed_unsubscribe (h : register.subscriptions[ticket]? = some subscription)
    (listener : Listener) :
    (register.take (.unsubscribe ticket)).owed listener = register.owed listener -
      if subscription.listener == listener && !subscription.spent then 1 else 0 := by
  obtain ⟨hticket, hget⟩ := List.getElem?_eq_some_iff.1 h
  rw [take_unsubscribe h]
  change (register.subscriptions.set ticket _).countP _ = _
  rw [List.countP_set hticket, hget]
  simp only [Bool.not_true, Bool.and_false, Bool.false_eq_true, if_false, Nat.add_zero]
  rfl

/-- The second call of an unsubscriber does nothing exactly if its listener is not registered. -/
theorem take_spent (h : register.subscriptions[ticket]? = some subscription)
    (hspent : subscription.spent = true) :
    register.take (.unsubscribe ticket) = register ↔ register.live subscription.listener = 0 := by
  have hsame : register.subscriptions.set ticket ⟨subscription.listener, true⟩ =
      register.subscriptions := by
    have hmark : ⟨subscription.listener, true⟩ = subscription := by rw [← hspent]
    obtain ⟨hticket, hget⟩ := List.getElem?_eq_some_iff.1 h
    rw [hmark, ← hget, List.set_getElem_self]
  rw [take_unsubscribe h, hsame, live, List.count_eq_zero]
  constructor
  · intro heq hmem
    have hlisteners : register.ring.listeners.erase subscription.listener =
        register.ring.listeners := congrArg (fun r => r.ring.listeners) heq
    have hlength := List.length_erase_of_mem hmem
    rw [hlisteners] at hlength
    have hpos := List.length_pos_of_mem hmem
    omega
  · intro hnot
    rw [Ring.unsubscribe, List.erase_of_not_mem hnot]

/-! ## The account -/

/-- The counts stand in the same relation after a turn, if the turn does not stray. -/
theorem live_take_of_not_strays {turn : Turn} (hturn : ¬ register.Strays listener turn)
    (h : register.live listener = register.owed listener) :
    (register.take turn).live listener = (register.take turn).owed listener := by
  cases turn with
  | subscribe other => rw [live_subscribe, owed_subscribe, h]
  | add direction data => exact h
  | clear => exact h
  | unsubscribe ticket =>
    cases hget : register.subscriptions[ticket]? with
    | none => rwa [take_unsubscribe_none hget]
    | some subscription =>
      rw [live_unsubscribe hget, owed_unsubscribe hget, h]
      obtain ⟨other, spent⟩ := subscription
      by_cases hother : other = listener
      · subst hother
        cases spent with
        | false => simp
        | true =>
          have hgone : register.live other = 0 := by
            rw [Strays, hget] at hturn
            simpa using hturn
          rw [← h, hgone]
          simp
      · simp [hother]

theorem live_le_owed_take (h : register.live listener ≤ register.owed listener) (turn : Turn) :
    (register.take turn).live listener ≤ (register.take turn).owed listener := by
  cases turn with
  | subscribe other =>
    rw [live_subscribe, owed_subscribe]
    exact Nat.add_le_add_right h _
  | add direction data => exact h
  | clear => exact h
  | unsubscribe ticket =>
    cases hget : register.subscriptions[ticket]? with
    | none => rwa [take_unsubscribe_none hget]
    | some subscription =>
      rw [live_unsubscribe hget, owed_unsubscribe hget]
      obtain ⟨other, spent⟩ := subscription
      by_cases hother : other = listener
      · cases spent <;> simp [hother] <;> omega
      · simpa [hother, Ne.symm hother] using h

/-- A stray call takes a registration that nobody gave back. -/
theorem live_lt_owed_of_strays {turn : Turn} (hturn : register.Strays listener turn)
    (h : register.live listener ≤ register.owed listener) :
    (register.take turn).live listener < (register.take turn).owed listener := by
  cases turn with
  | subscribe other => cases hturn
  | add direction data => cases hturn
  | clear => cases hturn
  | unsubscribe ticket =>
    obtain ⟨hget, hlive⟩ := hturn
    rw [live_unsubscribe hget, owed_unsubscribe hget]
    simp only [beq_self_eq_true, if_true, Bool.not_true, Bool.and_false, Bool.false_eq_true,
      if_false]
    omega

/-! ## All turns -/

theorem live_le_owed (capacity : Nat) (clock : Clock) (turns : List Turn) (listener : Listener) :
    ((opened capacity clock).after turns).live listener ≤
      ((opened capacity clock).after turns).owed listener := by
  induction turns using List.reverseRecOn with
  | nil => exact Nat.le_refl 0
  | append_singleton turns turn ih =>
    rw [after_concat]
    exact live_le_owed_take ih turn

theorem live_eq_owed {capacity : Nat} {clock : Clock} {turns : List Turn}
    (h : ∀ before turn, before ++ [turn] <+: turns →
      ¬ ((opened capacity clock).after before).Strays listener turn) :
    ((opened capacity clock).after turns).live listener =
      ((opened capacity clock).after turns).owed listener := by
  induction turns using List.reverseRecOn with
  | nil => rfl
  | append_singleton turns turn ih =>
    rw [after_concat]
    have hbefore : ((opened capacity clock).after turns).live listener =
        ((opened capacity clock).after turns).owed listener :=
      ih fun before last hlast => h before last (hlast.trans (List.prefix_append _ _))
    exact live_take_of_not_strays (h turns turn (List.prefix_refl _)) hbefore

/-- Whatever is called, a listener never has more registrations than subscriptions with an
unsubscriber that was not called. It has as many all along exactly if no unsubscriber of its own is
called again while it is registered. An unsubscriber takes one registration of its own listener, if
there is one, and none of another's; to call it again changes nothing exactly if its listener is not
registered. -/
theorem live_registrations (capacity : Nat) (clock : Clock) (turns : List Turn) :
    let register := (opened capacity clock).after
    (∀ listener, (register turns).live listener ≤ (register turns).owed listener) ∧
    (∀ listener,
      (∀ before, before <+: turns →
        (register before).live listener = (register before).owed listener) ↔
      ∀ before turn, before ++ [turn] <+: turns → ¬ (register before).Strays listener turn) ∧
    ∀ ticket subscription, (register turns).subscriptions[ticket]? = some subscription →
      (∀ listener, ((register turns).take (.unsubscribe ticket)).live listener =
        (register turns).live listener - if subscription.listener == listener then 1 else 0) ∧
      (subscription.spent = true →
        ((register turns).take (.unsubscribe ticket) = register turns ↔
          (register turns).live subscription.listener = 0)) := by
  refine ⟨live_le_owed capacity clock turns, fun listener => ⟨?_, ?_⟩,
    fun ticket subscription hget => ⟨live_unsubscribe hget, take_spent hget⟩⟩
  · intro hequal before turn hprefix hstray
    have hbefore := live_lt_owed_of_strays hstray (live_le_owed capacity clock before listener)
    rw [← after_concat, hequal _ hprefix] at hbefore
    exact Nat.lt_irrefl _ hbefore
  · intro hnone before hprefix
    exact live_eq_owed fun earlier turn hearlier => hnone earlier turn (hearlier.trans hprefix)

/-- One of two unsubscribers was called. To call it again takes the registration that the other one
stands for. -/
theorem live_registrations_called_twice :
    let register := (opened 10 .stopped).after
      [.subscribe "a", .add .sent [65], .subscribe "a", .unsubscribe 0, .clear]
    register.live "a" = 1 ∧ register.take (.unsubscribe 0) ≠ register ∧
      (register.take (.unsubscribe 0)).live "a" = 0 := by
  intro register
  obtain ⟨-, -, hcalls⟩ := live_registrations 10 .stopped
    [.subscribe "a", .add .sent [65], .subscribe "a", .unsubscribe 0, .clear]
  obtain ⟨htakes, hagain⟩ := hcalls 0 ⟨"a", true⟩ rfl
  refine ⟨by decide, fun hsame => ?_, ?_⟩
  · have hgone : register.live "a" = 0 := (hagain rfl).1 hsame
    exact absurd hgone (by decide)
  · rw [htakes "a"]
    decide

/-- A listener is registered twice and the first unsubscriber is called twice: no registration is
left, although the second unsubscriber was not called. -/
theorem live_lt_owed_called_again :
    let turns : List Turn :=
      [.subscribe "a", .subscribe "a", .unsubscribe 0, .unsubscribe 0]
    let register := (opened 10 .stopped).after
    (register turns).live "a" = 0 ∧ (register turns).owed "a" = 1 ∧
      (register turns).ring.listeners ≠ (register (turns.take 3)).ring.listeners := by
  decide

end Register

end SerialConsole.Log
