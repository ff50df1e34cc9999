import SerialConsole.Proofs.Session.Orders

set_option autoImplicit false

/-!
# Worlds with the same future

Two worlds that have the same session and the same tasks go on in the same way, whatever happened
before. So do worlds whose tasks differ only in calls of which nothing is to come: calls that are
over in the one world and were never made in the other (`Twins.run`).
-/
namespace SerialConsole.Session

/-- A task of which nothing is to come until its call is made. -/
inductive Status.Inert : Status → Prop where
  | absent : Inert .absent
  | over {result : Except Fault Result} {told : Bool} : Inert (.rests (.over result) told)

/-- The task after it was told that the lock it waits for is free. -/
def Status.awake : Status → Status
  | .rests pause _ => .rests pause true
  | status => status

theorem Status.Inert.awake {status : Status} (h : status.Inert) : status.awake.Inert := by
  cases h with
  | absent => exact .absent
  | «over» => exact .over

namespace World

theorem setTask_same (w : World) (c : Caller) : w.setTask c (w.tasks c) = w := by
  have htasks : (fun d => if d = c then w.tasks c else w.tasks d) = w.tasks := by
    funext d
    split
    case isTrue heq => rw [heq]
    case isFalse => rfl
  rw [setTask, htasks]

theorem effect_wake (w : World) (c : Caller) :
    w.effect (.wake c) = w.setTask c (w.tasks c).awake := by
  rw [effect]
  cases htask : w.tasks c with
  | rests pause told => rfl
  | absent | due d => exact (htask ▸ setTask_same w c).symm

theorem after_wakeFirst (w : World) (s t : Session) (name : LockName) :
    w.after s (t.wakeFirst name) = { w with
      session := s
      tasks := fun c =>
        if (t.lock name).waiting.head? = some c then (w.tasks c).awake else w.tasks c } := by
  rw [after, wakeFirst]
  cases (t.lock name).waiting.head? with
  | none => rfl
  | some first =>
    rw [Option.map_some, Option.toList_some, List.foldl_cons, List.foldl_nil, effect_wake, setTask]
    congr 1
    funext c
    by_cases hc : c = first
    · subst hc
      rw [if_pos rfl, if_pos rfl]
    · rw [if_neg hc, if_neg fun heq => hc (Option.some.inj heq).symm]

/-- The world after a task has given a lock back and ended. -/
theorem absorb_leave (w : World) (me : Caller) (s : Session) (name : LockName)
    (result : Except Fault Result) : w.absorb me (s.leave name [] result) = { w with
      session := s.release name
      tasks := fun c =>
        if c = me then .rests (.over result) false
        else if (s.lock name).waiting.head? = some c then (w.tasks c).awake
        else w.tasks c
      history := w.history ++ [.returned me result] } := by
  rw [absorb, leave, List.nil_append, after_wakeFirst]
  rfl

/-- Two worlds in which the same has happened since they had the histories `before` and `before'`.
Their tasks differ at most in the calls that are apart, and of these nothing is to come. -/
structure Twins (apart : Caller → Prop) (before before' : List Event) (w v : World) : Prop where
  session : w.session = v.session
  cancelled : w.cancelled = v.cancelled
  history : ∃ new, w.history = before ++ new ∧ v.history = before' ++ new
  tasks : ∀ c, ¬ apart c → w.tasks c = v.tasks c
  inert : ∀ c, apart c → (∃ id, c = .call id) ∧ (w.tasks c).Inert ∧ (v.tasks c).Inert

namespace Twins

variable {apart : Caller → Prop} {before before' : List Event} {w v : World} {me : Caller}

theorem happen (h : Twins apart before before' w v) (events : List Event) :
    Twins apart before before' (w.happen events) (v.happen events) where
  session := h.session
  cancelled := h.cancelled
  history := by
    obtain ⟨new, hw, hv⟩ := h.history
    refine ⟨new ++ events, ?_, ?_⟩
    · rw [World.happen, hw, List.append_assoc]
    · rw [World.happen, hv, List.append_assoc]
  tasks := h.tasks
  inert := h.inert

theorem setTask (h : Twins apart before before' w v) (hme : ¬ apart me) (status : Status) :
    Twins apart before before' (w.setTask me status) (v.setTask me status) where
  session := h.session
  cancelled := h.cancelled
  history := h.history
  tasks := fun c hc => by
    change (if c = me then status else w.tasks c) = if c = me then status else v.tasks c
    rw [h.tasks c hc]
  inert := fun c hc => by
    have hne : c ≠ me := fun heq => hme (heq ▸ hc)
    rw [setTask_of_ne _ _ hne, setTask_of_ne _ _ hne]
    exact h.inert c hc

theorem wake (h : Twins apart before before' w v) (c : Caller) :
    Twins apart before before' (w.effect (.wake c)) (v.effect (.wake c)) := by
  rw [effect_wake, effect_wake]
  by_cases hc : apart c
  · refine ⟨h.session, h.cancelled, h.history, fun d hd => ?_, fun d hd => ?_⟩
    · have hne : d ≠ c := fun heq => hd (heq ▸ hc)
      rw [setTask_of_ne _ _ hne, setTask_of_ne _ _ hne]
      exact h.tasks d hd
    · by_cases hdc : d = c
      · subst hdc
        rw [setTask_self, setTask_self]
        obtain ⟨hcall, hw, hv⟩ := h.inert d hd
        exact ⟨hcall, hw.awake, hv.awake⟩
      · rw [setTask_of_ne _ _ hdc, setTask_of_ne _ _ hdc]
        exact h.inert d hd
  · rw [h.tasks c hc]
    exact h.setTask hc _

theorem effect (h : Twins apart before before' w v) (e : Effect) :
    Twins apart before before' (w.effect e) (v.effect e) := by
  cases e with
  | note n => exact h
  | logged entry listeners => exact h.happen _
  | wake c => exact h.wake c
  | startReader n d =>
    refine h.setTask (fun hapart => ?_) _
    obtain ⟨⟨id, hid⟩, _⟩ := h.inert _ hapart
    cases hid
  | cancelReader n =>
    refine ⟨h.session, ?_, h.history, h.tasks, h.inert⟩
    change (fun m => m = n || w.cancelled m) = fun m => m = n || v.cancelled m
    rw [h.cancelled]

theorem after (h : Twins apart before before' w v) (s : Session) (effects : List Effect) :
    Twins apart before before' (w.after s effects) (v.after s effects) := by
  have hstart : Twins apart before before' { w with session := s } { v with session := s } :=
    ⟨rfl, h.cancelled, h.history, h.tasks, h.inert⟩
  rw [World.after, World.after]
  generalize ({ w with session := s } : World) = a at hstart
  generalize ({ v with session := s } : World) = b at hstart
  induction effects generalizing a b with
  | nil => exact hstart
  | cons e rest ih => exact ih _ _ (hstart.effect e)

theorem absorb (h : Twins apart before before' w v) (hme : ¬ apart me) (step : Step) :
    Twins apart before before' (w.absorb me step) (v.absorb me step) :=
  ((h.after step.session step.effects).setTask hme _).happen _

theorem goOn (h : Twins apart before before' w v) (hme : ¬ apart me) (point : Point)
    (signal : Signal) :
    Twins apart before before' (w.goOn me point signal) (v.goOn me point signal) := by
  rw [World.goOn, World.goOn, h.session]
  exact h.absorb hme _

theorem toldToEnd (h : Twins apart before before' w v) (n : Nat) :
    Twins apart before before' (w.toldToEnd n) (v.toldToEnd n) where
  session := h.session
  cancelled := by
    change (fun m => m ≠ n && w.cancelled m) = fun m => m ≠ n && v.cancelled m
    rw [h.cancelled]
  history := h.history
  tasks := h.tasks
  inert := h.inert

theorem reader_not_apart (h : Twins apart before before' w v) (n : Nat) : ¬ apart (.reader n) := by
  intro hapart
  obtain ⟨⟨id, hid⟩, _⟩ := h.inert _ hapart
  cases hid

theorem resultOf_eq (h : Twins apart before before' w v) (n : Nat) :
    w.resultOf n = v.resultOf n := by
  rw [resultOf, resultOf, h.tasks _ (h.reader_not_apart n)]

/-- Tasks of which nothing is to come make no move, unless a call is made. -/
theorem move_eq_none {m : Move} (hinert : (w.tasks m.caller).Inert)
    (hbegin : ∀ id op, m ≠ .begin id op) : w.move m = none := by
  cases m with
  | begin id op => exact absurd rfl (hbegin id op)
  | answer c reply | turn c | stopWaiting c | join c =>
    rw [World.move]
    generalize htask : w.tasks c = status
    have hinert' : status.Inert := htask ▸ hinert
    cases hinert' <;> rfl
  | startReading n =>
    rw [World.move]
    generalize htask : w.tasks (.reader n) = status
    have hinert' : status.Inert := htask ▸ hinert
    cases hinert' <;> rfl
  | cancelReading n =>
    rw [World.move]
    generalize htask : w.tasks (.reader n) = status
    have hinert' : status.Inert := htask ▸ hinert
    cases hinert' <;> split <;> rfl

theorem move (h : Twins apart before before' w v) {m : Move}
    (hbegin : ∀ id op, m = .begin id op → ¬ apart (.call id)) :
    Option.Rel (Twins apart before before') (w.move m) (v.move m) := by
  by_cases hc : apart m.caller
  · obtain ⟨-, hw, hv⟩ := h.inert _ hc
    have hnot : ∀ id op, m ≠ .begin id op := by
      rintro id op rfl
      exact hbegin id op rfl hc
    rw [move_eq_none hw hnot, move_eq_none hv hnot]
    exact .none
  have htasks : w.tasks m.caller = v.tasks m.caller := h.tasks _ hc
  cases m with
  | begin id op =>
    change w.tasks (.call id) = v.tasks (.call id) at htasks
    rw [World.move, World.move, htasks, h.session]
    cases v.tasks (.call id) with
    | absent => exact .some ((h.happen _).absorb hc _)
    | due d => exact .none
    | rests pause told => exact .none
  | answer c reply =>
    change w.tasks c = v.tasks c at htasks
    rw [World.move, World.move, htasks]
    split
    · split
      · exact .some ((h.happen _).goOn hc _ _)
      · exact .none
    · exact .none
  | turn c =>
    change w.tasks c = v.tasks c at htasks
    rw [World.move, World.move, htasks]
    split
    · exact .some (h.goOn hc _ _)
    · exact .none
  | stopWaiting c =>
    change w.tasks c = v.tasks c at htasks
    rw [World.move, World.move, htasks]
    split
    · rw [h.resultOf_eq]
      exact .some (h.goOn hc _ _)
    · exact .none
  | join c =>
    change w.tasks c = v.tasks c at htasks
    rw [World.move, World.move, htasks]
    split
    case h_1 n point told hjoins | h_2 n point told hjoins =>
      rw [h.resultOf_eq]
      cases v.resultOf n with
      | none => exact .none
      | some result => exact .some (h.goOn hc _ _)
    case h_3 => exact .none
  | startReading n =>
    change w.tasks (.reader n) = v.tasks (.reader n) at htasks
    rw [World.move, World.move, htasks, h.cancelled, h.session]
    split
    · split
      · exact .none
      · exact .some (h.absorb hc _)
    · exact .none
  | cancelReading n =>
    change w.tasks (.reader n) = v.tasks (.reader n) at htasks
    rw [World.move, World.move, htasks, h.cancelled]
    split
    · split
      · exact .some (((h.toldToEnd n).setTask hc _).happen _)
      · rename_i pause told hrests
        cases pause.point? with
        | none => exact .none
        | some point => exact .some ((h.toldToEnd n).goOn hc _ _)
      · exact .none
    · exact .none

/-- The same moves are possible, and they lead to worlds with the same future again. -/
theorem run (h : Twins apart before before' w v) {moves : List Move}
    (hbegin : ∀ id op, .begin id op ∈ moves → ¬ apart (.call id)) :
    Option.Rel (Twins apart before before') (w.run moves) (v.run moves) := by
  induction moves generalizing w v with
  | nil => exact .some h
  | cons m rest ih =>
    have hmove := h.move (m := m) fun id op heq => hbegin id op (heq ▸ List.mem_cons_self)
    cases hw : w.move m with
    | none =>
      rw [hw] at hmove
      cases hv : v.move m with
      | none =>
        rw [World.run, World.run, List.foldlM_cons, List.foldlM_cons, hw, hv]
        exact .none
      | some next =>
        rw [hv] at hmove
        cases hmove
    | some next =>
      rw [hw] at hmove
      cases hv : v.move m with
      | none =>
        rw [hv] at hmove
        cases hmove
      | some next' =>
        rw [hv] at hmove
        rw [run_cons hw, run_cons hv]
        cases hmove with
        | some hnext =>
          exact ih hnext fun id op hmem => hbegin id op (List.mem_cons_of_mem m hmem)

end Twins

/-- The same moves are possible in both worlds, and the same happens then. Calls are made under
numbers that are new in the first one. -/
def SameFuture (w v : World) : Prop :=
  ∀ moves : List Move, (∀ id op, .begin id op ∈ moves → w.tasks (.call id) = .absent) →
    Option.Rel (fun w' v' => w'.session = v'.session ∧
      ∃ new, w'.history = w.history ++ new ∧ v'.history = v.history ++ new) (w.run moves)
        (v.run moves)

theorem Twins.sameFuture {apart : Caller → Prop} {w v : World}
    (h : Twins apart w.history v.history w v) (hthere : ∀ c, apart c → w.tasks c ≠ .absent) :
    w.SameFuture v := by
  intro moves hbegin
  have hrun := h.run fun id op hmem hapart => hthere _ hapart (hbegin id op hmem)
  generalize w.run moves = a at hrun
  generalize v.run moves = b at hrun
  cases hrun with
  | none => exact .none
  | some hlast => exact .some ⟨hlast.session, hlast.history⟩

end World

end SerialConsole.Session
