import SerialConsole.Yaml.Flaw

set_option autoImplicit false

/-!
# Steps that may find a flaw

What a step with a state leads to: a result and a state that are as described, or a flaw that is as
described. Steps are put together by `Ends.bind`.
-/
namespace SerialConsole.Yaml

variable {σ α β : Type}

/-- A step from a state ends as described, or it finds a flaw of the kind that is allowed. -/
def Ends (allowed : Flaw → Prop) (step : StateT σ (Except Flaw) α) (s : σ)
    (Q : α → σ → Prop) : Prop :=
  match step.run s with
  | .ok (a, after) => Q a after
  | .error flaw => allowed flaw

namespace Ends

variable {allowed : Flaw → Prop} {step : StateT σ (Except Flaw) α}
  {next : α → StateT σ (Except Flaw) β} {s : σ} {R T : α → σ → Prop} {Q : β → σ → Prop}

theorem bind (h : Ends allowed step s R) (hnext : ∀ a after, R a after → Ends allowed (next a) after Q) :
    Ends allowed (step >>= next) s Q := by
  unfold Ends at h ⊢
  rw [StateT.run_bind]
  cases hrun : step.run s with
  | error flaw =>
    rw [hrun] at h
    exact h
  | ok result =>
    rw [hrun] at h
    exact hnext result.1 result.2 h

theorem mono (h : Ends allowed step s R) (hT : ∀ a after, R a after → T a after) :
    Ends allowed step s T := by
  unfold Ends at h ⊢
  split at h
  · exact hT _ _ h
  · exact h

/-- What is done with the state as it is. -/
theorem get_bind {next : σ → StateT σ (Except Flaw) β} (h : Ends allowed (next s) s Q) :
    Ends allowed (get >>= next) s Q :=
  h

/-- What is done with another state. -/
theorem set_bind {other : σ} {next : PUnit → StateT σ (Except Flaw) β}
    (h : Ends allowed (next ⟨⟩) other Q) : Ends allowed (set other >>= next) s Q :=
  h

/-- What is done after the state was changed. -/
theorem modify_bind {change : σ → σ} {next : PUnit → StateT σ (Except Flaw) β}
    (h : Ends allowed (next ⟨⟩) (change s) Q) : Ends allowed (modify change >>= next) s Q :=
  h

end Ends

end SerialConsole.Yaml
