import SerialConsole.Session.Basic

set_option autoImplicit false

/-!
# Locks that are served first come, first served

`Lock.Ok` ties a lock to what its users do: it is held exactly when somebody has it, nobody else
has it then, those who wait are the ones in the row, and the first of them has been told that the
lock is free exactly when it is. Each operation on a lock keeps this.
-/
namespace SerialConsole

/-- What a caller does with a lock. Who waits may have been told that the lock is free. -/
inductive Use where
  | out
  | waits (told : Bool)
  | holds
  deriving DecidableEq

/-- A lock agrees with what its users do. -/
structure Lock.Ok (lock : Lock) (use : Caller → Use) : Prop where
  held_iff : lock.held = true ↔ ∃ c, use c = .holds
  unique : ∀ c d, use c = .holds → use d = .holds → c = d
  nodup : lock.waiting.Nodup
  waiting_iff : ∀ c, c ∈ lock.waiting ↔ ∃ told, use c = .waits told
  told : ∀ c, use c = .waits true → lock.held = false ∧ lock.waiting.head? = some c
  woken : ∀ c, lock.held = false → lock.waiting.head? = some c → use c = .waits true

namespace Lock.Ok

variable {lock : Lock} {use use' : Caller → Use} {me : Caller}

theorem not_held (h : lock.Ok use) (hheld : lock.held = false) (c : Caller) : use c ≠ .holds := by
  intro hc
  have hlock := h.held_iff.2 ⟨c, hc⟩
  rw [hheld] at hlock
  cases hlock

theorem congr (h : lock.Ok use) (heq : ∀ c, use' c = use c) : lock.Ok use' := by
  have hfun : use' = use := funext heq
  rw [hfun]
  exact h

theorem unused (h : ∀ c, use c = .out) : Lock.Ok {} use := by
  refine ⟨⟨fun hheld => ?_, fun ⟨c, hc⟩ => ?_⟩, fun c d hc => ?_, List.nodup_nil, fun c => ?_,
    fun c hc => ?_, fun c _ hhead => ?_⟩
  · cases hheld
  · rw [h c] at hc
    cases hc
  · rw [h c] at hc
    cases hc
  · rw [h c]
    exact ⟨fun hmem => absurd hmem List.not_mem_nil, fun ⟨told, htold⟩ => nomatch htold⟩
  · rw [h c] at hc
    cases hc
  · cases hhead

/-- A newcomer takes a lock that is free and for which nobody waits. -/
theorem take (h : lock.Ok use) (hheld : lock.held = false) (hnone : lock.waiting = [])
    (hme : use' me = .holds) (hothers : ∀ c, c ≠ me → use' c = use c) :
    Lock.Ok { lock with held := true } use' := by
  have hout : ∀ c, c ≠ me → use c = .out := by
    intro c _
    cases huse : use c with
    | out => rfl
    | waits told =>
      have hmem := (h.waiting_iff c).2 ⟨told, huse⟩
      rw [hnone] at hmem
      cases hmem
    | holds => exact absurd huse (h.not_held hheld c)
  have hother : ∀ c, c ≠ me → use' c = .out := fun c hc => (hothers c hc).trans (hout c hc)
  refine ⟨⟨fun _ => ⟨me, hme⟩, fun _ => rfl⟩, ?_, h.nodup, ?_, ?_, fun c hfree => ?_⟩
  · intro c d hc hd
    by_cases hcm : c = me <;> by_cases hdm : d = me <;> simp_all
  · intro c
    by_cases hcm : c = me <;> simp_all
  · intro c hc
    by_cases hcm : c = me <;> simp_all
  · cases hfree

/-- The holder gives the lock back, and the first of those who wait is told. -/
theorem release (h : lock.Ok use) (hme : use me = .holds) (hme' : use' me = .out)
    (hothers : ∀ c, c ≠ me →
      use' c = if lock.waiting.head? = some c then .waits true else use c) :
    Lock.Ok { lock with held := false } use' := by
  have hheld : lock.held = true := h.held_iff.2 ⟨me, hme⟩
  have hnot : ∀ c, use' c ≠ .holds := by
    intro c hc
    by_cases hcm : c = me
    · rw [hcm, hme'] at hc
      cases hc
    · rw [hothers c hcm] at hc
      split at hc
      · cases hc
      · exact hcm (h.unique c me hc hme)
  have hwaits : ∀ c, c ∈ lock.waiting → c ≠ me := by
    rintro c hc rfl
    obtain ⟨told, htold⟩ := (h.waiting_iff c).1 hc
    rw [hme] at htold
    cases htold
  refine ⟨⟨fun hlock => ?_, fun ⟨c, hc⟩ => absurd hc (hnot c)⟩, ?_, h.nodup, ?_, ?_, ?_⟩
  · cases hlock
  · intro c d hc _
    exact absurd hc (hnot c)
  · intro c
    rw [h.waiting_iff c]
    by_cases hcm : c = me
    · simp [hcm, hme, hme']
    · rw [hothers c hcm]
      by_cases hhead : lock.waiting.head? = some c
      · have hmem := (h.waiting_iff c).1 (List.mem_of_head? hhead)
        simp [hhead, hmem]
      · simp [hhead]
  · intro c hc
    refine ⟨rfl, ?_⟩
    by_cases hcm : c = me
    · rw [hcm, hme'] at hc
      cases hc
    · rw [hothers c hcm] at hc
      by_cases hhead : lock.waiting.head? = some c
      · exact hhead
      · rw [if_neg hhead] at hc
        have hfree := (h.told c hc).1
        rw [hheld] at hfree
        cases hfree
  · intro c _ hhead
    rw [hothers c (hwaits c (List.mem_of_head? hhead)), if_pos hhead]

theorem queue (h : lock.Ok use) (hbusy : lock.held = true ∨ lock.waiting ≠ [])
    (hme : use me = .out) (hme' : use' me = .waits false)
    (hothers : ∀ c, c ≠ me → use' c = use c) :
    Lock.Ok { lock with waiting := lock.waiting ++ [me] } use' := by
  have hnew : me ∉ lock.waiting := by
    intro hmem
    obtain ⟨told, htold⟩ := (h.waiting_iff me).1 hmem
    rw [hme] at htold
    cases htold
  have hholds : ∀ c, use' c = .holds ↔ use c = .holds := by
    intro c
    by_cases hcm : c = me
    · simp [hcm, hme, hme']
    · rw [hothers c hcm]
  refine ⟨?_, ?_, ?_, ?_, ?_, ?_⟩
  · simp only [hholds]
    exact h.held_iff
  · intro c d hc hd
    exact h.unique c d ((hholds c).1 hc) ((hholds d).1 hd)
  · exact List.nodup_append.2 ⟨h.nodup, by simp, by
      intro c hc d hd
      cases List.mem_singleton.1 hd
      rintro rfl
      exact hnew hc⟩
  · intro c
    rw [List.mem_append, List.mem_singleton]
    by_cases hcm : c = me
    · simp [hcm, hme']
    · rw [hothers c hcm, ← h.waiting_iff c]
      simp [hcm]
  · intro c hc
    by_cases hcm : c = me
    · rw [hcm, hme'] at hc
      cases hc
    · rw [hothers c hcm] at hc
      obtain ⟨hfree, hhead⟩ := h.told c hc
      exact ⟨hfree, by rw [List.head?_append, hhead]; rfl⟩
  · intro c hfree hhead
    change lock.held = false at hfree
    cases hwaiting : lock.waiting with
    | nil =>
      rw [hfree, hwaiting] at hbusy
      simp at hbusy
    | cons first rest =>
      have hfirst : lock.waiting.head? = some c := by
        simp only [hwaiting, List.cons_append, List.head?_cons] at hhead ⊢
        exact hhead
      have hcm : c ≠ me := by
        rintro rfl
        exact hnew (List.mem_of_head? hfirst)
      rw [hothers c hcm]
      exact h.woken c hfree hfirst

/-- Who has been told that the lock is free takes it. -/
theorem takeTurn (h : lock.Ok use) (hme : use me = .waits true) (hme' : use' me = .holds)
    (hothers : ∀ c, c ≠ me → use' c = use c) : Lock.Ok ⟨true, lock.waiting.erase me⟩ use' := by
  obtain ⟨hfree, hhead⟩ := h.told me hme
  have hnot : ∀ c, c ≠ me → use' c ≠ .holds := by
    intro c hcm
    rw [hothers c hcm]
    exact h.not_held hfree c
  refine ⟨⟨fun _ => ⟨me, hme'⟩, fun _ => rfl⟩, ?_, h.nodup.erase me, ?_, ?_, fun c hheld => ?_⟩
  · intro c d hc hd
    by_cases hcm : c = me
    · by_cases hdm : d = me
      · rw [hcm, hdm]
      · exact absurd hd (hnot d hdm)
    · exact absurd hc (hnot c hcm)
  · intro c
    by_cases hcm : c = me
    · simp [hcm, hme', h.nodup.mem_erase_iff]
    · rw [hothers c hcm, ← h.waiting_iff c, h.nodup.mem_erase_iff]
      simp [hcm]
  · intro c hc
    by_cases hcm : c = me
    · rw [hcm, hme'] at hc
      cases hc
    · rw [hothers c hcm] at hc
      have hsame := (h.told c hc).2
      rw [hhead] at hsame
      exact absurd (Option.some.inj hsame).symm hcm
  · cases hheld

/-- Who waits gives up; if the lock is free, the one who is then the first is told. -/
theorem giveUp (h : lock.Ok use) {b : Bool} (hme : use me = .waits b) (hme' : use' me = .out)
    (hothers : ∀ c, c ≠ me → use' c =
      if lock.held = false ∧ (lock.waiting.erase me).head? = some c then .waits true else use c) :
    Lock.Ok { lock with waiting := lock.waiting.erase me } use' := by
  have hmem : ∀ c, (lock.waiting.erase me).head? = some c → ∃ told, use c = .waits told := by
    intro c hc
    exact (h.waiting_iff c).1 (List.mem_of_mem_erase (List.mem_of_head? hc))
  have hholds : ∀ c, use' c = .holds ↔ use c = .holds := by
    intro c
    by_cases hcm : c = me
    · simp [hcm, hme, hme']
    · rw [hothers c hcm]
      split
      · obtain ⟨told, htold⟩ := hmem c (by rename_i hcond; exact hcond.2)
        simp [htold]
      · exact Iff.rfl
  refine ⟨?_, ?_, h.nodup.erase me, ?_, ?_, ?_⟩
  · simp only [hholds]
    exact h.held_iff
  · intro c d hc hd
    exact h.unique c d ((hholds c).1 hc) ((hholds d).1 hd)
  · intro c
    by_cases hcm : c = me
    · simp [hcm, hme', h.nodup.mem_erase_iff]
    · rw [h.nodup.mem_erase_iff, hothers c hcm, h.waiting_iff c]
      split
      · obtain ⟨told, htold⟩ := hmem c (by rename_i hcond; exact hcond.2)
        simp [hcm, htold]
      · simp [hcm]
  · intro c hc
    by_cases hcm : c = me
    · rw [hcm, hme'] at hc
      cases hc
    · rw [hothers c hcm] at hc
      by_cases hfirst : lock.held = false ∧ (lock.waiting.erase me).head? = some c
      · exact hfirst
      · rw [if_neg hfirst] at hc
        obtain ⟨hfree, hhead⟩ := h.told c hc
        refine absurd ⟨hfree, ?_⟩ hfirst
        cases hwaiting : lock.waiting with
        | nil =>
          rw [hwaiting] at hhead
          cases hhead
        | cons first rest =>
          rw [hwaiting] at hhead
          cases hhead
          rw [List.erase_cons_tail (by simpa using hcm)]
          rfl
  · intro c hfree hhead
    have hcm : c ≠ me := fun heq => by
      have hmem := List.mem_of_head? hhead
      rw [heq] at hmem
      exact (h.nodup.mem_erase_iff.1 hmem).1 rfl
    rw [hothers c hcm, if_pos ⟨hfree, hhead⟩]

end Lock.Ok

end SerialConsole
