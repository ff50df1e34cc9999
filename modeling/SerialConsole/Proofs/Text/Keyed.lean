set_option autoImplicit false

/-!
# Lists that are searched by a key

Commands, scripts and the entries of a directory are kept in lists and found by their names.
-/
namespace SerialConsole.Keyed

variable {α : Type} {key : α → String} {items : List α} {name other : String}

theorem find?_of_nodup (hdistinct : (items.map key).Nodup) {item : α} (h : item ∈ items) :
    items.find? (fun x => key x = key item) = some item := by
  induction items with
  | nil => cases h
  | cons first rest ih =>
    obtain ⟨hfirst, hrest⟩ := List.nodup_cons.1 hdistinct
    rcases List.mem_cons.1 h with rfl | hmem
    · simp
    · have hother : key first ≠ key item := fun hsame =>
        hfirst (List.mem_map.2 ⟨item, hmem, hsame.symm⟩)
      rw [List.find?_cons_of_neg (by simpa using hother), ih hrest hmem]

/-- A list in which one key has a new value. -/
theorem find?_replace (pairs : List (String × α)) (name other : String) (value : α) :
    (pairs.map fun e => if e.1 = name then (name, value) else e).find? (fun e => e.1 = other) =
      (pairs.find? fun e => e.1 = other).map fun e => if other = name then (name, value) else e := by
  induction pairs with
  | nil => simp
  | cons first rest ih =>
    by_cases hname : first.1 = name <;> by_cases hother : first.1 = other <;>
      simp_all

theorem find?_without {pairs : List (String × α)} (h : other ≠ name) :
    (pairs.filter fun e => e.1 ≠ name).find? (fun e => e.1 = other) =
      pairs.find? fun e => e.1 = other := by
  induction pairs with
  | nil => rfl
  | cons first rest ih =>
    by_cases hname : first.1 = name
    · have hother : first.1 ≠ other := fun hsame => h (hsame.symm.trans hname)
      simpa [hname, Ne.symm h] using ih
    · by_cases hother : first.1 = other <;> simp_all

/-- A list in which a key gets a value: in the place of the old one, or at the end. -/
theorem find?_put (pairs : List (String × α)) (name other : String) (value : α) :
    (((if pairs.any fun e => e.1 = name then
        pairs.map fun e => if e.1 = name then (name, value) else e
      else pairs ++ [(name, value)]).find? fun e => e.1 = other).map (·.2)) =
      if other = name then some value else (pairs.find? fun e => e.1 = other).map (·.2) := by
  cases hany : pairs.any fun e => e.1 = name with
  | true =>
    rw [if_pos rfl, find?_replace]
    by_cases hsame : other = name
    · subst hsame
      cases hfound : pairs.find? fun e => e.1 = other with
      | none =>
        rw [List.find?_eq_none] at hfound
        obtain ⟨e, hmem, hname⟩ := List.any_eq_true.1 hany
        exact absurd hname (hfound e hmem)
      | some e => simp
    · simp [hsame]
  | false =>
    have hnone : pairs.find? (fun e => e.1 = name) = none := by simpa using hany
    rw [if_neg Bool.false_ne_true, List.find?_append]
    by_cases hsame : other = name
    · subst hsame
      simp [hnone]
    · simp [hsame, Ne.symm hsame]

end SerialConsole.Keyed
