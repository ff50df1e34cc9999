import SerialConsole.Text.Blank
import Mathlib.Data.List.Nodup

set_option autoImplicit false

/-!
# The order of texts

Texts are ordered by their code points. Sorting by a key that tells items apart gives the same list
whatever order the items come in (`sortOn_eq_of_perm`).
-/
namespace SerialConsole.Text

theorem precedes_total (a b : List Char) : (precedes a b || precedes b a) = true := by
  induction a generalizing b with
  | nil => rfl
  | cons x a ih =>
    cases b with
    | nil => rfl
    | cons y b =>
      have hrest := ih b
      simp only [precedes, Bool.or_eq_true, Bool.and_eq_true, decide_eq_true_eq, beq_iff_eq]
        at hrest ⊢
      rcases Nat.lt_trichotomy x.toNat y.toNat with hless | hsame | hless
      · exact Or.inl (Or.inl hless)
      · exact hrest.imp (fun h => Or.inr ⟨hsame, h⟩) fun h => Or.inr ⟨hsame.symm, h⟩
      · exact Or.inr (Or.inl hless)

theorem precedes_trans {a b c : List Char} (hab : precedes a b = true)
    (hbc : precedes b c = true) : precedes a c = true := by
  induction a generalizing b c with
  | nil => rfl
  | cons x a ih =>
    cases b with
    | nil => cases hab
    | cons y b =>
      cases c with
      | nil => cases hbc
      | cons z c =>
        simp only [precedes, Bool.or_eq_true, Bool.and_eq_true, decide_eq_true_eq, beq_iff_eq]
          at hab hbc ⊢
        rcases hab with hab | ⟨hxy, hab⟩
        · exact Or.inl (by omega)
        · rcases hbc with hbc | ⟨hyz, hbc⟩
          · exact Or.inl (by omega)
          · exact Or.inr ⟨hxy.trans hyz, ih hab hbc⟩

theorem precedes_antisymm {a b : List Char} (hab : precedes a b = true)
    (hba : precedes b a = true) : a = b := by
  induction a generalizing b with
  | nil =>
    cases b with
    | nil => rfl
    | cons y b => cases hba
  | cons x a ih =>
    cases b with
    | nil => cases hab
    | cons y b =>
      simp only [precedes, Bool.or_eq_true, Bool.and_eq_true, decide_eq_true_eq, beq_iff_eq]
        at hab hba
      have hsame : x.toNat = y.toNat := by omega
      have hrest : a = b := ih (hab.resolve_left (by omega)).2 (hba.resolve_left (by omega)).2
      rw [Char.toNat_inj.1 hsame, hrest]

section

variable {α : Type} (key : α → String) {a b : List α}

theorem perm_sortOn (items : List α) : (sortOn key items).Perm items :=
  List.mergeSort_perm _ _

theorem sorted_sortOn (items : List α) :
    (sortOn key items).Pairwise fun x y => precedes (key x).toList (key y).toList = true := by
  refine List.pairwise_mergeSort ?_ ?_ items
  · exact fun _ _ _ => precedes_trans
  · exact fun _ _ => precedes_total _ _

theorem sortOn_eq_of_perm (hperm : a.Perm b) (hdistinct : (b.map key).Nodup) :
    sortOn key a = sortOn key b := by
  have hsame : (sortOn key a).Perm b := (perm_sortOn key a).trans hperm
  refine List.Perm.eq_of_pairwise (fun x y hx hy hxy hyx => ?_) (sorted_sortOn key a)
    (sorted_sortOn key b) (hsame.trans (perm_sortOn key b).symm)
  have hkey : key x = key y := String.toList_inj.1 (precedes_antisymm hxy hyx)
  exact List.inj_on_of_nodup_map hdistinct (hsame.mem_iff.1 hx)
    ((perm_sortOn key b).mem_iff.1 hy) hkey

end

theorem contains_iff {part text : List Char} : contains part text = true ↔ part <:+: text := by
  induction text with
  | nil => rw [contains, List.isEmpty_iff, List.infix_nil]
  | cons c rest ih =>
    rw [contains, Bool.or_eq_true, List.isPrefixOf_iff_prefix, ih, List.infix_cons_iff]

end SerialConsole.Text
