import Mathlib.Data.List.Sort
import Mathlib.Order.Bounds.Defs

/-!
# Lists with increasing keys

A history whose entries are numbered as they are made, and a list that takes some of them. If the
numbers of both increase, the list is a sublist of the history: nothing is repeated or out of order.
A search from the left of an increasing list finds the least element that fits.
-/

namespace Cypher.Lib

variable {α β : Type}

theorem increasing_append {key : α → Nat} {l : List α} {x : α}
    (h : l.Pairwise (key · < key ·))
    (hlast : ∀ a ∈ l, key a < key x) : (l ++ [x]).Pairwise (key · < key ·) := by
  refine List.pairwise_append.mpr ⟨h, List.pairwise_singleton _ _, ?_⟩
  intro a ha b hb
  rw [List.mem_singleton.mp hb]
  exact hlast a ha

theorem sublist_of_increasing (key : α → Nat) {l₁ l₂ : List α}
    (h₁ : l₁.Pairwise (key · < key ·)) (h₂ : l₂.Pairwise (key · < key ·)) (hsub : l₁ ⊆ l₂) :
    l₁.Sublist l₂ := by
  have : Std.Antisymm fun a b : α => key a < key b :=
    ⟨fun a b hab hba => absurd hba (Nat.lt_asymm hab)⟩
  have hnodup : l₁.Nodup := by
    refine h₁.imp ?_
    rintro a b hlt rfl
    exact Nat.lt_irrefl _ hlt
  exact List.sublist_of_subperm_of_pairwise (List.subperm_of_subset hnodup hsub) h₁ h₂

/-- First fit is best fit when the candidates increase. -/
theorem isLeast_of_find? [Preorder β] {l : List β} {p : β → Bool} {b : β}
    (h : l.Pairwise (· ≤ ·)) (hfind : l.find? p = some b) : IsLeast {a | a ∈ l ∧ p a} b := by
  obtain ⟨hb, front, rest, rfl, hfront⟩ := List.find?_eq_some_iff_append.mp hfind
  refine ⟨⟨by simp, hb⟩, ?_⟩
  rintro a ⟨ha, hpa⟩
  rcases List.mem_append.mp ha with ha | ha
  · -- what was passed over does not fit
    have hnot := hfront a ha
    rw [hpa] at hnot
    exact absurd hnot (by decide)
  · rcases List.mem_cons.mp ha with rfl | ha
    · exact le_rfl
    · exact (List.pairwise_cons.mp (List.pairwise_append.mp h).2.1).1 a ha

end Cypher.Lib
