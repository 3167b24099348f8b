import Mathlib.Data.List.Basic

/-!
# Lists

Facts about positions and prefixes of lists that several components use.
-/

namespace Cypher.Lib

variable {α : Type}

theorem mem_eraseIdx_iff {l : List α} {i : Nat} {a b : α} (hi : l[i]? = some a) (hne : b ≠ a) :
    b ∈ l.eraseIdx i ↔ b ∈ l := by
  refine ⟨List.mem_of_mem_eraseIdx, fun hmem => ?_⟩
  obtain ⟨j, hj⟩ := List.mem_iff_getElem?.mp hmem
  refine List.mem_eraseIdx_iff_getElem?.mpr ⟨j, ?_, hj⟩
  rintro rfl
  rw [hi] at hj
  exact hne (Option.some.inj hj).symm

theorem of_getElem?_singleton {x y : α} {i : Nat} (h : [x][i]? = some y) : i = 0 ∧ x = y := by
  rw [List.getElem?_singleton, Option.ite_none_right_eq_some] at h
  exact ⟨h.1, Option.some.inj h.2⟩

theorem take_append_take (n : Nat) (xs ys : List α) :
    (xs ++ ys.take n).take n = (xs ++ ys).take n := by
  rw [List.take_append, List.take_append, List.take_take, Nat.min_eq_left (Nat.sub_le _ _)]

theorem takeWhile_split {p q : α → Bool} (hpq : ∀ x, p x → q x) (l : List α) :
    l.takeWhile q = l.takeWhile p ++ (l.dropWhile p).takeWhile q := by
  induction l with
  | nil => rfl
  | cons x rest ih =>
    cases hp : p x with
    | true => simp only [List.takeWhile_cons, List.dropWhile_cons, hp, hpq x hp, if_true, ih,
        List.cons_append]
    | false => simp [List.takeWhile_cons, hp]

theorem lookup_map_range (g : Nat → α) (k i : Nat) :
    ((List.range k).map fun i => (i, g i)).lookup i = if i < k then some (g i) else none := by
  induction k with
  | zero => simp
  | succ k ih =>
    rw [List.range_succ, List.map_append, List.lookup_append, ih]
    by_cases hlt : i < k
    · simp [hlt, Nat.lt_succ_of_lt hlt]
    · by_cases heq : i = k
      · subst heq
        simp
      · have hge : ¬ i < k + 1 := by omega
        simp [hlt, hge, List.lookup_cons, beq_eq_false_iff_ne.mpr heq]

end Cypher.Lib
