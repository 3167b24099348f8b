import Mathlib.Data.List.Nodup
import Mathlib.Order.Lattice

/-!
# Paging through a list by key

A page holds the elements whose key lies below a bound, the largest first, up to a limit; the key of
its last element is the bound of the next page. One page and the elements below its last key are what
was there before it (`reverse_below`), so nothing is listed twice or left out, and elements with keys
above the bound may be added at any time (`below_append`).
-/

namespace Cypher.Lib

variable {α κ : Type} [LinearOrder κ] (key : α → κ)

def below (before : κ) (xs : List α) : List α := xs.filter fun x => decide (key x < before)

def page (limit : Nat) (before : κ) (xs : List α) : List α := (below key before xs).reverse.take limit

variable {key} {before : κ} {xs : List α} {limit : Nat}

theorem below_append {later : List α} (h : ∀ x ∈ later, before ≤ key x) :
    below key before (xs ++ later) = below key before xs := by
  have hnone : below key before later = [] := by
    refine List.filter_eq_nil_iff.mpr fun x hx => ?_
    rw [decide_eq_true_iff, not_lt]
    exact h x hx
  rw [below, List.filter_append, ← below, ← below, hnone, List.append_nil]

theorem below_eq_self (h : ∀ x ∈ xs, key x < before) : below key before xs = xs :=
  List.filter_eq_self.mpr fun x hx => decide_eq_true (h x hx)

theorem below_below {before' : κ} (h : before' ≤ before) :
    below key before' (below key before xs) = below key before' xs := by
  rw [below, below, below, List.filter_filter]
  refine List.filter_congr fun x _ => ?_
  rw [Bool.and_eq_left_iff_imp, decide_eq_true_iff, decide_eq_true_iff]
  exact fun hlt => hlt.trans_le h

theorem page_eq_nil_iff (hlimit : 0 < limit) :
    page key limit before xs = [] ↔ below key before xs = [] := by
  rw [page, List.take_eq_nil_iff, List.reverse_eq_nil_iff]
  exact or_iff_right (Nat.pos_iff_ne_zero.mp hlimit)

theorem lt_of_mem_page {x : α} (h : x ∈ page key limit before xs) : key x < before :=
  of_decide_eq_true (List.mem_filter.mp (List.mem_reverse.mp (List.mem_of_mem_take h))).2

theorem mem_of_mem_page {x : α} (h : x ∈ page key limit before xs) : x ∈ xs :=
  (List.mem_filter.mp (List.mem_reverse.mp (List.mem_of_mem_take h))).1

theorem reverse_below (hxs : xs.Pairwise fun x y => key x < key y) {last : α}
    (hlast : (page key limit before xs).getLast? = some last) :
    (below key before xs).reverse =
      page key limit before xs ++ (below key (key last) xs).reverse := by
  have hdesc : (below key before xs).reverse.Pairwise fun x y => key y < key x :=
    List.pairwise_reverse.mpr (hxs.filter _)
  -- keys fall along the reversed list, so the last key of the page cuts it there
  have hsplit : page key limit before xs ++ (below key before xs).reverse.drop limit =
      (below key before xs).reverse := List.take_append_drop limit _
  rw [← hsplit, List.pairwise_append] at hdesc
  obtain ⟨hpage, -, hcross⟩ := hdesc
  obtain ⟨front, hfront⟩ := List.getLast?_eq_some_iff.mp hlast
  have habove : ∀ x ∈ page key limit before xs, ¬ key x < key last := by
    intro x hx
    rw [hfront] at hx hpage
    rcases List.mem_append.mp hx with hx | hx
    · exact ((List.pairwise_append.mp hpage).2.2 x hx last List.mem_cons_self).not_gt
    · rw [List.mem_singleton.mp hx]
      exact lt_irrefl _
  have hmem : last ∈ page key limit before xs := List.mem_of_getLast? hlast
  have hrest : (below key before xs).reverse.filter (fun x => decide (key x < key last)) =
      (below key before xs).reverse.drop limit := by
    calc (below key before xs).reverse.filter (fun x => decide (key x < key last))
        = (page key limit before xs ++ (below key before xs).reverse.drop limit).filter
            (fun x => decide (key x < key last)) := by rw [hsplit]
      _ = (below key before xs).reverse.drop limit := by
        rw [List.filter_append, List.filter_eq_nil_iff.mpr, List.nil_append,
          List.filter_eq_self.mpr]
        · exact fun x hx => decide_eq_true (hcross last hmem x hx)
        · exact fun x hx hlt => habove x hx (of_decide_eq_true hlt)
  have hbelow : (below key (key last) xs).reverse =
      (below key before xs).reverse.filter fun x => decide (key x < key last) := by
    rw [List.filter_reverse, ← below_below (lt_of_mem_page hmem).le]
    rfl
  rw [hbelow, hrest, hsplit]

theorem mergeSort_eq_reverse (hxs : xs.Pairwise fun x y => key x < key y) :
    (xs.mergeSort fun x y => decide (key y ≤ key x)) = xs.reverse := by
  have htrans : ∀ x y z : α, decide (key y ≤ key x) = true → decide (key z ≤ key y) = true →
      decide (key z ≤ key x) = true := fun x y z hxy hyz =>
    decide_eq_true ((of_decide_eq_true hyz).trans (of_decide_eq_true hxy))
  have htotal : ∀ x y : α, (decide (key y ≤ key x) || decide (key x ≤ key y)) = true := by
    intro x y
    rw [Bool.or_eq_true, decide_eq_true_iff, decide_eq_true_iff]
    exact le_total _ _
  have hinj : ∀ x ∈ xs, ∀ y ∈ xs, key x = key y → x = y :=
    List.inj_on_of_nodup_map (List.pairwise_map.mpr (hxs.imp fun hlt => hlt.ne))
  refine List.Perm.eq_of_pairwise ?_ (List.pairwise_mergeSort htrans htotal xs) ?_ ?_
  · intro x y hx hy hyx hxy
    exact hinj x (List.mem_mergeSort.mp hx) y (List.mem_reverse.mp hy)
      ((of_decide_eq_true hxy).antisymm (of_decide_eq_true hyx))
  · exact List.pairwise_reverse.mpr (hxs.imp fun hlt => decide_eq_true hlt.le)
  · exact (List.mergeSort_perm xs _).trans (List.reverse_perm xs).symm

end Cypher.Lib
