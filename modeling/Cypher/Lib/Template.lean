import Mathlib.Data.List.Basic
import Mathlib.Tactic

/-!
# Byte strings with free positions

A template is a list of which some positions are fixed (`some x`) and the others free (`none`). A
list fits a template from an offset on if it has the fixed values there; it may end early where only
free positions are left, and what follows the template does not matter.
-/

namespace Cypher.Lib

variable {α : Type*}

/-- `l` has the values that `t` fixes, from position `offset` on. -/
def Fits (t : List (Option α)) (offset : Nat) (l : List α) : Prop :=
  ∀ i x, t[i]? = some (some x) → l[offset + i]? = some x

namespace Fits

variable {t u : List (Option α)} {offset : Nat} {l : List α}

@[simp] theorem nil : Fits ([] : List (Option α)) offset l := by
  intro i x h
  simp at h

@[simp] theorem replicate_none (n : Nat) : Fits (List.replicate n (none : Option α)) offset l := by
  intro i x h
  simp [List.getElem?_replicate] at h

theorem append_iff :
    Fits (t ++ u) offset l ↔ Fits t offset l ∧ Fits u (offset + t.length) l := by
  constructor
  · intro h
    constructor
    · intro i x hi
      obtain ⟨hlt, -⟩ := List.getElem?_eq_some_iff.mp hi
      apply h i x
      rw [List.getElem?_append_left hlt, hi]
    · intro i x hi
      have hpos := h (t.length + i) x (by
        rw [List.getElem?_append_right (by omega), Nat.add_sub_cancel_left, hi])
      rwa [← Nat.add_assoc] at hpos
  · rintro ⟨ht, hu⟩ i x hi
    by_cases hlt : i < t.length
    · rw [List.getElem?_append_left hlt] at hi
      exact ht i x hi
    · rw [List.getElem?_append_right (by omega)] at hi
      have hpos := hu (i - t.length) x hi
      rwa [Nat.add_assoc, Nat.add_sub_cancel' (by omega)] at hpos

theorem map_some_iff {v : List α} :
    Fits (v.map some) offset l ↔ (l.drop offset).take v.length = v := by
  constructor
  · intro h
    apply List.ext_getElem?
    intro i
    by_cases hi : i < v.length
    · have hfix : l[offset + i]? = some v[i] := h i v[i] (by simp [hi])
      rw [List.getElem?_take_of_lt hi, List.getElem?_drop, hfix, List.getElem?_eq_getElem hi]
    · rw [List.getElem?_eq_none (Nat.not_lt.mp hi), List.getElem?_eq_none]
      rw [List.length_take]
      omega
  · intro h i x hi
    rw [List.getElem?_map, Option.map_eq_some_iff] at hi
    obtain ⟨y, hy, hx⟩ := hi
    cases hx
    obtain ⟨hlt, -⟩ := List.getElem?_eq_some_iff.mp hy
    rw [← h, List.getElem?_take_of_lt hlt, List.getElem?_drop] at hy
    exact hy

theorem length_le {v : List α} (h : Fits (v.map some) offset l) (hv : v ≠ []) :
    offset + v.length ≤ l.length := by
  have hlen := congrArg List.length (map_some_iff.mp h)
  rw [List.length_take, List.length_drop] at hlen
  have := List.length_pos_iff.mpr hv
  omega

/-- Fitting depends on the fixed positions alone. -/
theorem of_agree {l' : List α} (h : Fits t offset l)
    (hagree : ∀ i x, t[i]? = some (some x) → l'[offset + i]? = l[offset + i]?) :
    Fits t offset l' := by
  intro i x hi
  rw [hagree i x hi, h i x hi]

theorem fill (d : α) : Fits t 0 (t.map (·.getD d)) := by
  intro i x hi
  rw [Nat.zero_add, List.getElem?_map, hi]
  rfl

end Fits

end Cypher.Lib
