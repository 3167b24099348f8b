import Mathlib.Logic.Function.Iterate
import Mathlib.Data.List.Basic

/-!
# One-way chains

A chain is driven by a step function `next` that never returns to a value it has left
(`NoReturn`). `used` collects the values from which something was derived. A value is *ahead* of
`used` if neither it nor anything after it was used; taking one step of a chain that is ahead uses
its head and leaves the rest ahead. Where every used value was reached step by step (`Closed`), a
value is ahead as soon as it is itself unused.
-/

namespace Cypher.Lib

variable {α : Type} (next : α → α)

def NoReturn : Prop :=
  ∀ (x : α) (j : Nat), next^[j + 1] x ≠ x

def Ahead (used : List α) (x : α) : Prop :=
  ∀ j, next^[j] x ∉ used

/-- With a value, the one it was stepped from was used as well. -/
def Closed (used : List α) : Prop :=
  ∀ x, next x ∈ used → x ∈ used

variable {next} {used : List α} {x : α}

theorem Ahead.not_mem (h : Ahead next used x) : x ∉ used := h 0

theorem Ahead.nil : Ahead next [] x := fun _ => List.not_mem_nil

theorem Ahead.step (hnext : NoReturn next) (h : Ahead next used x) :
    Ahead next (x :: used) (next x) := by
  intro j hmem
  rw [← Function.iterate_succ_apply] at hmem
  rcases List.mem_cons.mp hmem with heq | hmem
  · exact hnext x j heq
  · exact h (j + 1) hmem

theorem Closed.ahead (hused : Closed next used) (hx : x ∉ used) : Ahead next used x := by
  intro j
  induction j with
  | zero => exact hx
  | succ j ih =>
    rw [Function.iterate_succ_apply']
    exact fun hmem => ih (hused _ hmem)

theorem Closed.cons (hused : Closed next used) (hx : ∀ y, next y = x → y ∈ used) :
    Closed next (x :: used) := by
  intro y hmem
  rcases List.mem_cons.mp hmem with heq | hmem
  · exact List.mem_cons_of_mem _ (hx y heq)
  · exact List.mem_cons_of_mem _ (hused y hmem)

end Cypher.Lib
