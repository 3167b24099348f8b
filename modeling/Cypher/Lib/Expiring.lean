import Mathlib.Logic.Function.Basic

/-!
# Keys that expire

A map from keys to values with a deadline, as a store with `SETEX`, `GET` and `DEL` keeps it. A value
is there up to its deadline. `seen t` is the map a reader sees at time `t`; the lemmas say what a write
does to it at every later time.
-/

namespace Cypher.Lib

structure Entry (β : Type) where
  value : β
  deadline : Nat

abbrev Expiring (α β : Type) : Type :=
  α → Option (Entry β)

namespace Expiring

variable {α β : Type}

def empty : Expiring α β :=
  fun _ => none

def live (t : Nat) : Option (Entry β) → Option β
  | none => none
  | some e => if t ≤ e.deadline then some e.value else none

def seen (m : Expiring α β) (t : Nat) : α → Option β :=
  live t ∘ m

theorem seen_of_le {m : Expiring α β} {t t' : Nat} (hle : t ≤ t') {a : α} {b : β}
    (h : m.seen t' a = some b) : m.seen t a = some b := by
  simp only [seen, Function.comp_apply] at h ⊢
  cases hm : m a with
  | none =>
    rw [hm] at h
    cases h
  | some e =>
    rw [hm] at h
    by_cases hdeadline : t' ≤ e.deadline
    · rw [live, if_pos hdeadline] at h
      rw [live, if_pos (Nat.le_trans hle hdeadline)]
      exact h
    · rw [live, if_neg hdeadline] at h
      cases h

variable [DecidableEq α]

def set (m : Expiring α β) (a : α) (b : β) (deadline : Nat) : Expiring α β :=
  Function.update m a (some ⟨b, deadline⟩)

def del (m : Expiring α β) (a : α) : Expiring α β :=
  Function.update m a none

theorem seen_set (m : Expiring α β) (a : α) (b : β) (deadline t : Nat) :
    (m.set a b deadline).seen t =
      Function.update (m.seen t) a (if t ≤ deadline then some b else none) :=
  Function.comp_update _ _ _ _

theorem seen_del (m : Expiring α β) (a : α) (t : Nat) :
    (m.del a).seen t = Function.update (m.seen t) a none :=
  Function.comp_update _ _ _ _

end Expiring

end Cypher.Lib
