import Mathlib.Data.List.Basic

/-!
# Channels of bounded capacity

A `Channel α cap` holds at most `cap` items in the order in which they were sent. `send` gives `none`
when there is no room, which is where a sender waits; `recv` gives `none` when there is nothing to take.
-/

namespace Cypher.Lib

structure Channel (α : Type) (cap : Nat) where
  items : List α
  bounded : items.length ≤ cap

namespace Channel

variable {α : Type} {cap : Nat} {ch ch' : Channel α cap} {a : α}

def empty : Channel α cap :=
  ⟨[], Nat.zero_le cap⟩

def send (ch : Channel α cap) (a : α) : Option (Channel α cap) :=
  if h : ch.items.length < cap then
    some ⟨ch.items ++ [a], by rw [List.length_append, List.length_singleton]; exact h⟩
  else none

def recv : Channel α cap → Option (α × Channel α cap)
  | ⟨[], _⟩ => none
  | ⟨a :: rest, h⟩ => some (a, ⟨rest, Nat.le_of_succ_le h⟩)

def Full (ch : Channel α cap) : Prop :=
  ch.items.length = cap

instance : Decidable ch.Full :=
  inferInstanceAs (Decidable (ch.items.length = cap))

theorem items_of_send (h : ch.send a = some ch') : ch'.items = ch.items ++ [a] := by
  unfold send at h
  split at h
  · obtain rfl := Option.some.inj h
    rfl
  · cases h

theorem items_of_recv (h : ch.recv = some (a, ch')) : ch.items = a :: ch'.items := by
  obtain ⟨items, bounded⟩ := ch
  cases items with
  | nil => cases h
  | cons b rest =>
    obtain ⟨rfl, rfl⟩ := Prod.mk.inj (Option.some.inj h)
    rfl

theorem send_of_full (h : ch.Full) (a : α) : ch.send a = none :=
  dif_neg (Nat.not_lt.mpr (Nat.le_of_eq h.symm))

theorem exists_send_of_not_full (h : ¬ ch.Full) (a : α) : ∃ ch', ch.send a = some ch' :=
  ⟨_, dif_pos (Nat.lt_of_le_of_ne ch.bounded h)⟩

end Channel

end Cypher.Lib
