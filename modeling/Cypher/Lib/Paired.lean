import Mathlib.Logic.Function.Basic

/-!
# A map and its reverse map

`forward` takes a name to the handle that serves it, `back` takes a handle to a name. The two are
paired if `back` answers every entry of `forward`; it may hold more. The lemmas say which updates
keep two maps paired: an entry is set in both maps at once if no other name has the handle, and a
handle that no name has may be given any answer.
-/

namespace Cypher.Lib

variable {α β : Type}

/-- Every entry of `forward` is answered by `back`. -/
def Paired (forward : α → Option β) (back : β → Option α) : Prop :=
  ∀ a b, forward a = some b → back b = some a

theorem of_update [DecidableEq α] {forward : α → Option β} {a a' : α} {x : Option β} {b : β}
    (hb : Function.update forward a x a' = some b) :
    a' = a ∧ x = some b ∨ a' ≠ a ∧ forward a' = some b := by
  rw [Function.update_apply] at hb
  split at hb
  · next ha => exact .inl ⟨ha, hb⟩
  · next ha => exact .inr ⟨ha, hb⟩

theorem of_erase [DecidableEq α] {forward : α → Option β} {a a' : α} {b : β}
    (hb : Function.update forward a none a' = some b) : a' ≠ a ∧ forward a' = some b :=
  (of_update hb).resolve_left fun h => nomatch h.2

theorem of_insert [DecidableEq α] {forward : α → Option β} {a a' : α} {b b' : β}
    (hb : Function.update forward a (some b) a' = some b') :
    a' = a ∧ b = b' ∨ forward a' = some b' :=
  (of_update hb).imp (.imp_right Option.some.inj) And.right

theorem free_of_erase [DecidableEq α] {forward : α → Option β} {a : α} {b : β}
    (honly : ∀ a', forward a' = some b → a' = a) (a' : α) :
    Function.update forward a none a' ≠ some b := by
  intro hb
  obtain ⟨hne, hold⟩ := of_erase hb
  exact hne (honly a' hold)

namespace Paired

variable {forward : α → Option β} {back : β → Option α}

theorem erase [DecidableEq α] (h : Paired forward back) (a : α) :
    Paired (Function.update forward a none) back := by
  intro a' b hb
  exact h a' b (of_erase hb).2

theorem answer [DecidableEq β] (h : Paired forward back) {b : β}
    (hfree : ∀ a, forward a ≠ some b) (x : Option α) :
    Paired forward (Function.update back b x) := by
  intro a b' hb
  have hne : b' ≠ b := by
    rintro rfl
    exact hfree a hb
  rw [Function.update_of_ne hne]
  exact h a b' hb

variable [DecidableEq α] [DecidableEq β]

theorem unlink (h : Paired forward back) {a : α} {b : β}
    (honly : ∀ a', forward a' = some b → a' = a) (x : Option α) :
    Paired (Function.update forward a none) (Function.update back b x) :=
  (h.erase a).answer (free_of_erase honly) x

theorem link (h : Paired forward back) {a : α} {b : β}
    (honly : ∀ a', forward a' = some b → a' = a) :
    Paired (Function.update forward a (some b)) (Function.update back b (some a)) := by
  intro a' b' hb
  by_cases ha : a' = a
  · rw [ha, Function.update_self] at hb
    obtain rfl := Option.some.inj hb
    rw [ha, Function.update_self]
  · -- the other entries are those left when `a` gives its handle up
    rw [Function.update_of_ne ha] at hb
    refine h.unlink honly (some a) a' b' ?_
    rw [Function.update_of_ne ha]
    exact hb

end Paired

end Cypher.Lib
