import Mathlib.Init

/-!
# Computations with a counter

`Counted α` is a value together with the number of counted calls made on the way to it. A function is
instrumented by writing it in this monad with `tick` at the calls to be counted: `value` gives the
function back, `steps` its cost.
-/

namespace Cypher.Lib

structure Counted (α : Type) where
  value : α
  steps : Nat

namespace Counted

variable {α β : Type}

def tick (a : α) : Counted α := ⟨a, 1⟩

instance : Monad Counted where
  pure a := ⟨a, 0⟩
  bind x f := ⟨(f x.value).value, x.steps + (f x.value).steps⟩

@[simp] theorem value_pure (a : α) : (pure a : Counted α).value = a := rfl

@[simp] theorem steps_pure (a : α) : (pure a : Counted α).steps = 0 := rfl

@[simp] theorem steps_tick (a : α) : (tick a).steps = 1 := rfl

@[simp] theorem value_bind (x : Counted α) (f : α → Counted β) :
    (x >>= f).value = (f x.value).value := rfl

@[simp] theorem steps_bind (x : Counted α) (f : α → Counted β) :
    (x >>= f).steps = x.steps + (f x.value).steps := rfl

end Counted

end Cypher.Lib
