import Mathlib.Data.List.Basic

/-!
# Guarded runs of a step function

A system is a step function `step : σ → α → Option σ`: `none` is an action that is not enabled.
`Run step ok s t` says that some sequence of enabled actions leads from `s` to `t`, each of them
meeting the guard `ok` in the state in which it is taken. The guard carries what is assumed of an
environment (an order of deliveries, the freshness of sampled values), so that one step function
serves every statement about the system.
-/

namespace Cypher.Lib

variable {σ τ α β : Type}

/-- `t` is reached from `s` by actions that all meet `ok`. -/
inductive Run (step : σ → α → Option σ) (ok : σ → α → Prop) (s : σ) : σ → Prop
  | refl : Run step ok s s
  | tail {t u : σ} {a : α} (run : Run step ok s t) (guard : ok t a) (taken : step t a = some u) :
      Run step ok s u

namespace Run

variable {step : σ → α → Option σ} {ok : σ → α → Prop} {s t u : σ}

/-- What holds at the start and is kept by every guarded step holds in every state reached. -/
theorem invariant {I : σ → Prop} (run : Run step ok s t) (start : I s)
    (keep : ∀ {v w a}, I v → ok v a → step v a = some w → I w) : I t := by
  induction run with
  | refl => exact start
  | tail _ guard taken ih => exact keep ih guard taken

theorem trans (first : Run step ok s t) (second : Run step ok t u) : Run step ok s u := by
  induction second with
  | refl => exact first
  | tail _ guard taken ih => exact ih.tail guard taken

theorem mono {ok' : σ → α → Prop} (weaker : ∀ s a, ok s a → ok' s a) (run : Run step ok s t) :
    Run step ok' s t := by
  induction run with
  | refl => exact .refl
  | tail _ guard taken ih => exact ih.tail (weaker _ _ guard) taken

/-- **Forward simulation.** If every guarded step of the concrete system is matched by one guarded
step of the abstract system between related states, every concrete run is matched by a run. -/
theorem simulate (step' : τ → β → Option τ) (ok' : τ → β → Prop) {R : σ → τ → Prop} {s' : τ}
    (start : R s s')
    (keep : ∀ {v w a v'}, R v v' → ok v a → step v a = some w →
      ∃ b w', ok' v' b ∧ step' v' b = some w' ∧ R w w')
    (run : Run step ok s t) : ∃ t', Run step' ok' s' t' ∧ R t t' := by
  induction run with
  | refl => exact ⟨s', .refl, start⟩
  | tail _ guard taken ih =>
    obtain ⟨v', run', related⟩ := ih
    obtain ⟨b, w', guard', taken', related'⟩ := keep related guard taken
    exact ⟨w', run'.tail guard' taken', related'⟩

end Run

/-- Take the actions of a list in order; `none` as soon as one is refused or misses its guard. -/
def exec (step : σ → α → Option σ) (ok : σ → α → Prop) [∀ s a, Decidable (ok s a)] :
    σ → List α → Option σ
  | s, [] => some s
  | s, a :: rest => if ok s a then (step s a).bind (exec step ok · rest) else none

theorem Run.of_exec {step : σ → α → Option σ} {ok : σ → α → Prop} [∀ s a, Decidable (ok s a)]
    {actions : List α} {s t : σ} (executed : exec step ok s actions = some t) :
    Run step ok s t := by
  induction actions generalizing s with
  | nil =>
    simp only [exec, Option.some.injEq] at executed
    subst executed
    exact .refl
  | cons a rest ih =>
    simp only [exec] at executed
    split at executed
    · next guard =>
      obtain ⟨u, taken, executed⟩ := Option.bind_eq_some_iff.mp executed
      exact Run.trans (.tail .refl guard taken) (ih executed)
    · cases executed

theorem exec_append {step : σ → α → Option σ} {ok : σ → α → Prop} [∀ s a, Decidable (ok s a)]
    (first second : List α) (s : σ) :
    exec step ok s (first ++ second) = (exec step ok s first).bind (exec step ok · second) := by
  induction first generalizing s with
  | nil => rfl
  | cons a rest ih =>
    simp only [List.cons_append, exec]
    split
    · rw [Option.bind_assoc]
      congr 1
      funext t
      exact ih t
    · rfl

theorem exec_mono {step : σ → α → Option σ} {ok ok' : σ → α → Prop}
    [∀ s a, Decidable (ok s a)] [∀ s a, Decidable (ok' s a)] (weaker : ∀ s a, ok s a → ok' s a)
    {actions : List α} {s t : σ} (executed : exec step ok s actions = some t) :
    exec step ok' s actions = some t := by
  induction actions generalizing s with
  | nil => exact executed
  | cons a rest ih =>
    simp only [exec] at executed ⊢
    split at executed
    · next guard =>
      obtain ⟨u, taken, executed⟩ := Option.bind_eq_some_iff.mp executed
      rw [if_pos (weaker s a guard), taken]
      exact ih executed
    · cases executed

/-- **An exact guard.** Let every step that meets the guard keep `Good`, and every step that misses it
end `Good` for ever. Then the runs that are still `Good` are those whose steps all meet the guard.
`I` is what every step keeps. -/
theorem good_iff_exec {step : σ → α → Option σ} {ok : σ → α → Prop} [∀ s a, Decidable (ok s a)]
    {I Good : σ → Prop} (keep : ∀ {v w a}, I v → step v a = some w → I w)
    (good : ∀ {v w a}, I v → Good v → ok v a → step v a = some w → Good w)
    (bad : ∀ {v w a}, I v → ¬ ok v a → step v a = some w → ¬ Good w)
    (stay : ∀ {v w a}, I v → ¬ Good v → step v a = some w → ¬ Good w)
    {actions : List α} {s t : σ} (start : I s) (startGood : Good s)
    (executed : exec step (fun _ _ => True) s actions = some t) :
    Good t ↔ exec step ok s actions = some t := by
  -- once not `Good`, the run stays so to its end
  have never : ∀ {actions : List α} {v : σ}, I v → ¬ Good v →
      exec step (fun _ _ => True) v actions = some t → ¬ Good t := by
    intro actions
    induction actions with
    | nil =>
      intro v _ hv executed
      obtain rfl := Option.some.inj executed
      exact hv
    | cons a rest ih =>
      intro v hI hv executed
      simp only [exec, if_true] at executed
      obtain ⟨w, taken, executed⟩ := Option.bind_eq_some_iff.mp executed
      exact ih (keep hI taken) (stay hI hv taken) executed
  induction actions generalizing s with
  | nil =>
    obtain rfl := Option.some.inj executed
    exact iff_of_true startGood rfl
  | cons a rest ih =>
    simp only [exec, if_true] at executed ⊢
    obtain ⟨w, taken, executed⟩ := Option.bind_eq_some_iff.mp executed
    by_cases guard : ok s a
    · rw [if_pos guard, taken]
      exact ih (keep start taken) (good start startGood guard taken) executed
    · rw [if_neg guard]
      exact iff_of_false (never (keep start taken) (bad start guard taken) executed) (by simp)

end Cypher.Lib
