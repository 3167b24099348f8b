import Cypher.Common.RateLimit

/-!
# What a token bucket lets through

A bucket is served one call after the other; the log of a run holds the time of each call and
whether it was granted. In every window of time of every log the calls granted are at most the
capacity and what was refilled in the window (`granted_le`). The other way round, what a bucket that
was full at some moment has since lost is what it granted (`Spent`): it is kept by every call that
does not find the bucket full again, and a call is refused only if the calls granted since that
moment used up the capacity and what was refilled (`Spent.lt_of_refused`). Both bounds are up to the
rounding of `f64`, which is at most a few units of roundoff of the capacity for each call.
-/

namespace Cypher

open Lib

def secondsBetween (start stop : Nat) : ℚ :=
  ((stop : ℚ) - start) / 10 ^ 9

theorem secondsBetween_nonneg {start stop : Nat} (h : start ≤ stop) :
    0 ≤ secondsBetween start stop := by
  have : (start : ℚ) ≤ stop := by exact_mod_cast h
  exact div_nonneg (sub_nonneg.mpr this) (by positivity)

theorem secondsBetween_split (start mid stop : Nat) :
    secondsBetween start stop = secondsBetween start mid + secondsBetween mid stop := by
  rw [secondsBetween, secondsBetween, secondsBetween]
  ring

theorem secondsBetween_le {start mid : Nat} (h : start ≤ mid) (stop : Nat) :
    secondsBetween mid stop ≤ secondsBetween start stop := by
  rw [secondsBetween_split start mid stop]
  linarith [secondsBetween_nonneg h]

/-! ## Rounded durations -/

theorem roundoff_pos : 0 < roundoff := by
  norm_num [roundoff]

theorem roundoff_lt : roundoff < 1 / 100 := by
  norm_num [roundoff]

theorem seconds_eq (ns : Nat) :
    (ns : ℚ) / 10 ^ 9 = (ns / 10 ^ 9 : Nat) + ((ns % 10 ^ 9 : Nat) : ℚ) / 10 ^ 9 := by
  have h : (ns : ℚ) = (10 ^ 9 : ℚ) * (ns / 10 ^ 9 : Nat) + (ns % 10 ^ 9 : Nat) := by
    exact_mod_cast (Nat.div_add_mod ns (10 ^ 9)).symm
  rw [h]
  field_simp

theorem asSecsF64_nonneg (ns : Nat) : 0 ≤ asSecsF64 ns :=
  fl_nonneg (add_nonneg (fl_nonneg (by positivity)) (fl_nonneg (by positivity)))

theorem asSecsF64_le (ns : Nat) : asSecsF64 ns ≤ ns / 10 ^ 9 * (1 + roundoff) ^ 2 := by
  have hsecs := fl_le (q := (ns / 10 ^ 9 : Nat)) (by positivity)
  have hnanos := fl_le (q := ((ns % 10 ^ 9 : Nat) : ℚ) / 10 ^ 9) (by positivity)
  have hsum : (0 : ℚ) ≤ fl (ns / 10 ^ 9 : Nat) + fl ((ns % 10 ^ 9 : Nat) / 10 ^ 9) :=
    add_nonneg (fl_nonneg (by positivity)) (fl_nonneg (by positivity))
  have hpos : (0 : ℚ) < 1 + roundoff := by linarith [roundoff_pos]
  calc asSecsF64 ns ≤ (fl (ns / 10 ^ 9 : Nat) + fl ((ns % 10 ^ 9 : Nat) / 10 ^ 9)) *
        (1 + roundoff) := fl_le hsum
    _ ≤ (ns / 10 ^ 9 * (1 + roundoff)) * (1 + roundoff) := by
        refine mul_le_mul_of_nonneg_right ?_ hpos.le
        rw [seconds_eq ns, add_mul]
        exact add_le_add hsecs hnanos
    _ = ns / 10 ^ 9 * (1 + roundoff) ^ 2 := by ring

theorem le_asSecsF64 (ns : Nat) : ns / 10 ^ 9 * (1 - roundoff) ^ 2 ≤ asSecsF64 ns := by
  have hsecs := le_fl (q := (ns / 10 ^ 9 : Nat)) (by positivity)
  have hnanos := le_fl (q := ((ns % 10 ^ 9 : Nat) : ℚ) / 10 ^ 9) (by positivity)
  have hsum : (0 : ℚ) ≤ fl (ns / 10 ^ 9 : Nat) + fl ((ns % 10 ^ 9 : Nat) / 10 ^ 9) :=
    add_nonneg (fl_nonneg (by positivity)) (fl_nonneg (by positivity))
  have hpos : (0 : ℚ) < 1 - roundoff := by linarith [roundoff_lt]
  calc (ns : ℚ) / 10 ^ 9 * (1 - roundoff) ^ 2
      = (ns / 10 ^ 9 * (1 - roundoff)) * (1 - roundoff) := by ring
    _ ≤ (fl (ns / 10 ^ 9 : Nat) + fl ((ns % 10 ^ 9 : Nat) / 10 ^ 9)) * (1 - roundoff) := by
        refine mul_le_mul_of_nonneg_right ?_ hpos.le
        rw [seconds_eq ns, add_mul]
        exact add_le_add hsecs hnanos
    _ ≤ asSecsF64 ns := le_fl hsum

namespace TokenBucket

/-- The bucket holds at most its capacity, and its rate is not negative. -/
structure Valid (b : TokenBucket) : Prop where
  tokens_nonneg : 0 ≤ b.tokens
  tokens_le : b.tokens ≤ b.capacity.toNat
  rate_nonneg : 0 ≤ b.refillRate

/-- What flows into the bucket in a second at most, and at least, with the rounding. -/
def rateMax (b : TokenBucket) : ℚ :=
  b.refillRate * (1 + roundoff) ^ 3

def rateMin (b : TokenBucket) : ℚ :=
  b.refillRate * (1 - roundoff) ^ 3

def slack (b : TokenBucket) : ℚ :=
  roundoff * b.capacity.toNat

theorem valid_new (now : Nat) (capacity : UInt32) {rate : ℚ} (h : 0 ≤ rate) :
    (new now capacity rate).Valid :=
  ⟨by simp [new], le_refl _, h⟩

section Step

variable {b : TokenBucket} {now : Nat}

theorem Valid.rateMax_nonneg (h : b.Valid) : 0 ≤ b.rateMax :=
  mul_nonneg h.rate_nonneg (by have := roundoff_pos; positivity)

theorem slack_nonneg (b : TokenBucket) : 0 ≤ b.slack :=
  mul_nonneg roundoff_pos.le (by positivity)

/-! ## One refill -/

section Refill

theorem inflow_le (h : b.Valid) (hnow : b.lastRefill ≤ now) :
    fl (asSecsF64 (now - b.lastRefill) * b.refillRate) ≤
      b.rateMax * secondsBetween b.lastRefill now := by
  have hsecs := asSecsF64_le (now - b.lastRefill)
  rw [Nat.cast_sub hnow] at hsecs
  have hpos : (0 : ℚ) < 1 + roundoff := by linarith [roundoff_pos]
  calc fl (asSecsF64 (now - b.lastRefill) * b.refillRate)
      ≤ asSecsF64 (now - b.lastRefill) * b.refillRate * (1 + roundoff) :=
        fl_le (mul_nonneg (asSecsF64_nonneg _) h.rate_nonneg)
    _ ≤ ((now - b.lastRefill) / 10 ^ 9 * (1 + roundoff) ^ 2) * b.refillRate * (1 + roundoff) :=
        mul_le_mul_of_nonneg_right (mul_le_mul_of_nonneg_right hsecs h.rate_nonneg) hpos.le
    _ = b.rateMax * secondsBetween b.lastRefill now := by
        rw [rateMax, secondsBetween]
        ring

theorem le_inflow (h : b.Valid) (hnow : b.lastRefill ≤ now) :
    b.rateMin * secondsBetween b.lastRefill now ≤
      fl (asSecsF64 (now - b.lastRefill) * b.refillRate) := by
  have hsecs := le_asSecsF64 (now - b.lastRefill)
  rw [Nat.cast_sub hnow] at hsecs
  have hpos : (0 : ℚ) < 1 - roundoff := by linarith [roundoff_lt]
  calc b.rateMin * secondsBetween b.lastRefill now
      = ((now - b.lastRefill) / 10 ^ 9 * (1 - roundoff) ^ 2) * b.refillRate * (1 - roundoff) := by
        rw [rateMin, secondsBetween]
        ring
    _ ≤ asSecsF64 (now - b.lastRefill) * b.refillRate * (1 - roundoff) :=
        mul_le_mul_of_nonneg_right (mul_le_mul_of_nonneg_right hsecs h.rate_nonneg) hpos.le
    _ ≤ fl (asSecsF64 (now - b.lastRefill) * b.refillRate) :=
        le_fl (mul_nonneg (asSecsF64_nonneg _) h.rate_nonneg)

theorem inflow_nonneg (h : b.Valid) :
    0 ≤ fl (asSecsF64 (now - b.lastRefill) * b.refillRate) :=
  fl_nonneg (mul_nonneg (asSecsF64_nonneg _) h.rate_nonneg)

theorem Valid.refill (h : b.Valid) (now : Nat) : (b.refill now).Valid where
  tokens_nonneg := le_min (fl_nonneg (add_nonneg h.tokens_nonneg (inflow_nonneg h))) (by positivity)
  tokens_le := min_le_right _ _
  rate_nonneg := h.rate_nonneg

theorem refill_tokens_le_capacity (b : TokenBucket) (now : Nat) :
    (b.refill now).tokens ≤ b.capacity.toNat :=
  min_le_right _ _

theorem refill_tokens_le (h : b.Valid) (hnow : b.lastRefill ≤ now) :
    (b.refill now).tokens ≤
      b.tokens + b.rateMax * secondsBetween b.lastRefill now + b.slack := by
  have hin := inflow_le h hnow
  have hsum : 0 ≤ b.tokens + fl (asSecsF64 (now - b.lastRefill) * b.refillRate) :=
    add_nonneg h.tokens_nonneg (inflow_nonneg h)
  have hslack := b.slack_nonneg
  have hround := fl_le hsum
  -- above the capacity the rounding is cut off with the rest
  rcases le_total (b.tokens + fl (asSecsF64 (now - b.lastRefill) * b.refillRate))
    b.capacity.toNat with hcap | hcap
  · have hrel := mul_le_mul_of_nonneg_right hcap roundoff_pos.le
    have hmin := min_le_left (fl (b.tokens + fl (asSecsF64 (now - b.lastRefill) * b.refillRate)))
      (b.capacity.toNat : ℚ)
    rw [TokenBucket.refill, slack]
    dsimp only
    linarith
  · have hmin := min_le_right (fl (b.tokens + fl (asSecsF64 (now - b.lastRefill) * b.refillRate)))
      (b.capacity.toNat : ℚ)
    rw [TokenBucket.refill]
    dsimp only
    linarith

theorem le_refill_tokens (h : b.Valid) (hnow : b.lastRefill ≤ now) :
    (b.refill now).tokens = b.capacity.toNat ∨
      b.tokens + b.rateMin * secondsBetween b.lastRefill now - 2 * b.slack ≤
        (b.refill now).tokens := by
  rcases min_choice (fl (b.tokens + fl (asSecsF64 (now - b.lastRefill) * b.refillRate)))
    (b.capacity.toNat : ℚ) with hmin | hmin
  · right
    have hin := le_inflow h hnow
    have hsum : 0 ≤ b.tokens + fl (asSecsF64 (now - b.lastRefill) * b.refillRate) :=
      add_nonneg h.tokens_nonneg (inflow_nonneg h)
    have hround := le_fl hsum
    have hcap : fl (b.tokens + fl (asSecsF64 (now - b.lastRefill) * b.refillRate)) ≤
        b.capacity.toNat := min_eq_left_iff.mp hmin
    have hu := roundoff_pos
    have hu' := roundoff_lt
    have hdouble : b.tokens + fl (asSecsF64 (now - b.lastRefill) * b.refillRate) ≤
        2 * b.capacity.toNat := by nlinarith
    have hrel := mul_le_mul_of_nonneg_right hdouble hu.le
    rw [TokenBucket.refill, slack]
    dsimp only
    rw [hmin]
    linarith
  · exact Or.inl hmin

end Refill

/-! ## One call -/

def taken (granted : Bool) : ℚ :=
  if granted then 1 else 0

theorem tryConsume_cases (b : TokenBucket) (now : Nat) :
    (1 ≤ (b.refill now).tokens ∧
      b.tryConsume now 1 =
        (true, { b.refill now with tokens := fl ((b.refill now).tokens - 1) })) ∨
    ((b.refill now).tokens < 1 ∧ b.tryConsume now 1 = (false, b.refill now)) := by
  unfold tryConsume
  have hone : ((1 : UInt32).toNat : ℚ) = 1 := by exact_mod_cast (rfl : (1 : UInt32).toNat = 1)
  simp only [hone, ge_iff_le]
  split
  · next h => exact Or.inl ⟨h, rfl⟩
  · next h => exact Or.inr ⟨not_le.mp h, rfl⟩

theorem tryConsume_frame (b : TokenBucket) (now : Nat) :
    (b.tryConsume now 1).2.capacity = b.capacity ∧
      (b.tryConsume now 1).2.refillRate = b.refillRate ∧
      (b.tryConsume now 1).2.lastRefill = now := by
  rcases tryConsume_cases b now with ⟨-, h⟩ | ⟨-, h⟩ <;> rw [h] <;> exact ⟨rfl, rfl, rfl⟩

theorem Valid.tryConsume (h : b.Valid) (now : Nat) : (b.tryConsume now 1).2.Valid := by
  rcases tryConsume_cases b now with ⟨hone, heq⟩ | ⟨-, heq⟩
  · rw [heq]
    refine ⟨fl_nonneg (sub_nonneg.mpr hone), ?_, h.rate_nonneg⟩
    -- rounding to at most the capacity, which is a double
    have hle : (b.refill now).tokens - 1 ≤ (b.capacity.toNat : ℚ) := by
      linarith [refill_tokens_le_capacity b now]
    have hmono := fl_mono (sub_nonneg.mpr hone) hle
    rwa [fl_natCast (by have := b.capacity.toNat_lt; omega)] at hmono
  · rw [heq]
    exact h.refill now

/-- At the instant of the last call nothing flows in, and whole numbers of tokens are exact. -/
theorem tryConsume_at_once {n : Nat} (htokens : b.tokens = n) (hcap : n ≤ b.capacity.toNat) :
    b.tryConsume b.lastRefill 1 =
      if n = 0 then (false, b) else (true, { b with tokens := (n - 1 : Nat) }) := by
  have hdouble : n < 2 ^ 53 := by have := b.capacity.toNat_lt; omega
  have hzero : fl 0 = 0 := by exact_mod_cast fl_natCast (n := 0) (by norm_num)
  have hrefill : b.refill b.lastRefill = b := by
    have hmin : min ((n : Nat) : ℚ) b.capacity.toNat = n := min_eq_left (by exact_mod_cast hcap)
    obtain ⟨capacity, tokens, rate, last⟩ := b
    simp only at htokens hmin
    simp only [refill, asSecsF64, Nat.sub_self, Nat.zero_div, Nat.zero_mod, Nat.cast_zero,
      zero_div, hzero, add_zero, zero_mul, htokens, fl_natCast hdouble, hmin]
  rcases tryConsume_cases b b.lastRefill with ⟨hone, heq⟩ | ⟨hlt, heq⟩
  · rw [hrefill, htokens] at hone
    have hpos : 1 ≤ n := by exact_mod_cast hone
    have hsub : b.tokens - 1 = ((n - 1 : Nat) : ℚ) := by rw [htokens, Nat.cast_sub hpos, Nat.cast_one]
    rw [heq, hrefill, if_neg (by omega), hsub, fl_natCast (by omega)]
  · rw [hrefill, htokens] at hlt
    have hn : n = 0 := by
      have : n < 1 := by exact_mod_cast hlt
      omega
    rw [heq, hrefill, if_pos hn]

theorem rounding_le_slack (b : TokenBucket) (now : Nat) :
    ((b.refill now).tokens - 1) * roundoff ≤ b.slack := by
  have hcap : (b.refill now).tokens - 1 ≤ (b.capacity.toNat : ℚ) := by
    linarith [refill_tokens_le_capacity b now]
  rw [slack, mul_comm]
  exact mul_le_mul_of_nonneg_left hcap roundoff_pos.le

theorem taken_add_tokens_le (b : TokenBucket) (now : Nat) :
    taken (b.tryConsume now 1).1 + (b.tryConsume now 1).2.tokens ≤
      (b.refill now).tokens + b.slack := by
  have hslack := b.slack_nonneg
  rcases tryConsume_cases b now with ⟨hone, heq⟩ | ⟨-, heq⟩
  · rw [heq]
    have hround := fl_le (sub_nonneg.mpr hone)
    have hrel := rounding_le_slack b now
    rw [taken, if_pos rfl]
    dsimp only
    linarith
  · rw [heq, taken]
    simp only [Bool.false_eq_true, if_false, zero_add]
    linarith

theorem le_taken_add_tokens (b : TokenBucket) (now : Nat) :
    (b.refill now).tokens - b.slack ≤
      taken (b.tryConsume now 1).1 + (b.tryConsume now 1).2.tokens := by
  have hslack := b.slack_nonneg
  rcases tryConsume_cases b now with ⟨hone, heq⟩ | ⟨-, heq⟩
  · rw [heq]
    have hround := le_fl (sub_nonneg.mpr hone)
    have hrel := rounding_le_slack b now
    rw [taken, if_pos rfl]
    dsimp only
    linarith
  · rw [heq, taken]
    simp only [Bool.false_eq_true, if_false, zero_add]
    linarith

end Step

/-! ## Runs -/

/-- The calls of a run, each with its time and whether it was granted. -/
abbrev Log := List (Nat × Bool)

/-- The bucket after a run of calls on `b₀`, at times that do not go back. -/
inductive Served (b₀ : TokenBucket) : Log → TokenBucket → Prop
  | start : Served b₀ [] b₀
  | call {log : Log} {b : TokenBucket} (run : Served b₀ log b) {now : Nat}
      (hnow : b.lastRefill ≤ now) :
      Served b₀ (log ++ [(now, (b.tryConsume now 1).1)]) (b.tryConsume now 1).2

/-- The calls received from `start` to `stop`, both included. -/
def receivedIn (log : Log) (start stop : Nat) : Nat :=
  log.countP fun e => decide (start ≤ e.1) && decide (e.1 ≤ stop)

def grantedIn (log : Log) (start stop : Nat) : Nat :=
  log.countP fun e => decide (start ≤ e.1) && decide (e.1 ≤ stop) && e.2

section Windows

variable {log : Log} {start stop now : Nat} {granted : Bool}

theorem grantedIn_append :
    (grantedIn (log ++ [(now, granted)]) start stop : ℚ) =
      grantedIn log start stop + if start ≤ now ∧ now ≤ stop then taken granted else 0 := by
  simp only [grantedIn, List.countP_append, List.countP_singleton, taken]
  by_cases hstart : start ≤ now <;> by_cases hstop : now ≤ stop <;> cases granted <;>
    simp [hstart, hstop]

theorem receivedIn_append :
    (receivedIn (log ++ [(now, granted)]) start stop : ℚ) =
      receivedIn log start stop + if start ≤ now ∧ now ≤ stop then 1 else 0 := by
  simp only [receivedIn, List.countP_append, List.countP_singleton]
  by_cases hstart : start ≤ now <;> by_cases hstop : now ≤ stop <;> simp [hstart, hstop]

theorem grantedIn_eq_zero (h : ∀ e ∈ log, e.1 < start) : grantedIn log start stop = 0 := by
  rw [grantedIn, List.countP_eq_zero]
  intro e he
  have := h e he
  simp
  omega

end Windows

section Run

variable {b₀ b : TokenBucket} {log : Log}

structure Kept (b₀ b : TokenBucket) (log : Log) : Prop where
  valid : b.Valid
  capacity : b.capacity = b₀.capacity
  rate : b.refillRate = b₀.refillRate
  times : ∀ e ∈ log, e.1 ≤ b.lastRefill

theorem Served.kept (h₀ : b₀.Valid) (run : Served b₀ log b) : Kept b₀ b log := by
  induction run with
  | start => exact ⟨h₀, rfl, rfl, fun e he => nomatch he⟩
  | call run hnow ih =>
    rename_i log b now
    obtain ⟨hcap, hrate, hlast⟩ := tryConsume_frame b now
    refine ⟨ih.valid.tryConsume now, hcap.trans ih.capacity, hrate.trans ih.rate, ?_⟩
    intro e he
    rw [hlast]
    rcases List.mem_append.mp he with he | he
    · exact (ih.times e he).trans hnow
    · rw [List.mem_singleton] at he
      rw [he]

theorem Kept.rateMax_eq (h : Kept b₀ b log) : b.rateMax = b₀.rateMax := by
  rw [rateMax, rateMax, h.rate]

theorem Kept.slack_eq (h : Kept b₀ b log) : b.slack = b₀.slack := by
  rw [slack, slack, h.capacity]

/-- What was granted in a window that is still open, what the bucket holds, and what may flow in
until the window ends. The induction is on the run; a call before the window finds at most a full
bucket, a call in it turns inflow into grants. -/
theorem Served.granted_add_tokens_le (h₀ : b₀.Valid) (run : Served b₀ log b) (start : Nat)
    {stop : Nat} (hopen : b.lastRefill ≤ stop) :
    grantedIn log start stop + b.tokens + b₀.rateMax * secondsBetween (max b.lastRefill start) stop ≤
      b₀.capacity.toNat + b₀.rateMax * secondsBetween start stop +
        2 * b₀.slack * receivedIn log start stop := by
  induction run with
  | start =>
    have hrate := mul_le_mul_of_nonneg_left
      (secondsBetween_le (le_max_right b₀.lastRefill start) stop) h₀.rateMax_nonneg
    have hcap := h₀.tokens_le
    simp only [grantedIn, receivedIn, List.countP_nil, Nat.cast_zero, zero_add, mul_zero, add_zero]
    linarith
  | call run hnow ih =>
    rename_i log b now
    have hkept := run.kept h₀
    obtain ⟨-, -, hlast⟩ := tryConsume_frame b now
    rw [hlast] at hopen ⊢
    have hstep := taken_add_tokens_le b now
    rw [hkept.slack_eq] at hstep
    have hreceived : (0 : ℚ) ≤ receivedIn log start stop := Nat.cast_nonneg _
    have hslack := b₀.slack_nonneg
    rw [grantedIn_append, receivedIn_append]
    by_cases hbefore : now < start
    · have hzero : grantedIn log start stop = 0 :=
        grantedIn_eq_zero fun e he => lt_of_le_of_lt ((hkept.times e he).trans hnow) hbefore
      have htokens : (b.tryConsume now 1).2.tokens ≤ b₀.capacity.toNat := by
        have := (hkept.valid.tryConsume now).tokens_le
        rwa [(tryConsume_frame b now).1, hkept.capacity] at this
      rw [hzero, max_eq_right hbefore.le, if_neg (by omega), if_neg (by omega)]
      have hk := mul_nonneg (mul_nonneg zero_le_two hslack) hreceived
      push_cast
      linarith
    · rw [not_lt] at hbefore
      rw [max_eq_left hbefore, if_pos ⟨hbefore, hopen⟩, if_pos ⟨hbefore, hopen⟩]
      by_cases hlate : b.lastRefill < start
      · -- the first call of the window
        have hzero : grantedIn log start stop = 0 :=
          grantedIn_eq_zero fun e he => lt_of_le_of_lt (hkept.times e he) hlate
        have hfull := refill_tokens_le_capacity b now
        rw [hkept.capacity] at hfull
        have hrate := mul_le_mul_of_nonneg_left (secondsBetween_le hbefore stop) h₀.rateMax_nonneg
        have hk := mul_nonneg (mul_nonneg zero_le_two hslack) hreceived
        rw [hzero]
        push_cast
        linarith
      · rw [not_lt] at hlate
        have ih := ih (hnow.trans hopen)
        rw [max_eq_left hlate] at ih
        have hin := refill_tokens_le hkept.valid hnow
        rw [hkept.rateMax_eq, hkept.slack_eq] at hin
        rw [secondsBetween_split b.lastRefill now stop, mul_add] at ih
        linarith

theorem Served.granted_le (h₀ : b₀.Valid) (run : Served b₀ log b) {start stop : Nat}
    (hwindow : start ≤ stop) :
    (grantedIn log start stop : ℚ) ≤ b₀.capacity.toNat + b₀.rateMax * secondsBetween start stop +
      2 * b₀.slack * receivedIn log start stop := by
  induction run with
  | start =>
    have hrate := mul_nonneg h₀.rateMax_nonneg (secondsBetween_nonneg hwindow)
    simp only [grantedIn, receivedIn, List.countP_nil, Nat.cast_zero, mul_zero, add_zero]
    positivity
  | call run hnow ih =>
    rename_i log b now
    by_cases hopen : now ≤ stop
    · have hrun := Served.call run hnow
      have hlast : (b.tryConsume now 1).2.lastRefill ≤ stop := by
        rw [(tryConsume_frame b now).2.2]
        exact hopen
      have hbound := hrun.granted_add_tokens_le h₀ start hlast
      have htokens := (hrun.kept h₀).valid.tokens_nonneg
      rw [(tryConsume_frame b now).2.2] at hbound
      have hrest := mul_nonneg h₀.rateMax_nonneg (secondsBetween_nonneg (max_le hopen hwindow))
      linarith
    · rw [grantedIn_append, receivedIn_append, if_neg (fun h => hopen h.2),
        if_neg (fun h => hopen h.2), add_zero, add_zero]
      exact ih

end Run

/-! ## Since the bucket was full -/

def Full (b : TokenBucket) (now : Nat) : Prop :=
  (b.refill now).tokens = b.capacity.toNat

def grants (log : Log) : Nat :=
  log.countP fun e => e.2

/-- What the bucket has left of the capacity and of what flowed in since `first`, when the calls of
`window` have been served. -/
def Spent (b : TokenBucket) (first : Nat) (window : Log) : Prop :=
  first ≤ b.lastRefill ∧
    b.capacity.toNat + b.rateMin * secondsBetween first b.lastRefill - 3 * b.slack * window.length ≤
      b.tokens + grants window

section Full

variable {b : TokenBucket} {first now : Nat} {window : Log}

theorem grants_append (window : Log) (now : Nat) (granted : Bool) :
    (grants (window ++ [(now, granted)]) : ℚ) = grants window + taken granted := by
  simp only [grants, List.countP_append, List.countP_singleton, taken]
  cases granted <;> simp

theorem full_new (now : Nat) (capacity : UInt32) (rate : ℚ) : (new now capacity rate).Full now := by
  have hcap : capacity.toNat < 2 ^ 53 := by have := capacity.toNat_lt; omega
  have hzero : fl 0 = 0 := by exact_mod_cast fl_natCast (n := 0) (by norm_num)
  simp only [Full, new, refill, asSecsF64, Nat.sub_self, Nat.zero_div, Nat.zero_mod, Nat.cast_zero,
    zero_div, hzero, add_zero, zero_mul, fl_natCast hcap, min_self]

theorem spent_new (now : Nat) (capacity : UInt32) (rate : ℚ) :
    (new now capacity rate).Spent now [] := by
  refine ⟨le_refl _, ?_⟩
  simp [new, secondsBetween, grants]

theorem spent_of_full (hfull : b.Full now) :
    (b.tryConsume now 1).2.Spent now [(now, (b.tryConsume now 1).1)] := by
  obtain ⟨hcap, hrate, hlast⟩ := tryConsume_frame b now
  have hstep := le_taken_add_tokens b now
  have hslack := b.slack_nonneg
  have hgrants : (grants [(now, (b.tryConsume now 1).1)] : ℚ) = taken (b.tryConsume now 1).1 := by
    simpa [grants] using grants_append [] now (b.tryConsume now 1).1
  rw [Full] at hfull
  refine ⟨hlast.ge, ?_⟩
  rw [rateMin, slack, hcap, hrate, hlast, hgrants]
  simp only [secondsBetween, sub_self, zero_div, mul_zero, List.length_singleton, Nat.cast_one]
  rw [slack] at hstep hslack
  linarith

theorem Spent.call (h : b.Spent first window) (hvalid : b.Valid) (hnow : b.lastRefill ≤ now) :
    b.Full now ∨
      (b.tryConsume now 1).2.Spent first (window ++ [(now, (b.tryConsume now 1).1)]) := by
  obtain ⟨hfirst, hbound⟩ := h
  obtain ⟨hcap, hrate, hlast⟩ := tryConsume_frame b now
  refine (le_refill_tokens hvalid hnow).imp id fun hold => ⟨by rw [hlast]; omega, ?_⟩
  have hstep := le_taken_add_tokens b now
  have hsplit := secondsBetween_split first b.lastRefill now
  rw [rateMin, slack, hcap, hrate, hlast, grants_append, List.length_append, List.length_singleton,
    Nat.cast_add, Nat.cast_one, hsplit]
  rw [rateMin, slack] at hbound hold
  rw [slack] at hstep
  linarith

theorem Spent.lt_of_refused (h : b.Spent first window) (hvalid : b.Valid)
    (hnow : b.lastRefill ≤ now) (hcap : 1 ≤ b.capacity.toNat)
    (hrefused : (b.tryConsume now 1).1 = false) :
    b.capacity.toNat + b.rateMin * secondsBetween first now -
      3 * b.slack * (window.length + 1) < grants window + 1 := by
  obtain ⟨-, hbound⟩ := h
  have hslack := b.slack_nonneg
  have hempty : (b.refill now).tokens < 1 := by
    rcases tryConsume_cases b now with ⟨-, heq⟩ | ⟨hlt, -⟩
    · rw [heq] at hrefused
      cases hrefused
    · exact hlt
  rcases le_refill_tokens hvalid hnow with hfull | hold
  · have : (1 : ℚ) ≤ b.capacity.toNat := by exact_mod_cast hcap
    linarith
  · rw [secondsBetween_split first b.lastRefill now]
    linarith

end Full

end TokenBucket

end Cypher
