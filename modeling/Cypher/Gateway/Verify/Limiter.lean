import Cypher.Common.Verify.RateLimit
import Cypher.Gateway.Limiter

/-!
# How many data frames of a session are routed

The log of a session is a run of its token bucket, whatever the other tasks do in between, so the
bounds of the bucket hold of it: in every window of time a session gets at most the burst and the
refill of that window through. A frame is dropped only if the session has used them up since a state
of the run in which the bucket was full (`Windowed`). The gateway with its limiters is the gateway
whose limiter is left open, with the decisions filled in (`limited_run_is_gateway_run`).
-/

namespace Cypher

open Lib TokenBucket Transport

namespace LimitedServer

variable {action? : Bytes → Option String}

theorem step_eq_some {l l' : LimitedServer} {a : LimitedAction} (h : l.step action? a = some l') :
    ∃ server, l.server.step action? (l.gatewayAction a) = some server ∧
      l' = { l.limit a with server } := by
  unfold step at h
  cases hstep : l.server.step action? (l.gatewayAction a) with
  | none => simp [hstep] at h
  | some server =>
    simp only [hstep, Option.some.injEq] at h
    exact ⟨server, rfl, h.symm⟩

/-- Every run of the limited gateway is one of the gateway, so what holds for every decision of the
limiter holds for the bucket's. -/
theorem limited_run_is_gateway_run {l : LimitedServer}
    (run : Run (step action?) (fun _ _ => True) start l) :
    Run (GatewayServer.step action?) (fun _ _ => True) GatewayServer.start l.server := by
  induction run with
  | refl => exact .refl
  | tail _ _ hstep ih =>
    obtain ⟨server, hserver, rfl⟩ := step_eq_some hstep
    exact ih.tail trivial hserver

theorem limit_cases (l : LimitedServer) (a : LimitedAction) (s : SessionId) :
    ((l.limit a).limiter s = l.limiter s ∧ (l.limit a).log s = l.log s) ∨
      ((l.limit a).limiter s = newLimiter l.clock ∧ (l.limit a).log s = [] ∧
        (l.limit a).clock = l.clock) ∨
      ((l.limit a).limiter s = ((l.limiter s).tryConsume l.clock 1).2 ∧
        (l.limit a).log s = l.log s ++ [(l.clock, ((l.limiter s).tryConsume l.clock 1).1)]) := by
  cases a with
  | accept subscribed =>
    simp only [LimitedServer.limit]
    by_cases hs : s = l.server.gateway.nextSessionId
    · rw [hs, Function.update_self, Function.update_self]
      exact Or.inr (Or.inl ⟨rfl, rfl, trivial⟩)
    · rw [Function.update_of_ne hs, Function.update_of_ne hs]
      exact Or.inl ⟨rfl, rfl⟩
  | frame s' frame natsOk =>
    simp only [LimitedServer.limit]
    split
    · by_cases hs : s = s'
      · subst hs
        simp only [Function.update_self]
        exact Or.inr (Or.inr ⟨trivial, trivial⟩)
      · simp only [Function.update_of_ne hs]
        exact Or.inl ⟨trivial, trivial⟩
    · exact Or.inl ⟨rfl, rfl⟩
  | elapse ns => exact Or.inl ⟨rfl, rfl⟩
  | disconnect => exact Or.inl ⟨rfl, rfl⟩
  | finish => exact Or.inl ⟨rfl, rfl⟩
  | scan => exact Or.inl ⟨rfl, rfl⟩
  | heartbeatRemove => exact Or.inl ⟨rfl, rfl⟩

theorem clock_le_limit (l : LimitedServer) (a : LimitedAction) : l.clock ≤ (l.limit a).clock := by
  cases a with
  | frame s frame natsOk =>
    simp only [LimitedServer.limit]
    split <;> exact le_refl _
  | elapse ns => exact Nat.le_add_right _ _
  | accept => exact le_refl _
  | disconnect => exact le_refl _
  | finish => exact le_refl _
  | scan => exact le_refl _
  | heartbeatRemove => exact le_refl _

/-- The log of every session is a run of the bucket it was given. -/
def Logged (l : LimitedServer) : Prop :=
  ∀ s, (l.limiter s).lastRefill ≤ l.clock ∧
    ∃ t, Served (newLimiter t) (l.log s) (l.limiter s)

theorem logged_start : Logged start := fun _ => ⟨le_refl _, 0, .start⟩

theorem Logged.limit {l : LimitedServer} (h : l.Logged) (a : LimitedAction) :
    (l.limit a).Logged := by
  intro s
  obtain ⟨hclock, t, hserved⟩ := h s
  have hlater := clock_le_limit l a
  rcases limit_cases l a s with ⟨hlimiter, hlog⟩ | ⟨hlimiter, hlog, -⟩ | ⟨hlimiter, hlog⟩
  · rw [hlimiter, hlog]
    exact ⟨hclock.trans hlater, t, hserved⟩
  · rw [hlimiter, hlog]
    exact ⟨hlater, l.clock, .start⟩
  · rw [hlimiter, hlog]
    exact ⟨(tryConsume_frame _ _).2.2.le.trans hlater, t, .call hserved hclock⟩

theorem logged_of_run {l : LimitedServer} (run : Run (step action?) (fun _ _ => True) start l) :
    l.Logged :=
  run.invariant logged_start fun hlogged _ hstep => by
    obtain ⟨server, -, rfl⟩ := step_eq_some hstep
    exact hlogged.limit _

/-! ## The bounds -/

theorem valid_newLimiter (t : Nat) : (newLimiter t).Valid :=
  valid_new t _ (by positivity)

theorem capacity_newLimiter (t : Nat) : ((newLimiter t).capacity.toNat : ℚ) = 200 := by
  exact_mod_cast (rfl : msgRateLimitBurst.toNat = 200)

theorem rate_newLimiter (t : Nat) : (newLimiter t).refillRate = 100 := by
  have hrate : msgRateLimitPerSec.toNat = 100 := rfl
  simp [newLimiter, new, hrate]

/-- In every run, every session gets at most 200 data frames and 100 a second routed in every
window of time, up to the rounding of the bucket. -/
theorem dataFrames_routed_le {l : LimitedServer}
    (run : Run (step action?) (fun _ _ => True) start l) (s : SessionId) {first last : Nat}
    (hwindow : first ≤ last) :
    (grantedIn (l.log s) first last : ℚ) ≤
      200 + 100 * (1 + roundoff) ^ 3 * secondsBetween first last +
        400 * roundoff * receivedIn (l.log s) first last := by
  obtain ⟨-, t, hserved⟩ := logged_of_run run s
  have hbound := hserved.granted_le (valid_newLimiter t) hwindow
  rw [rateMax, slack, capacity_newLimiter, rate_newLimiter] at hbound
  linarith

/-- The first data frame of the first session, routed at once. -/
theorem dataFrames_routed_le_first : ∃ l,
    Run (step fun _ => none) (fun _ _ => True) start l ∧ (l.log 1).length = 1 ∧
    (grantedIn (l.log 1) 0 10 : ℚ) ≤ 200 + 100 * (1 + roundoff) ^ 3 * secondsBetween 0 10 +
      400 * roundoff * receivedIn (l.log 1) 0 10 :=
  have run : Run (step fun _ => none) (fun _ _ => True) start _ :=
    .tail (a := .frame 1 ⟨1, 0, 0, [7]⟩ true) (.tail (a := .accept true) .refl trivial rfl)
      trivial rfl
  ⟨_, run, rfl, dataFrames_routed_le run 1 (by decide)⟩

/-- A data frame without payload, which `route_frame` accepts and ignores. -/
def emptyFrame : Frame :=
  ⟨1, 0, 0, []⟩

theorem step_emptyFrame (action? : Bytes → Option String) {l : LimitedServer}
    (hphase : l.server.phase 1 = some .reading) :
    ∃ l', l.step action? (.frame 1 emptyFrame true) = some l' ∧
      l'.server.phase 1 = some .reading ∧ l'.clock = l.clock ∧
      l'.limiter 1 = ((l.limiter 1).tryConsume l.clock 1).2 ∧
      l'.log 1 = l.log 1 ++ [(l.clock, ((l.limiter 1).tryConsume l.clock 1).1)] := by
  have hdata : isDataFrame emptyFrame = true := rfl
  have hping : FrameFlags.contains emptyFrame.flags FrameFlags.ping = false := rfl
  have hpong : FrameFlags.contains emptyFrame.flags FrameFlags.pong = false := rfl
  have hclose : FrameFlags.contains emptyFrame.flags FrameFlags.sessionClose = false := rfl
  have hinit : FrameFlags.contains emptyFrame.flags FrameFlags.sessionInit = false := rfl
  have hroute : ∀ (g : Gateway), (g.routeFrame action? g true 1 emptyFrame.payload).ok = true :=
    fun _ => rfl
  simp only [step, gatewayAction, GatewayServer.step, hphase, if_true, Gateway.readFrame, hping,
    hpong, hclose, hinit, Bool.false_eq_true, if_false, hroute, limit, hdata]
  refine ⟨_, rfl, ?_, rfl, ?_, ?_⟩
  · simp only [ite_self, if_true]
    exact hphase
  · exact Function.update_self 1 _ l.limiter
  · exact Function.update_self 1 _ l.log

theorem run_burst (action? : Bytes → Option String) (n : Nat) (hn : n ≤ 200) : ∃ l,
    Run (step action?) (fun _ _ => True) start l ∧ l.server.phase 1 = some .reading ∧
      l.clock = 0 ∧ l.limiter 1 = { newLimiter 0 with tokens := (200 - n : Nat) } ∧
      l.log 1 = List.replicate n (0, true) := by
  induction n with
  | zero => exact ⟨_, .tail (a := .accept true) .refl trivial rfl, rfl, rfl, rfl, rfl⟩
  | succ n ih =>
    obtain ⟨l, run, hphase, hclock, hlimiter, hlog⟩ := ih (by omega)
    obtain ⟨l', hstep, hphase', hclock', hlimiter', hlog'⟩ := step_emptyFrame action? hphase
    have hcall : (l.limiter 1).tryConsume l.clock 1 =
        (true, { newLimiter 0 with tokens := (200 - (n + 1) : Nat) }) := by
      have hlast : l.clock = (l.limiter 1).lastRefill := by
        rw [hclock, hlimiter]
        rfl
      have hcap : 200 - n ≤ (l.limiter 1).capacity.toNat := by
        rw [hlimiter]
        exact Nat.sub_le _ _
      rw [hlast, tryConsume_at_once (by rw [hlimiter]) hcap, if_neg (by omega), hlimiter]
      rfl
    rw [hcall] at hlimiter' hlog'
    refine ⟨l', run.tail trivial hstep, hphase', hclock'.trans hclock, hlimiter', ?_⟩
    rw [hlog', hlog, hclock, List.replicate_succ']

/-! ## Dropped frames -/

/-- In a state `l₀` on the way to `l` the bucket of the session was full, and what it has lost since
is what it granted to the frames of `window`. -/
structure Windowed (action? : Bytes → Option String) (s : SessionId) (l l₀ : LimitedServer)
    (window : List (Nat × Bool)) : Prop where
  reached : Run (step action?) (fun _ _ => True) start l₀
  since : Run (step action?) (fun _ _ => True) l₀ l
  full : (l₀.limiter s).Full l₀.clock
  log : l.log s = l₀.log s ++ window
  spent : (l.limiter s).Spent l₀.clock window

theorem windowed_of_run {l : LimitedServer} (run : Run (step action?) (fun _ _ => True) start l)
    (s : SessionId) : ∃ l₀ window, Windowed action? s l l₀ window := by
  induction run with
  | refl => exact ⟨start, [], .refl, .refl, full_new _ _ _, rfl, spent_new _ _ _⟩
  | @tail l l' a run _ hstep ih =>
    obtain ⟨hclock, t, hserved⟩ := logged_of_run run s
    have hvalid := (hserved.kept (valid_newLimiter t)).valid
    have hrun := run.tail trivial hstep
    obtain ⟨l₀, window, hwindow⟩ := ih
    have hsince := hwindow.since.tail trivial hstep
    obtain ⟨server, -, rfl⟩ := step_eq_some hstep
    rcases limit_cases l a s with ⟨hlimiter, hlog⟩ | ⟨hlimiter, hlog, hclock'⟩ | ⟨hlimiter, hlog⟩
    · refine ⟨l₀, window, hwindow.reached, hsince, hwindow.full, hlog.trans hwindow.log, ?_⟩
      dsimp only
      rw [hlimiter]
      exact hwindow.spent
    · -- the session starts here
      refine ⟨_, [], hrun, .refl, ?_, (List.append_nil _).symm, ?_⟩
      · dsimp only
        rw [hlimiter, hclock']
        exact full_new _ _ _
      · dsimp only
        rw [hlimiter, hclock']
        exact spent_new _ _ _
    · rcases hwindow.spent.call hvalid hclock with hfull | hspent
      · -- the bucket is full again, so a new window starts with this frame
        refine ⟨l, _, run, .tail .refl trivial hstep, hfull, hlog, ?_⟩
        dsimp only
        rw [hlimiter]
        exact spent_of_full hfull
      · refine ⟨l₀, window ++ [(l.clock, ((l.limiter s).tryConsume l.clock 1).1)], hwindow.reached,
          hsince, hwindow.full, ?_, ?_⟩
        · dsimp only
          rw [hlog, hwindow.log, List.append_assoc]
        · dsimp only
          rw [hlimiter]
          exact hspent

theorem exists_handled {l : LimitedServer} (run : Run (step action?) (fun _ _ => True) start l)
    {s : SessionId} {before after : List (Nat × Bool)} {e : Nat × Bool}
    (hlog : l.log s = before ++ e :: after) :
    ∃ l₁, Run (step action?) (fun _ _ => True) start l₁ ∧
      Run (step action?) (fun _ _ => True) l₁ l ∧ l₁.log s = before ∧ l₁.clock = e.1 ∧
      ((l₁.limiter s).tryConsume l₁.clock 1).1 = e.2 := by
  induction run generalizing after with
  | refl => exact absurd hlog (by simp [start])
  | @tail l l' a run _ hstep ih =>
    obtain ⟨server, -, rfl⟩ := step_eq_some hstep
    dsimp only at hlog
    rcases limit_cases l a s with ⟨-, hsame⟩ | ⟨-, hnil, -⟩ | ⟨-, hnew⟩
    · rw [hsame] at hlog
      obtain ⟨l₁, hreached, hsince, hrest⟩ := ih hlog
      exact ⟨l₁, hreached, hsince.tail trivial hstep, hrest⟩
    · rw [hnil] at hlog
      exact absurd hlog (by simp)
    · rw [hnew] at hlog
      rcases List.eq_nil_or_concat after with rfl | ⟨rest, last, rfl⟩
      · obtain ⟨hbefore, he⟩ := List.append_inj' hlog rfl
        rw [List.singleton_inj] at he
        refine ⟨l, run, .tail .refl trivial hstep, hbefore, ?_, ?_⟩ <;> rw [← he]
      · rw [List.concat_eq_append, ← List.cons_append, ← List.append_assoc] at hlog
        obtain ⟨l₁, hreached, hsince, hrest⟩ := ih (List.append_inj' hlog rfl).1
        exact ⟨l₁, hreached, hsince.tail trivial hstep, hrest⟩

/-- A data frame of a session is dropped only if the bucket was full in some state of the run and the
frames handled since then have used up the burst of 200 and the 100 a second, up to the rounding of
the bucket. A client that stays below that in every window loses no frame. -/
theorem dataFrame_dropped_of_window {l : LimitedServer}
    (run : Run (step action?) (fun _ _ => True) start l) {s : SessionId}
    {before after : List (Nat × Bool)} {now : Nat}
    (hdropped : l.log s = before ++ (now, false) :: after) :
    ∃ l₀ window, Run (step action?) (fun _ _ => True) start l₀ ∧
      Run (step action?) (fun _ _ => True) l₀ l ∧
      ((l₀.limiter s).refill l₀.clock).tokens = 200 ∧ l₀.clock ≤ now ∧
      before = l₀.log s ++ window ∧
      199 + 100 * (1 - roundoff) ^ 3 * secondsBetween l₀.clock now -
        600 * roundoff * (window.length + 1) < window.countP fun e => e.2 := by
  obtain ⟨l₁, hreached, hsince, hbefore, hclock, hrefused⟩ := exists_handled run hdropped
  obtain ⟨hlast, t, hserved⟩ := logged_of_run hreached s
  have hkept := hserved.kept (valid_newLimiter t)
  obtain ⟨l₀, window, hwindow⟩ := windowed_of_run hreached s
  obtain ⟨-, t₀, hserved₀⟩ := logged_of_run hwindow.reached s
  have hkept₀ := hserved₀.kept (valid_newLimiter t₀)
  have hfull := hwindow.full
  have hfirst := hwindow.spent.1
  dsimp only at hclock
  have hbound := hwindow.spent.lt_of_refused hkept.valid hlast
    (hkept.capacity ▸ (by decide : 1 ≤ msgRateLimitBurst.toNat)) hrefused
  rw [rateMin, slack, hkept.capacity, hkept.rate, capacity_newLimiter, rate_newLimiter,
    hclock] at hbound
  rw [Full, hkept₀.capacity, capacity_newLimiter] at hfull
  refine ⟨l₀, window, hwindow.reached, hwindow.since.trans hsince, hfull, by omega,
    hbefore.symm.trans hwindow.log, ?_⟩
  rw [grants] at hbound
  linarith

/-- The frame after a burst of two hundred at one instant is dropped. -/
theorem dataFrame_dropped_of_window_burst : ∃ l,
    Run (step fun _ => none) (fun _ _ => True) start l ∧
    l.log 1 = List.replicate 200 (0, true) ++ [(0, false)] ∧
    ∃ l₀ window, Run (step fun _ => none) (fun _ _ => True) start l₀ ∧
      Run (step fun _ => none) (fun _ _ => True) l₀ l ∧
      ((l₀.limiter 1).refill l₀.clock).tokens = 200 ∧ l₀.clock ≤ 0 ∧
      List.replicate 200 (0, true) = l₀.log 1 ++ window ∧
      199 + 100 * (1 - roundoff) ^ 3 * secondsBetween l₀.clock 0 -
        600 * roundoff * (window.length + 1) < window.countP fun e => e.2 := by
  obtain ⟨l, run, hphase, hclock, hlimiter, hlog⟩ := run_burst (fun _ => none) 200 (le_refl _)
  obtain ⟨l', hstep, -, -, -, hlog'⟩ := step_emptyFrame (fun _ => none) hphase
  have hcall : ((l.limiter 1).tryConsume l.clock 1).1 = false := by
    have hlast : l.clock = (l.limiter 1).lastRefill := by
      rw [hclock, hlimiter]
      rfl
    rw [hlast, tryConsume_at_once (n := 0) (by rw [hlimiter]) (Nat.zero_le _), if_pos rfl]
  rw [hcall, hlog, hclock] at hlog'
  have run' := run.tail trivial hstep
  exact ⟨l', run', hlog', dataFrame_dropped_of_window run' hlog'⟩

end LimitedServer

end Cypher
