import Cypher.Gateway.Heartbeat
import Cypher.Gateway.Verify.Tables

/-!
# What the heartbeat task sees of a session

* `heartbeat_keeps_responsive`: a session whose channel has room for every PING and that answers it in
  less than an interval is never marked, if the delays of the task in one round are together at most
  an interval.
* `heartbeat_silence`: an entry of the tables that is not marked was heard of in the last four
  intervals, and none has more than two PINGs that it has not answered.
* `heartbeat_removed_unreachable`: a session that the task removes is not closed. Its frames are handled
  as before, but nothing is delivered to it directly any more.

The first two rest on one fact about a step: it renews the activity of a session, or leaves it.
-/

namespace Cypher

open Lib

namespace Gateway

variable {g : Gateway} {s : SessionId} {now : Nat}

/-! ## Activity -/

/-- Every connection of `g'` was heard of at `now`, or is one of `g` and was not heard of since. -/
def Heard (now : Nat) (g g' : Gateway) : Prop :=
  ∀ s conn', g'.connections s = some conn' → conn'.lastActivity = now ∨
    ∃ conn, g.connections s = some conn ∧ conn'.lastActivity = conn.lastActivity

theorem Heard.refl (now : Nat) (g : Gateway) : Heard now g g :=
  fun _ conn h => Or.inr ⟨conn, h, rfl⟩

theorem Heard.trans {g' g'' : Gateway} (h : Heard now g g') (h' : Heard now g' g'') :
    Heard now g g'' := by
  intro s conn hconn
  rcases h' s conn hconn with hnow | ⟨conn', hconn', heq⟩
  · exact Or.inl hnow
  · rw [heq]
    exact h s conn' hconn'

theorem heard_update {x : Option ConnectionState} {peers : Bytes → Option SessionId}
    {next : SessionId}
    (hx : ∀ conn', x = some conn' → conn'.lastActivity = now ∨
      ∃ conn, g.connections s = some conn ∧ conn'.lastActivity = conn.lastActivity) :
    Heard now g ⟨Function.update g.connections s x, peers, next⟩ := by
  intro s' conn' hconn'
  dsimp only at hconn'
  by_cases hs : s' = s
  · subst hs
    rw [Function.update_self] at hconn'
    exact hx conn' hconn'
  · rw [Function.update_of_ne hs] at hconn'
    exact Or.inr ⟨conn', hconn', rfl⟩

theorem heard_openSession (now : Nat) (g : Gateway) : Heard now g (g.openSession now).1 := by
  apply heard_update
  rintro conn' ⟨⟩
  exact Or.inl rfl

theorem heard_touch (now : Nat) (g : Gateway) (s : SessionId) : Heard now g (g.touch now s) := by
  cases hconn : g.connections s with
  | none =>
    rw [touch_of_none hconn]
    exact .refl now g
  | some conn =>
    rw [touch_of_connection hconn]
    apply heard_update
    rintro conn' ⟨⟩
    exact Or.inl rfl

theorem heard_handleSessionInit (now : Nat) (g : Gateway) (natsOk : Bool) (s : SessionId)
    (payload : Bytes) : Heard now g (g.handleSessionInit natsOk s payload).1 := by
  cases hid : sessionInitId payload with
  | none =>
    rw [handleSessionInit_of_none hid]
    exact .refl now g
  | some p =>
    cases hconn : g.connections s with
    | none =>
      rw [handleSessionInit_of_absent hid hconn]
      exact .refl now g
    | some conn =>
      rw [handleSessionInit_of_connection hid hconn]
      apply heard_update
      rintro conn' ⟨⟩
      exact Or.inr ⟨conn, hconn, rfl⟩

theorem heard_readFrame (action? : Bytes → Option String) (now : Nat) (g : Gateway) (env : FrameEnv)
    (s : SessionId) (frame : Transport.Frame) :
    Heard now g (g.readFrame action? now env s frame).1 := by
  rcases readFrame_cases (g := g) (s := s) action? now env frame with heq | ⟨-, heq⟩
  · rw [heq]
    exact heard_touch now g s
  · rw [heq]
    exact (heard_touch now g s).trans (heard_handleSessionInit now _ _ s _)

theorem heard_removeConnection (now : Nat) (g : Gateway) (natsOk : Bool) (s : SessionId) :
    Heard now g (g.removeConnection natsOk s).1 := by
  cases hconn : g.connections s with
  | none =>
    rw [removeConnection_of_none hconn]
    exact .refl now g
  | some conn =>
    rw [removeConnection_of_connection hconn]
    apply heard_update
    rintro conn' ⟨⟩

end Gateway

namespace GatewayServer

variable {server server' : GatewayServer} {action? : Bytes → Option String} {a : GatewayAction}

/-- What a step other than `scan` does to the clock, the activity of the sessions and the marks. -/
structure Continues (server server' : GatewayServer) : Prop where
  now : server.now ≤ server'.now
  heard : Gateway.Heard server.now server.gateway server'.gateway
  next : server.gateway.nextSessionId ≤ server'.gateway.nextSessionId
  absent : ∀ s, s < server.gateway.nextSessionId → server.gateway.connections s = none →
    server'.gateway.connections s = none
  bounded : (∀ s, server.gateway.nextSessionId ≤ s → server.gateway.connections s = none) →
    ∀ s, server'.gateway.nextSessionId ≤ s → server'.gateway.connections s = none
  marks : ∀ s ∈ server'.stale, s ∈ server.stale
  unmarked : ∀ s ∈ server.stale, s ∈ server'.stale ∨ server'.gateway.connections s = none

theorem Continues.of_keepsAbsent (hnow : server'.now = server.now)
    (heard : Gateway.Heard server.now server.gateway server'.gateway)
    (keeps : Gateway.KeepsAbsent server.gateway server'.gateway)
    (marks : ∀ s ∈ server'.stale, s ∈ server.stale)
    (unmarked : ∀ s ∈ server.stale, s ∈ server'.stale ∨ server'.gateway.connections s = none) :
    Continues server server' :=
  ⟨hnow.ge, heard, keeps.next.ge, fun s _ => keeps.absent s, keeps.bounded, marks, unmarked⟩

/-- What has not been heard of since `t` was not heard of in this step either. -/
theorem Continues.silent (h : Continues server server') {s : SessionId} {conn' : ConnectionState}
    (hconn' : server'.gateway.connections s = some conn') {t : Nat} (hlt : conn'.lastActivity < t)
    (ht : t ≤ server.now) : ∃ conn, server.gateway.connections s = some conn ∧
      conn'.lastActivity = conn.lastActivity :=
  (h.heard s conn' hconn').resolve_left fun hnow => Nat.not_lt_of_le ht (hnow ▸ hlt)

theorem continues_of_step (hscan : a ≠ .scan) (taken : server.step action? a = some server') :
    Continues server server' := by
  cases a with
  | accept subscribed =>
    cases taken
    refine ⟨le_rfl, Gateway.heard_openSession _ _, Nat.le_succ _, ?_, ?_, fun _ h => h,
      fun _ h => Or.inl h⟩
    · intro s hlt hnone
      exact (Function.update_of_ne (Nat.ne_of_lt hlt) _ _).trans hnone
    · intro hbounded s hs
      have hlt : server.gateway.nextSessionId < s := hs
      exact (Function.update_of_ne (Nat.ne_of_gt hlt) _ _).trans (hbounded s (Nat.le_of_lt hlt))
  | frame s frame env =>
    simp only [step] at taken
    split at taken
    · cases taken
      exact .of_keepsAbsent rfl (Gateway.heard_readFrame action? _ _ env s frame)
        (Gateway.keepsAbsent_readFrame action? _ env frame) (fun _ h => h) fun _ h => Or.inl h
    · cases taken
  | disconnect s =>
    simp only [step] at taken
    split at taken
    · cases taken
      exact .of_keepsAbsent rfl (.refl _ _) .refl (fun _ h => h) fun _ h => Or.inl h
    · cases taken
  | finish s natsOk =>
    simp only [step] at taken
    split at taken
    · cases taken
      exact .of_keepsAbsent rfl (Gateway.heard_removeConnection _ _ natsOk s)
        (Gateway.keepsAbsent_removeConnection natsOk) (fun _ h => h) fun _ h => Or.inl h
    · cases taken
  | elapse ms =>
    cases taken
    exact ⟨Nat.le_add_right _ _, .refl _ _, le_rfl, fun _ _ => id, id, fun _ h => h,
      fun _ h => Or.inl h⟩
  | scan => exact absurd rfl hscan
  | heartbeatRemove s natsOk =>
    simp only [step] at taken
    split at taken
    · cases taken
      refine .of_keepsAbsent rfl (Gateway.heard_removeConnection _ _ natsOk s)
        (Gateway.keepsAbsent_removeConnection natsOk) (fun _ h => List.mem_of_mem_erase h)
        fun s' hs' => ?_
      by_cases heq : s' = s
      · subst heq
        exact Or.inr (Gateway.removeConnection_absent natsOk)
      · exact Or.inl ((List.mem_erase_of_ne heq).mpr hs')
    · cases taken

theorem now_of_step (taken : server.step action? a = some server') :
    server'.now = server.now ∨
      ∃ ms, a = .elapse ms ∧ server' = { server with now := server.now + ms } := by
  cases a with
  | elapse ms =>
    cases taken
    exact Or.inr ⟨ms, rfl, rfl⟩
  | accept subscribed =>
    cases taken
    exact Or.inl rfl
  | _ =>
    simp only [step] at taken
    split at taken
    · cases taken
      exact Or.inl rfl
    · cases taken

end GatewayServer

namespace HeartbeatServer

open Gateway (heartbeatIntervalMs heartbeatTimeoutMs)

variable {action? : Bytes → Option String} {h h' : HeartbeatServer} {a : HeartbeatAction}
  {D R : Nat} {s : SessionId}

/-! ## Rounds of the task -/

inductive Beats (h : HeartbeatServer) : HeartbeatAction → HeartbeatServer → Prop
  | gateway {b server} (continues : GatewayServer.Continues h.server server)
      (clock : server.now = h.server.now ∨
        ∃ ms, b = .elapse ms ∧ server = { h.server with now := h.server.now + ms }) :
      Beats h (.gateway b) { h with
        server
        since := if h.server.stale ≠ [] ∧ server.stale = [] then h.server.now else h.since }
  | scan {full} (due : h.since + heartbeatIntervalMs ≤ h.server.now) (idle : h.server.stale = []) :
      Beats h (.scan full) {
        server := { h.server with stale := h.server.gateway.staleSessions h.server.now }
        since := h.server.now
        lastScan := h.server.now
        pings := h.pings ++ (h.server.gateway.pingedSessions h.server.now full).map
          (·, h.server.now) }

theorem beats_of_step (taken : step action? h a = some h') : Beats h a h' := by
  cases a with
  | gateway b =>
    by_cases hscan : b = .scan
    · subst hscan
      cases taken
    · have hserver : ∃ server, h.server.step action? b = some server ∧ h' = { h with
          server
          since := if h.server.stale ≠ [] ∧ server.stale = [] then h.server.now else h.since } := by
        cases b with
        | scan => exact absurd rfl hscan
        | _ =>
          simp only [step] at taken
          split at taken
          · cases taken
          · next server hserver => exact ⟨server, hserver, (Option.some.inj taken).symm⟩
      obtain ⟨server, hserver, rfl⟩ := hserver
      exact .gateway (GatewayServer.continues_of_step hscan hserver)
        (GatewayServer.now_of_step hserver)
  | scan full =>
    simp only [step] at taken
    split at taken
    · next due =>
      split at taken
      · cases taken
      · next server hserver =>
        cases taken
        simp only [GatewayServer.step] at hserver
        split at hserver
        · next idle =>
          cases hserver
          exact .scan due idle
        · cases hserver
    · cases taken

structure Clock (h : HeartbeatServer) : Prop where
  scanned : h.lastScan ≤ h.since
  begun : h.since ≤ h.server.now

theorem Clock.beats (hclock : Clock h) (hbeat : Beats h a h') : Clock h' := by
  have := hclock.scanned
  have := hclock.begun
  cases hbeat with
  | @gateway b server continues clock =>
    have := continues.now
    constructor
    · show h.lastScan ≤ if _ then h.server.now else h.since
      split <;> omega
    · show (if _ then h.server.now else h.since) ≤ server.now
      split <;> omega
  | scan due idle => exact ⟨le_rfl, le_rfl⟩

/-- The delays of the task in one round, in which it removes what it has marked, sleeps and wakes up,
add up to at most `D`. -/
def timely (D : Nat) (h : HeartbeatServer) : HeartbeatAction → Bool
  | .gateway (.elapse ms) =>
    if h.server.stale = [] then h.server.now + ms ≤ h.lastScan + heartbeatIntervalMs + D
    else h.server.now + ms ≤ h.lastScan + D
  | _ => true

/-- Where in its round the task is. -/
structure Punctual (D : Nat) (h : HeartbeatServer) : Prop extends Clock h where
  sleeping : h.server.stale = [] → h.server.now ≤ h.lastScan + heartbeatIntervalMs + D
  removing : h.server.stale ≠ [] → h.server.now ≤ h.lastScan + D

theorem punctual_start : Punctual D start where
  scanned := le_rfl
  begun := le_rfl
  sleeping _ := Nat.zero_le _
  removing hstale := absurd rfl hstale

theorem Punctual.beats (hp : Punctual D h) (ontime : timely D h a = true) (hbeat : Beats h a h') :
    Punctual D h' := by
  have hclock := hp.toClock.beats hbeat
  cases hbeat with
  | @gateway b server continues clock =>
    rcases clock with hnow | ⟨ms, rfl, rfl⟩
    · refine ⟨hclock, fun _ => ?_, fun hstale' => ?_⟩
      · show server.now ≤ h.lastScan + heartbeatIntervalMs + D
        rw [hnow]
        by_cases hidle : h.server.stale = []
        · exact hp.sleeping hidle
        · -- the last removal
          have := hp.removing hidle
          omega
      · -- nothing is marked while the task sleeps
        have hstale : h.server.stale ≠ [] := by
          intro hidle
          refine hstale' (List.eq_nil_iff_forall_not_mem.mpr fun s hs => ?_)
          have := continues.marks s hs
          rw [hidle] at this
          cases this
        show server.now ≤ h.lastScan + D
        rw [hnow]
        exact hp.removing hstale
    · refine ⟨hclock, fun hidle => ?_, fun hstale => ?_⟩
      · have hidle : h.server.stale = [] := hidle
        simpa only [timely, if_pos hidle, decide_eq_true_eq] using ontime
      · have hstale : h.server.stale ≠ [] := hstale
        simpa only [timely, if_neg hstale, decide_eq_true_eq] using ontime
  | scan due idle =>
    refine ⟨hclock, fun _ => ?_, fun _ => Nat.le_add_right _ _⟩
    show h.server.now ≤ h.server.now + heartbeatIntervalMs + D
    omega

theorem Punctual.now_le (hp : Punctual D h) :
    h.server.now ≤ h.lastScan + heartbeatIntervalMs + D := by
  by_cases hidle : h.server.stale = []
  · exact hp.sleeping hidle
  · have := hp.removing hidle
    omega

/-! ## Silent sessions -/

/-- The PINGs that a session has not answered: those since it was last heard of. -/
def unanswered (h : HeartbeatServer) (s : SessionId) : List Nat :=
  match h.server.gateway.connections s with
  | none => []
  | some conn => (h.pings.filter fun p => p.1 = s ∧ conn.lastActivity < p.2).map Prod.snd

structure Recent (h : HeartbeatServer) : Prop where
  bounded : ∀ s, h.server.gateway.nextSessionId ≤ s → h.server.gateway.connections s = none
  recent : ∀ s conn, h.server.gateway.connections s = some conn → s ∉ h.server.stale →
    h.lastScan ≤ conn.lastActivity + heartbeatTimeoutMs

theorem recent_start : Recent start where
  bounded _ _ := rfl
  recent := (fun _ _ h => nomatch h)

theorem lt_nextSessionId (hrecent : Recent h) {conn : ConnectionState}
    (hconn : h.server.gateway.connections s = some conn) : s < h.server.gateway.nextSessionId := by
  by_contra hge
  rw [hrecent.bounded s (Nat.le_of_not_lt hge)] at hconn
  cases hconn

theorem mem_staleSessions {g : Gateway} {now : Nat} {conn : ConnectionState}
    (hlt : s < g.nextSessionId) (hconn : g.connections s = some conn) :
    s ∈ g.staleSessions now ↔ conn.lastActivity + heartbeatTimeoutMs < now := by
  simp only [Gateway.staleSessions, List.mem_filter, List.mem_range, hlt, hconn, true_and,
    gt_iff_lt, decide_eq_true_eq, heartbeatTimeoutMs]
  omega

theorem mem_pingedSessions {g : Gateway} {now : Nat} {full : SessionId → Bool}
    {conn : ConnectionState} (hlt : s < g.nextSessionId) (hconn : g.connections s = some conn) :
    s ∈ g.pingedSessions now full ↔ now ≤ conn.lastActivity + heartbeatTimeoutMs ∧
      conn.lastActivity + heartbeatIntervalMs < now ∧ full s = false := by
  simp only [Gateway.pingedSessions, List.mem_filter, List.mem_range, hlt, hconn, true_and,
    gt_iff_lt, Bool.and_eq_true, Bool.not_eq_true', decide_eq_true_eq, decide_eq_false_iff_not]
  constructor
  · rintro ⟨⟨hle, hlt⟩, hfull⟩
    exact ⟨by omega, by omega, hfull⟩
  · rintro ⟨hle, hlt, hfull⟩
    exact ⟨⟨by omega, by omega⟩, hfull⟩

theorem Recent.beats (hrecent : Recent h) (hclock : Clock h) (hbeat : Beats h a h') :
    Recent h' := by
  cases hbeat with
  | gateway continues clock =>
    refine ⟨continues.bounded hrecent.bounded, ?_⟩
    intro s conn' hconn' hmark
    rcases continues.heard s conn' hconn' with hnow | ⟨conn, hconn, heq⟩
    · rw [hnow]
      exact Nat.le_add_right_of_le (hclock.scanned.trans hclock.begun)
    · rw [heq]
      refine hrecent.recent s conn hconn fun hmarked => ?_
      rcases continues.unmarked s hmarked with hmarked | hnone
      · exact hmark hmarked
      · have hconn' : _ = some conn' := hconn'
        rw [hnone] at hconn'
        cases hconn'
  | scan due idle =>
    refine ⟨hrecent.bounded, ?_⟩
    intro s conn hconn hmark
    have hmark : s ∉ h.server.gateway.staleSessions h.server.now := hmark
    rw [mem_staleSessions (lt_nextSessionId hrecent hconn) hconn] at hmark
    exact Nat.le_of_not_lt hmark

structure Pinged (h : HeartbeatServer) : Prop where
  past : ∀ p ∈ h.pings, p.2 ≤ h.lastScan
  spaced : ∀ s, ((h.pings.filter (·.1 = s)).map Prod.snd).Pairwise
    fun t t' => t + heartbeatIntervalMs ≤ t'
  window : ∀ s conn, h.server.gateway.connections s = some conn → ∀ t, (s, t) ∈ h.pings →
    conn.lastActivity < t → conn.lastActivity + heartbeatIntervalMs < t ∧
      t ≤ conn.lastActivity + heartbeatTimeoutMs

theorem pinged_start : Pinged start where
  past := (fun _ h => nomatch h)
  spaced _ := List.Pairwise.nil
  window := (fun _ _ h => nomatch h)

theorem pingedSessions_nodup (g : Gateway) (now : Nat) (full : SessionId → Bool) :
    (g.pingedSessions now full).Nodup :=
  List.nodup_range.filter _

theorem filter_pinged {pinged : List SessionId} (hnodup : pinged.Nodup) (now : Nat)
    (s : SessionId) :
    ((pinged.map (·, now)).filter (·.1 = s)).map Prod.snd =
      if s ∈ pinged then [now] else [] := by
  rw [List.filter_map, List.map_map]
  have : pinged.filter ((fun p : SessionId × Nat => decide (p.1 = s)) ∘ (·, now)) =
      if s ∈ pinged then [s] else [] := by
    have heq : ((fun p : SessionId × Nat => decide (p.1 = s)) ∘ (·, now)) = (· == s) := by
      funext x
      simp [beq_eq_decide]
    rw [heq, List.filter_beq]
    split
    · next hmem => rw [List.count_eq_one_of_mem hnodup hmem]; rfl
    · next hmem => rw [List.count_eq_zero_of_not_mem hmem]; rfl
  rw [this]
  split <;> rfl

theorem Pinged.beats (hpinged : Pinged h) (hclock : Clock h) (hrecent : Recent h)
    (hbeat : Beats h a h') : Pinged h' := by
  cases hbeat with
  | gateway continues clock =>
    refine ⟨hpinged.past, hpinged.spaced, ?_⟩
    intro s conn' hconn' t ht hlt
    obtain ⟨conn, hconn, heq⟩ := continues.silent hconn' hlt
      ((hpinged.past (s, t) ht).trans (hclock.scanned.trans hclock.begun))
    rw [heq] at hlt ⊢
    exact hpinged.window s conn hconn t ht hlt
  | @scan full due idle =>
    have hbefore : ∀ p ∈ h.pings, p.2 + heartbeatIntervalMs ≤ h.server.now := by
      intro p hp
      have := hpinged.past p hp
      have := hclock.scanned
      omega
    refine ⟨?_, ?_, ?_⟩
    · intro p hp
      rcases List.mem_append.mp hp with hp | hp
      · exact Nat.le_of_add_right_le (hbefore p hp)
      · obtain ⟨_, -, rfl⟩ := List.mem_map.mp hp
        exact le_rfl
    · intro s
      rw [List.filter_append, List.map_append,
        filter_pinged (pingedSessions_nodup _ _ _), List.pairwise_append]
      refine ⟨hpinged.spaced s, ?_, ?_⟩
      · split
        · exact List.pairwise_singleton _ _
        · exact List.Pairwise.nil
      · intro t ht t' ht'
        have hnow : t' = h.server.now := by
          split at ht'
          · exact List.mem_singleton.mp ht'
          · cases ht'
        obtain ⟨p, hp, rfl⟩ := List.mem_map.mp ht
        rw [hnow]
        exact hbefore p (List.mem_of_mem_filter hp)
    · intro s conn hconn t ht hlt
      rcases List.mem_append.mp ht with ht | ht
      · exact hpinged.window s conn hconn t ht hlt
      · obtain ⟨s', hs', heq⟩ := List.mem_map.mp ht
        obtain ⟨rfl, rfl⟩ := Prod.mk.inj heq
        rw [mem_pingedSessions (lt_nextSessionId hrecent hconn) hconn] at hs'
        exact ⟨hs'.2.1, hs'.1⟩

/-- Three PINGs, each an interval after the other and the first an interval after the last activity,
would be later than the timeout. -/
theorem length_le_two_of_spaced {times : List Nat} {lastActivity : Nat}
    (hspaced : times.Pairwise fun t t' => t + heartbeatIntervalMs ≤ t')
    (hwindow : ∀ t ∈ times, lastActivity + heartbeatIntervalMs < t ∧
      t ≤ lastActivity + heartbeatTimeoutMs) : times.length ≤ 2 := by
  match times with
  | [] => exact Nat.zero_le _
  | [_] => exact Nat.le_succ _
  | [_, _] => exact le_rfl
  | t₁ :: t₂ :: t₃ :: rest =>
    simp only [List.pairwise_cons, List.mem_cons, forall_eq_or_imp] at hspaced
    have h₁ := (hwindow t₁ (by simp)).1
    have h₃ := (hwindow t₃ (by simp)).2
    have h₁₂ := hspaced.1.1
    have h₂₃ := hspaced.2.1.1
    simp only [heartbeatTimeoutMs, Gateway.maxMissedHeartbeats] at h₃
    omega

theorem Pinged.unanswered_le (hpinged : Pinged h) (s : SessionId) :
    (h.unanswered s).length ≤ 2 := by
  cases hconn : h.server.gateway.connections s with
  | none =>
    simp only [unanswered, hconn]
    exact Nat.zero_le _
  | some conn =>
    simp only [unanswered, hconn]
    refine @length_le_two_of_spaced _ conn.lastActivity ((hpinged.spaced s).sublist ?_)
      fun t ht => ?_
    · refine List.Sublist.map _ (List.monotone_filter_right _ ?_)
      intro p hp
      simp only [Bool.decide_and, Bool.and_eq_true, decide_eq_true_eq] at hp
      exact decide_eq_true hp.1
    · obtain ⟨p, hp, rfl⟩ := List.mem_map.mp ht
      obtain ⟨hmem, hcond⟩ := List.mem_filter.mp hp
      simp only [Bool.decide_and, Bool.and_eq_true, decide_eq_true_eq] at hcond
      obtain ⟨rfl, hlt⟩ := hcond
      exact hpinged.window p.1 conn hconn p.2 hmem hlt

/-- The tables hold no unmarked session that was silent for more than four intervals, and none, marked
or not, with more than two PINGs to answer. -/
theorem heartbeat_silence (run : Run (step action?) (fun h a => timely D h a = true) start h) :
    (∀ s conn, h.server.gateway.connections s = some conn → s ∉ h.server.stale →
      h.server.now ≤ conn.lastActivity + 4 * heartbeatIntervalMs + D) ∧
    ∀ s, (h.unanswered s).length ≤ 2 := by
  have hinv : Punctual D h ∧ Recent h ∧ Pinged h :=
    run.invariant (I := fun h => Punctual D h ∧ Recent h ∧ Pinged h)
      ⟨punctual_start, recent_start, pinged_start⟩ fun ⟨hp, hr, hi⟩ ontime taken =>
      have hbeat := beats_of_step taken
      ⟨hp.beats ontime hbeat, hr.beats hp.toClock hbeat, hi.beats hp.toClock hr hbeat⟩
  obtain ⟨hp, hr, hi⟩ := hinv
  refine ⟨fun s conn hconn hmark => ?_, hi.unanswered_le⟩
  have hround := hp.now_le
  have hrecent := hr.recent s conn hconn hmark
  simp only [heartbeatTimeoutMs, Gateway.maxMissedHeartbeats] at hrecent
  omega

/-- A session that never sends a frame: its second PING, ninety seconds after it was accepted. -/
theorem heartbeat_silence_idle :
    ∃ h, Run (step fun _ => none) (fun h a => timely 0 h a = true) start h ∧
      h.server.now = 90000 ∧ h.server.gateway.connections 1 = some ⟨[], 0⟩ ∧
      h.server.now ≤ 0 + 4 * heartbeatIntervalMs + 0 ∧
      h.unanswered 1 = [60000, 90000] ∧ (h.unanswered 1).length ≤ 2 := by
  have hfinal : (exec (step fun _ => none) (fun h a => timely 0 h a = true) start
      [.gateway (.accept true), .gateway (.elapse 30000), .scan fun _ => false,
        .gateway (.elapse 30000), .scan fun _ => false, .gateway (.elapse 30000),
        .scan fun _ => false]).map (fun h => (h.server.now, h.server.gateway.connections 1,
          h.server.stale, h.unanswered 1)) =
        some (90000, some ⟨[], 0⟩, [], [60000, 90000]) := by decide +kernel
  obtain ⟨h, hexec, hfinal⟩ := Option.map_eq_some_iff.mp hfinal
  simp only [Prod.mk.injEq] at hfinal
  obtain ⟨hnow, hconn, hstale, hpings⟩ := hfinal
  obtain ⟨hrecent, hunanswered⟩ := heartbeat_silence (Run.of_exec hexec)
  refine ⟨h, Run.of_exec hexec, hnow, hconn, ?_, hpings, hunanswered 1⟩
  exact hrecent 1 _ hconn (by rw [hstale]; exact List.not_mem_nil)

/-! ## Responsive sessions -/

/-- The session's channel has room for a PING when the task looks, and an answer to it is read within
`R`. -/
def responsive (R : Nat) (s : SessionId) (h : HeartbeatServer) : HeartbeatAction → Bool
  | .gateway (.elapse ms) => (h.unanswered s).all fun t => h.server.now + ms ≤ t + R
  | .scan full => !full s
  | _ => true

theorem mem_unanswered {t : Nat} : t ∈ h.unanswered s ↔
    ∃ conn, h.server.gateway.connections s = some conn ∧ (s, t) ∈ h.pings ∧
      conn.lastActivity < t := by
  simp only [unanswered]
  cases hconn : h.server.gateway.connections s with
  | none => simp
  | some conn =>
    simp only [List.mem_map, List.mem_filter, decide_eq_true_eq, Option.some.injEq,
      exists_eq_left', Prod.exists]
    constructor
    · rintro ⟨_, _, ⟨hmem, rfl, hlt⟩, rfl⟩
      exact ⟨hmem, hlt⟩
    · rintro ⟨hmem, hlt⟩
      exact ⟨s, t, ⟨hmem, rfl, hlt⟩, rfl⟩

/-- A session that answers: it is not marked, the last look has sent it a PING if it was due, and no
PING waits for longer than `R`. -/
structure Answers (R : Nat) (s : SessionId) (h : HeartbeatServer) : Prop where
  unmarked : s ∉ h.server.stale
  pinged : ∀ conn, h.server.gateway.connections s = some conn →
    conn.lastActivity + heartbeatIntervalMs < h.lastScan → (s, h.lastScan) ∈ h.pings
  answered : ∀ t ∈ h.unanswered s, h.server.now ≤ t + R

theorem answers_start : Answers R s start where
  unmarked := List.not_mem_nil
  pinged := (fun _ h => nomatch h)
  answered := (fun _ h => nomatch h)

/-- When the task looks again, a session that answers was heard of recently enough. -/
theorem Answers.recent (ha : Answers R s h) (hp : Punctual D h) (hR : R < heartbeatIntervalMs)
    (hD : D ≤ heartbeatIntervalMs) (due : h.since + heartbeatIntervalMs ≤ h.server.now)
    {conn : ConnectionState} (hconn : h.server.gateway.connections s = some conn) :
    h.server.now ≤ conn.lastActivity + heartbeatTimeoutMs := by
  by_contra hlate
  have hround := hp.now_le
  have hscanned := hp.scanned
  simp only [heartbeatTimeoutMs, Gateway.maxMissedHeartbeats] at hlate
  -- the look before has sent a PING, which is answered before this one
  have hping := ha.pinged conn hconn (by omega)
  have := ha.answered h.lastScan (mem_unanswered.mpr ⟨conn, hconn, hping, by omega⟩)
  omega

theorem Answers.beats (ha : Answers R s h) (hp : Punctual D h) (hr : Recent h) (hi : Pinged h)
    (hR : R < heartbeatIntervalMs) (hD : D ≤ heartbeatIntervalMs)
    (hresponds : responsive R s h a = true) (hbeat : Beats h a h') : Answers R s h' := by
  have hscanned := hp.scanned
  have hbegun := hp.begun
  cases hbeat with
  | @gateway b server continues clock =>
    refine ⟨fun hmark => ha.unmarked (continues.marks s hmark), ?_, ?_⟩
    · intro conn' hconn' hlt
      obtain ⟨conn, hconn, heq⟩ := continues.silent hconn' (Nat.lt_of_add_right_lt hlt)
        (hscanned.trans hbegun)
      rw [heq] at hlt
      exact ha.pinged conn hconn hlt
    · intro t ht
      obtain ⟨conn', hconn', hmem, hlt⟩ := mem_unanswered.mp ht
      obtain ⟨conn, hconn, heq⟩ := continues.silent hconn' hlt
        ((hi.past (s, t) hmem).trans (hscanned.trans hbegun))
      have hbefore : t ∈ h.unanswered s := mem_unanswered.mpr ⟨conn, hconn, hmem, heq ▸ hlt⟩
      rcases clock with hnow | ⟨ms, rfl, rfl⟩
      · show server.now ≤ t + R
        rw [hnow]
        exact ha.answered t hbefore
      · simp only [responsive, List.all_eq_true, decide_eq_true_eq] at hresponds
        exact hresponds t hbefore
  | @scan full due idle =>
    have hrecent : ∀ conn, h.server.gateway.connections s = some conn →
        h.server.now ≤ conn.lastActivity + heartbeatTimeoutMs :=
      fun conn hconn => ha.recent hp hR hD due hconn
    refine ⟨?_, ?_, ?_⟩
    · intro hmark
      have hmark : s ∈ h.server.gateway.staleSessions h.server.now := hmark
      cases hconn : h.server.gateway.connections s with
      | none => simp [Gateway.staleSessions, hconn] at hmark
      | some conn =>
        rw [mem_staleSessions (lt_nextSessionId hr hconn) hconn] at hmark
        exact Nat.not_le_of_lt hmark (hrecent conn hconn)
    · intro conn hconn hlt
      have hlt : conn.lastActivity + heartbeatIntervalMs < h.server.now := hlt
      have hfull : full s = false := by simpa [responsive] using hresponds
      refine List.mem_append_right _ (List.mem_map.mpr ⟨s, ?_, rfl⟩)
      exact (mem_pingedSessions (lt_nextSessionId hr hconn) hconn).mpr
        ⟨hrecent conn hconn, hlt, hfull⟩
    · intro t ht
      obtain ⟨conn, hconn, hmem, hlt⟩ := mem_unanswered.mp ht
      show h.server.now ≤ t + R
      rcases List.mem_append.mp hmem with hmem | hmem
      · exact ha.answered t (mem_unanswered.mpr ⟨conn, hconn, hmem, hlt⟩)
      · obtain ⟨_, -, heq⟩ := List.mem_map.mp hmem
        rw [← (Prod.mk.inj heq).2]
        exact Nat.le_add_right _ _

/-- A session whose channel has room for each PING and that answers it in less than an interval is
never marked for removal, if the task's delays in a round add up to at most an interval. -/
theorem heartbeat_keeps_responsive (hR : R < heartbeatIntervalMs) (hD : D ≤ heartbeatIntervalMs)
    (run : Run (step action?) (fun h a => timely D h a = true ∧ responsive R s h a = true) start h) :
    s ∉ h.server.stale := by
  have hinv : Punctual D h ∧ Recent h ∧ Pinged h ∧ Answers R s h :=
    run.invariant (I := fun h => Punctual D h ∧ Recent h ∧ Pinged h ∧ Answers R s h)
      ⟨punctual_start, recent_start, pinged_start, answers_start⟩
      fun ⟨hp, hr, hi, ha⟩ ⟨ontime, hresponds⟩ taken =>
      have hbeat := beats_of_step taken
      ⟨hp.beats ontime hbeat, hr.beats hp.toClock hbeat, hi.beats hp.toClock hr hbeat,
        ha.beats hp hr hi hR hD hresponds hbeat⟩
  exact hinv.2.2.2.unmarked

/-- A PING and, half a second later, its answer. -/
theorem heartbeat_keeps_responsive_pong :
    ∃ h, Run (step fun _ => none)
        (fun h a => timely 1000 h a = true ∧ responsive 500 1 h a = true) start h ∧
      h.pings = [(1, 60000)] ∧ 1 ∉ h.server.stale := by
  have hfinal : (exec (step fun _ => none)
      (fun h a => timely 1000 h a = true ∧ responsive 500 1 h a = true) start
      [.gateway (.accept true), .gateway (.elapse 30000), .scan fun _ => false,
        .gateway (.elapse 30000), .scan fun _ => false, .gateway (.elapse 500),
        .gateway (.frame 1 ⟨0, 0, Transport.FrameFlags.pong, []⟩ ⟨false, true⟩),
        .gateway (.elapse 29500), .scan fun _ => false]).map (·.pings) =
      some [(1, 60000)] := by decide +kernel
  obtain ⟨h, hexec, hpings⟩ := Option.map_eq_some_iff.mp hfinal
  exact ⟨h, Run.of_exec hexec, hpings,
    heartbeat_keeps_responsive (by decide) (by decide) (Run.of_exec hexec)⟩

/-! ## Removed sessions -/

/-- The session was opened once and is not in the tables. -/
def Gone (s : SessionId) (h : HeartbeatServer) : Prop :=
  s < h.server.gateway.nextSessionId ∧ h.server.gateway.connections s = none

theorem Gone.beats (hgone : Gone s h) (hbeat : Beats h a h') : Gone s h' := by
  cases hbeat with
  | gateway continues clock =>
    exact ⟨hgone.1.trans_le continues.next, continues.absent s hgone.1 hgone.2⟩
  | scan due idle => exact hgone

theorem recent_run {ok : HeartbeatServer → HeartbeatAction → Prop}
    (run : Run (step action?) ok start h) : Recent h :=
  (run.invariant (I := fun h => Clock h ∧ Recent h) ⟨⟨le_rfl, le_rfl⟩, recent_start⟩
    fun ⟨hc, hr⟩ _ taken => ⟨hc.beats (beats_of_step taken), hr.beats hc (beats_of_step taken)⟩).2

/-- When the task removes a session, the session's own task goes on reading, but in no continuation is
the session in the tables or the one to which frames for a peer are delivered. -/
theorem heartbeat_removed_unreachable {h'' : HeartbeatServer} {natsOk : Bool} {conn : ConnectionState}
    (before : Run (step action?) (fun _ _ => True) start h)
    (hconn : h.server.gateway.connections s = some conn)
    (taken : step action? h (.gateway (.heartbeatRemove s natsOk)) = some h')
    (after : Run (step action?) (fun _ _ => True) h' h'') :
    h'.server.phase s = h.server.phase s ∧ h''.server.gateway.connections s = none ∧
      ∀ p, h''.server.gateway.localSession p ≠ some s := by
  have hremoved : h'.server.phase = h.server.phase ∧
      h'.server.gateway = (h.server.gateway.removeConnection natsOk s).1 := by
    simp only [step, GatewayServer.step] at taken
    split at taken
    · cases taken
    · next server hserver =>
      cases taken
      split at hserver
      · cases hserver
        exact ⟨rfl, rfl⟩
      · cases hserver
  have hgone : Gone s h' := by
    refine ⟨?_, ?_⟩
    · rw [hremoved.2, (Gateway.keepsAbsent_removeConnection natsOk).next]
      exact lt_nextSessionId (recent_run before) hconn
    · rw [hremoved.2]
      exact Gateway.removeConnection_absent natsOk
  have hlast : Gone s h'' := after.invariant hgone fun hg _ taken => hg.beats (beats_of_step taken)
  refine ⟨by rw [hremoved.1], hlast.2, fun p hp => ?_⟩
  simp only [Gateway.localSession] at hp
  split at hp
  · cases hp
  · split at hp
    · cases hp
    · next target _ _ hsome =>
      cases hp
      rw [hlast.2] at hsome
      cases hsome

/-- A client that was idle for two minutes and names its peer once more. -/
theorem heartbeat_removed_unreachable_again :
    ∃ h h' h'', Run (step fun _ => none) (fun _ _ => True) start h ∧
      step (fun _ => none) h (.gateway (.heartbeatRemove 1 true)) = some h' ∧
      Run (step fun _ => none) (fun _ _ => True) h' h'' ∧
      h''.server.phase 1 = some .reading ∧ h''.server.gateway.peers [7] = some 1 ∧
      h''.server.gateway.localSession [7] ≠ some 1 := by
  have hfinal : ((exec (step fun _ => none) (fun _ _ => True) start
      [.gateway (.accept true),
        .gateway (.frame 1 (GatewayServer.initFrame [7]) ⟨false, true⟩),
        .gateway (.elapse 120000), .scan fun _ => false]).bind fun h =>
      (step (fun _ => none) h (.gateway (.heartbeatRemove 1 true))).bind fun h' =>
      (exec (step fun _ => none) (fun _ _ => True) h'
        [.gateway (.frame 1 (GatewayServer.initFrame [7]) ⟨false, true⟩)]).map fun h'' =>
      (h.server.gateway.connections 1, h''.server.phase 1, h''.server.gateway.peers [7])) =
      some (some ⟨[7], 0⟩, some .reading, some 1) := by decide +kernel
  obtain ⟨h, hbefore, hfinal⟩ := Option.bind_eq_some_iff.mp hfinal
  obtain ⟨h', taken, hfinal⟩ := Option.bind_eq_some_iff.mp hfinal
  obtain ⟨h'', hafter, hfinal⟩ := Option.map_eq_some_iff.mp hfinal
  simp only [Prod.mk.injEq] at hfinal
  obtain ⟨hconn, hphase, hpeers⟩ := hfinal
  refine ⟨h, h', h'', Run.of_exec hbefore, taken, Run.of_exec hafter, hphase, hpeers, ?_⟩
  exact (heartbeat_removed_unreachable (Run.of_exec hbefore) hconn taken
    (Run.of_exec hafter)).2.2 [7]

end HeartbeatServer

end Cypher
