import Cypher.Gateway.Sessions
import Cypher.Lib.Paired

/-!
# The two tables of the gateway

`peers` and the peer ids in `connections` are a map and its reverse map. Every operation keeps them
paired, except SESSION_INIT on a session that the heartbeat has removed, one that names a second id,
and one with an empty id, which `remove_connection` takes for a session without a peer. Runs without
these keep the tables consistent (`tables_consistent`).
-/

namespace Cypher

open Proto Transport

namespace Gateway

def names (g : Gateway) : SessionId → Option Bytes :=
  Option.map ConnectionState.peerId ∘ g.connections

structure Consistent (g : Gateway) : Prop where
  paired : Lib.Paired g.peers g.names
  /-- No session is entered under the empty id. -/
  nonempty : ∀ s, g.peers [] ≠ some s
  bounded : ∀ s, g.nextSessionId ≤ s → g.connections s = none

/-- A session may be given a peer id: it has a connection, and an entry that the connection has in
`peers` is under this id. -/
def MayName (g : Gateway) (s : SessionId) (peerId : Bytes) : Prop :=
  match g.connections s with
  | none => False
  | some conn => conn.peerId = [] ∨ conn.peerId = peerId ∨ g.peers conn.peerId ≠ some s

instance (g : Gateway) (s : SessionId) (peerId : Bytes) : Decidable (g.MayName s peerId) :=
  match h : g.connections s with
  | none => isFalse (by simp [MayName, h])
  | some conn =>
    decidable_of_iff (conn.peerId = [] ∨ conn.peerId = peerId ∨ g.peers conn.peerId ≠ some s)
      (by simp [MayName, h])

section Operations

variable {g : Gateway} {s : SessionId}

theorem names_of_connection {conn : ConnectionState} (h : g.connections s = some conn) :
    g.names s = some conn.peerId := by
  simp [names, h]

theorem names_of_update {connections : SessionId → Option ConnectionState} {peers next}
    {x : Option ConnectionState} :
    (Gateway.mk (Function.update connections s x) peers next).names =
      Function.update (Gateway.mk connections peers next).names s (x.map ConnectionState.peerId) :=
  Function.comp_update _ _ _ _

theorem Consistent.peerId_of_entry (h : g.Consistent) {conn : ConnectionState}
    (hconn : g.connections s = some conn) {p : Bytes} (hp : g.peers p = some s) :
    p = conn.peerId := by
  have hname := h.paired p s hp
  rw [names_of_connection hconn] at hname
  exact (Option.some.inj hname).symm

theorem consistent_new : new.Consistent where
  paired _ _ h := nomatch h
  nonempty _ h := nomatch h
  bounded _ _ := rfl

theorem Consistent.openSession (h : g.Consistent) (now : Nat) :
    (g.openSession now).1.Consistent := by
  have hfree : ∀ p, g.peers p ≠ some g.nextSessionId := by
    intro p hp
    have hname := h.paired p _ hp
    simp [names, h.bounded _ (Nat.le_refl _)] at hname
  refine ⟨?_, h.nonempty, ?_⟩
  · simp only [Gateway.openSession, names_of_update]
    exact h.paired.answer hfree _
  · intro s hs
    have hlt : g.nextSessionId < s := hs
    simp only [Gateway.openSession]
    rw [Function.update_of_ne (Nat.ne_of_gt hlt)]
    exact h.bounded s (Nat.le_of_lt hlt)

/-- The tables after an operation on existing sessions: no connection is added. -/
structure KeepsAbsent (g g' : Gateway) : Prop where
  next : g'.nextSessionId = g.nextSessionId
  absent : ∀ s, g.connections s = none → g'.connections s = none

theorem KeepsAbsent.refl : KeepsAbsent g g :=
  ⟨rfl, fun _ h => h⟩

theorem KeepsAbsent.trans {g' g'' : Gateway} (h : KeepsAbsent g g') (h' : KeepsAbsent g' g'') :
    KeepsAbsent g g'' :=
  ⟨h'.next.trans h.next, fun s hs => h'.absent s (h.absent s hs)⟩

theorem KeepsAbsent.bounded {g' : Gateway} (h : KeepsAbsent g g')
    (hg : ∀ s, g.nextSessionId ≤ s → g.connections s = none) :
    ∀ s, g'.nextSessionId ≤ s → g'.connections s = none := by
  intro s hs
  rw [h.next] at hs
  exact h.absent s (hg s hs)

theorem keepsAbsent_update {conn : ConnectionState} (hconn : g.connections s = some conn)
    (x : Option ConnectionState) (peers : Bytes → Option SessionId) :
    KeepsAbsent g ⟨Function.update g.connections s x, peers, g.nextSessionId⟩ := by
  refine ⟨rfl, ?_⟩
  intro s' hs'
  have hne : s' ≠ s := by
    rintro rfl
    rw [hs'] at hconn
    cases hconn
  exact (Function.update_of_ne hne _ _).trans hs'

theorem touch_of_connection {conn : ConnectionState} (h : g.connections s = some conn)
    (now : Nat) :
    g.touch now s =
      ⟨Function.update g.connections s (some { conn with lastActivity := now }), g.peers,
        g.nextSessionId⟩ := by
  simp only [touch, h]

theorem touch_of_none (h : g.connections s = none) (now : Nat) : g.touch now s = g := by
  simp only [touch, h]

theorem keepsAbsent_touch (now : Nat) : KeepsAbsent g (g.touch now s) := by
  cases hconn : g.connections s with
  | none =>
    rw [touch_of_none hconn]
    exact .refl
  | some conn =>
    rw [touch_of_connection hconn]
    exact keepsAbsent_update hconn _ _

theorem Consistent.touch (h : g.Consistent) (now : Nat) : (g.touch now s).Consistent := by
  have hbounded := (keepsAbsent_touch (g := g) (s := s) now).bounded h.bounded
  cases hconn : g.connections s with
  | none =>
    rw [touch_of_none hconn]
    exact h
  | some conn =>
    rw [touch_of_connection hconn] at hbounded ⊢
    refine ⟨?_, h.nonempty, hbounded⟩
    have hsame : Function.update g.names s (some conn.peerId) = g.names := by
      rw [← names_of_connection hconn, Function.update_eq_self]
    rw [names_of_update, Option.map_some, hsame]
    exact h.paired

theorem MayName.touch {p : Bytes} (h : g.MayName s p) (now : Nat) :
    (g.touch now s).MayName s p := by
  unfold MayName at h
  cases hconn : g.connections s with
  | none => simp [hconn] at h
  | some conn =>
    simp only [hconn] at h
    rw [touch_of_connection hconn]
    simpa [MayName] using h

/-! ### SESSION_INIT -/

theorem handleSessionInit_of_none {natsOk : Bool} {payload : Bytes}
    (h : sessionInitId payload = none) : (g.handleSessionInit natsOk s payload).1 = g := by
  simp only [handleSessionInit, h]

theorem handleSessionInit_of_absent {natsOk : Bool} {payload p : Bytes}
    (h : sessionInitId payload = some p) (hconn : g.connections s = none) :
    (g.handleSessionInit natsOk s payload).1 =
      { g with peers := Function.update g.peers p (some s) } := by
  simp only [handleSessionInit, h, setPeerId, hconn]
  cases natsOk <;> rfl

theorem handleSessionInit_of_connection {natsOk : Bool} {payload p : Bytes}
    (h : sessionInitId payload = some p) {conn : ConnectionState}
    (hconn : g.connections s = some conn) :
    (g.handleSessionInit natsOk s payload).1 =
      ⟨Function.update g.connections s (some { conn with peerId := p }),
        Function.update g.peers p (some s), g.nextSessionId⟩ := by
  simp only [handleSessionInit, h, setPeerId, hconn]
  cases natsOk <;> rfl

theorem keepsAbsent_handleSessionInit (natsOk : Bool) (payload : Bytes) :
    KeepsAbsent g (g.handleSessionInit natsOk s payload).1 := by
  cases hid : sessionInitId payload with
  | none =>
    rw [handleSessionInit_of_none hid]
    exact .refl
  | some p =>
    cases hconn : g.connections s with
    | none =>
      rw [handleSessionInit_of_absent hid hconn]
      exact ⟨rfl, fun _ h => h⟩
    | some conn =>
      rw [handleSessionInit_of_connection hid hconn]
      exact keepsAbsent_update hconn _ _

theorem Consistent.handleSessionInit (h : g.Consistent) (natsOk : Bool) {payload : Bytes}
    (hok : ∀ p ∈ sessionInitId payload, p ≠ [] ∧ g.MayName s p) :
    (g.handleSessionInit natsOk s payload).1.Consistent := by
  have hbounded :=
    (keepsAbsent_handleSessionInit (g := g) (s := s) natsOk payload).bounded h.bounded
  cases hid : sessionInitId payload with
  | none =>
    rw [handleSessionInit_of_none hid]
    exact h
  | some p =>
    obtain ⟨hp, hmay⟩ := hok p hid
    unfold MayName at hmay
    cases hconn : g.connections s with
    | none => simp [hconn] at hmay
    | some conn =>
      simp only [hconn] at hmay
      -- an entry of `s` is under the connection's id, so it is the one that is written now
      have honly : ∀ q, g.peers q = some s → q = p := by
        intro q hq
        have hqc := h.peerId_of_entry hconn hq
        rcases hmay with hempty | heq | hno
        · rw [hqc, hempty] at hq
          exact absurd hq (h.nonempty s)
        · exact hqc.trans heq
        · rw [hqc] at hq
          exact absurd hq hno
      rw [handleSessionInit_of_connection hid hconn] at hbounded ⊢
      refine ⟨?_, ?_, hbounded⟩
      · rw [names_of_update]
        exact h.paired.link honly
      · intro s'
        dsimp only
        rw [Function.update_of_ne hp.symm]
        exact h.nonempty s'

/-! ### Removal -/

theorem removeConnection_of_none {natsOk : Bool} (h : g.connections s = none) :
    (g.removeConnection natsOk s).1 = g := by
  simp only [removeConnection, h]

theorem removeConnection_of_connection {natsOk : Bool} {conn : ConnectionState}
    (h : g.connections s = some conn) :
    (g.removeConnection natsOk s).1 =
      ⟨Function.update g.connections s none,
        if conn.peerId ≠ [] ∧ g.peers conn.peerId = some s then
          Function.update g.peers conn.peerId none
        else g.peers,
        g.nextSessionId⟩ := by
  simp only [removeConnection, h]
  by_cases hempty : conn.peerId = []
  · simp [hempty]
  · by_cases hentry : g.peers conn.peerId = some s
    · simp [hempty, hentry]
    · simp [hempty, hentry]

theorem removeConnection_absent (natsOk : Bool) :
    (g.removeConnection natsOk s).1.connections s = none := by
  cases hconn : g.connections s with
  | none =>
    rw [removeConnection_of_none hconn]
    exact hconn
  | some conn =>
    rw [removeConnection_of_connection hconn]
    exact Function.update_self _ _ _

theorem keepsAbsent_removeConnection (natsOk : Bool) :
    KeepsAbsent g (g.removeConnection natsOk s).1 := by
  cases hconn : g.connections s with
  | none =>
    rw [removeConnection_of_none hconn]
    exact .refl
  | some conn =>
    rw [removeConnection_of_connection hconn]
    exact keepsAbsent_update hconn _ _

theorem Consistent.removeConnection (h : g.Consistent) (natsOk : Bool) :
    (g.removeConnection natsOk s).1.Consistent := by
  have hbounded := (keepsAbsent_removeConnection (g := g) (s := s) natsOk).bounded h.bounded
  cases hconn : g.connections s with
  | none =>
    rw [removeConnection_of_none hconn]
    exact h
  | some conn =>
    rw [removeConnection_of_connection hconn] at hbounded ⊢
    have honly : ∀ q, g.peers q = some s → q = conn.peerId :=
      fun q hq => h.peerId_of_entry hconn hq
    by_cases hentry : conn.peerId ≠ [] ∧ g.peers conn.peerId = some s
    · simp only [if_pos hentry] at hbounded ⊢
      refine ⟨?_, ?_, hbounded⟩
      · rw [names_of_update]
        exact h.paired.unlink honly _
      · intro s'
        dsimp only
        rw [Function.update_of_ne hentry.1.symm]
        exact h.nonempty s'
    · simp only [if_neg hentry] at hbounded ⊢
      refine ⟨?_, h.nonempty, hbounded⟩
      rw [names_of_update]
      refine h.paired.answer ?_ _
      intro q hq
      have hqc := honly q hq
      refine hentry ⟨?_, hqc ▸ hq⟩
      intro hempty
      rw [hqc, hempty] at hq
      exact h.nonempty s hq

/-! ### One turn of the read loop -/

/-- The id that a frame names in SESSION_INIT. -/
def frameInitId (frame : Frame) : Option Bytes :=
  if FrameFlags.contains frame.flags FrameFlags.sessionInit then sessionInitId frame.payload
  else none

theorem readFrame_cases (action? : Bytes → Option String) (now : Nat) (env : FrameEnv)
    (frame : Frame) :
    (g.readFrame action? now env s frame).1 = g.touch now s ∨
      (frameInitId frame = sessionInitId frame.payload ∧
        (g.readFrame action? now env s frame).1 =
          ((g.touch now s).handleSessionInit env.natsOk s frame.payload).1) := by
  unfold readFrame
  by_cases hping : FrameFlags.contains frame.flags FrameFlags.ping = true
  · simp [hping]
  by_cases hpong : FrameFlags.contains frame.flags FrameFlags.pong = true
  · simp [hping, hpong]
  by_cases hclose : FrameFlags.contains frame.flags FrameFlags.sessionClose = true
  · simp [hping, hpong, hclose]
  by_cases hinit : FrameFlags.contains frame.flags FrameFlags.sessionInit = true
  · simp [hping, hpong, hclose, hinit, frameInitId]
  · cases env.limited <;> simp [hping, hpong, hclose, hinit]

theorem keepsAbsent_readFrame (action? : Bytes → Option String) (now : Nat) (env : FrameEnv)
    (frame : Frame) : KeepsAbsent g (g.readFrame action? now env s frame).1 := by
  rcases readFrame_cases (g := g) (s := s) action? now env frame with heq | ⟨-, heq⟩
  · rw [heq]
    exact keepsAbsent_touch now
  · rw [heq]
    exact (keepsAbsent_touch now).trans (keepsAbsent_handleSessionInit _ _)

theorem Consistent.readFrame (h : g.Consistent) (action? : Bytes → Option String) (now : Nat)
    (env : FrameEnv) {frame : Frame}
    (hok : ∀ p ∈ frameInitId frame, p ≠ [] ∧ g.MayName s p) :
    (g.readFrame action? now env s frame).1.Consistent := by
  rcases readFrame_cases (g := g) (s := s) action? now env frame with heq | ⟨hid, heq⟩
  · rw [heq]
    exact h.touch now
  · rw [heq]
    refine (h.touch now).handleSessionInit env.natsOk ?_
    intro p hp
    obtain ⟨hne, hmay⟩ := hok p (hid ▸ hp)
    exact ⟨hne, hmay.touch now⟩

end Operations

end Gateway

/-! ## Runs of the server -/

namespace GatewayServer

variable {server server' : GatewayServer} {action? : Bytes → Option String}

/-- SESSION_INIT carries an id, comes while the session has a connection, and names no second id. -/
def Regular (server : GatewayServer) : GatewayAction → Prop
  | .frame s frame _ => ∀ p ∈ Gateway.frameInitId frame, p ≠ [] ∧ server.gateway.MayName s p
  | _ => True

instance (server : GatewayServer) : (a : GatewayAction) → Decidable (server.Regular a)
  | .frame s frame _ => inferInstanceAs (Decidable
      (∀ p ∈ Gateway.frameInitId frame, p ≠ [] ∧ server.gateway.MayName s p))
  | .accept _ => isTrue trivial
  | .disconnect _ => isTrue trivial
  | .finish _ _ => isTrue trivial
  | .elapse _ => isTrue trivial
  | .scan => isTrue trivial
  | .heartbeatRemove _ _ => isTrue trivial

structure Sound (server : GatewayServer) : Prop where
  tables : server.gateway.Consistent
  begun : ∀ s, server.gateway.nextSessionId ≤ s → server.phase s = none
  gone : ∀ s, server.phase s = some .returned → server.gateway.connections s = none

theorem sound_start : start.Sound :=
  ⟨Gateway.consistent_new, fun _ _ => rfl, fun _ h => nomatch h⟩

theorem Sound.keep (h : server.Sound) {gateway : Gateway} (htables : gateway.Consistent)
    (hkeeps : Gateway.KeepsAbsent server.gateway gateway) (now : Nat) (stale : List SessionId)
    (events : List SessionEvent) :
    Sound ⟨gateway, now, stale, server.phase, events⟩ where
  tables := htables
  begun s hs := h.begun s (hkeeps.next ▸ hs)
  gone s hs := hkeeps.absent s (h.gone s hs)

theorem Sound.enter (h : server.Sound) {s : SessionId} {old new : Phase}
    (hold : server.phase s = some old)
    (hnew : new = .returned → server.gateway.connections s = none) :
    Sound { server with phase := Function.update server.phase s (some new) } := by
  refine ⟨h.tables, ?_, ?_⟩
  · intro s' hs'
    have hne : s' ≠ s := by
      rintro rfl
      rw [h.begun s' hs'] at hold
      cases hold
    exact (Function.update_of_ne hne _ _).trans (h.begun s' hs')
  · intro s' hs'
    dsimp only at hs'
    by_cases hs : s' = s
    · rw [hs, Function.update_self] at hs'
      rw [hs]
      exact hnew (Option.some.inj hs')
    · rw [Function.update_of_ne hs] at hs'
      exact h.gone s' hs'

theorem Sound.accept (h : server.Sound) {subscribed : Bool}
    (hstep : server.step action? (.accept subscribed) = some server') : server'.Sound := by
  simp only [GatewayServer.step, Option.some.injEq] at hstep
  subst hstep
  have hbegun : ∀ s, server.gateway.nextSessionId + 1 ≤ s → server.phase s = none :=
    fun s hs => h.begun s (Nat.le_of_succ_le hs)
  -- the new session's id is above those of all sessions that have returned
  have hgone : ∀ s, server.phase s = some .returned →
      (server.gateway.openSession server.now).1.connections s = none := by
    intro s hs
    have hne : s ≠ server.gateway.nextSessionId := by
      rintro rfl
      rw [h.begun _ (Nat.le_refl _)] at hs
      cases hs
    exact (Function.update_of_ne hne _ _).trans (h.gone s hs)
  cases subscribed with
  | false => exact ⟨h.tables.openSession server.now, hbegun, hgone⟩
  | true =>
    refine ⟨h.tables.openSession server.now, ?_, ?_⟩
    · intro s hs
      have hlt : server.gateway.nextSessionId < s := hs
      exact (Function.update_of_ne (Nat.ne_of_gt hlt) _ _).trans (hbegun s hs)
    · intro s hs
      have hne : s ≠ server.gateway.nextSessionId := by
        rintro rfl
        simp [Gateway.openSession] at hs
      exact hgone s ((Function.update_of_ne hne _ _).symm.trans hs)

theorem Sound.frame (h : server.Sound) {s : SessionId} {frame : Frame} {env : FrameEnv}
    (hok : server.Regular (.frame s frame env))
    (hstep : server.step action? (.frame s frame env) = some server') : server'.Sound := by
  simp only [GatewayServer.step, Option.ite_none_right_eq_some, Option.some.injEq] at hstep
  obtain ⟨hphase, rfl⟩ := hstep
  have hkept := h.keep (h.tables.readFrame action? server.now env hok)
    (Gateway.keepsAbsent_readFrame action? server.now env frame) server.now server.stale
    (server.events ++ (server.gateway.readFrame action? server.now env s frame).2.1)
  cases (server.gateway.readFrame action? server.now env s frame).2.2 with
  | true => exact hkept
  | false => exact hkept.enter hphase (fun hnew => nomatch hnew)

theorem Sound.step (h : server.Sound) {a : GatewayAction} (hok : server.Regular a)
    (hstep : server.step action? a = some server') : server'.Sound := by
  cases a with
  | accept subscribed => exact h.accept hstep
  | frame s frame env => exact h.frame hok hstep
  | disconnect s =>
    simp only [GatewayServer.step, Option.ite_none_right_eq_some, Option.some.injEq] at hstep
    obtain ⟨hphase, rfl⟩ := hstep
    exact h.enter hphase (fun hnew => nomatch hnew)
  | finish s natsOk =>
    simp only [GatewayServer.step, Option.ite_none_right_eq_some, Option.some.injEq] at hstep
    obtain ⟨hphase, rfl⟩ := hstep
    exact (h.keep (h.tables.removeConnection natsOk)
      (Gateway.keepsAbsent_removeConnection natsOk) server.now server.stale _).enter hphase
      (fun _ => Gateway.removeConnection_absent natsOk)
  | elapse ms =>
    simp only [GatewayServer.step, Option.some.injEq] at hstep
    subst hstep
    exact h.keep h.tables .refl _ _ _
  | scan =>
    simp only [GatewayServer.step, Option.ite_none_right_eq_some, Option.some.injEq] at hstep
    obtain ⟨-, rfl⟩ := hstep
    exact h.keep h.tables .refl _ _ _
  | heartbeatRemove s natsOk =>
    simp only [GatewayServer.step, Option.ite_none_right_eq_some, Option.some.injEq] at hstep
    obtain ⟨-, rfl⟩ := hstep
    exact h.keep (h.tables.removeConnection natsOk)
      (Gateway.keepsAbsent_removeConnection natsOk) _ _ _

/-- **The gateway's tables stay consistent** in every run in which each SESSION_INIT carries an id,
comes while its session has a connection, and names no second id: an entry of `peers` is under the
id of its session's connection, and a session whose task has returned has no entry. -/
theorem tables_consistent (action? : Bytes → Option String) {server : GatewayServer}
    (hrun : Lib.Run (GatewayServer.step action?) GatewayServer.Regular GatewayServer.start server) :
    (∀ p s, server.gateway.peers p = some s →
      ∃ conn, server.gateway.connections s = some conn ∧ conn.peerId = p) ∧
    ∀ s, server.phase s = some .returned → ∀ p, server.gateway.peers p ≠ some s := by
  have hsound : server.Sound := hrun.invariant sound_start (fun h hok hstep => h.step hok hstep)
  have hentries : ∀ p s, server.gateway.peers p = some s →
      ∃ conn, server.gateway.connections s = some conn ∧ conn.peerId = p := by
    intro p s hp
    exact Option.map_eq_some_iff.mp (hsound.tables.paired p s hp)
  refine ⟨hentries, ?_⟩
  intro s hs p hp
  obtain ⟨conn, hconn, -⟩ := hentries p s hp
  rw [hsound.gone s hs] at hconn
  cases hconn

/-! ## Runs of one and two sessions -/

def initFrame (clientId : Bytes) : Frame :=
  ⟨0, 0, FrameFlags.sessionInit, (⟨sessionInit, (clientId, [], ())⟩ : Message).serialize⟩

def noJson : Bytes → Option String :=
  fun _ => none

/-- A peer connects again; the heartbeat then removes its first session. -/
def reconnect : List GatewayAction :=
  [.accept true, .frame 1 (initFrame [7]) ⟨false, true⟩, .elapse 100000, .accept true,
    .frame 2 (initFrame [7]) ⟨false, true⟩, .scan, .heartbeatRemove 1 true, .disconnect 1,
    .finish 1 true]

theorem tables_consistent_reconnect :
    ∃ server, Lib.exec (step noJson) Regular start reconnect = some server ∧
      server.gateway.peers [7] = some 2 ∧ ∀ p, server.gateway.peers p ≠ some 1 := by
  have hfinal : (Lib.exec (step noJson) Regular start reconnect).map
      (fun server => (server.gateway.peers [7], server.phase 1)) =
        some (some 2, some .returned) := by decide +kernel
  obtain ⟨server, hexec, hfinal⟩ := Option.map_eq_some_iff.mp hfinal
  obtain ⟨hpeers, hphase⟩ := Prod.mk.inj hfinal
  exact ⟨server, hexec, hpeers,
    (tables_consistent noJson (Lib.Run.of_exec hexec)).2 1 hphase⟩

/-- A session names a second id and ends: the entry under its first id stays, for a session that is
gone. -/
theorem second_id_left_behind :
    (Lib.exec (step noJson) (fun _ _ => True) start
      [.accept true, .frame 1 (initFrame [7]) ⟨false, true⟩, .frame 1 (initFrame [8]) ⟨false, true⟩,
        .disconnect 1, .finish 1 true]).map
      (fun server => (server.gateway.peers [7], server.gateway.connections 1, server.phase 1)) =
      some (some 1, none, some .returned) := by
  decide +kernel

end GatewayServer

end Cypher
