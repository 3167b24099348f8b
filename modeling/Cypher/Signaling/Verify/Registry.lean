import Cypher.Gateway.Verify.Tables
import Cypher.Signaling.Delivery

/-!
# Whom the registry points at

The two keys of a registration are a map and its reverse map, at every time up to their common
deadline. If no session is registered under two peer ids, registrations and deregistrations keep the
two paired whatever the order in which they are handled (`registry_paired`): a session's entries can
then only be under its one peer. A session that registers twice breaks it (`second_peer_shadowed`).
-/

namespace Cypher.Signaling

namespace Registry

/-- The session of each peer, as seen at time `t`. -/
def sessionAt (r : Registry) (t : Nat) : List Char → Option SessionId :=
  Option.map PeerSession.sessionId ∘ r.sessions.seen t

def OneName (names : SessionId → List Char → Prop) : Prop :=
  ∀ s p q, names s p → names s q → q = p

/-- From now on every entry is of a session and the peer that names it, and the entries of peers are
answered by those of sessions. -/
structure Sound (names : SessionId → List Char → Prop) (r : Registry) : Prop where
  paired : ∀ t, r.now ≤ t → Lib.Paired (r.sessionAt t) (r.peers.seen t)
  sessions : ∀ t, r.now ≤ t → ∀ p s, r.sessionAt t p = some s → names s p
  peers : ∀ t, r.now ≤ t → ∀ s p, r.peers.seen t s = some p → names s p

section Scripts

variable {names : SessionId → List Char → Prop} {r : Registry} {s : SessionId} {p : List Char}

theorem sessionAt_now (r : Registry) (p : List Char) :
    r.sessionAt r.now p = (r.getSession p).map PeerSession.sessionId :=
  rfl

theorem sessionAt_of_le {t t' : Nat} (hle : t ≤ t') (h : r.sessionAt t' p = some s) :
    r.sessionAt t p = some s := by
  obtain ⟨session, hsession, hs⟩ := Option.map_eq_some_iff.mp h
  exact Option.map_eq_some_iff.mpr ⟨session, Lib.Expiring.seen_of_le hle hsession, hs⟩

theorem sound_empty : Sound names empty where
  paired _ _ _ _ h := nomatch h
  sessions _ _ _ _ h := nomatch h
  peers _ _ _ _ h := nomatch h

theorem Sound.elapse (h : Sound names r) (ms : Nat) :
    Sound names { r with now := r.now + ms } where
  paired t ht := h.paired t (Nat.le_of_add_right_le ht)
  sessions t ht := h.sessions t (Nat.le_of_add_right_le ht)
  peers t ht := h.peers t (Nat.le_of_add_right_le ht)

variable (hnames : OneName names)

include hnames in
theorem Sound.only (h : Sound names r) (hp : names s p) {t : Nat} (ht : r.now ≤ t) :
    ∀ q, r.sessionAt t q = some s → q = p :=
  fun q hq => hnames s p q hp (h.sessions t ht q s hq)

/-! ### Registration -/

theorem sessionAt_register (nodeId : String) (t : Nat) :
    (r.register nodeId s p).1.sessionAt t =
      Function.update (r.sessionAt t) p (if t ≤ r.now + sessionTtl then some s else none) := by
  have hset : Option.map PeerSession.sessionId ∘ (r.sessions.set p ⟨nodeId, s⟩
      (r.now + sessionTtl)).seen t =
      Function.update (r.sessionAt t) p (if t ≤ r.now + sessionTtl then some s else none) := by
    rw [Lib.Expiring.seen_set, Function.comp_update]
    by_cases ht : t ≤ r.now + sessionTtl <;> simp [ht, sessionAt]
  rw [← hset]
  unfold register
  cases hold : r.getSession p with
  | none => rfl
  | some old =>
    by_cases hs : old.sessionId = s
    · simp only [if_pos hs]
      rfl
    · simp only [if_neg hs]
      rfl

theorem sessionAt_of_register {nodeId : String} {t : Nat} {q : List Char} {s' : SessionId}
    (h : (r.register nodeId s p).1.sessionAt t q = some s') :
    q = p ∧ t ≤ r.now + sessionTtl ∧ s = s' ∨ q ≠ p ∧ r.sessionAt t q = some s' := by
  rw [sessionAt_register] at h
  refine (Lib.of_update h).imp_left (.imp_right fun hnew => ?_)
  rwa [Option.ite_none_right_eq_some, Option.some.injEq] at hnew

/-- The sessions' peers before the new entry is set. -/
def withoutOld (r : Registry) (s : SessionId) (p : List Char) (t : Nat) :
    SessionId → Option (List Char) :=
  match r.getSession p with
  | none => r.peers.seen t
  | some old =>
    if old.sessionId = s then r.peers.seen t
    else Function.update (r.peers.seen t) old.sessionId none

theorem peers_register (nodeId : String) (t : Nat) :
    (r.register nodeId s p).1.peers.seen t =
      Function.update (r.withoutOld s p t) s
        (if t ≤ r.now + sessionTtl then some p else none) := by
  unfold register withoutOld
  cases hold : r.getSession p with
  | none => exact Lib.Expiring.seen_set _ _ _ _ _
  | some old =>
    by_cases hs : old.sessionId = s
    · simp only [if_pos hs]
      exact Lib.Expiring.seen_set _ _ _ _ _
    · simp only [if_neg hs, ← Lib.Expiring.seen_del]
      exact Lib.Expiring.seen_set _ _ _ _ _

theorem register_now (nodeId : String) : (r.register nodeId s p).1.now = r.now := by
  unfold register
  cases r.getSession p with
  | none => rfl
  | some old => by_cases hs : old.sessionId = s <;> simp [hs]

theorem withoutOld_eq_some {t : Nat} {s' : SessionId} {q : List Char}
    (h : r.withoutOld s p t s' = some q) : r.peers.seen t s' = some q := by
  unfold withoutOld at h
  cases hold : r.getSession p with
  | none =>
    simp only [hold] at h
    exact h
  | some old =>
    simp only [hold] at h
    by_cases hs : old.sessionId = s
    · rw [if_pos hs] at h
      exact h
    · rw [if_neg hs] at h
      exact (Lib.of_erase h).2

include hnames in
/-- Without its own entry a peer's old session has no entry left, so its answer may go. -/
theorem Sound.paired_withoutOld (h : Sound names r) {t : Nat} (ht : r.now ≤ t) :
    Lib.Paired (Function.update (r.sessionAt t) p none) (r.withoutOld s p t) := by
  have herased := (h.paired t ht).erase p
  unfold withoutOld
  cases hold : r.getSession p with
  | none => exact herased
  | some old =>
    by_cases hs : old.sessionId = s
    · simp only [if_pos hs]
      exact herased
    · simp only [if_neg hs]
      have hnamed : names old.sessionId p := by
        refine h.sessions r.now (Nat.le_refl _) p old.sessionId ?_
        rw [sessionAt_now, hold]
        rfl
      exact herased.answer (Lib.free_of_erase (h.only hnames hnamed ht)) none

include hnames in
theorem Sound.register (h : Sound names r) (nodeId : String) (hp : names s p) :
    Sound names (r.register nodeId s p).1 := by
  refine ⟨?_, ?_, ?_⟩
  · intro t ht
    rw [register_now] at ht
    have hrest := h.paired_withoutOld hnames (s := s) (p := p) ht
    have honly : ∀ q, Function.update (r.sessionAt t) p none q = some s → q = p :=
      fun q hq => absurd hq (Lib.free_of_erase (h.only hnames hp ht) q)
    rw [sessionAt_register, peers_register]
    by_cases hlive : t ≤ r.now + sessionTtl
    · simp only [if_pos hlive]
      have hlink := hrest.link honly
      rwa [Function.update_idem] at hlink
    · simp only [if_neg hlive]
      have hunlink := hrest.unlink honly none
      rwa [Function.update_idem] at hunlink
  · intro t ht q s' hq
    rw [register_now] at ht
    rcases sessionAt_of_register hq with ⟨rfl, -, rfl⟩ | ⟨-, hold⟩
    · exact hp
    · exact h.sessions t ht q s' hold
  · intro t ht s' q hq
    rw [register_now] at ht
    rw [peers_register] at hq
    rcases Lib.of_update hq with ⟨rfl, hnew⟩ | ⟨-, hold⟩
    · rw [Option.ite_none_right_eq_some, Option.some.injEq] at hnew
      exact hnew.2 ▸ hp
    · exact h.peers t ht s' q (withoutOld_eq_some hold)

/-! ### Deregistration -/

theorem deregister_eq :
    (r.deregister s p).1 =
      { r with
        sessions := if r.sessionAt r.now p = some s then r.sessions.del p else r.sessions
        peers := r.peers.del s } := by
  unfold deregister
  cases hsession : r.getSession p with
  | none => simp [sessionAt_now, hsession]
  | some session =>
    by_cases hs : session.sessionId = s <;> simp [sessionAt_now, hsession, hs]

theorem sessionAt_del (t : Nat) :
    sessionAt { r with sessions := r.sessions.del p, peers := r.peers.del s } t =
      Function.update (r.sessionAt t) p none := by
  simp only [sessionAt, Lib.Expiring.seen_del, Function.comp_update]
  rfl

include hnames in
theorem Sound.deregister (h : Sound names r) (hp : names s p) :
    Sound names (r.deregister s p).1 := by
  have hpeers : ∀ t, r.now ≤ t → ∀ s' q, (r.peers.del s).seen t s' = some q → names s' q := by
    intro t ht s' q hq
    rw [Lib.Expiring.seen_del] at hq
    exact h.peers t ht s' q (Lib.of_erase hq).2
  rw [deregister_eq]
  by_cases hmine : r.sessionAt r.now p = some s
  · rw [if_pos hmine]
    refine ⟨?_, ?_, hpeers⟩
    · intro t ht
      have hunlink := (h.paired t ht).unlink (h.only hnames hp ht) none
      rwa [← sessionAt_del (s := s), ← Lib.Expiring.seen_del] at hunlink
    · intro t ht q s' hq
      rw [sessionAt_del] at hq
      exact h.sessions t ht q s' (Lib.of_erase hq).2
  · rw [if_neg hmine]
    refine ⟨?_, h.sessions, hpeers⟩
    intro t ht
    -- an entry of the session would be under its one name, and would be there now
    have hfree : ∀ q, r.sessionAt t q ≠ some s := by
      intro q hq
      rw [h.only hnames hp ht q hq] at hq
      exact hmine (sessionAt_of_le ht hq)
    have hanswer := (h.paired t ht).answer hfree none
    rwa [← Lib.Expiring.seen_del] at hanswer

/-! ### Forwarding -/

theorem tryForwardOrInbox_eq_session_iff {payload sent : Bytes} :
    (r.tryForwardOrInbox p payload).1 = some (.session s sent) ↔
      r.sessionAt r.now p = some s ∧ sent = payload := by
  unfold tryForwardOrInbox
  rw [sessionAt_now]
  cases hsession : r.getSession p with
  | some session => simp [eq_comm]
  | none =>
    -- an inbox, or nothing
    cases r.getPrekeys p with
    | none => simp
    | some bundle => cases hinbox : bundle.inboxId <;> simp [hinbox]

end Scripts

end Registry

/-! ## Runs of the service -/

namespace Service

variable {service service' : Service}

inductive Moves (service : Service) : ServiceAction → Service → Prop
  | published {event} : Moves service (.publish event) { service with
      inbound := service.inbound ++ [event]
      published := service.published ++ [event] }
  | registered {i s peerIdHex} (waits : service.inbound[i]? = some (.register s peerIdHex)) :
      Moves service (.handle i) { service with
        registry := (service.registry.register service.nodeId s peerIdHex).1
        inbound := service.inbound.eraseIdx i }
  | read {i s} (waits : service.inbound[i]? = some (.deregister s)) :
      Moves service (.handle i) { service with
        inbound := service.inbound.eraseIdx i
        deregistering := service.deregistering ++
          ((service.registry.getPeerIdForSession s).map fun peerIdHex => (s, peerIdHex)).toList }
  | deregistered {i s peerIdHex} (reads : service.deregistering[i]? = some (s, peerIdHex)) :
      Moves service (.runDeregister i) { service with
        registry := (service.registry.deregister s peerIdHex).1
        deregistering := service.deregistering.eraseIdx i }
  | elapsed {ms} : Moves service (.elapse ms) { service with
      registry := { service.registry with now := service.registry.now + ms } }

theorem moves_of_step {a : ServiceAction} (hstep : service.step a = some service') :
    Moves service a service' := by
  cases a with
  | publish event =>
    obtain rfl := Option.some.inj hstep
    exact .published
  | handle i =>
    simp only [Service.step] at hstep
    split at hstep
    · cases hstep
    · next waits =>
      obtain rfl := Option.some.inj hstep
      exact .registered waits
    · next waits =>
      obtain rfl := Option.some.inj hstep
      exact .read waits
  | runDeregister i =>
    simp only [Service.step] at hstep
    split at hstep
    · cases hstep
    · next reads =>
      obtain rfl := Option.some.inj hstep
      exact .deregistered reads
  | elapse ms =>
    obtain rfl := Option.some.inj hstep
    exact .elapsed

/-- The sessions and peers of the registrations published so far. -/
def Named (service : Service) (s : SessionId) (p : List Char) : Prop :=
  .register s p ∈ service.published

/-- An event names no other peer than `p` for the session `s`. -/
def Agrees (s : SessionId) (p : List Char) : SessionEvent → Prop
  | .register s' q => s' = s → q = p
  | .deregister _ => True

instance (s : SessionId) (p : List Char) : (event : SessionEvent) → Decidable (Agrees s p event)
  | .register s' q => inferInstanceAs (Decidable (s' = s → q = p))
  | .deregister _ => isTrue trivial

/-- A registration names no second peer for its session. -/
def Regular (service : Service) : ServiceAction → Prop
  | .publish (.register s p) => ∀ event ∈ service.published, Agrees s p event
  | _ => True

instance (service : Service) : (a : ServiceAction) → Decidable (service.Regular a)
  | .publish (.register s p) =>
    inferInstanceAs (Decidable (∀ event ∈ service.published, Agrees s p event))
  | .publish (.deregister _) => isTrue trivial
  | .handle _ => isTrue trivial
  | .runDeregister _ => isTrue trivial
  | .elapse _ => isTrue trivial

structure Sound (service : Service) : Prop where
  registry : service.registry.Sound service.Named
  oneName : Registry.OneName service.Named
  inbound : ∀ event ∈ service.inbound, event ∈ service.published
  deregistering : ∀ d ∈ service.deregistering, service.Named d.1 d.2

theorem sound_start (nodeId : String) : (start nodeId).Sound where
  registry := Registry.sound_empty
  oneName _ _ _ h := nomatch h
  inbound _ h := nomatch h
  deregistering _ h := nomatch h

theorem Sound.publish (h : service.Sound) {event : SessionEvent}
    (hok : service.Regular (.publish event)) :
    Sound { service with
      inbound := service.inbound ++ [event]
      published := service.published ++ [event] } := by
  have hgrow : ∀ s p, service.Named s p → .register s p ∈ service.published ++ [event] :=
    fun s p hp => List.mem_append_left _ hp
  refine ⟨?_, ?_, ?_, ?_⟩
  · exact ⟨h.registry.paired, fun t ht p s hs => hgrow s p (h.registry.sessions t ht p s hs),
      fun t ht s p hs => hgrow s p (h.registry.peers t ht s p hs)⟩
  · intro s p q hp hq
    simp only [Named, List.mem_append, List.mem_singleton] at hp hq
    rcases hp with hp | hp
    · rcases hq with hq | hq
      · exact h.oneName s p q hp hq
      · rw [← hq] at hok
        exact (hok _ hp rfl).symm
    · rcases hq with hq | hq
      · rw [← hp] at hok
        exact hok _ hq rfl
      · rw [← hp] at hq
        cases hq
        rfl
  · intro event' hmem
    rcases List.mem_append.mp hmem with hold | hnew
    · exact List.mem_append_left _ (h.inbound event' hold)
    · exact List.mem_append_right _ hnew
  · exact fun d hd => hgrow d.1 d.2 (h.deregistering d hd)

theorem Sound.step (h : service.Sound) {a : ServiceAction} (hok : service.Regular a)
    (hstep : service.step a = some service') : service'.Sound := by
  have hrest : ∀ i, ∀ event ∈ service.inbound.eraseIdx i, event ∈ service.published :=
    fun i event hmem => h.inbound event (List.mem_of_mem_eraseIdx hmem)
  cases moves_of_step hstep with
  | published => exact h.publish hok
  | registered waits =>
    exact ⟨h.registry.register h.oneName _ (h.inbound _ (List.mem_of_getElem? waits)), h.oneName,
      hrest _, h.deregistering⟩
  | read waits =>
    refine ⟨h.registry, h.oneName, hrest _, List.forall_mem_append.mpr ⟨h.deregistering, ?_⟩⟩
    intro d hd
    -- what was read is an entry, so it was registered
    obtain ⟨p, hp, rfl⟩ := Option.map_eq_some_iff.mp (Option.mem_toList.mp hd)
    exact h.registry.peers _ (Nat.le_refl _) _ p hp
  | deregistered reads =>
    have hnamed := h.deregistering _ (List.mem_of_getElem? reads)
    exact ⟨h.registry.deregister h.oneName hnamed, h.oneName, h.inbound,
      fun d hd => h.deregistering d (List.mem_of_mem_eraseIdx hd)⟩
  | elapsed => exact ⟨h.registry.elapse _, h.oneName, h.inbound, h.deregistering⟩

/-- **The registry points a peer at its own session** in every run in which no session is registered
under two peer ids: the session that a peer's key holds has that peer, and what is forwarded to a
peer is published for a session that has that peer. -/
theorem registry_paired (nodeId : String) {service : Service}
    (hrun : Lib.Run Service.step Service.Regular (Service.start nodeId) service) :
    (∀ p session, service.registry.getSession p = some session →
      service.registry.getPeerIdForSession session.sessionId = some p) ∧
    ∀ p payload s sent,
      (service.registry.tryForwardOrInbox p payload).1 = some (.session s sent) →
        service.registry.getPeerIdForSession s = some p := by
  have hsound : service.Sound :=
    hrun.invariant (sound_start nodeId) (fun h hok hstep => h.step hok hstep)
  have hpaired := hsound.registry.paired service.registry.now (Nat.le_refl _)
  constructor
  · intro p session hsession
    refine hpaired p session.sessionId ?_
    rw [Registry.sessionAt_now, hsession]
    rfl
  · intro p payload s sent hforward
    exact hpaired p s (Registry.tryForwardOrInbox_eq_session_iff.mp hforward).1

/-- A peer reconnects; the deregistration of its first session has read the registry before, and its
script runs after. -/
def staleDeregister : List ServiceAction :=
  [.publish (.register 1 (hexEncode [7])), .handle 0, .publish (.deregister 1), .handle 0,
    .publish (.register 2 (hexEncode [7])), .handle 0, .runDeregister 0, .elapse 1000]

theorem registry_paired_stale :
    ∃ service, Lib.exec step Regular (start "gateway-0") staleDeregister = some service ∧
      service.registry.getSession (hexEncode [7]) = some ⟨"gateway-0", 2⟩ ∧
      service.registry.getPeerIdForSession 2 = some (hexEncode [7]) := by
  have hfinal : (Lib.exec step Regular (start "gateway-0") staleDeregister).map
      (fun service => service.registry.getSession (hexEncode [7])) =
        some (some ⟨"gateway-0", 2⟩) := by decide +kernel
  obtain ⟨service, hexec, hsession⟩ := Option.map_eq_some_iff.mp hfinal
  exact ⟨service, hexec, hsession,
    (registry_paired "gateway-0" (Lib.Run.of_exec hexec)).1 _ _ hsession⟩

/-- The gateway registers both ids of a session that sends SESSION_INIT twice, and the key of the
first then holds a session whose peer is the second. -/
theorem second_peer_shadowed :
    (Lib.exec (GatewayServer.step GatewayServer.noJson) (fun _ _ => True) GatewayServer.start
      [.accept true, .frame 1 (GatewayServer.initFrame [7]) ⟨false, true⟩,
        .frame 1 (GatewayServer.initFrame [8]) ⟨false, true⟩]).map (·.events) =
      some [.register 1 (hexEncode [7]), .register 1 (hexEncode [8])] ∧
    (Lib.exec step (fun _ _ => True) (start "gateway-0")
      [.publish (.register 1 (hexEncode [7])), .publish (.register 1 (hexEncode [8])), .handle 0,
        .handle 0]).map
      (fun service => (service.registry.getSession (hexEncode [7]),
        service.registry.getPeerIdForSession 1)) =
      some (some ⟨"gateway-0", 1⟩, some (hexEncode [8])) := by
  decide +kernel

end Service

end Cypher.Signaling
