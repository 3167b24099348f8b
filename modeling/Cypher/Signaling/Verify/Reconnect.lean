import Cypher.Lib.Lists
import Cypher.Signaling.Verify.Registry

/-!
# Closing sessions and reconnecting

Two properties of the handlers of `signaling.session.deregister`. The script of a deregistration
leaves a peer alone that has another session by then (`stale_deregister_harmless`). A session that
has been closed is gone from the registry once its registration and its deregistration have been
handled in this order (`closed_session_gone`), whatever happens to other sessions in between. The two
messages arrive on different subjects, though, and a deregistration that overtakes the registration
finds nothing to remove (`closed_session_back`). All of it is about ids that Lua holds exactly
(`scripts_exact`).
-/

namespace Cypher

def SessionEvent.session : SessionEvent → SessionId
  | .register s _ => s
  | .deregister s => s

end Cypher

namespace Cypher.Signaling

namespace Registry

variable {r : Registry} {s s' : SessionId} {p q : List Char}

/-! ### What a deregistration leaves alone -/

/-- The script for `s` writes no key of a peer that has another session, and none of that session. -/
theorem deregister_frame {session : PeerSession} (hsession : r.getSession p = some session)
    (hne : session.sessionId ≠ s) (q : List Char) :
    (r.deregister s q).1.sessions p = r.sessions p ∧
      (r.deregister s q).1.peers session.sessionId = r.peers session.sessionId := by
  rw [deregister_eq]
  refine ⟨?_, Function.update_of_ne hne _ _⟩
  by_cases hmine : r.sessionAt r.now q = some s
  · -- the peer whose session is taken out has `s`, so it is not `p`
    have hpq : p ≠ q := by
      rintro rfl
      rw [sessionAt_now, hsession] at hmine
      exact hne (Option.some.inj hmine)
    simp only [if_pos hmine]
    exact Function.update_of_ne hpq _ _
  · simp only [if_neg hmine]

/-! ### Session ids in Lua -/

theorem roundDouble_inj {s s' : SessionId} (hs : s < exactIds) (hs' : s' < exactIds) :
    Lib.roundDouble s = Lib.roundDouble s' ↔ s = s' := by
  have hbound : exactIds < 2 ^ 53 := by decide
  rw [Lib.roundDouble_eq_self_iff.mpr (Lib.isDouble_of_lt (hs.trans hbound)),
    Lib.roundDouble_eq_self_iff.mpr (Lib.isDouble_of_lt (hs'.trans hbound))]

theorem registerScript_eq (nodeId : String) (hs : s < exactIds)
    (hold : ∀ old, r.getSession p = some old → old.sessionId < exactIds) :
    r.registerScript nodeId s p = r.register nodeId s p := by
  unfold registerScript register
  cases hsession : r.getSession p with
  | none => rfl
  | some old =>
    have hlt := hold old hsession
    simp only [roundDouble_inj hlt hs, writtenId, if_pos hlt, Option.elim_some]

theorem deregisterScript_eq (hs : s < exactIds)
    (hold : ∀ session, r.getSession p = some session → session.sessionId < exactIds) :
    r.deregisterScript s p = r.deregister s p := by
  unfold deregisterScript deregister
  cases hsession : r.getSession p with
  | none => rfl
  | some session => simp only [roundDouble_inj (hold session hsession) hs]

/-! ### The entries of one session -/

/-- From now on the session `s` has entries under `p` only, and its reverse key is there whenever
the key of the peer holds it. -/
structure OnlyUnder (s : SessionId) (p : List Char) (r : Registry) : Prop where
  sessions : ∀ t, r.now ≤ t → ∀ q, r.sessionAt t q = some s → q = p ∧ r.peers.seen t s = some p
  peers : ∀ t, r.now ≤ t → ∀ q, r.peers.seen t s = some q → q = p

/-- From now on the session `s` has no reverse key. -/
def FreeOf (s : SessionId) (r : Registry) : Prop :=
  ∀ t, r.now ≤ t → r.peers.seen t s = none

theorem onlyUnder_empty : OnlyUnder s p empty where
  sessions _ _ _ h := nomatch h
  peers _ _ _ h := nomatch h

theorem freeOf_empty : FreeOf s empty :=
  fun _ _ => rfl

theorem freeOf_of_now (h : r.getPeerIdForSession s = none) : FreeOf s r := by
  intro t ht
  by_contra hsome
  obtain ⟨q, hq⟩ := Option.ne_none_iff_exists'.mp hsome
  rw [getPeerIdForSession, Lib.Expiring.seen_of_le ht hq] at h
  cases h

theorem OnlyUnder.elapse (h : OnlyUnder s p r) (ms : Nat) :
    OnlyUnder s p { r with now := r.now + ms } where
  sessions t ht := h.sessions t (Nat.le_of_add_right_le ht)
  peers t ht := h.peers t (Nat.le_of_add_right_le ht)

theorem FreeOf.elapse (h : FreeOf s r) (ms : Nat) : FreeOf s { r with now := r.now + ms } :=
  fun t ht => h t (Nat.le_of_add_right_le ht)

/-- The reverse keys that a registration under `q` leaves: those of other sessions, except that of
the session `q` had before. -/
theorem withoutOld_of_ne {t : Nat} (h : r.sessionAt r.now q ≠ some s) (s' : SessionId) :
    r.withoutOld s' q t s = r.peers.seen t s := by
  unfold withoutOld
  cases hold : r.getSession q with
  | none => rfl
  | some old =>
    have hne : s ≠ old.sessionId := by
      rintro rfl
      rw [sessionAt_now, hold] at h
      exact h rfl
    by_cases hs : old.sessionId = s'
    · simp only [if_pos hs]
    · simp only [if_neg hs]
      exact Function.update_of_ne hne _ _

theorem OnlyUnder.register_self (h : OnlyUnder s p r) (nodeId : String) :
    OnlyUnder s p (r.register nodeId s p).1 := by
  refine ⟨?_, ?_⟩
  · intro t ht q hq
    rw [register_now] at ht
    rw [peers_register, Function.update_self]
    rcases sessionAt_of_register hq with ⟨hqp, hlive, -⟩ | ⟨hqp, hold⟩
    · exact ⟨hqp, if_pos hlive⟩
    · exact absurd (h.sessions t ht q hold).1 hqp
  · intro t ht q hq
    rw [peers_register, Function.update_self] at hq
    split at hq
    · exact (Option.some.inj hq).symm
    · cases hq

theorem OnlyUnder.register_other (h : OnlyUnder s p r) (nodeId : String) (hne : s' ≠ s)
    (q : List Char) : OnlyUnder s p (r.register nodeId s' q).1 := by
  refine ⟨?_, ?_⟩
  · intro t ht q' hq'
    rw [register_now] at ht
    rcases sessionAt_of_register hq' with ⟨-, -, heq⟩ | ⟨hqq, hold⟩
    · exact absurd heq hne
    · obtain ⟨rfl, hpeer⟩ := h.sessions t ht q' hold
      refine ⟨rfl, ?_⟩
      -- the reverse key would go only with the entry under `p`, which stays
      have hold : r.sessionAt r.now q ≠ some s :=
        fun hs => hqq (h.sessions r.now (Nat.le_refl _) q hs).1.symm
      rw [peers_register, Function.update_of_ne hne.symm, withoutOld_of_ne hold, hpeer]
  · intro t ht q' hq'
    rw [register_now] at ht
    rw [peers_register, Function.update_of_ne hne.symm] at hq'
    exact h.peers t ht q' (withoutOld_eq_some hq')

theorem FreeOf.register_other (h : FreeOf s r) (nodeId : String) (hne : s' ≠ s) (q : List Char) :
    FreeOf s (r.register nodeId s' q).1 := by
  intro t ht
  rw [register_now] at ht
  rw [peers_register, Function.update_of_ne hne.symm]
  by_contra hsome
  obtain ⟨q', hq'⟩ := Option.ne_none_iff_exists'.mp hsome
  have hseen := withoutOld_eq_some hq'
  rw [h t ht] at hseen
  cases hseen

theorem peers_deregister (t : Nat) :
    (r.deregister s q).1.peers.seen t = Function.update (r.peers.seen t) s none := by
  rw [deregister_eq]
  exact Lib.Expiring.seen_del _ _ _

theorem deregister_now : (r.deregister s q).1.now = r.now := by
  rw [deregister_eq]

theorem sessionAt_of_deregister {t : Nat} {p : List Char}
    (h : (r.deregister s q).1.sessionAt t p = some s') : r.sessionAt t p = some s' := by
  rw [deregister_eq] at h
  by_cases hmine : r.sessionAt r.now q = some s
  · simp only [if_pos hmine, sessionAt_del] at h
    exact (Lib.of_erase h).2
  · simp only [if_neg hmine] at h
    exact h

theorem OnlyUnder.deregister_self (h : OnlyUnder s p r) : OnlyUnder s p (r.deregister s p).1 := by
  refine ⟨?_, ?_⟩
  · intro t ht q hq
    rw [deregister_now] at ht
    exfalso
    obtain ⟨rfl, -⟩ := h.sessions t ht q (sessionAt_of_deregister hq)
    have hnow := sessionAt_of_le ht (sessionAt_of_deregister hq)
    rw [deregister_eq] at hq
    simp only [if_pos hnow, sessionAt_del] at hq
    exact (Lib.of_erase hq).1 rfl
  · intro t ht q hq
    rw [peers_deregister, Function.update_self] at hq
    cases hq

theorem freeOf_deregister (q : List Char) : FreeOf s (r.deregister s q).1 := by
  intro t _
  rw [peers_deregister, Function.update_self]

theorem OnlyUnder.deregister_other (h : OnlyUnder s p r) (hne : s' ≠ s) (q : List Char) :
    OnlyUnder s p (r.deregister s' q).1 := by
  refine ⟨?_, ?_⟩
  · intro t ht q' hq'
    rw [deregister_now] at ht
    rw [peers_deregister, Function.update_of_ne hne.symm]
    exact h.sessions t ht q' (sessionAt_of_deregister hq')
  · intro t ht q' hq'
    rw [deregister_now] at ht
    rw [peers_deregister, Function.update_of_ne hne.symm] at hq'
    exact h.peers t ht q' hq'

theorem FreeOf.deregister_other (h : FreeOf s r) (hne : s' ≠ s) (q : List Char) :
    FreeOf s (r.deregister s' q).1 := by
  intro t ht
  rw [deregister_now] at ht
  rw [peers_deregister, Function.update_of_ne hne.symm]
  exact h t ht

end Registry

namespace Service

variable {service service' : Service} {s : SessionId} {p : List Char}

/-- **A stale deregistration takes no reconnected peer offline.** In every state of the service, if
the script of a deregistration of `s` runs while a peer has another session, the keys of that peer
and of that session are afterwards what they were. -/
theorem stale_deregister_harmless (service service' : Service) (i : Nat) (s : SessionId)
    (q : List Char) (hread : service.deregistering[i]? = some (s, q))
    (hstep : service.step (.runDeregister i) = some service') (p : List Char)
    (session : PeerSession) (hsession : service.registry.getSession p = some session)
    (hne : session.sessionId ≠ s) :
    service'.registry.sessions p = service.registry.sessions p ∧
      service'.registry.peers session.sessionId = service.registry.peers session.sessionId ∧
      service'.registry.getSession p = some session ∧
      service'.registry.getPeerIdForSession session.sessionId =
        service.registry.getPeerIdForSession session.sessionId := by
  simp only [Service.step, hread, Option.some.injEq] at hstep
  subst hstep
  obtain ⟨hkey, hreverse⟩ := Registry.deregister_frame hsession hne q
  have hnow : (service.registry.deregister s q).1.now = service.registry.now :=
    Registry.deregister_now
  refine ⟨hkey, hreverse, ?_, ?_⟩
  · rw [← hsession]
    simp only [Registry.getSession, Lib.Expiring.seen, Function.comp_apply, hnow, hkey]
  · simp only [Registry.getPeerIdForSession, Lib.Expiring.seen, Function.comp_apply, hnow, hreverse]

/-- A peer has reconnected when the script of its first session's deregistration runs. -/
theorem stale_deregister_harmless_reconnected :
    ∃ service service', Lib.exec step (fun _ _ => True) (start "gateway-0")
        (staleDeregister.take 6) = some service ∧
      service.step (.runDeregister 0) = some service' ∧
      service'.registry.getSession (hexEncode [7]) = some ⟨"gateway-0", 2⟩ := by
  have hbefore : (Lib.exec step (fun _ _ => True) (start "gateway-0") (staleDeregister.take 6)).map
      (fun service => (service.registry.getSession (hexEncode [7]), service.deregistering[0]?,
        (service.step (.runDeregister 0)).isSome)) =
        some (some ⟨"gateway-0", 2⟩, some (1, hexEncode [7]), true) := by decide +kernel
  obtain ⟨service, hexec, hfacts⟩ := Option.map_eq_some_iff.mp hbefore
  simp only [Prod.mk.injEq] at hfacts
  obtain ⟨hsession, hread, hruns⟩ := hfacts
  obtain ⟨service', hstep⟩ := Option.isSome_iff_exists.mp hruns
  exact ⟨service, service', hexec, hstep, (stale_deregister_harmless service service' 0 1
    (hexEncode [7]) hread hstep (hexEncode [7]) ⟨"gateway-0", 2⟩ hsession (by decide)).2.2.1⟩

/-! ## A session that is opened and closed -/

def messagesOf (s : SessionId) (events : List SessionEvent) : List SessionEvent :=
  events.filter fun event => event.session = s

/-- A deregistration of `s` is taken up only after the registrations of `s` have been handled. -/
def InTurn (s : SessionId) (service : Service) : ServiceAction → Prop
  | .handle i => service.inbound[i]? = some (.deregister s) →
      ∀ event ∈ service.inbound, event.session = s → event = .deregister s
  | _ => True

instance (s : SessionId) (service : Service) : (a : ServiceAction) → Decidable (service.InTurn s a)
  | .handle i => inferInstanceAs (Decidable (service.inbound[i]? = some (.deregister s) →
      ∀ event ∈ service.inbound, event.session = s → event = .deregister s))
  | .publish _ => isTrue trivial
  | .runDeregister _ => isTrue trivial
  | .elapse _ => isTrue trivial

/-- Where a session stands that registers `p` once and is then closed. -/
structure Standing (s : SessionId) (p : List Char) (service : Service) : Prop where
  queued : service.inbound.Sublist service.published
  registry : service.registry.OnlyUnder s p
  reads : ∀ d ∈ service.deregistering, d.1 = s → d.2 = p
  /-- The registration has not been handled. -/
  unregistered : messagesOf s service.published = [] ∨ .register s p ∈ service.inbound →
    service.registry.FreeOf s ∧ ∀ d ∈ service.deregistering, d.1 ≠ s
  /-- The deregistration has been taken up. -/
  inTurn : messagesOf s service.published = [.register s p, .deregister s] →
    .deregister s ∉ service.inbound → .register s p ∉ service.inbound
  /-- The deregistration has been handled. -/
  closed : messagesOf s service.published = [.register s p, .deregister s] →
    .deregister s ∉ service.inbound → (∀ d ∈ service.deregistering, d.1 ≠ s) →
      service.registry.FreeOf s

theorem standing_start (nodeId : String) : Standing s p (start nodeId) where
  queued := .slnil
  registry := Registry.onlyUnder_empty
  reads _ h := nomatch h
  unregistered _ := ⟨Registry.freeOf_empty, fun _ h => nomatch h⟩
  inTurn h := nomatch h
  closed h := nomatch h

/-- The published messages about `s` are a beginning of its two. -/
def Begun (s : SessionId) (p : List Char) (service : Service) : Prop :=
  messagesOf s service.published <+: [.register s p, .deregister s]

theorem mem_messagesOf {events : List SessionEvent} {event : SessionEvent} :
    event ∈ messagesOf s events ↔ event ∈ events ∧ event.session = s := by
  simp [messagesOf]

theorem messagesOf_append (events : List SessionEvent) (event : SessionEvent) :
    messagesOf s (events ++ [event]) =
      messagesOf s events ++ if event.session = s then [event] else [] := by
  by_cases hs : event.session = s <;> simp [messagesOf, hs]

theorem Begun.cases (h : service.Begun s p) :
    messagesOf s service.published = [] ∨ messagesOf s service.published = [.register s p] ∨
      messagesOf s service.published = [.register s p, .deregister s] := by
  unfold Begun at h
  simp only [List.prefix_cons_iff, List.prefix_nil] at h
  rcases h with h | ⟨t, ht, h | ⟨u, rfl, rfl⟩⟩
  · exact .inl h
  · exact .inr (.inl (by rw [ht, h]))
  · exact .inr (.inr ht)

namespace Standing

theorem eq_of_mem (h : Standing s p service) (hbegun : service.Begun s p) {event : SessionEvent}
    (hmem : event ∈ service.inbound) (hs : event.session = s) :
    event = .register s p ∨ event = .deregister s := by
  have hin : event ∈ messagesOf s service.published :=
    mem_messagesOf.mpr ⟨h.queued.subset hmem, hs⟩
  simpa using hbegun.subset hin

theorem not_mem_eraseIdx (h : Standing s p service) (hbegun : service.Begun s p) {i : Nat}
    {event : SessionEvent} (hi : service.inbound[i]? = some event) (hs : event.session = s) :
    event ∉ service.inbound.eraseIdx i := by
  have hnodup : (messagesOf s service.inbound).Nodup := by
    refine ((h.queued.filter _).trans hbegun.sublist).nodup ?_
    simp
  obtain ⟨hlt, rfl⟩ := List.getElem?_eq_some_iff.mp hi
  have hperm := (List.getElem_cons_eraseIdx_perm hlt).filter (fun event => event.session = s)
  rw [List.filter_cons_of_pos (by simpa using hs)] at hperm
  intro hmem
  refine (List.nodup_cons.mp (hperm.nodup_iff.mpr hnodup)).1 ?_
  exact mem_messagesOf.mpr ⟨hmem, hs⟩

theorem publish (h : Standing s p service) {event : SessionEvent}
    (hbegun : Begun s p { service with
      inbound := service.inbound ++ [event]
      published := service.published ++ [event] }) :
    Standing s p { service with
      inbound := service.inbound ++ [event]
      published := service.published ++ [event] } := by
  have hqueued := h.queued.append (List.Sublist.refl [event])
  have hall := hbegun.cases
  dsimp only at hall
  rw [messagesOf_append] at hall
  by_cases hs : event.session = s
  · rw [if_pos hs] at hall
    rcases hall with hall | hall | hall
    · exact absurd hall (by simp)
    · -- the registration is published, the first message about `s`
      obtain ⟨hnone, hevent⟩ := List.append_inj'
        (show _ ++ [event] = [] ++ [SessionEvent.register s p] from hall) rfl
      refine ⟨hqueued, h.registry, h.reads, fun _ => h.unregistered (.inl hnone), ?_, ?_⟩ <;>
        · intro htwo
          dsimp only at htwo
          rw [messagesOf_append, if_pos hs, hnone, hevent] at htwo
          cases htwo
    · -- the deregistration is published and waits
      obtain ⟨hone, hevent⟩ := List.append_inj'
        (show _ ++ [event] = [SessionEvent.register s p] ++ [.deregister s] from hall) rfl
      obtain rfl : event = .deregister s := by simpa using hevent
      refine ⟨hqueued, h.registry, h.reads, ?_, ?_, ?_⟩
      · intro hwaits
        refine h.unregistered (.inr ?_)
        dsimp only at hwaits
        rw [messagesOf_append, if_pos hs, hone] at hwaits
        simpa using hwaits
      · intro _ hgone
        exact absurd (List.mem_append_right _ (List.mem_singleton.mpr rfl)) hgone
      · intro _ hgone
        exact absurd (List.mem_append_right _ (List.mem_singleton.mpr rfl)) hgone
  · -- a message about another session
    have hsame : messagesOf s (service.published ++ [event]) = messagesOf s service.published := by
      rw [messagesOf_append, if_neg hs, List.append_nil]
    have hwaits : ∀ e : SessionEvent, e.session = s →
        (e ∈ service.inbound ++ [event] ↔ e ∈ service.inbound) := by
      intro e he
      have hne : e ≠ event := by
        rintro rfl
        exact hs he
      simp [hne]
    refine ⟨hqueued, h.registry, h.reads, ?_, ?_, ?_⟩ <;>
      simp only [hsame, hwaits (.register s p) rfl, hwaits (.deregister s) rfl]
    · exact h.unregistered
    · exact h.inTurn
    · exact h.closed

theorem handle_register (h : Standing s p service) (hbegun : service.Begun s p) {i : Nat}
    (hi : service.inbound[i]? = some (.register s p)) :
    Standing s p { service with
      registry := (service.registry.register service.nodeId s p).1
      inbound := service.inbound.eraseIdx i } := by
  have hgone := h.not_mem_eraseIdx hbegun hi rfl
  have hmem := List.mem_of_getElem? hi
  have hsome : messagesOf s service.published ≠ [] :=
    List.ne_nil_of_mem (mem_messagesOf.mpr ⟨h.queued.subset hmem, rfl⟩)
  have hderegister : (.deregister s ∈ service.inbound.eraseIdx i) ↔ .deregister s ∈ service.inbound :=
    Lib.mem_eraseIdx_iff hi (by simp)
  refine ⟨(List.eraseIdx_sublist _ _).trans h.queued, h.registry.register_self _, h.reads, ?_,
    fun _ _ => hgone, ?_⟩
  · rintro (hnone | hwaits)
    · exact absurd hnone hsome
    · exact absurd hwaits hgone
  · intro htwo htaken
    exact absurd hmem (h.inTurn htwo fun hin => htaken (hderegister.mpr hin))

theorem handle_deregister (h : Standing s p service) {i : Nat}
    (hi : service.inbound[i]? = some (.deregister s)) (hok : service.InTurn s (.handle i)) :
    Standing s p { service with
      inbound := service.inbound.eraseIdx i
      deregistering := service.deregistering ++
        ((service.registry.getPeerIdForSession s).map fun q => (s, q)).toList } := by
  have hregistered : .register s p ∉ service.inbound := by
    intro hmem
    exact nomatch hok hi _ hmem rfl
  have hsome : messagesOf s service.published ≠ [] :=
    List.ne_nil_of_mem (mem_messagesOf.mpr ⟨h.queued.subset (List.mem_of_getElem? hi), rfl⟩)
  refine ⟨(List.eraseIdx_sublist _ _).trans h.queued, h.registry, ?_, ?_, ?_, ?_⟩
  · intro d hd hds
    rcases List.mem_append.mp hd with hold | hnew
    · exact h.reads d hold hds
    · obtain ⟨q, hq, rfl⟩ := Option.map_eq_some_iff.mp (Option.mem_toList.mp hnew)
      exact h.registry.peers _ (Nat.le_refl _) q hq
  · rintro (hnone | hwaits)
    · exact absurd hnone hsome
    · exact absurd (List.mem_of_mem_eraseIdx hwaits) hregistered
  · exact fun _ _ hwaits => hregistered (List.mem_of_mem_eraseIdx hwaits)
  · intro _ _ hnone
    -- nothing was read, so there is nothing to take out
    refine Registry.freeOf_of_now ?_
    cases hread : service.registry.getPeerIdForSession s with
    | none => rfl
    | some q => exact absurd rfl (hnone (s, q) (by simp [hread]))

theorem handle_other (h : Standing s p service) {i : Nat} {event : SessionEvent}
    (hi : service.inbound[i]? = some event) (hs : event.session ≠ s) {registry : Registry}
    (hregistry : registry.OnlyUnder s p)
    (hfree : service.registry.FreeOf s → registry.FreeOf s)
    {deregistering : List (SessionId × List Char)}
    (hreads : ∀ d, d.1 = s → (d ∈ deregistering ↔ d ∈ service.deregistering)) :
    Standing s p { service with
      registry, inbound := service.inbound.eraseIdx i, deregistering } := by
  have hwaits : ∀ e : SessionEvent, e.session = s →
      (e ∈ service.inbound.eraseIdx i ↔ e ∈ service.inbound) := by
    intro e he
    refine Lib.mem_eraseIdx_iff hi ?_
    rintro rfl
    exact hs he
  have hnone : (∀ d ∈ deregistering, d.1 ≠ s) ↔ ∀ d ∈ service.deregistering, d.1 ≠ s :=
    ⟨fun hn d hd hds => hn d ((hreads d hds).mpr hd) hds,
      fun hn d hd hds => hn d ((hreads d hds).mp hd) hds⟩
  refine ⟨(List.eraseIdx_sublist _ _).trans h.queued, hregistry,
    fun d hd hds => h.reads d ((hreads d hds).mp hd) hds, ?_, ?_, ?_⟩ <;>
    simp only [hwaits (.register s p) rfl, hwaits (.deregister s) rfl, hnone]
  · intro hun
    obtain ⟨hf, hn⟩ := h.unregistered hun
    exact ⟨hfree hf, hn⟩
  · exact h.inTurn
  · exact fun htwo htaken hn => hfree (h.closed htwo htaken hn)

theorem runDeregister (h : Standing s p service) {i : Nat} {s' : SessionId} {q : List Char}
    (hi : service.deregistering[i]? = some (s', q)) :
    Standing s p { service with
      registry := (service.registry.deregister s' q).1
      deregistering := service.deregistering.eraseIdx i } := by
  have hread := List.mem_of_getElem? hi
  have hrest : ∀ d ∈ service.deregistering.eraseIdx i, d.1 = s → d.2 = p :=
    fun d hd => h.reads d (List.mem_of_mem_eraseIdx hd)
  by_cases hs : s' = s
  · subst hs
    obtain rfl : q = p := h.reads _ hread rfl
    refine ⟨h.queued, h.registry.deregister_self, hrest, ?_, h.inTurn,
      fun _ _ _ => Registry.freeOf_deregister q⟩
    intro hun
    exact absurd rfl ((h.unregistered hun).2 _ hread)
  · have hnone : (∀ d ∈ service.deregistering.eraseIdx i, d.1 ≠ s) →
        ∀ d ∈ service.deregistering, d.1 ≠ s := by
      intro hn d hd hds
      refine hn d ((Lib.mem_eraseIdx_iff hi ?_).mpr hd) hds
      rintro rfl
      exact hs hds
    refine ⟨h.queued, h.registry.deregister_other hs q, hrest, ?_, h.inTurn, ?_⟩
    · intro hun
      obtain ⟨hf, hn⟩ := h.unregistered hun
      exact ⟨hf.deregister_other hs q, fun d hd => hn d (List.mem_of_mem_eraseIdx hd)⟩
    · intro htwo htaken hn
      exact (h.closed htwo htaken (hnone hn)).deregister_other hs q

theorem step (h : Standing s p service) (hbegun : service.Begun s p) {a : ServiceAction}
    (hok : service.InTurn s a) (hstep : service.step a = some service')
    (hbegun' : service'.Begun s p) : Standing s p service' := by
  cases moves_of_step hstep with
  | published => exact h.publish hbegun'
  | @registered i s' q waits =>
    by_cases hs : s' = s
    · subst hs
      rcases h.eq_of_mem hbegun (List.mem_of_getElem? waits) rfl with heq | heq
      · obtain rfl : q = p := by simpa using heq
        exact h.handle_register hbegun waits
      · cases heq
    · exact h.handle_other waits hs (h.registry.register_other _ hs q)
        (fun hf => hf.register_other _ hs q) fun _ _ => Iff.rfl
  | @read i s' waits =>
    by_cases hs : s' = s
    · subst hs
      exact h.handle_deregister waits hok
    · refine h.handle_other waits hs h.registry id fun d hds => ?_
      simp only [List.mem_append, Option.mem_toList, Option.map_eq_some_iff]
      refine or_iff_left ?_
      rintro ⟨q, -, rfl⟩
      exact hs hds
  | deregistered reads => exact h.runDeregister reads
  | elapsed =>
    refine ⟨h.queued, h.registry.elapse _, h.reads, ?_, h.inTurn, ?_⟩
    · intro hun
      obtain ⟨hf, hn⟩ := h.unregistered hun
      exact ⟨hf.elapse _, hn⟩
    · exact fun htwo htaken hn => (h.closed htwo htaken hn).elapse _

end Standing

theorem Begun.of_step {a : ServiceAction} (hstep : service.step a = some service')
    (h : service'.Begun s p) : service.Begun s p := by
  cases moves_of_step hstep with
  | published =>
    unfold Begun at h
    dsimp only at h
    rw [messagesOf_append] at h
    exact (List.prefix_append _ _).trans h
  | registered | read | deregistered | elapsed => exact h

/-- **A closed session does not come back**, in every run in which its deregistration is not taken
up before its registration has been handled. Once both messages have been handled, the key of the
peer does not hold the session, the session has no peer, and nothing is forwarded to it. -/
theorem closed_session_gone (nodeId : String) (s : SessionId) (p : List Char) {service : Service}
    (hrun : Lib.Run Service.step (Service.InTurn s) (Service.start nodeId) service)
    (hmessages : messagesOf s service.published = [.register s p, .deregister s])
    (hhandled : messagesOf s service.inbound = [])
    (hscripts : ∀ d ∈ service.deregistering, d.1 ≠ s) :
    (∀ session, service.registry.getSession p = some session → session.sessionId ≠ s) ∧
      service.registry.getPeerIdForSession s = none ∧
      ∀ payload sent, (service.registry.tryForwardOrInbox p payload).1 ≠
        some (.session s sent) := by
  have hbegun : service.Begun s p := by
    rw [Begun, hmessages]
  have hstanding : service.Begun s p → Standing s p service :=
    hrun.invariant (I := fun v => v.Begun s p → Standing s p v) (fun _ => standing_start nodeId)
      fun h hok hstep hbegun' => (h (hbegun'.of_step hstep)).step (hbegun'.of_step hstep) hok hstep
        hbegun'
  have h := hstanding hbegun
  have hgone : .deregister s ∉ service.inbound := by
    intro hmem
    have hwaits : .deregister s ∈ messagesOf s service.inbound := mem_messagesOf.mpr ⟨hmem, rfl⟩
    rw [hhandled] at hwaits
    cases hwaits
  have hfree := h.closed hmessages hgone hscripts _ (Nat.le_refl _)
  have hkey : service.registry.sessionAt service.registry.now p ≠ some s := by
    intro hs
    have hpeer := (h.registry.sessions _ (Nat.le_refl _) p hs).2
    rw [hfree] at hpeer
    cases hpeer
  refine ⟨?_, hfree, ?_⟩
  · intro session hsession hs
    refine hkey ?_
    rw [Registry.sessionAt_now, hsession]
    exact congrArg some hs
  · intro payload sent hforward
    exact hkey (Registry.tryForwardOrInbox_eq_session_iff.mp hforward).1

/-- A peer reconnects while its first session is being closed. -/
def closing : List ServiceAction :=
  [.publish (.register 1 (hexEncode [7])), .publish (.deregister 1), .handle 0,
    .publish (.register 2 (hexEncode [7])), .handle 0, .handle 0, .runDeregister 0]

theorem closed_session_gone_reconnected :
    ∃ service, Lib.exec step (InTurn 1) (start "gateway-0") closing = some service ∧
      service.registry.getSession (hexEncode [7]) = some ⟨"gateway-0", 2⟩ ∧
      service.registry.getPeerIdForSession 1 = none := by
  have hfinal : (Lib.exec step (InTurn 1) (start "gateway-0") closing).map
      (fun service => (service.registry.getSession (hexEncode [7]),
        messagesOf 1 service.published, messagesOf 1 service.inbound,
        service.deregistering.length)) =
        some (some ⟨"gateway-0", 2⟩, [.register 1 (hexEncode [7]), .deregister 1], [], 0) := by
    decide +kernel
  obtain ⟨service, hexec, hfacts⟩ := Option.map_eq_some_iff.mp hfinal
  simp only [Prod.mk.injEq] at hfacts
  obtain ⟨hsession, hmessages, hhandled, hscripts⟩ := hfacts
  refine ⟨service, hexec, hsession, ?_⟩
  exact (closed_session_gone "gateway-0" 1 (hexEncode [7]) (Lib.Run.of_exec hexec) hmessages
    hhandled (by simp [List.length_eq_zero_iff.mp hscripts])).2.1

/-- The gateway publishes both messages of a session that is opened and closed. The deregistration is
handled first and finds nothing; the registration then brings the closed session back. -/
theorem closed_session_back :
    (Lib.exec (GatewayServer.step GatewayServer.noJson) (fun _ _ => True) GatewayServer.start
      [.accept true, .frame 1 (GatewayServer.initFrame [7]) ⟨false, true⟩, .disconnect 1,
        .finish 1 true]).map (·.events) =
      some [.register 1 (hexEncode [7]), .deregister 1] ∧
    (Lib.exec step (fun _ _ => True) (start "gateway-0")
      [.publish (.register 1 (hexEncode [7])), .publish (.deregister 1), .handle 1, .handle 0]).map
      (fun service => (service.registry.getSession (hexEncode [7]),
        service.registry.getPeerIdForSession 1, service.inbound, service.deregistering.length)) =
      some (some ⟨"gateway-0", 1⟩, some (hexEncode [7]), [], 0) := by
  decide +kernel

/-! ## Session ids in Lua -/

/-- The gateway publishes no id from `exactIds` on. -/
def SmallIds (_ : Service) : ServiceAction → Prop
  | .publish event => event.session < Registry.exactIds
  | _ => True

structure Exact (service : Service) : Prop where
  sessions : ∀ p s, service.registry.sessionAt service.registry.now p = some s →
    s < Registry.exactIds
  inbound : ∀ event ∈ service.inbound, event.session < Registry.exactIds
  deregistering : ∀ d ∈ service.deregistering, d.1 < Registry.exactIds

theorem exact_start (nodeId : String) : (start nodeId).Exact where
  sessions _ _ h := nomatch h
  inbound _ h := nomatch h
  deregistering _ h := nomatch h

theorem Exact.step (h : service.Exact) {a : ServiceAction} (hok : service.SmallIds a)
    (hstep : service.step a = some service') : service'.Exact := by
  cases moves_of_step hstep with
  | published =>
    refine ⟨h.sessions, ?_, h.deregistering⟩
    exact List.forall_mem_append.mpr ⟨h.inbound, List.forall_mem_singleton.mpr hok⟩
  | registered waits =>
    refine ⟨?_, fun event he => h.inbound event (List.mem_of_mem_eraseIdx he), h.deregistering⟩
    intro p s hs
    rw [Registry.register_now] at hs
    rcases Registry.sessionAt_of_register hs with ⟨-, -, rfl⟩ | ⟨-, hold⟩
    · exact h.inbound _ (List.mem_of_getElem? waits)
    · exact h.sessions p s hold
  | read waits =>
    refine ⟨h.sessions, fun event he => h.inbound event (List.mem_of_mem_eraseIdx he), ?_⟩
    refine List.forall_mem_append.mpr ⟨h.deregistering, fun d hd => ?_⟩
    obtain ⟨p, -, rfl⟩ := Option.map_eq_some_iff.mp (Option.mem_toList.mp hd)
    exact h.inbound _ (List.mem_of_getElem? waits)
  | deregistered reads =>
    refine ⟨?_, h.inbound, fun d hd => h.deregistering d (List.mem_of_mem_eraseIdx hd)⟩
    intro p s hs
    rw [Registry.deregister_now] at hs
    exact h.sessions p s (Registry.sessionAt_of_deregister hs)
  | elapsed =>
    refine ⟨fun p s hs => h.sessions p s ?_, h.inbound, h.deregistering⟩
    exact Registry.sessionAt_of_le (Nat.le_add_right _ _) hs

/-- **The scripts do what `register` and `deregister` say**, in every run in which the gateway's ids
are below `exactIds`. -/
theorem scripts_exact (nodeId : String) {service : Service}
    (run : Lib.Run Service.step Service.SmallIds (Service.start nodeId) service) :
    (∀ s p, .register s p ∈ service.inbound →
      service.registry.registerScript service.nodeId s p =
        service.registry.register service.nodeId s p) ∧
    ∀ s p, (s, p) ∈ service.deregistering →
      service.registry.deregisterScript s p = service.registry.deregister s p := by
  have h : service.Exact :=
    run.invariant (exact_start nodeId) fun h hok hstep => h.step hok hstep
  have hsession : ∀ p session, service.registry.getSession p = some session →
      session.sessionId < Registry.exactIds := by
    intro p session hp
    refine h.sessions p _ ?_
    rw [Registry.sessionAt_now, hp]
    rfl
  exact ⟨fun s p hs => Registry.registerScript_eq _ (h.inbound _ hs) (hsession p),
    fun s p hs => Registry.deregisterScript_eq (h.deregistering _ hs) (hsession p)⟩

end Service

end Cypher.Signaling
