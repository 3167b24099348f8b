import Cypher.Lib.Paired
import Cypher.Onion.Pool
import Mathlib.Algebra.BigOperators.Group.Finset.Piecewise

/-!
# Runs of the transport pool

* No two requests of a client are encrypted under the same nonce, whatever the pipelines and the
  background tasks do: a circuit is in the pool or with one handle (`Owned`), and its counter is
  above every number used under its id.
* A shadow session carries at most thirty requests, all within ten minutes.
* The number of ready circuits is bounded by the target and the calls of `acquire`, and not by the
  target alone: every circuit in the pool or with a handle (`relayHandles`) comes from a task of its
  own, and only `release` looks at the target.
-/

namespace Cypher.Onion.PoolSystem

open Crypto Lib

variable {P : Primitives} {s t : PoolSystem} {a : PoolAction}

/-! ## What a step does -/

/-- The transitions, with the parts of `acquire`, `request` and `release` told apart. -/
inductive Moves (P : Primitives) (s : PoolSystem) : PoolAction → PoolSystem → Prop
  | startWarming : Moves P s .startWarming { s with
      warming := s.warming + if s.pool.relay.isSome then s.pool.targetCount else 0
      starts := s.starts + 1 }
  | warmed {ek circuitId relayPk} (busy : 0 < s.warming) :
      Moves P s (.warmed ek circuitId) { s with
        pool := s.pool.push (Circuit.new P ek circuitId relayPk)
        warming := s.warming - 1
        sampled := s.sampled ++ [circuitId] }
  | warmFailed (busy : 0 < s.warming) :
      Moves P s .warmFailed { s with warming := s.warming - 1 }
  | byTor : Moves P s (.acquire true)
      ({ s with acquires := s.acquires + 1 }.hold (.tor ⟨s.now, 0⟩))
  | popped {rest circuit} (ready : s.pool.relayCircuits = rest ++ [circuit]) (warm : Bool) :
      Moves P s (.acquire false) ({ s with
        acquires := s.acquires + 1
        pool := { s.pool with relayCircuits := rest }
        warming := s.warming + if warm then 1 else 0 }.hold (.relay circuit))
  | empty (none : s.pool.relayCircuits = []) (warm : Bool) :
      Moves P s (.acquire false) { s with
        acquires := s.acquires + 1
        warming := s.warming + if warm then 1 else 0
        connecting := s.connecting + 1 }
  | connected (waits : 0 < s.connecting) : Moves P s .connected
      ({ s with connecting := s.connecting - 1 }.hold (.direct ⟨s.now, 0⟩))
  | connectFailed (waits : 0 < s.connecting) :
      Moves P s .connectFailed { s with connecting := s.connecting - 1 }
  | encrypted {h circuit payload sent} (held : s.handles h = some (.relay circuit)) :
      Moves P s (.request h payload sent)
        { s.replace h (.relay { circuit with seq := (circuit.seq + 1) % u64Size }) with
          encrypted := s.encrypted ++ [(circuit.circuitId, circuit.seq)] }
  | shadowSent {h session payload sent} {wrap : ShadowSession → TransportHandle}
      (shadow : wrap = .tor ∨ wrap = .direct) (held : s.handles h = some (wrap session))
      (live : session.isExpired s.now = false) :
      Moves P s (.request h payload sent)
        { s.replace h (wrap { session with requestCount := session.requestCount + 1 }) with
          shadowSent := s.shadowSent ++ [(h, s.now)] }
  /-- The session has expired or its connection fails: the handle is as before. -/
  | shadowFailed {h session payload sent} {wrap : ShadowSession → TransportHandle}
      (shadow : wrap = .tor ∨ wrap = .direct) (held : s.handles h = some (wrap session)) :
      Moves P s (.request h payload sent) (s.replace h (wrap session))
  | returned {h circuit} (held : s.handles h = some (.relay circuit))
      (room : s.pool.relayCircuits.length < s.pool.targetCount) :
      Moves P s (.release h) { s.drop h with pool := s.pool.push circuit }
  | dropped {a h} (isRequest : a = .release h ∨ a = .abandon h) (held : (s.handles h).isSome) :
      Moves P s a (s.drop h)
  | elapse {ms} : Moves P s (.elapse ms) { s with now := s.now + ms }

theorem moves_shadowRequest {h : HandleId} {session : ShadowSession} {payload : Bytes}
    {sent : Result Unit} {wrap : ShadowSession → TransportHandle}
    (shadow : wrap = .tor ∨ wrap = .direct) (held : s.handles h = some (wrap session)) :
    Moves P s (.request h payload sent) (s.shadowRequest h session sent wrap) := by
  by_cases hexp : session.isExpired s.now = true
  · have : s.shadowRequest h session sent wrap = s.replace h (wrap session) := by
      simp only [shadowRequest, ShadowSession.send, hexp, if_true]
    rw [this]
    exact .shadowFailed shadow held
  · have hlive : session.isExpired s.now = false := by simpa using hexp
    cases sent with
    | ok u =>
      have : s.shadowRequest h session (.ok u) wrap =
          { s.replace h (wrap { session with requestCount := session.requestCount + 1 }) with
            shadowSent := s.shadowSent ++ [(h, s.now)] } := by
        simp only [shadowRequest, ShadowSession.send, hlive, Bool.false_eq_true, if_false]
      rw [this]
      exact .shadowSent shadow held hlive
    | error err =>
      have : s.shadowRequest h session (.error err) wrap = s.replace h (wrap session) := by
        simp only [shadowRequest, ShadowSession.send, hlive, Bool.false_eq_true, if_false]
      rw [this]
      exact .shadowFailed shadow held

theorem moves_of_step (h : step P s a = some t) : Moves P s a t := by
  cases a with
  | startWarming =>
    cases h
    exact .startWarming
  | warmed ek circuitId =>
    simp only [step] at h
    split at h
    · cases h
    · split at h
      · next busy =>
        cases h
        exact .warmed busy
      · cases h
  | warmFailed =>
    simp only [step] at h
    split at h
    · next busy =>
      cases h
      exact .warmFailed busy
    · cases h
  | acquire tor =>
    cases tor with
    | true =>
      cases h
      exact .byTor
    | false =>
      rcases List.eq_nil_or_concat s.pool.relayCircuits with hnil | ⟨rest, circuit, hready⟩
      · simp only [step, Bool.false_eq_true, if_false, TransportPool.pop, hnil,
          List.getLast?_nil, Option.some.injEq] at h
        subst h
        exact .empty hnil s.pool.relay.isSome
      · rw [List.concat_eq_append] at hready
        simp only [step, Bool.false_eq_true, if_false, TransportPool.pop, hready,
          List.getLast?_concat, List.dropLast_concat, Option.some.injEq] at h
        subst h
        exact .popped hready _
  | connected =>
    simp only [step] at h
    split at h
    · next waits =>
      cases h
      exact .connected waits
    · cases h
  | connectFailed =>
    simp only [step] at h
    split at h
    · next waits =>
      cases h
      exact .connectFailed waits
    · cases h
  | request n payload sent =>
    simp only [step] at h
    split at h
    · cases h
    · next circuit held =>
      cases h
      exact .encrypted held
    · next session held =>
      cases h
      exact moves_shadowRequest (Or.inl rfl) held
    · next session held =>
      cases h
      exact moves_shadowRequest (Or.inr rfl) held
  | release n =>
    simp only [step] at h
    split at h
    · cases h
    · next circuit held =>
      cases h
      by_cases room : s.pool.relayCircuits.length < s.pool.targetCount
      · have : s.pool.putBack circuit = s.pool.push circuit := if_pos room
        rw [this]
        exact .returned held room
      · have : s.pool.putBack circuit = s.pool := if_neg room
        rw [this]
        exact .dropped (Or.inl rfl) (by rw [held]; rfl)
    · next held =>
      cases h
      exact .dropped (Or.inl rfl) (by rw [held]; rfl)
  | abandon n =>
    simp only [step] at h
    split at h
    · next held =>
      cases h
      exact .dropped (Or.inr rfl) held
    · cases h
  | elapse ms =>
    cases h
    exact .elapse

/-! ## Circuits have one owner -/

/-- The circuit is ready in the pool or held by a handle. -/
def Live (s : PoolSystem) (c : Circuit) : Prop :=
  c ∈ s.pool.relayCircuits ∨ ∃ h, s.handles h = some (.relay c)

structure Owned (s : PoolSystem) : Prop where
  pool_nodup : (s.pool.relayCircuits.map (·.circuitId)).Nodup
  disjoint : ∀ h c, s.handles h = some (.relay c) →
    ∀ d ∈ s.pool.relayCircuits, d.circuitId ≠ c.circuitId
  unique : ∀ h h' c c', s.handles h = some (.relay c) → s.handles h' = some (.relay c') →
    c.circuitId = c'.circuitId → h = h'
  live_sampled : ∀ c, Live s c → c.circuitId ∈ s.sampled
  /-- What was encrypted under an id is below the counter of its circuit. -/
  numbers : ∀ e ∈ s.encrypted, e.1 ∈ s.sampled ∧ e.2 < u64Size ∧
    ∀ c, Live s c → c.circuitId = e.1 → e.2 < c.seq
  nodup : s.encrypted.Nodup

/-- A circuit id is sampled once, and no counter wraps. -/
def Fresh (s : PoolSystem) : PoolAction → Prop
  | .warmed _ circuitId => circuitId ∉ s.sampled
  | .request h _ _ => ∀ c, s.handles h = some (.relay c) → c.seq + 1 < u64Size
  | _ => True

theorem owned_start (relay : Option PublicKey) (targetCount : Nat) :
    Owned (start relay targetCount) where
  pool_nodup := List.nodup_nil
  disjoint := (fun _ _ h => nomatch h)
  unique := (fun _ _ _ _ h => nomatch h)
  live_sampled := by
    rintro c (hc | ⟨h, hc⟩)
    · cases hc
    · cases hc
  numbers := (fun _ h => nomatch h)
  nodup := List.nodup_nil

theorem Owned.of_live (h : Owned s) (hlive : ∀ c, Live t c → Live s c)
    (hsampled : t.sampled = s.sampled) (hencrypted : t.encrypted = s.encrypted)
    (hpool : (t.pool.relayCircuits.map (·.circuitId)).Nodup)
    (hdisjoint : ∀ n c, t.handles n = some (.relay c) →
      ∀ d ∈ t.pool.relayCircuits, d.circuitId ≠ c.circuitId)
    (hunique : ∀ n n' c c', t.handles n = some (.relay c) → t.handles n' = some (.relay c') →
      c.circuitId = c'.circuitId → n = n') : Owned t := by
  refine ⟨hpool, hdisjoint, hunique, ?_, ?_, by rw [hencrypted]; exact h.nodup⟩
  · intro c hc
    rw [hsampled]
    exact h.live_sampled c (hlive c hc)
  · intro e he
    rw [hencrypted] at he
    rw [hsampled]
    obtain ⟨hid, hsize, hseq⟩ := h.numbers e he
    exact ⟨hid, hsize, fun c hc => hseq c (hlive c hc)⟩

theorem Owned.of_handles (h : Owned s) (hpool : t.pool.relayCircuits = s.pool.relayCircuits)
    (hhandles : ∀ n c, t.handles n = some (.relay c) → s.handles n = some (.relay c))
    (hsampled : t.sampled = s.sampled) (hencrypted : t.encrypted = s.encrypted) : Owned t := by
  have hlive : ∀ c, Live t c → Live s c := by
    rintro c (hc | ⟨n, hc⟩)
    · exact Or.inl (hpool ▸ hc)
    · exact Or.inr ⟨n, hhandles n c hc⟩
  refine h.of_live hlive hsampled hencrypted (by rw [hpool]; exact h.pool_nodup) ?_ ?_
  · intro n c hc d hd
    exact h.disjoint n c (hhandles n c hc) d (hpool ▸ hd)
  · intro n n' c c' hc hc'
    exact h.unique n n' c c' (hhandles n c hc) (hhandles n' c' hc')

theorem relay_of_update {handles : HandleId → Option TransportHandle} {n m : HandleId}
    {x : Option TransportHandle} (hx : ∀ c, x ≠ some (.relay c)) {c : Circuit}
    (h : Function.update handles n x m = some (.relay c)) : handles m = some (.relay c) := by
  rcases Lib.of_update h with ⟨-, hnew⟩ | ⟨-, hold⟩
  · exact absurd hnew (hx c)
  · exact hold

theorem Owned.push (h : Owned s) {c : Circuit} (hfresh : c.circuitId ∉ s.sampled)
    (hpool : t.pool.relayCircuits = s.pool.relayCircuits ++ [c]) (hhandles : t.handles = s.handles)
    (hsampled : t.sampled = s.sampled ++ [c.circuitId]) (hencrypted : t.encrypted = s.encrypted) :
    Owned t := by
  have hnew : ∀ d, Live s d → d.circuitId ≠ c.circuitId := fun d hd he =>
    hfresh (he ▸ h.live_sampled d hd)
  have hlive : ∀ d, Live t d → Live s d ∨ d = c := by
    rintro d (hd | ⟨n, hd⟩)
    · rw [hpool, List.mem_append, List.mem_singleton] at hd
      exact hd.imp_left Or.inl
    · exact Or.inl (Or.inr ⟨n, hhandles ▸ hd⟩)
  refine ⟨?_, ?_, ?_, ?_, ?_, by rw [hencrypted]; exact h.nodup⟩
  · rw [hpool, List.map_append, List.nodup_append]
    refine ⟨h.pool_nodup, List.nodup_singleton _, ?_⟩
    rintro id hid id' hid' rfl
    obtain ⟨d, hd, rfl⟩ := List.mem_map.mp hid
    simp only [List.map_cons, List.map_nil, List.mem_singleton] at hid'
    exact hnew d (Or.inl hd) hid'
  · intro n d hd e he
    rw [hhandles] at hd
    rw [hpool, List.mem_append, List.mem_singleton] at he
    rcases he with he | rfl
    · exact h.disjoint n d hd e he
    · exact (hnew d (Or.inr ⟨n, hd⟩)).symm
  · rw [hhandles]
    exact h.unique
  · intro d hd
    rw [hsampled]
    rcases hlive d hd with hd | rfl
    · exact List.mem_append_left _ (h.live_sampled d hd)
    · exact List.mem_append_right _ (List.mem_singleton_self _)
  · intro e he
    rw [hencrypted] at he
    obtain ⟨hid, hsize, hseq⟩ := h.numbers e he
    refine ⟨by rw [hsampled]; exact List.mem_append_left _ hid, hsize, fun d hd hde => ?_⟩
    rcases hlive d hd with hd | rfl
    · exact hseq d hd hde
    · exact absurd hid (hde ▸ hfresh)

theorem Owned.pop (h : Owned s) {rest : List Circuit} {c : Circuit} {n : HandleId}
    (hs : s.pool.relayCircuits = rest ++ [c]) (hpool : t.pool.relayCircuits = rest)
    (hhandles : t.handles = Function.update s.handles n (some (.relay c)))
    (hsampled : t.sampled = s.sampled) (hencrypted : t.encrypted = s.encrypted) : Owned t := by
  have hnodup := h.pool_nodup
  rw [hs, List.map_append, List.nodup_append] at hnodup
  have hother : ∀ d ∈ rest, d.circuitId ≠ c.circuitId := fun d hd he =>
    hnodup.2.2 d.circuitId (List.mem_map_of_mem hd) c.circuitId (by simp) he
  have hcmem : c ∈ s.pool.relayCircuits := by rw [hs]; simp
  have hheld : ∀ m d, t.handles m = some (.relay d) →
      (m = n ∧ d = c) ∨ (m ≠ n ∧ s.handles m = some (.relay d)) := by
    intro m d hd
    rw [hhandles] at hd
    rcases Lib.of_update hd with ⟨hm, ⟨⟩⟩ | hold
    · exact Or.inl ⟨hm, rfl⟩
    · exact Or.inr hold
  have hlive : ∀ d, Live t d → Live s d := by
    rintro d (hd | ⟨m, hd⟩)
    · rw [hpool] at hd
      exact Or.inl (by rw [hs]; exact List.mem_append_left _ hd)
    · rcases hheld m d hd with ⟨-, rfl⟩ | ⟨-, hd⟩
      · exact Or.inl hcmem
      · exact Or.inr ⟨m, hd⟩
  refine h.of_live hlive hsampled hencrypted (by rw [hpool]; exact hnodup.1) ?_ ?_
  · intro m d hd e he
    rw [hpool] at he
    rcases hheld m d hd with ⟨-, rfl⟩ | ⟨-, hd⟩
    · exact hother e he
    · exact h.disjoint m d hd e (by rw [hs]; exact List.mem_append_left _ he)
  · intro m m' d d' hd hd' he
    rcases hheld m d hd with ⟨rfl, rfl⟩ | ⟨-, hd⟩ <;> rcases hheld m' d' hd' with ⟨rfl, rfl⟩ | ⟨-, hd'⟩
    · rfl
    · exact absurd he (h.disjoint m' d' hd' _ hcmem)
    · exact absurd he.symm (h.disjoint m d hd _ hcmem)
    · exact h.unique m m' d d' hd hd' he

theorem Owned.putBack (h : Owned s) {c : Circuit} {n : HandleId}
    (hc : s.handles n = some (.relay c))
    (hpool : t.pool.relayCircuits = s.pool.relayCircuits ++ [c])
    (hhandles : t.handles = Function.update s.handles n none)
    (hsampled : t.sampled = s.sampled) (hencrypted : t.encrypted = s.encrypted) : Owned t := by
  have hheld : ∀ m d, t.handles m = some (.relay d) → m ≠ n ∧ s.handles m = some (.relay d) := by
    intro m d hd
    rw [hhandles] at hd
    exact Lib.of_erase hd
  have hlive : ∀ d, Live t d → Live s d := by
    rintro d (hd | ⟨m, hd⟩)
    · rw [hpool, List.mem_append, List.mem_singleton] at hd
      rcases hd with hd | rfl
      · exact Or.inl hd
      · exact Or.inr ⟨n, hc⟩
    · exact Or.inr ⟨m, (hheld m d hd).2⟩
  refine h.of_live hlive hsampled hencrypted ?_ ?_ ?_
  · rw [hpool, List.map_append, List.nodup_append]
    refine ⟨h.pool_nodup, List.nodup_singleton _, ?_⟩
    rintro id hid id' hid' rfl
    obtain ⟨d, hd, rfl⟩ := List.mem_map.mp hid
    simp only [List.map_cons, List.map_nil, List.mem_singleton] at hid'
    exact h.disjoint n c hc d hd hid'
  · intro m d hd e he
    obtain ⟨hm, hd⟩ := hheld m d hd
    rw [hpool, List.mem_append, List.mem_singleton] at he
    rcases he with he | rfl
    · exact h.disjoint m d hd e he
    · exact fun hid => hm (h.unique m n d e hd hc hid.symm)
  · intro m m' d d' hd hd'
    exact h.unique m m' d d' (hheld m d hd).2 (hheld m' d' hd').2

theorem Owned.encrypt (h : Owned s) {c : Circuit} {n : HandleId}
    (hc : s.handles n = some (.relay c)) (hwrap : c.seq + 1 < u64Size)
    (hpool : t.pool.relayCircuits = s.pool.relayCircuits)
    (hhandles : t.handles =
      Function.update s.handles n (some (.relay { c with seq := (c.seq + 1) % u64Size })))
    (hsampled : t.sampled = s.sampled)
    (hencrypted : t.encrypted = s.encrypted ++ [(c.circuitId, c.seq)]) : Owned t := by
  rw [Nat.mod_eq_of_lt hwrap] at hhandles
  have hheld : ∀ m d, t.handles m = some (.relay d) →
      (m = n ∧ d = { c with seq := c.seq + 1 }) ∨ (m ≠ n ∧ s.handles m = some (.relay d)) := by
    intro m d hd
    rw [hhandles] at hd
    rcases Lib.of_update hd with ⟨hm, ⟨⟩⟩ | hold
    · exact Or.inl ⟨hm, rfl⟩
    · exact Or.inr hold
  have hlive : ∀ d, Live t d → (d.circuitId ≠ c.circuitId ∧ Live s d) ∨
      d = { c with seq := c.seq + 1 } := by
    rintro d (hd | ⟨m, hd⟩)
    · rw [hpool] at hd
      exact Or.inl ⟨h.disjoint n c hc d hd, Or.inl hd⟩
    · rcases hheld m d hd with ⟨-, rfl⟩ | ⟨hm, hd⟩
      · exact Or.inr rfl
      · exact Or.inl ⟨fun he => hm (h.unique m n d c hd hc he), Or.inr ⟨m, hd⟩⟩
  have hcseq : ∀ e ∈ s.encrypted, c.circuitId = e.1 → e.2 < c.seq := fun e he =>
    (h.numbers e he).2.2 c (Or.inr ⟨n, hc⟩)
  refine ⟨by rw [hpool]; exact h.pool_nodup, ?_, ?_, ?_, ?_, ?_⟩
  · intro m d hd e he
    rw [hpool] at he
    rcases hheld m d hd with ⟨-, rfl⟩ | ⟨-, hd⟩
    · exact h.disjoint n c hc e he
    · exact h.disjoint m d hd e he
  · intro m m' d d' hd hd' he
    rcases hheld m d hd with ⟨rfl, rfl⟩ | ⟨-, hd⟩ <;> rcases hheld m' d' hd' with ⟨rfl, rfl⟩ | ⟨-, hd'⟩
    · rfl
    · exact h.unique _ _ c d' hc hd' he
    · exact h.unique _ _ d c hd hc he
    · exact h.unique m m' d d' hd hd' he
  · intro d hd
    rw [hsampled]
    rcases hlive d hd with ⟨-, hd⟩ | rfl
    · exact h.live_sampled d hd
    · exact h.live_sampled c (Or.inr ⟨n, hc⟩)
  · intro e he
    rw [hsampled]
    rw [hencrypted, List.mem_append, List.mem_singleton] at he
    rcases he with he | rfl
    · obtain ⟨hid, hsize, hseq⟩ := h.numbers e he
      refine ⟨hid, hsize, fun d hd hde => ?_⟩
      rcases hlive d hd with ⟨-, hd⟩ | rfl
      · exact hseq d hd hde
      · exact Nat.lt_succ_of_lt (hcseq e he hde)
    · refine ⟨h.live_sampled c (Or.inr ⟨n, hc⟩), by omega, fun d hd hde => ?_⟩
      rcases hlive d hd with ⟨hne, -⟩ | rfl
      · exact absurd hde hne
      · exact Nat.lt_succ_self _
  · rw [hencrypted, List.nodup_append]
    refine ⟨h.nodup, List.nodup_singleton _, ?_⟩
    rintro e he e' he' rfl
    rw [List.mem_singleton] at he'
    have := hcseq e he (by rw [he'])
    rw [he'] at this
    exact lt_irrefl _ this

theorem ne_relay_of_shadow {wrap : ShadowSession → TransportHandle}
    (shadow : wrap = .tor ∨ wrap = .direct) (session : ShadowSession) (c : Circuit) :
    some (wrap session) ≠ some (.relay c) := by
  rcases shadow with rfl | rfl <;> exact nofun

theorem Owned.moves (h : Owned s) (hfresh : Fresh s a) (hmove : Moves P s a t) : Owned t := by
  cases hmove with
  | startWarming => exact h.of_handles rfl (fun _ _ hc => hc) rfl rfl
  | warmed busy => exact h.push (c := Circuit.new P _ _ _) hfresh rfl rfl rfl rfl
  | warmFailed busy => exact h.of_handles rfl (fun _ _ hc => hc) rfl rfl
  | byTor =>
    exact h.of_handles rfl
      (fun _ _ hc => relay_of_update (ne_relay_of_shadow (Or.inl rfl) _) hc) rfl rfl
  | popped ready warm => exact h.pop ready rfl rfl rfl rfl
  | empty none warm => exact h.of_handles rfl (fun _ _ hc => hc) rfl rfl
  | connected waits =>
    exact h.of_handles rfl
      (fun _ _ hc => relay_of_update (ne_relay_of_shadow (Or.inr rfl) _) hc) rfl rfl
  | connectFailed waits => exact h.of_handles rfl (fun _ _ hc => hc) rfl rfl
  | encrypted held => exact h.encrypt held (hfresh _ held) rfl rfl rfl rfl
  | shadowSent shadow held live =>
    exact h.of_handles rfl
      (fun _ _ hc => relay_of_update (ne_relay_of_shadow shadow _) hc) rfl rfl
  | shadowFailed shadow held =>
    exact h.of_handles rfl
      (fun _ _ hc => relay_of_update (ne_relay_of_shadow shadow _) hc) rfl rfl
  | returned held room => exact h.putBack held rfl rfl rfl rfl
  | dropped isRequest held =>
    exact h.of_handles rfl (fun _ _ hc => relay_of_update (x := none) (fun _ => nofun) hc) rfl rfl
  | elapse => exact h.of_handles rfl (fun _ _ hc => hc) rfl rfl

theorem owned_run {relay : Option PublicKey} {targetCount : Nat}
    (run : Run (step P) Fresh (start relay targetCount) s) : Owned s :=
  run.invariant (owned_start relay targetCount) fun h hfresh taken =>
    h.moves hfresh (moves_of_step taken)

/-- No two requests are encrypted under one nonce, in any order in which circuits are warmed, handed
out, used, put back and closed: a circuit is once in the pool or with one handle. -/
theorem pool_nonces_distinct {relay : Option PublicKey} {targetCount : Nat}
    (run : Run (step P) Fresh (start relay targetCount) s) :
    (s.encrypted.map fun e => nonceMaterial e.1 e.2).Nodup ∧
      (s.pool.relayCircuits.map (·.circuitId)).Nodup ∧
      (∀ h c, s.handles h = some (.relay c) →
        ∀ d ∈ s.pool.relayCircuits, d.circuitId ≠ c.circuitId) ∧
      ∀ h h' c c', s.handles h = some (.relay c) → s.handles h' = some (.relay c') →
        c.circuitId = c'.circuitId → h = h' := by
  have h := owned_run run
  refine ⟨h.nodup.map_on fun e he e' he' heq => ?_, h.pool_nodup, h.disjoint, h.unique⟩
  obtain ⟨hid, hseq⟩ := (nonceMaterial_inj (h.numbers e he).2.1 (h.numbers e' he').2.1).mp heq
  exact Prod.ext hid hseq

/-- Two requests on one circuit, which is put back and handed out again between them. -/
theorem pool_nonces_distinct_two :
    ∃ s, Run (step Primitives.additive) Fresh (start (some ⟨List.replicate 32 0, rfl⟩) 1) s ∧
      s.encrypted.map Prod.snd = [0, 1] ∧
      (s.encrypted.map fun e => nonceMaterial e.1 e.2).Nodup := by
  have hstarted : Run (step Primitives.additive) Fresh (start (some ⟨List.replicate 32 0, rfl⟩) 1) _ :=
    Run.refl.tail (a := PoolAction.startWarming) trivial rfl
  have hwarmed := hstarted.tail
    (a := PoolAction.warmed ⟨List.replicate 32 0, rfl⟩ ⟨List.replicate 16 0, rfl⟩)
    (by exact List.not_mem_nil) rfl
  have hfirst := ((hwarmed.tail (a := PoolAction.acquire false) trivial rfl).tail
    (a := PoolAction.request 0 [] (.ok ()))
    (by rintro c ⟨⟩; exact (by decide : 0 + 1 < u64Size)) rfl).tail
    (a := PoolAction.release 0) trivial rfl
  have hsecond := (hfirst.tail (a := PoolAction.acquire false) trivial rfl).tail
    (a := PoolAction.request 1 [] (.ok ()))
    (by rintro c ⟨⟩; exact (by decide : 1 + 1 < u64Size)) rfl
  exact ⟨_, hsecond, rfl, (pool_nonces_distinct hsecond).1⟩

/-! ## The budget of a shadow session -/

def sessionOf : TransportHandle → Option ShadowSession
  | .tor session | .direct session => some session
  | .relay _ => none

def sends (s : PoolSystem) (h : HandleId) : List (HandleId × Nat) :=
  s.shadowSent.filter (·.1 = h)

/-- At most thirty requests, none earlier than `since` or more than ten minutes later. -/
def Budgeted (sent : List (HandleId × Nat)) (since : Nat) : Prop :=
  sent.length ≤ ShadowSession.maxRequests ∧
    ∀ e ∈ sent, since ≤ e.2 ∧ e.2 ≤ since + ShadowSession.maxTtl

structure Sessions (s : PoolSystem) : Prop where
  unused : ∀ h, s.nextHandle ≤ h → s.handles h = none ∧ s.sends h = []
  held : ∀ h handle session, s.handles h = some handle → sessionOf handle = some session →
    (s.sends h).length = session.requestCount ∧ session.createdAt ≤ s.now ∧
      Budgeted (s.sends h) session.createdAt
  budgeted : ∀ h, ∃ since, Budgeted (s.sends h) since

theorem budgeted_nil (since : Nat) : Budgeted [] since :=
  ⟨Nat.zero_le _, fun _ h => nomatch h⟩

theorem sessionOf_shadow {wrap : ShadowSession → TransportHandle}
    (shadow : wrap = .tor ∨ wrap = .direct) (session : ShadowSession) :
    sessionOf (wrap session) = some session := by
  rcases shadow with rfl | rfl <;> rfl

theorem sessions_start (relay : Option PublicKey) (targetCount : Nat) :
    Sessions (start relay targetCount) where
  unused _ _ := ⟨rfl, rfl⟩
  held := (fun _ _ _ h => nomatch h)
  budgeted _ := ⟨0, budgeted_nil 0⟩

theorem Sessions.of_handles (h : Sessions s) (hnext : t.nextHandle = s.nextHandle)
    (hsent : t.shadowSent = s.shadowSent) (hnow : s.now ≤ t.now)
    (hhandles : ∀ n handle, t.handles n = some handle →
      ∃ handle', s.handles n = some handle' ∧ ∀ session, sessionOf handle = some session →
        sessionOf handle' = some session) : Sessions t := by
  have hsends : ∀ n, t.sends n = s.sends n := fun n => by simp only [sends, hsent]
  refine ⟨?_, ?_, ?_⟩
  · intro n hn
    obtain ⟨hnone, hnil⟩ := h.unused n (hnext ▸ hn)
    refine ⟨?_, by rw [hsends, hnil]⟩
    cases hx : t.handles n with
    | none => rfl
    | some handle =>
      obtain ⟨handle', hh, -⟩ := hhandles n handle hx
      rw [hnone] at hh
      cases hh
  · intro n handle session hn hsession
    obtain ⟨handle', hh, hkeep⟩ := hhandles n handle hn
    obtain ⟨hcount, hcreated, hbudget⟩ := h.held n handle' session hh (hkeep session hsession)
    rw [hsends]
    exact ⟨hcount, hcreated.trans hnow, hbudget⟩
  · intro n
    rw [hsends]
    exact h.budgeted n

theorem Sessions.hold (h : Sessions s) {handle : TransportHandle}
    (hnew : ∀ session, sessionOf handle = some session → session = ⟨s.now, 0⟩) :
    Sessions (s.hold handle) := by
  have hsends : ∀ n, (s.hold handle).sends n = s.sends n := fun _ => rfl
  obtain ⟨-, hnil⟩ := h.unused s.nextHandle le_rfl
  refine ⟨?_, ?_, h.budgeted⟩
  · intro n hn
    have hne : n ≠ s.nextHandle := Nat.ne_of_gt hn
    obtain ⟨hnone, hnil⟩ := h.unused n (Nat.le_of_succ_le hn)
    exact ⟨(Function.update_of_ne hne _ _).trans hnone, hnil⟩
  · intro n handle' session hn hsession
    rw [hsends]
    by_cases hne : n = s.nextHandle
    · subst hne
      have : handle' = handle := by
        have hself : (s.hold handle).handles s.nextHandle = some handle :=
          Function.update_self _ _ _
        rw [hself] at hn
        exact (Option.some.inj hn).symm
      rw [this] at hsession
      obtain rfl := hnew session hsession
      rw [hnil]
      exact ⟨rfl, le_rfl, budgeted_nil _⟩
    · exact h.held n handle' session ((Function.update_of_ne hne _ _).symm.trans hn) hsession

theorem lt_nextHandle (h : Sessions s) {n : HandleId} {handle : TransportHandle}
    (held : s.handles n = some handle) : n < s.nextHandle := by
  by_contra hge
  rw [(h.unused n (Nat.le_of_not_lt hge)).1] at held
  cases held

theorem Sessions.send (h : Sessions s) {n : HandleId} {session : ShadowSession}
    {wrap : ShadowSession → TransportHandle} (shadow : wrap = .tor ∨ wrap = .direct)
    (held : s.handles n = some (wrap session)) (live : session.isExpired s.now = false) :
    Sessions { s.replace n (wrap { session with requestCount := session.requestCount + 1 }) with
      shadowSent := s.shadowSent ++ [(n, s.now)] } := by
  obtain ⟨hcount, hcreated, hlength, htimes⟩ :=
    h.held n _ session held (sessionOf_shadow shadow session)
  simp only [ShadowSession.isExpired, ge_iff_le, gt_iff_lt, Bool.or_eq_false_iff,
    decide_eq_false_iff_not, not_le, not_lt] at live
  obtain ⟨hrequests, hage⟩ := live
  have hbelow := lt_nextHandle h held
  set t : PoolSystem :=
    { s.replace n (wrap { session with requestCount := session.requestCount + 1 }) with
      shadowSent := s.shadowSent ++ [(n, s.now)] } with ht
  have hself : t.sends n = s.sends n ++ [(n, s.now)] := by
    simp [ht, sends, List.filter_append]
  have hother : ∀ m, m ≠ n → t.sends m = s.sends m := fun m hm => by
    simp [ht, sends, List.filter_append, Ne.symm hm]
  have hbudget : Budgeted (t.sends n) session.createdAt := by
    rw [hself]
    refine ⟨by rw [List.length_append, hcount]; exact hrequests, fun e he => ?_⟩
    rcases List.mem_append.mp he with he | he
    · exact htimes e he
    · rw [List.mem_singleton.mp he]
      exact ⟨hcreated, Nat.sub_le_iff_le_add'.mp hage⟩
  refine ⟨?_, ?_, ?_⟩
  · intro m hm
    have hne : m ≠ n := Nat.ne_of_gt (hbelow.trans_le hm)
    obtain ⟨hnone, hnil⟩ := h.unused m hm
    exact ⟨(Function.update_of_ne hne _ _).trans hnone, (hother m hne).trans hnil⟩
  · intro m handle session' hm hsession
    by_cases hne : m = n
    · subst hne
      obtain rfl := Option.some.inj ((Function.update_self m _ s.handles).symm.trans hm)
      rw [sessionOf_shadow shadow] at hsession
      obtain rfl := Option.some.inj hsession
      exact ⟨by rw [hself, List.length_append, hcount]; rfl, hcreated, hbudget⟩
    · rw [hother m hne]
      exact h.held m handle session' ((Function.update_of_ne hne _ _).symm.trans hm) hsession
  · intro m
    by_cases hne : m = n
    · subst hne
      exact ⟨_, hbudget⟩
    · rw [hother m hne]
      exact h.budgeted m

theorem handles_of_update {n : HandleId} {x : Option TransportHandle}
    (hx : ∀ handle, x = some handle → ∃ handle', s.handles n = some handle' ∧
      ∀ session, sessionOf handle = some session → sessionOf handle' = some session)
    (m : HandleId) (handle : TransportHandle)
    (hm : Function.update s.handles n x m = some handle) :
    ∃ handle', s.handles m = some handle' ∧
      ∀ session, sessionOf handle = some session → sessionOf handle' = some session := by
  rcases Lib.of_update hm with ⟨rfl, hnew⟩ | ⟨-, hold⟩
  · exact hx handle hnew
  · exact ⟨handle, hold, fun _ => id⟩

theorem Sessions.moves (h : Sessions s) (hmove : Moves P s a t) : Sessions t := by
  have hsame : ∀ n handle, s.handles n = some handle → ∃ handle', s.handles n = some handle' ∧
      ∀ session, sessionOf handle = some session → sessionOf handle' = some session :=
    fun _ handle hn => ⟨handle, hn, fun _ => id⟩
  cases hmove with
  | startWarming => exact h.of_handles rfl rfl le_rfl hsame
  | warmed busy => exact h.of_handles rfl rfl le_rfl hsame
  | warmFailed busy => exact h.of_handles rfl rfl le_rfl hsame
  | byTor =>
    apply Sessions.hold
    · exact h.of_handles rfl rfl le_rfl hsame
    · rintro _ ⟨⟩
      rfl
  | popped ready warm =>
    apply Sessions.hold
    · exact h.of_handles rfl rfl le_rfl hsame
    · rintro _ ⟨⟩
  | empty none warm => exact h.of_handles rfl rfl le_rfl hsame
  | connected waits =>
    apply Sessions.hold
    · exact h.of_handles rfl rfl le_rfl hsame
    · rintro _ ⟨⟩
      rfl
  | connectFailed waits => exact h.of_handles rfl rfl le_rfl hsame
  | encrypted held =>
    exact h.of_handles rfl rfl le_rfl (handles_of_update fun handle hx =>
      ⟨_, held, fun session hsession => by rw [← Option.some.inj hx] at hsession; cases hsession⟩)
  | shadowSent shadow held live => exact h.send shadow held live
  | shadowFailed shadow held =>
    exact h.of_handles rfl rfl le_rfl (handles_of_update fun handle hx =>
      ⟨_, held, fun session hsession => by rw [← Option.some.inj hx] at hsession; exact hsession⟩)
  | returned held room => exact h.of_handles rfl rfl le_rfl (handles_of_update nofun)
  | dropped isRequest held => exact h.of_handles rfl rfl le_rfl (handles_of_update nofun)
  | elapse => exact h.of_handles rfl rfl (Nat.le_add_right _ _) hsame

/-- On no session, over Tor or direct, are more than thirty requests sent, or two of them more than
ten minutes apart. -/
theorem shadow_session_budget {relay : Option PublicKey} {targetCount : Nat}
    (run : Run (step P) (fun _ _ => True) (start relay targetCount) s) (h : HandleId) :
    (s.shadowSent.filter (·.1 = h)).length ≤ 30 ∧
      ∀ first ∈ s.shadowSent, ∀ last ∈ s.shadowSent, first.1 = h → last.1 = h →
        last.2 ≤ first.2 + 10 * 60 * 1000 := by
  have hsessions : Sessions s := run.invariant (sessions_start relay targetCount)
    fun hs _ taken => hs.moves (moves_of_step taken)
  obtain ⟨since, hlength, htimes⟩ := hsessions.budgeted h
  refine ⟨hlength, fun first hfirst last hlast heq heq' => ?_⟩
  have hf := htimes first (List.mem_filter.mpr ⟨hfirst, by simpa using heq⟩)
  have hl := htimes last (List.mem_filter.mpr ⟨hlast, by simpa using heq'⟩)
  exact hl.2.trans (Nat.add_le_add_right hf.1 _)

/-- A direct session that sends two requests, and that has expired at the third. -/
theorem shadow_session_budget_direct :
    ∃ s, Run (step Primitives.additive) (fun _ _ => True) (start none 3) s ∧
      s.shadowSent = [(0, 0), (0, 600000)] ∧
      (s.shadowSent.filter (·.1 = 0)).length ≤ 30 := by
  have hexec : exec (step Primitives.additive) (fun _ _ => True) (start none 3)
      [.acquire false, .connected, .request 0 [] (.ok ()), .elapse 600000,
        .request 0 [] (.ok ()), .elapse 1, .request 0 [] (.ok ())] = some _ := rfl
  exact ⟨_, Run.of_exec hexec, rfl, (shadow_session_budget (Run.of_exec hexec) 0).1⟩

/-! ## The number of ready circuits -/

def circuitsHeld : Option TransportHandle → Nat
  | some (.relay _) => 1
  | _ => 0

def relayHandles (s : PoolSystem) : Nat :=
  ∑ h ∈ Finset.range s.nextHandle, circuitsHeld (s.handles h)

theorem relayHandles_hold (handle : TransportHandle) :
    (s.hold handle).relayHandles = s.relayHandles + circuitsHeld (some handle) := by
  have hlast : (s.hold handle).handles s.nextHandle = some handle := Function.update_self ..
  have hold : ∀ h ∈ Finset.range s.nextHandle, (s.hold handle).handles h = s.handles h :=
    fun h hh => Function.update_of_ne (Nat.ne_of_lt (Finset.mem_range.mp hh)) ..
  unfold relayHandles
  rw [show (s.hold handle).nextHandle = s.nextHandle + 1 from rfl, Finset.sum_range_succ, hlast]
  exact congrArg (· + _) (Finset.sum_congr rfl fun h hh => by rw [hold h hh])

theorem relayHandles_update {h : HandleId} (hlt : h < s.nextHandle) {x : Option TransportHandle}
    (hnext : t.nextHandle = s.nextHandle) (hhandles : t.handles = Function.update s.handles h x) :
    t.relayHandles + circuitsHeld (s.handles h) = s.relayHandles + circuitsHeld x := by
  have hmem : h ∈ Finset.range s.nextHandle := Finset.mem_range.mpr hlt
  have hcomp : ∀ k, circuitsHeld (t.handles k) =
      Function.update (fun k => circuitsHeld (s.handles k)) h (circuitsHeld x) k := by
    intro k
    rw [hhandles]
    by_cases hk : k = h
    · rw [hk, Function.update_self, Function.update_self]
    · rw [Function.update_of_ne hk, Function.update_of_ne hk]
  unfold relayHandles
  rw [hnext, Finset.sum_congr rfl fun k _ => hcomp k, Finset.sum_update_of_mem hmem,
    ← Finset.add_sum_erase _ _ hmem, Finset.sdiff_singleton_eq_erase]
  omega

theorem circuitsHeld_shadow {wrap : ShadowSession → TransportHandle}
    (shadow : wrap = .tor ∨ wrap = .direct) (session : ShadowSession) :
    circuitsHeld (some (wrap session)) = 0 := by
  rcases shadow with rfl | rfl <;> rfl

/-- Every circuit comes from a task, and every task from `start_warming` or `acquire`. -/
def Counted (s : PoolSystem) : Prop :=
  s.pool.relayCircuits.length + s.relayHandles + s.warming ≤
    s.pool.targetCount * s.starts + s.acquires

theorem counted_start (relay : Option PublicKey) (targetCount : Nat) :
    Counted (start relay targetCount) :=
  Nat.zero_le _

theorem Counted.of_update (h : Counted s) (hs : Sessions s) {n : HandleId} {handle : TransportHandle}
    (held : s.handles n = some handle) {x : Option TransportHandle}
    (hnext : t.nextHandle = s.nextHandle) (hhandles : t.handles = Function.update s.handles n x)
    (hcircuits : t.pool.relayCircuits.length + circuitsHeld x ≤
      s.pool.relayCircuits.length + circuitsHeld (some handle))
    (hwarming : t.warming = s.warming) (htarget : t.pool.targetCount = s.pool.targetCount)
    (hstarts : t.starts = s.starts) (hacquires : t.acquires = s.acquires) : Counted t := by
  have hsum := relayHandles_update (lt_nextHandle hs held) hnext hhandles
  rw [held] at hsum
  unfold Counted at h ⊢
  rw [hwarming, htarget, hstarts, hacquires]
  omega

theorem Counted.hold {handle : TransportHandle}
    (h : s.pool.relayCircuits.length + (s.relayHandles + circuitsHeld (some handle)) + s.warming ≤
      s.pool.targetCount * s.starts + s.acquires) : Counted (s.hold handle) := by
  unfold Counted
  rw [relayHandles_hold]
  exact h

theorem Counted.moves (h : Counted s) (hs : Sessions s) (hmove : Moves P s a t) : Counted t := by
  have hcount : s.pool.relayCircuits.length + s.relayHandles + s.warming ≤
      s.pool.targetCount * s.starts + s.acquires := h
  cases hmove with
  | startWarming =>
    have : s.pool.targetCount * (s.starts + 1) =
        s.pool.targetCount * s.starts + s.pool.targetCount := Nat.mul_succ _ _
    show s.pool.relayCircuits.length + s.relayHandles +
      (s.warming + if s.pool.relay.isSome then s.pool.targetCount else 0) ≤
      s.pool.targetCount * (s.starts + 1) + s.acquires
    split <;> omega
  | warmed busy =>
    show (s.pool.relayCircuits ++ [_]).length + s.relayHandles + (s.warming - 1) ≤
      s.pool.targetCount * s.starts + s.acquires
    rw [List.length_append, List.length_singleton]
    omega
  | warmFailed busy => exact le_trans (Nat.add_le_add_left (Nat.sub_le _ _) _) hcount
  | byTor => exact Counted.hold (Nat.le_succ_of_le hcount)
  | @popped rest circuit ready warm =>
    have hlength : s.pool.relayCircuits.length = rest.length + 1 := by
      rw [ready, List.length_append, List.length_singleton]
    refine Counted.hold ?_
    show rest.length + (s.relayHandles + 1) + (s.warming + if warm then 1 else 0) ≤
      s.pool.targetCount * s.starts + (s.acquires + 1)
    split <;> omega
  | empty none warm =>
    show s.pool.relayCircuits.length + s.relayHandles + (s.warming + if warm then 1 else 0) ≤
      s.pool.targetCount * s.starts + (s.acquires + 1)
    split <;> omega
  | connected waits => exact Counted.hold hcount
  | connectFailed waits => exact hcount
  | encrypted held => exact h.of_update hs held rfl rfl le_rfl rfl rfl rfl rfl
  | shadowSent shadow held live =>
    refine h.of_update hs held rfl rfl ?_ rfl rfl rfl rfl
    rw [circuitsHeld_shadow shadow]
    exact Nat.le_add_right _ _
  | shadowFailed shadow held => exact h.of_update hs held rfl rfl le_rfl rfl rfl rfl rfl
  | returned held room =>
    refine h.of_update hs held rfl rfl ?_ rfl rfl rfl rfl
    simp only [TransportPool.push, List.length_append, List.length_singleton]
    exact le_rfl
  | dropped isRequest held =>
    obtain ⟨handle, held⟩ := Option.isSome_iff_exists.mp held
    exact h.of_update hs held rfl rfl (Nat.le_add_right _ _) rfl rfl rfl rfl
  | elapse => exact hcount

theorem targetCount_moves (hmove : Moves P s a t) :
    t.pool.targetCount = s.pool.targetCount := by
  cases hmove <;> rfl

theorem targetCount_run {relay : Option PublicKey} {targetCount : Nat}
    {ok : PoolSystem → PoolAction → Prop} (run : Run (step P) ok (start relay targetCount) s) :
    s.pool.targetCount = max targetCount 1 :=
  run.invariant (I := fun s => s.pool.targetCount = max targetCount 1) rfl
    fun h _ taken => (targetCount_moves (moves_of_step taken)).trans h

theorem ready_le {relay : Option PublicKey} {targetCount : Nat}
    (run : Run (step P) (fun _ _ => True) (start relay targetCount) s) :
    s.pool.relayCircuits.length + s.warming ≤ max targetCount 1 * s.starts + s.acquires := by
  have hinv : Sessions s ∧ Counted s :=
    run.invariant (I := fun s => Sessions s ∧ Counted s)
      ⟨sessions_start relay targetCount, counted_start relay targetCount⟩
      fun ⟨hs, hc⟩ _ taken => ⟨hs.moves (moves_of_step taken), hc.moves hs (moves_of_step taken)⟩
  have hcount := hinv.2
  unfold Counted at hcount
  rw [targetCount_run run] at hcount
  omega

theorem run_acquire_empty (n : Nat) (hempty : s.pool.relayCircuits = [])
    (hrelay : s.pool.relay.isSome) :
    Run (step P) (fun _ _ => True) s
      { s with acquires := s.acquires + n, warming := s.warming + n } := by
  induction n with
  | zero => exact .refl
  | succ n ih =>
    -- the call, with its background task, and then the failure
    have hacquire := ih.tail (a := PoolAction.acquire false) trivial (u := { s with
      acquires := s.acquires + n + 1, warming := s.warming + n + 1
      connecting := s.connecting + 1 }) (by
        simp [step, TransportPool.pop, hempty, hrelay])
    refine hacquire.tail (a := .connectFailed) trivial ?_
    simp [step, Nat.add_assoc]

theorem run_warmed (n : Nat) {relayPk : PublicKey} (ek : Array32) (circuitId : CircuitId)
    (hrelay : s.pool.relay = some relayPk) (hwarming : n ≤ s.warming) :
    ∃ circuits sampled, circuits.length = s.pool.relayCircuits.length + n ∧
      Run (step P) (fun _ _ => True) s { s with
        pool := { s.pool with relayCircuits := circuits }
        warming := s.warming - n
        sampled } := by
  induction n with
  | zero => exact ⟨s.pool.relayCircuits, s.sampled, rfl, .refl⟩
  | succ n ih =>
    obtain ⟨circuits, sampled, hlength, hrun⟩ := ih (Nat.le_of_succ_le hwarming)
    refine ⟨circuits ++ [Circuit.new P ek circuitId relayPk], sampled ++ [circuitId],
      by rw [List.length_append, hlength]; rfl, ?_⟩
    refine hrun.tail (a := .warmed ek circuitId) trivial ?_
    have hbusy : 0 < s.warming - n := by omega
    simp only [step, hrelay, hbusy, if_true, TransportPool.push, Nat.sub_sub]

/-- Over all runs with one call of `start_warming` and `n` of `acquire`, the greatest number of ready
circuits is the target and `n` more. -/
theorem pool_ready_greatest (P : Primitives) (relayPk : PublicKey) (targetCount n : Nat) :
    IsGreatest {ready | ∃ s, Run (step P) (fun _ _ => True) (start (some relayPk) targetCount) s ∧
        s.starts = 1 ∧ s.acquires = n ∧ s.pool.relayCircuits.length = ready}
      (max targetCount 1 + n) := by
  constructor
  · -- the calls are made before the first task has finished
    have hstart : Run (step P) (fun _ _ => True) (start (some relayPk) targetCount)
        { start (some relayPk) targetCount with warming := max targetCount 1, starts := 1 } :=
      Run.refl.tail (a := .startWarming) trivial (by simp [step, start, TransportPool.new])
    have hacquired := hstart.trans (run_acquire_empty n rfl rfl)
    obtain ⟨circuits, sampled, hlength, hwarmed⟩ := run_warmed (P := P)
      (s := { start (some relayPk) targetCount with
        warming := max targetCount 1 + n, starts := 1, acquires := 0 + n })
      (max targetCount 1 + n) ⟨List.replicate 32 0, rfl⟩ ⟨List.replicate 16 0, rfl⟩ rfl le_rfl
    refine ⟨_, hacquired.trans hwarmed, rfl, Nat.zero_add n, ?_⟩
    rw [hlength]
    exact Nat.zero_add _
  · rintro ready ⟨s, run, hstarts, hacquires, rfl⟩
    have := ready_le run
    rw [hstarts, hacquires, Nat.mul_one] at this
    omega

end Cypher.Onion.PoolSystem
