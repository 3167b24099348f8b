import Cypher.Client.KeyManager
import Cypher.Crypto.Verify.Fifo

/-!
# Two clients that talk over in-order channels

`Peers` is two `KeyManager`s, the messages on the wire in both directions and the outcome of every
`decrypt_from_peer` so far. `connect` sets the two sessions up by the rule of `initiate_session`; a
step is a successful `encrypt_for_peer` on either side or the delivery of the oldest message on the
wire to one side. Each run of two peers is a run of the two ratchets behind them (`Simulates`), in
which the peer with the smaller id plays the sender.
-/

namespace Cypher.Client.Verify

open Crypto Crypto.Verify

variable {Key Secret Ct : Type}

inductive Side where
  | alice
  | bob
  deriving DecidableEq, Repr

namespace Side

def other : Side → Side
  | alice => bob
  | bob => alice

@[simp] theorem other_other (s : Side) : s.other.other = s := by cases s <;> rfl

theorem eq_or_eq_other (s s' : Side) : s' = s ∨ s' = s.other := by
  cases s <;> cases s' <;> simp [other]

@[simp] theorem other_ne (s : Side) : s.other ≠ s := by cases s <;> decide

end Side

/-- The fields of `ChatSend` that `encrypt_for_peer` fills, with the plaintext they carry. -/
structure Letter (Ct : Type) where
  plaintext : Bytes
  ciphertext : Ct
  ratchetKey : Bytes
  msgNo : Nat

structure Peers (Key Secret Ct : Type) where
  keys : Side → KeyManager Key Secret
  /-- The messages on their way to a side, oldest first. -/
  wire : Side → List (Letter Ct)
  delivered : List (Letter Ct × Result Bytes)
  ratchetKeys : List PublicKey

inductive PeersAction (Secret : Type) where
  | send (s : Side) (plaintext : Bytes)
  | deliver (s : Side) (fresh : Secret)

namespace Peers

variable (S : Suite Key Secret Ct) (id : Side → PeerId)

/-- The ratchet key a side starts with: the sender's is sampled, the receiver's is its signed
pre-key. -/
def firstKey (km : Side → KeyManager Key Secret) (first : Side → Secret) (s : Side) : PublicKey :=
  S.publicKey (if (id s).val < (id s.other).val then first s else (km s).spkSecret)

/-- Both sides run `initiate_session` with the other's current identity key and signed pre-key. -/
def connect (km : Side → KeyManager Key Secret) (first : Side → Secret) : Peers Key Secret Ct where
  keys s := ((km s).initiateSession S (id s) (id s.other)
    (.ok ((S.publicKey (km s.other).identityDhSecret).val,
      (S.publicKey (km s.other).spkSecret).val)) (first s)).1
  wire _ := []
  delivered := []
  ratchetKeys := [firstKey S id km first .alice, firstKey S id km first .bob]

def step (peers : Peers Key Secret Ct) : PeersAction Secret → Option (Peers Key Secret Ct)
  | .send s plaintext =>
    match (peers.keys s).encryptForPeer S (id s.other).val plaintext with
    | (km, .ok (ciphertext, ratchetKey, msgNo)) =>
      some { peers with
        keys := Function.update peers.keys s km
        wire := Function.update peers.wire s.other
          (peers.wire s.other ++ [⟨plaintext, ciphertext, ratchetKey, msgNo⟩]) }
    | (_, .error _) => none
  | .deliver s fresh =>
    match peers.wire s with
    | [] => none
    | m :: rest =>
      let out := (peers.keys s).decryptFromPeer S fresh (id s.other).val m.ciphertext m.ratchetKey
        m.msgNo
      some {
        keys := Function.update peers.keys s out.1
        wire := Function.update peers.wire s rest
        delivered := peers.delivered ++ [(m, out.2)]
        ratchetKeys := ((out.1.getRatchetState (id s.other).val).map (·.sendRatchetKey)).toList ++
          peers.ratchetKeys }

/-- A ratchet key sampled in a DH ratchet step is new, and no chain reaches `2 ^ 32` messages. -/
def Regular (peers : Peers Key Secret Ct) : PeersAction Secret → Prop
  | .send s _ => ∀ st ∈ (peers.keys s).getRatchetState (id s.other).val,
      st.sendCount + 1 < u32Size
  | .deliver s fresh => ∀ m ∈ (peers.wire s).head?,
      ∀ st ∈ (peers.keys s).getRatchetState (id s.other).val, ∀ pk ∈ Array32.tryFrom m.ratchetKey,
        st.Ratchets pk m.msgNo → S.publicKey fresh ∉ peers.ratchetKeys

instance [DecidableEq Key] (peers : Peers Key Secret Ct) (a : PeersAction Secret) :
    Decidable (peers.Regular S id a) :=
  match a with
  | .send s _ => inferInstanceAs (Decidable (∀ st ∈
      (peers.keys s).getRatchetState (id s.other).val, st.sendCount + 1 < u32Size))
  | .deliver s fresh => inferInstanceAs (Decidable (∀ m ∈ (peers.wire s).head?,
      ∀ st ∈ (peers.keys s).getRatchetState (id s.other).val, ∀ pk ∈ Array32.tryFrom m.ratchetKey,
        st.Ratchets pk m.msgNo → S.publicKey fresh ∉ peers.ratchetKeys))

end Peers

/-! ## Which side plays which role -/

def role (id : Side → PeerId) (s : Side) : Role :=
  if (id s).val < (id s.other).val then .sender else .receiver

variable {S : Suite Key Secret Ct} {id : Side → PeerId}

theorem role_other (hid : id .alice ≠ id .bob) (s : Side) :
    role id s.other = (role id s).other := by
  have hne : (id s).val ≠ (id s.other).val := by
    intro heq
    cases s with
    | alice => exact hid (Subtype.ext heq)
    | bob => exact hid (Subtype.ext heq.symm)
  unfold role
  rw [Side.other_other]
  by_cases hlt : (id s).val < (id s.other).val
  · rw [if_pos hlt, if_neg fun hgt => List.lt_irrefl _ (List.lt_trans hlt hgt)]
    rfl
  · have hgt : (id s.other).val < (id s).val := by
      by_contra hge
      exact hne (List.le_antisymm (List.not_lt.mp hge) (List.not_lt.mp hlt))
    rw [if_neg hlt, if_pos hgt]
    rfl

/-! ## The ratchets behind two peers -/

def letter (p : Packet Key Ct) : Letter Ct :=
  ⟨p.plaintext, p.ciphertext, p.ratchetKey.val, p.msgNo⟩

structure Simulates (id : Side → PeerId) (peers : Peers Key Secret Ct) (net : Net Key Secret Ct) :
    Prop where
  session : ∀ s, (peers.keys s).peerSessions.lookup (id s.other).val = some (net.party (role id s))
  wire : ∀ s, peers.wire s = (net.inFlight (role id s)).map letter
  log : peers.delivered = net.delivered.map fun d => (letter d.1, d.2)
  keys : ∀ k, k ∈ peers.ratchetKeys ↔ k ∈ net.ratchetKeys

theorem update_role (hid : id .alice ≠ id .bob) {α : Type} (f : Role → α) (s s' : Side) (x : α) :
    Function.update f (role id s) x (role id s') = if s' = s then x else f (role id s') := by
  rcases Side.eq_or_eq_other s s' with rfl | rfl
  · rw [Function.update_self, if_pos rfl]
  · rw [role_other hid, Function.update_of_ne (Role.other_ne _), if_neg s.other_ne]

theorem related_update (hid : id .alice ≠ id .bob) {α β : Type} (related : Side → α → β → Prop)
    {f : Side → α} {g : Role → β} (h : ∀ s, related s (f s) (g (role id s))) {s : Side} {x : α}
    {y : β} (hxy : related s x y) (s' : Side) :
    related s' (Function.update f s x s') (Function.update g (role id s) y (role id s')) := by
  rw [update_role hid]
  by_cases hs : s' = s
  · subst hs
    rw [Function.update_self, if_pos rfl]
    exact hxy
  · rw [Function.update_of_ne hs, if_neg hs]
    exact h s'

theorem connect_simulates (hdh : S.DhCommutes) (hid : id .alice ≠ id .bob)
    (km : Side → KeyManager Key Secret) (first : Side → Secret)
    (hnew : ∀ s, (km s).hasSession (id s.other).val = false) :
    ∃ shared spk fst, Simulates id (Peers.connect S id km first) (Net.start S shared spk fst) ∧
      (Peers.firstKey S id km first .alice ≠ Peers.firstKey S id km first .bob →
        S.publicKey spk ≠ S.publicKey fst) := by
  -- `a` is the side with the smaller id
  obtain ⟨a, ha⟩ : ∃ a, role id a = .sender := by
    by_cases hA : role id .alice = .sender
    · exact ⟨_, hA⟩
    · refine ⟨.bob, ?_⟩
      have hB := role_other hid .alice
      cases hr : role id .alice with
      | sender => exact absurd hr hA
      | receiver => rw [hr] at hB; exact hB
  have hb : role id a.other = .receiver := by rw [role_other hid, ha]; rfl
  have hlt : (id a).val < (id a.other).val := by
    by_contra hge
    rw [role, if_neg hge] at ha
    cases ha
  have hge : ¬ (id a.other).val < (id a.other.other).val := by
    intro hgt
    rw [role, if_pos hgt] at hb
    cases hb
  have hfirstA : Peers.firstKey S id km first a = S.publicKey (first a) := by
    rw [Peers.firstKey, if_pos hlt]
  have hfirstB : Peers.firstKey S id km first a.other = S.publicKey (km a.other).spkSecret := by
    rw [Peers.firstKey, if_neg hge]
  have hkeys : ∀ k, k ∈ [Peers.firstKey S id km first .alice, Peers.firstKey S id km first .bob] ↔
      k = S.publicKey (km a.other).spkSecret ∨ k = S.publicKey (first a) := by
    intro k
    rw [← hfirstA, ← hfirstB]
    cases a with
    | alice => simp [Side.other, or_comm]
    | bob => simp [Side.other]
  refine ⟨x3dhMutual S (km a).identityDhSecret (km a).spkSecret
      (S.publicKey (km a.other).identityDhSecret) (S.publicKey (km a.other).spkSecret),
    (km a.other).spkSecret, first a, ⟨?_, fun _ => rfl, rfl, ?_⟩, ?_⟩
  · intro s
    rw [Peers.connect, KeyManager.initiateSession_lookup (hnew s) _ _ rfl]
    rcases Side.eq_or_eq_other a s with rfl | rfl
    · rw [ha, if_pos hlt]
      rfl
    · rw [hb, if_neg hge, Side.other_other, x3dhMutual_comm S hdh]
      rfl
  · intro k
    rw [Peers.connect, hkeys]
    simp [Net.start]
  · intro hne heq
    rw [← hfirstA, ← hfirstB] at heq
    cases a with
    | alice => exact hne heq.symm
    | bob => exact hne heq

section Steps

variable {peers peers' : Peers Key Secret Ct} {net : Net Key Secret Ct}

theorem Simulates.session_update (hid : id .alice ≠ id .bob) (h : Simulates id peers net) (s : Side)
    (st : RatchetState Key Secret) (s' : Side) :
    (Function.update peers.keys s ((peers.keys s).insertSession (id s.other).val st)
        s').peerSessions.lookup (id s'.other).val =
      some (Function.update net.party (role id s) st (role id s')) :=
  related_update hid
    (fun s (km : KeyManager Key Secret) st => km.peerSessions.lookup (id s.other).val = some st)
    h.session KeyManager.lookup_insertSession s'

theorem Simulates.wire_update (hid : id .alice ≠ id .bob) (h : Simulates id peers net) (s : Side)
    {letters : List (Letter Ct)} {packets : List (Packet Key Ct)}
    (hsame : letters = packets.map letter) (s' : Side) :
    Function.update peers.wire s letters s' =
      (Function.update net.inFlight (role id s) packets (role id s')).map letter :=
  related_update hid (fun _ letters packets => letters = List.map letter packets) h.wire hsame s'

theorem Simulates.send (hid : id .alice ≠ id .bob) (h : Simulates id peers net) {s : Side}
    {plaintext : Bytes} (hok : peers.Regular S id (.send s plaintext))
    (hstep : peers.step S id (.send s plaintext) = some peers') :
    ∃ net', net.InOrder S (.send (role id s) plaintext) ∧
      net.step S (.send (role id s) plaintext) = some net' ∧ Simulates id peers' net' := by
  have hreg : (net.party (role id s)).sendCount + 1 < u32Size := hok _ (h.session s)
  simp only [Peers.step, KeyManager.encryptForPeer_of_session (h.session s)] at hstep
  cases henc : (net.party (role id s)).encrypt S plaintext with
  | mk st res =>
    rw [henc] at hstep
    cases res with
    | error err => cases hstep
    | ok out =>
      obtain ⟨ct, pk, n⟩ := out
      simp only [Except.map, Option.some.injEq] at hstep
      subst hstep
      cases hck : (net.party (role id s)).sendChainKey with
      | none => rw [RatchetState.encrypt, hck] at henc; simp at henc
      | some ck =>
        refine ⟨_, ⟨hreg, trivial⟩, Net.step_send hck henc, ⟨?_, ?_, h.log, h.keys⟩⟩
        · exact h.session_update hid s _
        · simp only [← role_other hid]
          refine h.wire_update hid s.other ?_
          rw [List.map_append, h.wire]
          rfl

theorem Simulates.deliver (hid : id .alice ≠ id .bob) (h : Simulates id peers net) {s : Side}
    {fresh : Secret} (hok : peers.Regular S id (.deliver s fresh))
    (hstep : peers.step S id (.deliver s fresh) = some peers') :
    ∃ net', net.InOrder S (.deliver (role id s) 0 fresh) ∧
      net.step S (.deliver (role id s) 0 fresh) = some net' ∧ Simulates id peers' net' := by
  have hwire := h.wire s
  cases hq : net.inFlight (role id s) with
  | nil =>
    rw [hq, List.map_nil] at hwire
    simp only [Peers.step, hwire, reduceCtorEq] at hstep
  | cons p rest =>
    rw [hq, List.map_cons] at hwire
    simp only [Peers.step, hwire, letter, KeyManager.decryptFromPeer_of_session (h.session s),
      Option.some.injEq] at hstep
    subst hstep
    refine ⟨_, ⟨?_, rfl⟩, by rw [Net.step, hq]; rfl, ⟨?_, ?_, ?_, ?_⟩⟩
    · intro q hpq
      rw [hq] at hpq
      obtain rfl : p = q := by simpa using hpq
      intro hratchets hmem
      refine hok (letter p) (by rw [hwire]; rfl) _ (h.session s) _ (Array32.tryFrom_val _)
        hratchets ?_
      exact (h.keys _).mpr hmem
    · exact h.session_update hid s _
    · refine h.wire_update hid s ?_
      rw [hq]
      rfl
    · simp only [Net.put, List.map_append, h.log]
      rfl
    · intro k
      simp only [Net.put, KeyManager.getRatchetState, KeyManager.lookup_insertSession,
        Option.map_some, Option.toList_some, List.singleton_append, List.mem_cons, h.keys]

end Steps

/-- Every run of two connected peers is a run of two ratchets over in-order channels. -/
theorem agreed_of_run (hdh : S.DhCommutes) (haead : S.AeadInverts) (hid : id .alice ≠ id .bob)
    {km : Side → KeyManager Key Secret}
    (hnew : ∀ s, (km s).hasSession (id s.other).val = false) {first : Side → Secret}
    (hfirst : Peers.firstKey S id km first .alice ≠ Peers.firstKey S id km first .bob)
    {peers : Peers Key Secret Ct}
    (hrun : Lib.Run (Peers.step S id) (Peers.Regular S id) (Peers.connect S id km first) peers) :
    ∀ d ∈ peers.delivered, d.2 = .ok d.1.plaintext := by
  obtain ⟨shared, spk, fst, hstart, hne⟩ := connect_simulates hdh hid km first hnew
  obtain ⟨net, hnet, hsim⟩ := hrun.simulate (Net.step S)
    (Net.InOrder S) hstart (by
      intro v w a v' hrel hok hstep
      cases a with
      | send s plaintext =>
        obtain ⟨w', hin, htaken, hrel'⟩ := hrel.send hid hok hstep
        exact ⟨_, w', hin, htaken, hrel'⟩
      | deliver s fresh =>
        obtain ⟨w', hin, htaken, hrel'⟩ := hrel.deliver hid hok hstep
        exact ⟨_, w', hin, htaken, hrel'⟩)
  obtain ⟨K, e, hfifo⟩ := Fifo.run hdh haead (hne hfirst) hnet
  intro d hd
  rw [hsim.log] at hd
  obtain ⟨d', hd', rfl⟩ := List.mem_map.mp hd
  exact hfifo.agreed d' hd'

/-- **Agreement over in-order channels.** Two clients that set their sessions up by
`initiate_session` decrypt every message to the plaintext that was encrypted, whatever the
interleaving of their sends and deliveries. -/
theorem decrypts_in_order (P : Primitives) (hdh : P.X25519Commutes) (hgcm : P.AesGcmInverts)
    (id : Side → PeerId) (hid : id .alice ≠ id .bob)
    (km : Side → KeyManager Array32 Array32)
    (hnew : ∀ s, (km s).hasSession (id s.other).val = false) (first : Side → Array32)
    (hfirst : Peers.firstKey P.suite id km first .alice ≠ Peers.firstKey P.suite id km first .bob)
    {peers : Peers Array32 Array32 Bytes}
    (hrun : Lib.Run (Peers.step P.suite id) (Peers.Regular P.suite id)
      (Peers.connect P.suite id km first) peers) :
    ∀ d ∈ peers.delivered, d.2 = .ok d.1.plaintext :=
  agreed_of_run hdh.suite hgcm.suite hid hnew hfirst hrun

/-- Messages of both directions cross, and each side makes two DH ratchet steps. -/
def crossing : List (PeersAction Array32) :=
  [.send .alice (ascii "a0"), .send .alice (ascii "a1"), .deliver .bob (.ofNat 12),
    .send .bob (ascii "b0"), .deliver .bob (.ofNat 0), .deliver .alice (.ofNat 13),
    .send .bob (ascii "b1"), .send .alice (ascii "a2"), .deliver .alice (.ofNat 0),
    .deliver .bob (.ofNat 14), .send .bob (ascii "b2"), .deliver .alice (.ofNat 15)]

def twoIds : Side → PeerId
  | .alice => .ofNat 1
  | .bob => .ofNat 2

def twoManagers : Side → KeyManager Array32 Array32
  | .alice => ⟨.ofNat 3, .ofNat 4, ∅⟩
  | .bob => ⟨.ofNat 5, .ofNat 6, ∅⟩

theorem decrypts_in_order_crossing :
    ∃ peers, Lib.exec (Peers.step Primitives.additive.suite twoIds)
        (Peers.Regular Primitives.additive.suite twoIds)
        (Peers.connect Primitives.additive.suite twoIds twoManagers fun _ => .ofNat 11)
        crossing = some peers ∧
      peers.delivered.length = 6 ∧ ∀ d ∈ peers.delivered, d.2 = .ok d.1.plaintext := by
  have hlen : (Lib.exec (Peers.step Primitives.additive.suite twoIds)
      (Peers.Regular Primitives.additive.suite twoIds)
      (Peers.connect Primitives.additive.suite twoIds twoManagers fun _ => .ofNat 11)
      crossing).map (·.delivered.length) = some 6 := by decide +kernel
  obtain ⟨peers, hexec, hlen⟩ := Option.map_eq_some_iff.mp hlen
  refine ⟨peers, hexec, hlen, ?_⟩
  exact decrypts_in_order Primitives.additive Primitives.additive_commutes
    Primitives.additive_inverts twoIds (by decide +kernel) twoManagers
    (fun s => by cases s <;> rfl) (fun _ => .ofNat 11) (by decide +kernel) (Lib.Run.of_exec hexec)

end Cypher.Client.Verify
