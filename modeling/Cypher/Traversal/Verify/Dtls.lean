import Cypher.Lib.Increasing
import Cypher.Traversal.Dtls

/-!
# What authenticated UDP accepts

The HMAC does not say which side made it, and both sides count from one. So a datagram that is sent
back to its sender under the peer's address is accepted there (`own_datagram_accepted`). Kept from
that, with no forgeries, one verification at a time and counters that do not wrap, a side accepts a
sublist of what its peer sent (`accepts_peer_in_order`): the numbers of either list increase
(`Ordered`).
-/

namespace Cypher.Traversal

open Signaling (HmacSha256)

namespace Ends

variable {Addr : Type}

/-- Each side accepted a sublist of what its peer sent. -/
def Faithful (s : Ends Addr) : Prop :=
  ∀ side, (s side).accepted.Sublist (s side.peer).sent

section Guards

variable [DecidableEq Addr] (hmac : HmacSha256)

/-- HMAC is unforgeable: what verifies was sent by one of the two sides. -/
def Unforged (s : Ends Addr) : DtlsAction Addr → Prop
  | .receive side source data => ∀ d, (s side).arriving hmac source data = some d →
    d ∈ (s side).sent ∨ d ∈ (s side.peer).sent
  | _ => True

instance (s : Ends Addr) (a : DtlsAction Addr) : Decidable (s.Unforged hmac a) :=
  match a with
  | .receive side source data =>
    decidable_of_iff (∀ d ∈ ((s side).arriving hmac source data).toList,
      d ∈ (s side).sent ∨ d ∈ (s side.peer).sent) (by simp only [Option.mem_toList]; rfl)
  | .connect _ | .send _ _ _ | .finish _ _ _ | .fail _ => isTrue trivial

/-- Nothing that only the side itself sent comes back to it, no call overlaps another, and no counter
wraps. -/
def Undisturbed (s : Ends Addr) (a : DtlsAction Addr) : Prop :=
  (∀ side, (s side).session.sendSeq + 1 < u64Size) ∧
  match a with
  | .receive side source data => (s side).verifying = [] ∧
    ∀ d, (s side).arriving hmac source data = some d →
      d ∈ (s side).sent → d ∈ (s side.peer).sent
  | _ => True

instance (s : Ends Addr) : Decidable (∀ side, (s side).session.sendSeq + 1 < u64Size) :=
  decidable_of_iff
    ((s .client).session.sendSeq + 1 < u64Size ∧ (s .server).session.sendSeq + 1 < u64Size)
    ⟨fun h side => by cases side; exacts [h.1, h.2], fun h => ⟨h .client, h .server⟩⟩

instance (s : Ends Addr) (a : DtlsAction Addr) : Decidable (s.Undisturbed hmac a) :=
  match a with
  | .receive side source data =>
    decidable_of_iff ((∀ side, (s side).session.sendSeq + 1 < u64Size) ∧ (s side).verifying = [] ∧
      ∀ d ∈ ((s side).arriving hmac source data).toList,
        d ∈ (s side).sent → d ∈ (s side.peer).sent)
      (by simp only [Option.mem_toList]; rfl)
  | .connect _ | .send _ _ _ | .finish _ _ _ | .fail _ =>
    decidable_of_iff (∀ side, (s side).session.sendSeq + 1 < u64Size) (iff_of_eq (and_true _)).symm

end Guards

variable {s s' : Ends Addr}

/-! ## The numbers of one side -/

/-- The numbers of the datagrams increase, up to the counters. -/
structure Ordered (e : Endpoint Addr) : Prop where
  sent : e.sent.Pairwise (·.seq < ·.seq)
  sent_lt : ∀ d ∈ e.sent, d.seq < e.session.sendSeq
  accepted : e.accepted.Pairwise (·.seq < ·.seq)
  accepted_le : ∀ d ∈ e.accepted, d.seq ≤ e.session.recvSeq
  verifying : ∀ d ∈ e.verifying, e.verifying = [d] ∧ e.session.recvSeq < d.seq

namespace Ordered

variable {e : Endpoint Addr}

theorem sendAuthenticated (h : Ordered e) (hwrap : e.session.sendSeq + 1 < u64Size)
    (payload : Bytes) (sent : Bool) : Ordered (e.sendAuthenticated payload sent) := by
  have hnext : (e.session.sendSeq + 1) % u64Size = e.session.sendSeq + 1 := Nat.mod_eq_of_lt hwrap
  have hold : ∀ d ∈ e.sent, d.seq < (e.session.sendSeq + 1) % u64Size := by
    intro d hd
    have := h.sent_lt d hd
    omega
  cases sent with
  | false => exact ⟨h.sent, hold, h.accepted, h.accepted_le, h.verifying⟩
  | true =>
    refine ⟨?_, ?_, h.accepted, h.accepted_le, h.verifying⟩
    · exact Lib.increasing_append h.sent h.sent_lt
    · refine List.forall_mem_append.mpr ⟨hold, List.forall_mem_singleton.mpr ?_⟩
      change e.session.sendSeq < (e.session.sendSeq + 1) % u64Size
      omega

theorem receive [DecidableEq Addr] (h : Ordered e) (hidle : e.verifying = []) (hmac : HmacSha256)
    (source : Addr) (data : Bytes) : Ordered (e.receive hmac source data) := by
  unfold Endpoint.receive
  split
  · exact h
  · split
    · exact h
    · next hseq =>
      refine ⟨h.sent, h.sent_lt, h.accepted, h.accepted_le, ?_⟩
      rw [hidle, List.nil_append]
      intro d' hd'
      obtain rfl := List.mem_singleton.mp hd'
      exact ⟨rfl, Nat.not_le.mp hseq⟩

theorem store (h : Ordered e) {i : Nat} {d : Datagram} (hd : e.verifying[i]? = some d) :
    Ordered (e.store i d) := by
  obtain ⟨honly, hseq⟩ := h.verifying d (List.mem_of_getElem? hd)
  refine ⟨h.sent, h.sent_lt, ?_, ?_, ?_⟩
  · exact Lib.increasing_append h.accepted fun d₀ hd₀ =>
      Nat.lt_of_le_of_lt (h.accepted_le d₀ hd₀) hseq
  · refine List.forall_mem_append.mpr ⟨?_, List.forall_mem_singleton.mpr (Nat.le_refl _)⟩
    intro d₀ hd₀
    exact Nat.le_of_lt (Nat.lt_of_le_of_lt (h.accepted_le d₀ hd₀) hseq)
  · -- the call in hand was the only one
    have hempty : e.verifying.eraseIdx i = [] := by
      rw [honly] at hd ⊢
      cases i with
      | zero => rfl
      | succ i => cases hd
    intro d' hd'
    change d' ∈ e.verifying.eraseIdx i at hd'
    rw [hempty] at hd'
    cases hd'

theorem setPhase (h : Ordered e) (phase : Phase) : Ordered { e with phase } :=
  ⟨h.sent, h.sent_lt, h.accepted, h.accepted_le, h.verifying⟩

theorem advance (h : Ordered e) (hwrap : e.session.sendSeq + 1 < u64Size) (side : Side)
    (payload : Bytes) (sent : Bool) : Ordered (e.advance side payload sent) := by
  unfold Endpoint.advance
  split
  · split
    · exact h
    · split
      · exact h.setPhase _
      · exact (h.sendAuthenticated hwrap _ _).setPhase _
  · exact h

end Ordered

/-! ## Both sides -/

/-- What a side has in hand or has accepted was sent by its peer, and the numbers increase. -/
structure Sound (s : Ends Addr) : Prop where
  ordered : ∀ side, Ordered (s side)
  verifying : ∀ side, ∀ d ∈ (s side).verifying, d ∈ (s side.peer).sent
  accepted : ∀ side, ∀ d ∈ (s side).accepted, d ∈ (s side.peer).sent

theorem peer_ne (side : Side) : side.peer ≠ side := by
  cases side <;> decide

theorem peer_of_ne {side side' : Side} (h : side' ≠ side) : side'.peer = side := by
  cases side <;> cases side' <;> first | rfl | exact absurd rfl h

namespace Sound

theorem start (address : Side → Addr) (sessionKey : Array32) :
    Sound (Ends.start address sessionKey) := by
  refine ⟨?_, ?_, ?_⟩
  · intro side
    cases side <;>
      exact ⟨.nil, fun d hd => absurd hd List.not_mem_nil, .nil, fun d hd => absurd hd List.not_mem_nil,
        fun d hd => absurd hd List.not_mem_nil⟩
  · intro side d hd
    cases side <;> cases hd
  · intro side d hd
    cases side <;> cases hd

/-- One side changes and takes back nothing that it sent: what either side has of its peer's stays
so. -/
theorem mem_sent_update {part : Endpoint Addr → List Datagram}
    (h : ∀ side, ∀ d ∈ part (s side), d ∈ (s side.peer).sent) {side : Side} {e : Endpoint Addr}
    (hsent : (s side).sent ⊆ e.sent) (hpart : ∀ d ∈ part e, d ∈ (s side.peer).sent)
    (side' : Side) (d : Datagram) (hd : d ∈ part (Function.update s side e side')) :
    d ∈ (Function.update s side e side'.peer).sent := by
  by_cases hside : side' = side
  · rw [hside, Function.update_self] at hd
    rw [hside, Function.update_of_ne (peer_ne side)]
    exact hpart d hd
  · rw [Function.update_of_ne hside] at hd
    rw [peer_of_ne hside, Function.update_self]
    exact hsent (peer_of_ne hside ▸ h side' d hd)

theorem update (h : Sound s) {side : Side} {e : Endpoint Addr} (hordered : Ordered e)
    (hsent : (s side).sent ⊆ e.sent) (hverifying : ∀ d ∈ e.verifying, d ∈ (s side.peer).sent)
    (haccepted : ∀ d ∈ e.accepted, d ∈ (s side.peer).sent) :
    Sound (Function.update s side e) where
  ordered := (Function.forall_update_iff s fun _ e => Ordered e).mpr
    ⟨hordered, fun side' _ => h.ordered side'⟩
  verifying := mem_sent_update h.verifying hsent hverifying
  accepted := mem_sent_update h.accepted hsent haccepted

end Sound

theorem sent_subset_sendAuthenticated (e : Endpoint Addr) (payload : Bytes) (sent : Bool) :
    e.sent ⊆ (e.sendAuthenticated payload sent).sent := by
  cases sent with
  | false => exact List.Subset.refl _
  | true => exact List.subset_append_left _ _

theorem advance_keeps (e : Endpoint Addr) (side : Side) (payload : Bytes) (sent : Bool) :
    e.sent ⊆ (e.advance side payload sent).sent ∧
      (e.advance side payload sent).verifying = e.verifying ∧
      (e.advance side payload sent).accepted = e.accepted := by
  unfold Endpoint.advance
  split
  · split
    · exact ⟨List.Subset.refl _, rfl, rfl⟩
    · split
      · exact ⟨List.Subset.refl _, rfl, rfl⟩
      · exact ⟨sent_subset_sendAuthenticated e _ _, rfl, rfl⟩
  · exact ⟨List.Subset.refl _, rfl, rfl⟩

section Steps

variable [DecidableEq Addr] {hmac : HmacSha256}

theorem receive_keeps (e : Endpoint Addr) (source : Addr) (data : Bytes) :
    (e.receive hmac source data).sent = e.sent ∧
      (e.receive hmac source data).accepted = e.accepted ∧
      ∀ d ∈ (e.receive hmac source data).verifying,
        d ∈ e.verifying ∨ e.arriving hmac source data = some d := by
  unfold Endpoint.receive
  split
  · exact ⟨rfl, rfl, fun d hd => .inl hd⟩
  · next d harriving =>
    split
    · exact ⟨rfl, rfl, fun d hd => .inl hd⟩
    · refine ⟨rfl, rfl, List.forall_mem_append.mpr ⟨fun d hd => .inl hd, ?_⟩⟩
      exact List.forall_mem_singleton.mpr (.inr harriving)

/-- What is verified was sent by the peer: it is no forgery and not the side's own. -/
theorem Sound.receive (h : Sound s) {side : Side} {source : Addr} {data : Bytes}
    (unforged : s.Unforged hmac (.receive side source data))
    (undisturbed : s.Undisturbed hmac (.receive side source data)) :
    Sound (Function.update s side ((s side).receive hmac source data)) := by
  obtain ⟨-, hidle, hforeign⟩ := undisturbed
  obtain ⟨hsent, haccepted, hverifying⟩ := @receive_keeps _ _ hmac (s side) source data
  refine h.update ((h.ordered side).receive hidle hmac source data) ?_ ?_ ?_
  · rw [hsent]
    exact List.Subset.refl _
  · intro d hd
    rcases hverifying d hd with hold | harriving
    · exact h.verifying side d hold
    · rcases unforged d harriving with hown | hpeer
      · exact hforeign d harriving hown
      · exact hpeer
  · rw [haccepted]
    exact h.accepted side

theorem Sound.step (h : Sound s) {a : DtlsAction Addr} (unforged : s.Unforged hmac a)
    (undisturbed : s.Undisturbed hmac a) (taken : s.step hmac a = some s') : Sound s' := by
  have hwrap := undisturbed.1
  unfold Ends.step at taken
  split at taken
  · split at taken
    · cases taken
      exact h.update (((h.ordered .client).sendAuthenticated (hwrap .client) _ _).setPhase _)
        (sent_subset_sendAuthenticated _ _ _) (h.verifying .client) (h.accepted .client)
    · cases taken
  · next side data sent =>
    split at taken
    · split at taken
      · cases taken
        exact h
      · cases taken
        exact h.update ((h.ordered side).sendAuthenticated (hwrap side) _ _)
          (sent_subset_sendAuthenticated _ _ _) (h.verifying side) (h.accepted side)
    · cases taken
  · split at taken
    · cases taken
      exact h.receive unforged undisturbed
    · split at taken
      · cases taken
        exact h.receive unforged undisturbed
      · cases taken
    · cases taken
  · next side i sent =>
    split at taken
    · cases taken
    · next d hd =>
      cases taken
      obtain ⟨hsent, hverifying, haccepted⟩ := advance_keeps ((s side).store i d) side d.payload sent
      refine h.update (((h.ordered side).store hd).advance (hwrap side) _ _ _) hsent ?_ ?_
      · rw [hverifying]
        exact fun d' hd' => h.verifying side d' (List.mem_of_mem_eraseIdx hd')
      · rw [haccepted]
        refine List.forall_mem_append.mpr ⟨h.accepted side, List.forall_mem_singleton.mpr ?_⟩
        exact h.verifying side d (List.mem_of_getElem? hd)
  · next side =>
    split at taken
    · split at taken
      · cases taken
        exact h.update ((h.ordered side).setPhase _) (List.Subset.refl _) (h.verifying side)
          (h.accepted side)
      · cases taken
    · cases taken

/-- A call that nothing comes between is `verify_and_strip`. -/
theorem receive_store (e : Endpoint Addr) (hidle : e.verifying = []) (data : Bytes) :
    (e.receive hmac e.session.remote data = e ∧
      e.session.verifyAndStrip hmac (data.take e.bufferLen) = (e.session, none)) ∨
    ∃ d, e.receive hmac e.session.remote data = { e with verifying := [d] } ∧
      e.session.verifyAndStrip hmac (data.take e.bufferLen) =
        ((Endpoint.store { e with verifying := [d] } 0 d).session, some d.payload) := by
  have harriving : e.arriving hmac e.session.remote data =
      authenticate hmac e.session.hmacKey (data.take e.bufferLen) := if_pos rfl
  unfold Endpoint.receive DtlsSession.verifyAndStrip
  rw [harriving]
  cases authenticate hmac e.session.hmacKey (data.take e.bufferLen) with
  | none => exact .inl ⟨rfl, rfl⟩
  | some d =>
    dsimp only
    by_cases hseq : d.seq ≤ e.session.recvSeq
    · rw [if_pos hseq, if_pos hseq]
      exact .inl ⟨rfl, rfl⟩
    · rw [if_neg hseq, if_neg hseq, hidle]
      exact .inr ⟨d, rfl, rfl⟩

end Steps

/-- **Authenticated UDP accepts the peer's datagrams in order.** In every run without forgeries in
which nothing that only a side itself sent comes back to it under its peer's address, no verification
overlaps another and no counter wraps, what a side accepts is a sublist of what its peer sent. -/
theorem accepts_peer_in_order [DecidableEq Addr] (hmac : HmacSha256) (address : Side → Addr)
    (sessionKey : Array32) (s : Ends Addr)
    (run : Lib.Run (Ends.step hmac)
      (fun s a => s.Unforged hmac a ∧ s.Undisturbed hmac a) (start address sessionKey) s) :
    s.Faithful := by
  have hsound : Sound s := run.invariant (Sound.start address sessionKey)
    fun h guard taken => h.step guard.1 guard.2 taken
  intro side
  exact Lib.sublist_of_increasing Datagram.seq (hsound.ordered side).accepted
    (hsound.ordered side.peer).sent (hsound.accepted side)

def sampleAddress : Side → Nat
  | .client => 1
  | .server => 2

/-- The handshake, and a datagram of the client's. -/
def handshakeAndSend : List (DtlsAction Nat) :=
  [.connect true,
    .receive .server 1 (Datagram.bytes .digest (Array32.ofNat 7) ⟨1, handshakeMagic⟩),
    .finish .server 0 true,
    .receive .client 2 (Datagram.bytes .digest (Array32.ofNat 7) ⟨1, handshakeAck⟩),
    .finish .client 0 true,
    .send .client [1, 2, 3] true]

/-- The client's datagram reaches the server. -/
theorem accepts_peer_in_order_delivered :
    ∃ s, Lib.Run (Ends.step .digest)
        (fun s a => s.Unforged .digest a ∧ s.Undisturbed .digest a)
        (start sampleAddress (Array32.ofNat 7)) s ∧
      (s .server).accepted = [⟨1, handshakeMagic⟩, ⟨2, [1, 2, 3]⟩] ∧ s.Faithful := by
  have hexec : (Lib.exec (Ends.step .digest)
      (fun s a => s.Unforged .digest a ∧ s.Undisturbed .digest a) (start sampleAddress (Array32.ofNat 7))
      (handshakeAndSend ++
        [.receive .server 1 (Datagram.bytes .digest (Array32.ofNat 7) ⟨2, [1, 2, 3]⟩),
          .finish .server 0 true])).map (fun s => (s .server).accepted) =
        some [⟨1, handshakeMagic⟩, ⟨2, [1, 2, 3]⟩] := by decide +kernel
  obtain ⟨s, hs, haccepted⟩ := Option.map_eq_some_iff.mp hexec
  exact ⟨s, .of_exec hs, haccepted,
    accepts_peer_in_order .digest sampleAddress (Array32.ofNat 7) s (.of_exec hs)⟩

/-- The client's datagram is sent back to it under the server's address: it is accepted as the
server's. -/
theorem own_datagram_accepted :
    ∃ s, Lib.Run (Ends.step .digest) (Unforged .digest) (start sampleAddress (Array32.ofNat 7)) s ∧
      (s .client).accepted = [⟨1, handshakeAck⟩, ⟨2, [1, 2, 3]⟩] ∧
      (s .server).sent = [⟨1, handshakeAck⟩] ∧ ¬ s.Faithful := by
  have hexec : (Lib.exec (Ends.step .digest) (Unforged .digest) (start sampleAddress (Array32.ofNat 7))
      (handshakeAndSend ++
        [.receive .client 2 (Datagram.bytes .digest (Array32.ofNat 7) ⟨2, [1, 2, 3]⟩),
          .finish .client 0 true])).map (fun s => ((s .client).accepted, (s .server).sent)) =
        some ([⟨1, handshakeAck⟩, ⟨2, [1, 2, 3]⟩], [⟨1, handshakeAck⟩]) := by decide +kernel
  obtain ⟨s, hs, hvalues⟩ := Option.map_eq_some_iff.mp hexec
  obtain ⟨haccepted, hsent⟩ := Prod.mk.inj hvalues
  refine ⟨s, .of_exec hs, haccepted, hsent, fun hfaithful => ?_⟩
  have hlength := (hfaithful .client).length_le
  rw [Side.peer, haccepted, hsent] at hlength
  exact absurd hlength (by decide)

end Ends

end Cypher.Traversal
