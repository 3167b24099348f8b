import Cypher.Lib.Paired
import Cypher.Relay.OnionConnections
import Mathlib.Data.Nat.Bitwise

/-!
# Nonces under a circuit key

A response takes the number of its request with the top bit set. Two nonce materials are equal exactly
if the circuit ids and the numbers in them are (`nonceMaterial_inj`). So a response to a number below
`2^63` collides with the responses to the same number and with the request of that number plus
`2^63`, and a response to a larger number collides with its own request. Neither is kept apart by the
relay: a cache ends with its connection, and it lets any larger number through.
-/

namespace Cypher.Relay

open Crypto Onion Transport

def OpenedRequest.nonce (r : OpenedRequest) : Bytes :=
  nonceMaterial r.circuitId r.seqNo

def OnionResponse.nonce (a : OnionResponse) : Bytes :=
  responseNonceMaterial a.request.circuitId a.request.seqNo

/-! ## Numbers and nonces -/

theorem or_of_lt {n : Nat} (h : n < 2 ^ 63) : n ||| 2 ^ 63 = n + 2 ^ 63 := by
  have hor := Nat.two_pow_add_eq_or_of_lt h 1
  rw [Nat.mul_one] at hor
  rw [Nat.or_comm, ← hor, Nat.add_comm]

theorem or_of_le {n : Nat} (hle : 2 ^ 63 ≤ n) (hlt : n < u64Size) : n ||| 2 ^ 63 = n := by
  obtain ⟨low, rfl⟩ := Nat.exists_eq_add_of_le hle
  have hlow : low < 2 ^ 63 := by
    have hsize : u64Size = 2 ^ 63 + 2 ^ 63 := by decide
    omega
  rw [Nat.add_comm, ← or_of_lt hlow, Nat.or_assoc, Nat.or_self]

namespace OnionRelay

variable (P : Primitives) (relaySecret : Array32)

def acceptedBy (s : OnionRelay) : OnionAction → Option OpenedRequest
  | .frame c frame =>
    match s.connections c with
    | some ⟨circuits, none⟩ => (OnionConnection.readFrame P relaySecret ⟨circuits, none⟩ frame).2
    | _ => none
  | _ => none

def respondedBy (s : OnionRelay) : OnionAction → Option OnionResponse
  | .reply c nats =>
    match s.connections c with
    | some ⟨_, some request⟩ => OnionConnection.responseTo P request nats
    | _ => none
  | _ => none

/-- No response shares its nonce material with another response or with a request under its key. -/
structure NonceSafe (s : OnionRelay) : Prop where
  responses : s.responses.Pairwise fun a b =>
    a.request.circuitKey = b.request.circuitKey → a.nonce ≠ b.nonce
  requests : ∀ a ∈ s.responses, ∀ r ∈ s.accepted,
    a.request.circuitKey = r.circuitKey → a.nonce ≠ r.nonce

instance (s : OnionRelay) : Decidable (NonceSafe s) :=
  decidable_of_iff ((s.responses.Pairwise fun a b =>
      a.request.circuitKey = b.request.circuitKey → a.nonce ≠ b.nonce) ∧
    ∀ a ∈ s.responses, ∀ r ∈ s.accepted, a.request.circuitKey = r.circuitKey → a.nonce ≠ r.nonce)
    ⟨fun h => ⟨h.1, h.2⟩, fun h => ⟨h.responses, h.requests⟩⟩

/-- A request of the circuit with the number was decrypted. -/
def Accepted (s : OnionRelay) (key : Array32) (circuitId : CircuitId) (seqNo : Nat) : Prop :=
  ∃ r ∈ s.accepted, r.circuitKey = key ∧ r.circuitId = circuitId ∧ r.seqNo = seqNo

/-- A request of the circuit with the number was answered. -/
def Answered (s : OnionRelay) (key : Array32) (circuitId : CircuitId) (seqNo : Nat) : Prop :=
  ∃ a ∈ s.responses, a.request.circuitKey = key ∧ a.request.circuitId = circuitId ∧
    a.request.seqNo = seqNo

instance (s : OnionRelay) (key : Array32) (circuitId : CircuitId) (seqNo : Nat) :
    Decidable (s.Accepted key circuitId seqNo) :=
  inferInstanceAs (Decidable (∃ r ∈ s.accepted, _))

instance (s : OnionRelay) (key : Array32) (circuitId : CircuitId) (seqNo : Nat) :
    Decidable (s.Answered key circuitId seqNo) :=
  inferInstanceAs (Decidable (∃ a ∈ s.responses, _))

/-- A number is answered once and is below `2^63`, and nothing has its number plus `2^63`. -/
def FreshNumbers (s : OnionRelay) (a : OnionAction) : Prop :=
  (∀ r ∈ (s.acceptedBy P relaySecret a).toList, 2 ^ 63 ≤ r.seqNo →
    ¬ s.Answered r.circuitKey r.circuitId (r.seqNo - 2 ^ 63)) ∧
  ∀ b ∈ (s.respondedBy P a).toList, b.request.seqNo < 2 ^ 63 ∧
    ¬ s.Answered b.request.circuitKey b.request.circuitId b.request.seqNo ∧
    ¬ s.Accepted b.request.circuitKey b.request.circuitId (b.request.seqNo + 2 ^ 63)

instance (s : OnionRelay) (a : OnionAction) : Decidable (s.FreshNumbers P relaySecret a) :=
  inferInstanceAs (Decidable (_ ∧ _))

/-! ## What a step records -/

inductive Step (s : OnionRelay) : OnionAction → OnionRelay → Prop
  | connect {c : Nat} : Step s (.connect c)
      { s with connections := Function.update s.connections c (some ⟨∅, none⟩) }
  | frame {c : Nat} {circuits : CircuitCache} {frame : Frame}
      (hconn : s.connections c = some ⟨circuits, none⟩) :
      Step s (.frame c frame) { s with
        connections := Function.update s.connections c
          (OnionConnection.readFrame P relaySecret ⟨circuits, none⟩ frame).1
        accepted := s.accepted ++
          (OnionConnection.readFrame P relaySecret ⟨circuits, none⟩ frame).2.toList }
  | reply {c : Nat} {circuits : CircuitCache} {request : OpenedRequest} {nats : NatsReply}
      (hconn : s.connections c = some ⟨circuits, some request⟩) :
      Step s (.reply c nats) { s with
        connections := Function.update s.connections c (some ⟨circuits, none⟩)
        responses := s.responses ++ (OnionConnection.responseTo P request nats).toList }
  | close {c : Nat} :
      Step s (.close c) { s with connections := Function.update s.connections c none }

variable {P relaySecret} {s s' : OnionRelay} {a : OnionAction}

theorem step_cases (taken : s.step P relaySecret a = some s') : Step P relaySecret s a s' := by
  unfold step at taken
  split at taken
  · split at taken
    · cases taken; exact .connect
    · cases taken
  · split at taken
    · next hconn => cases taken; exact .frame hconn
    · cases taken
  · split at taken
    · next hconn => cases taken; exact .reply hconn
    · cases taken
  · split at taken
    · cases taken; exact .close
    · cases taken

theorem step_accepted (taken : s.step P relaySecret a = some s') :
    s'.accepted = s.accepted ++ (s.acceptedBy P relaySecret a).toList := by
  cases step_cases taken with
  | frame hconn =>
    unfold acceptedBy
    dsimp only
    rw [hconn]
  | _ => exact (List.append_nil _).symm

theorem step_responses (taken : s.step P relaySecret a = some s') :
    s'.responses = s.responses ++ (s.respondedBy P a).toList := by
  cases step_cases taken with
  | reply hconn =>
    unfold respondedBy
    dsimp only
    rw [hconn]
  | _ => exact (List.append_nil _).symm

/-! ## The records -/

/-- What is answered was accepted, with a number of 64 bits. -/
structure Recorded (s : OnionRelay) : Prop where
  seqNo_lt : ∀ r ∈ s.accepted, r.seqNo < u64Size
  responses : ∀ b ∈ s.responses, b.request ∈ s.accepted
  pending : ∀ c conn r, s.connections c = some conn → conn.pending = some r → r ∈ s.accepted

theorem decryptRequest_seqNo_lt {data : Bytes} {circuits : CircuitCache} {r : OpenedRequest}
    (h : (decryptRequest P relaySecret data circuits).2 = .ok r) : r.seqNo < u64Size := by
  unfold decryptRequest at h
  split at h
  · cases h
  · next hlong =>
    dsimp only at h
    split at h
    · cases h
    · split at h
      · cases h
      · cases h
        have hlt := Lib.leNat_lt (Proto.slice data 49 57)
        have hlength : (Proto.slice data 49 57).length = 8 := by
          rw [Proto.slice, List.length_take, List.length_drop]
          omega
        rw [hlength] at hlt
        exact hlt

/-- What comes of a frame: no request, or one that may be pending now. -/
inductive ReadOutcome : Option OnionConnection × Option OpenedRequest → Prop
  | quiet (conn : Option OnionConnection) (hpending : ∀ c, conn = some c → c.pending = none) :
      ReadOutcome (conn, none)
  | request (circuits : CircuitCache) {pending : Option OpenedRequest} {r : OpenedRequest}
      (hlt : r.seqNo < u64Size) (hpending : pending = none ∨ pending = some r) :
      ReadOutcome (some ⟨circuits, pending⟩, some r)

theorem readFrame_outcome (circuits : CircuitCache) (frame : Frame) :
    ReadOutcome (OnionConnection.readFrame P relaySecret ⟨circuits, none⟩ frame) := by
  have hidle : ∀ circuits' c, some (⟨circuits', none⟩ : OnionConnection) = some c →
      c.pending = none := by
    intro circuits' c hc
    cases hc
    rfl
  unfold OnionConnection.readFrame
  split
  · exact .quiet _ (hidle circuits)
  split
  · exact .quiet none fun c hc => nomatch hc
  split
  · exact .quiet _ (hidle circuits)
  split
  · exact .quiet _ (hidle _)
  · next hdecrypt =>
    have hlt := decryptRequest_seqNo_lt (congrArg Prod.snd hdecrypt)
    split
    · exact .request _ hlt (.inl rfl)
    · exact .request _ hlt (.inr rfl)

theorem responseTo_request {request : OpenedRequest} {nats : NatsReply} {b : OnionResponse}
    (h : OnionConnection.responseTo P request nats = some b) : b.request = request := by
  unfold OnionConnection.responseTo at h
  split at h
  · cases h; rfl
  · cases h

theorem Recorded.start : Recorded OnionRelay.start where
  seqNo_lt _ hr := absurd hr List.not_mem_nil
  responses _ hb := absurd hb List.not_mem_nil
  pending _ _ _ hconn := nomatch hconn

theorem Recorded.step (h : Recorded s) (taken : s.step P relaySecret a = some s') :
    Recorded s' := by
  cases step_cases taken with
  | connect =>
    refine ⟨h.seqNo_lt, h.responses, ?_⟩
    intro c conn r hconn hpending
    rcases Lib.of_insert hconn with ⟨-, rfl⟩ | hold
    · cases hpending
    · exact h.pending c conn r hold hpending
  | @frame c circuits frame hconn =>
    have houtcome : ReadOutcome (OnionConnection.readFrame P relaySecret ⟨circuits, none⟩ frame) :=
      readFrame_outcome circuits frame
    generalize OnionConnection.readFrame P relaySecret ⟨circuits, none⟩ frame = out at houtcome
    cases houtcome with
    | quiet conn hquiet =>
      rw [Option.toList_none, List.append_nil]
      refine ⟨h.seqNo_lt, h.responses, ?_⟩
      intro c' conn' r hconn' hpending
      dsimp only at hconn'
      by_cases hc : c' = c
      · rw [hc, Function.update_self] at hconn'
        rw [hquiet conn' hconn'] at hpending
        cases hpending
      · rw [Function.update_of_ne hc] at hconn'
        exact h.pending c' conn' r hconn' hpending
    | @request circuits' pending r hlt hpending =>
      refine ⟨List.forall_mem_append.mpr ⟨h.seqNo_lt, List.forall_mem_singleton.mpr hlt⟩,
        fun b hb => List.mem_append_left _ (h.responses b hb), ?_⟩
      intro c' conn' r' hconn' hpending'
      rcases Lib.of_insert hconn' with ⟨-, rfl⟩ | hold
      · refine List.mem_append_right _ (List.mem_singleton.mpr ?_)
        rcases hpending with rfl | rfl
        · cases hpending'
        · exact (Option.some.inj hpending').symm
      · exact List.mem_append_left _ (h.pending c' conn' r' hold hpending')
  | @reply c circuits request nats hconn =>
    have hrequest := h.pending c _ request hconn rfl
    refine ⟨h.seqNo_lt, List.forall_mem_append.mpr ⟨h.responses, ?_⟩, ?_⟩
    · intro b hb
      rw [responseTo_request (Option.mem_toList.mp hb)]
      exact hrequest
    · intro c' conn r hconn' hpending
      rcases Lib.of_insert hconn' with ⟨-, rfl⟩ | hold
      · cases hpending
      · exact h.pending c' conn r hold hpending
  | close =>
    refine ⟨h.seqNo_lt, h.responses, ?_⟩
    intro c conn r hconn hpending
    exact h.pending c conn r (Lib.of_erase hconn).2 hpending

/-! ## Collisions -/

theorem nonce_of_lt {b : OnionResponse} (h : b.request.seqNo < 2 ^ 63) :
    b.nonce = nonceMaterial b.request.circuitId (b.request.seqNo + 2 ^ 63) :=
  congrArg (nonceMaterial b.request.circuitId) (or_of_lt h)

theorem nonce_of_le {b : OnionResponse} (h : 2 ^ 63 ≤ b.request.seqNo)
    (hlt : b.request.seqNo < u64Size) : b.nonce = b.request.nonce :=
  congrArg (nonceMaterial b.request.circuitId) (or_of_le h hlt)

theorem add_lt_u64Size {n : Nat} (h : n < 2 ^ 63) : n + 2 ^ 63 < u64Size := by
  have hsize : u64Size = 2 ^ 63 + 2 ^ 63 := by decide
  omega

theorem NonceSafe.seqNo_lt (hsafe : NonceSafe s) (h : Recorded s) {b : OnionResponse}
    (hb : b ∈ s.responses) : b.request.seqNo < 2 ^ 63 := by
  by_contra hge
  have hmem := h.responses b hb
  exact hsafe.requests b hb _ hmem rfl (nonce_of_le (Nat.not_lt.mp hge) (h.seqNo_lt _ hmem))

theorem acceptedBy_or_respondedBy (s : OnionRelay) (a : OnionAction) :
    s.acceptedBy P relaySecret a = none ∨ s.respondedBy P a = none := by
  cases a with
  | frame => exact .inr rfl
  | _ => exact .inl rfl

theorem fresh_request (h : Recorded s) (hsafe : NonceSafe s) {r : OpenedRequest}
    (hr : r.seqNo < u64Size)
    (hfresh : 2 ^ 63 ≤ r.seqNo → ¬ s.Answered r.circuitKey r.circuitId (r.seqNo - 2 ^ 63))
    {b : OnionResponse} (hb : b ∈ s.responses) (hkey : b.request.circuitKey = r.circuitKey) :
    b.nonce ≠ r.nonce := by
  intro heq
  have hlt := hsafe.seqNo_lt h hb
  rw [nonce_of_lt hlt] at heq
  obtain ⟨hid, hseq⟩ := (Onion.nonceMaterial_inj (add_lt_u64Size hlt) hr).mp heq
  exact hfresh (by omega) ⟨b, hb, hkey, hid, by omega⟩

theorem fresh_response (h : Recorded s) (hsafe : NonceSafe s) {b : OnionResponse}
    (hlt : b.request.seqNo < 2 ^ 63)
    (hfresh : ¬ s.Answered b.request.circuitKey b.request.circuitId b.request.seqNo)
    {b' : OnionResponse} (hb' : b' ∈ s.responses)
    (hkey : b'.request.circuitKey = b.request.circuitKey) : b'.nonce ≠ b.nonce := by
  intro heq
  have hlt' := hsafe.seqNo_lt h hb'
  rw [nonce_of_lt hlt, nonce_of_lt hlt'] at heq
  obtain ⟨hid, hseq⟩ := (Onion.nonceMaterial_inj (add_lt_u64Size hlt') (add_lt_u64Size hlt)).mp heq
  exact hfresh ⟨b', hb', hkey, hid, by omega⟩

theorem fresh_response_request (h : Recorded s) {b : OnionResponse}
    (hlt : b.request.seqNo < 2 ^ 63)
    (hfresh : ¬ s.Accepted b.request.circuitKey b.request.circuitId (b.request.seqNo + 2 ^ 63))
    {r : OpenedRequest} (hr : r ∈ s.accepted) (hkey : b.request.circuitKey = r.circuitKey) :
    b.nonce ≠ r.nonce := by
  intro heq
  rw [nonce_of_lt hlt] at heq
  obtain ⟨hid, hseq⟩ := (Onion.nonceMaterial_inj (add_lt_u64Size hlt) (h.seqNo_lt r hr)).mp heq
  exact hfresh ⟨r, hr, hkey.symm, hid.symm, hseq.symm⟩

theorem seqNo_lt_of_acceptedBy (h : Recorded s) (taken : s.step P relaySecret a = some s')
    {r : OpenedRequest} (hr : r ∈ (s.acceptedBy P relaySecret a).toList) : r.seqNo < u64Size := by
  refine (h.step taken).seqNo_lt r ?_
  rw [step_accepted taken]
  exact List.mem_append_right _ hr

theorem NonceSafe.step (hsafe : NonceSafe s) (h : Recorded s)
    (fresh : s.FreshNumbers P relaySecret a) (taken : s.step P relaySecret a = some s') :
    NonceSafe s' := by
  obtain ⟨hrequest, hresponse⟩ := fresh
  have haccepted := step_accepted taken
  have hresponses := step_responses taken
  have hcases : s.acceptedBy P relaySecret a = none ∨ s.respondedBy P a = none :=
    acceptedBy_or_respondedBy s a
  rcases hcases with hnone | hnone
  · rw [hnone, Option.toList_none, List.append_nil] at haccepted
    refine ⟨?_, ?_⟩
    · rw [hresponses]
      refine List.pairwise_append.mpr ⟨hsafe.responses, ?_, ?_⟩
      · cases s.respondedBy P a with
        | none => exact .nil
        | some b => exact List.pairwise_singleton _ _
      · intro b' hb' b hb hkey
        obtain ⟨hlt, hanswered, -⟩ := hresponse b hb
        exact fresh_response h hsafe hlt hanswered hb' hkey
    · rw [hresponses, haccepted]
      refine List.forall_mem_append.mpr ⟨hsafe.requests, fun b hb r hr hkey => ?_⟩
      obtain ⟨hlt, -, hnot⟩ := hresponse b hb
      exact fresh_response_request h hlt hnot hr hkey
  · rw [hnone, Option.toList_none, List.append_nil] at hresponses
    refine ⟨hresponses ▸ hsafe.responses, ?_⟩
    rw [hresponses, haccepted]
    intro b hb
    refine List.forall_mem_append.mpr ⟨hsafe.requests b hb, fun r hr hkey => ?_⟩
    exact fresh_request h hsafe (seqNo_lt_of_acceptedBy h taken hr) (hrequest r hr) hb hkey

theorem not_nonceSafe_step (h : Recorded s) (stale : ¬ s.FreshNumbers P relaySecret a)
    (taken : s.step P relaySecret a = some s') : ¬ NonceSafe s' := by
  intro hsafe
  have haccepted := step_accepted taken
  have hresponses := step_responses taken
  refine stale ⟨?_, ?_⟩
  · rintro r hr hle ⟨b, hb, hkey, hid, hseq⟩
    have hlt : b.request.seqNo < 2 ^ 63 := by
      have hsize : u64Size = 2 ^ 63 + 2 ^ 63 := by decide
      have := seqNo_lt_of_acceptedBy h taken hr
      omega
    have hb' : b ∈ s'.responses := hresponses ▸ List.mem_append_left _ hb
    have hr' : r ∈ s'.accepted := haccepted ▸ List.mem_append_right _ hr
    refine hsafe.requests b hb' r hr' hkey ?_
    rw [nonce_of_lt hlt, hid, hseq, Nat.sub_add_cancel hle]
    rfl
  · intro b hb
    have hb' : b ∈ s'.responses := hresponses ▸ List.mem_append_right _ hb
    have hlt := hsafe.seqNo_lt (h.step taken) hb'
    refine ⟨hlt, ?_, ?_⟩
    · rintro ⟨b', hold, hkey, hid, hseq⟩
      have hpairwise := hsafe.responses
      rw [hresponses] at hpairwise
      refine (List.pairwise_append.mp hpairwise).2.2 b' hold b hb hkey ?_
      rw [OnionResponse.nonce, hid, hseq]
      rfl
    · rintro ⟨r, hr, hkey, hid, hseq⟩
      have hr' : r ∈ s'.accepted := haccepted ▸ List.mem_append_left _ hr
      refine hsafe.requests b hb' r hr' hkey.symm ?_
      rw [nonce_of_lt hlt, OpenedRequest.nonce, hid, hseq]

theorem not_nonceSafe_stays (hreused : ¬ NonceSafe s) (taken : s.step P relaySecret a = some s') :
    ¬ NonceSafe s' := by
  intro hsafe
  have haccepted := step_accepted taken
  have hresponses := step_responses taken
  refine hreused ⟨?_, ?_⟩
  · have hpairwise := hsafe.responses
    rw [hresponses] at hpairwise
    exact (List.pairwise_append.mp hpairwise).1
  · intro b hb r hr hkey
    exact hsafe.requests b (hresponses ▸ List.mem_append_left _ hb) r
      (haccepted ▸ List.mem_append_left _ hr) hkey

theorem nonceSafe_start : NonceSafe start :=
  ⟨.nil, fun _ hb => absurd hb List.not_mem_nil⟩

/-- **Nonces under a circuit key.** Over every run of any number of connections with any requests, the
nonce materials of the responses are distinct from each other and from those of the accepted requests
under the same key exactly if every step met `FreshNumbers`. -/
theorem nonces_distinct_iff (P : Primitives) (relaySecret : Array32) (actions : List OnionAction)
    (s : OnionRelay)
    (run : Lib.exec (step P relaySecret) (fun _ _ => True) start actions = some s) :
    NonceSafe s ↔
      Lib.exec (step P relaySecret) (FreshNumbers P relaySecret) start actions = some s :=
  Lib.good_iff_exec (I := Recorded) (fun h taken => h.step taken)
    (fun h hsafe fresh taken => hsafe.step h fresh taken)
    (fun h stale taken => not_nonceSafe_step h stale taken)
    (fun _ hreused taken => not_nonceSafe_stays hreused taken) Recorded.start nonceSafe_start run

def fetchFrame : Frame :=
  ⟨1, 0, 0, ((encodeRelayRequest Primitives.additive
    (Circuit.new Primitives.additive (Array32.ofNat 5) ⟨List.replicate 16 9, rfl⟩ (Array32.ofNat 3))
    (⟨Proto.inboxFetch, ([7], ())⟩ : Proto.Message).serialize).2.toOption).getD []⟩

/-- One request on one connection. -/
theorem nonces_distinct_iff_fetch :
    ∃ s, Lib.exec (step Primitives.additive (Array32.ofNat 3)) (fun _ _ => True) start
        [.connect 1, .frame 1 fetchFrame, .reply 1 (.reply [1])] = some s ∧
      s.responses.length = 1 ∧ NonceSafe s := by
  have hrun : (Lib.exec (step Primitives.additive (Array32.ofNat 3)) (fun _ _ => True) start
      [.connect 1, .frame 1 fetchFrame, .reply 1 (.reply [1])]).map (·.responses.length) =
        some 1 := by decide +kernel
  have hfresh : (Lib.exec (step Primitives.additive (Array32.ofNat 3))
      (FreshNumbers Primitives.additive (Array32.ofNat 3)) start
      [.connect 1, .frame 1 fetchFrame, .reply 1 (.reply [1])]).isSome := by decide +kernel
  obtain ⟨s, hs, hlength⟩ := Option.map_eq_some_iff.mp hrun
  obtain ⟨t, ht⟩ := Option.isSome_iff_exists.mp hfresh
  have hst : t = s := Option.some.inj ((Lib.exec_mono (fun _ _ _ => trivial) ht).symm.trans hs)
  refine ⟨s, hs, hlength, ?_⟩
  exact (nonces_distinct_iff Primitives.additive (Array32.ofNat 3) _ s hs).mpr (hst ▸ ht)

/-- The request is sent again on a second connection: two replies are encrypted under one nonce. -/
theorem nonce_reused_on_second_connection :
    ∃ s, Lib.exec (step Primitives.additive (Array32.ofNat 3)) (fun _ _ => True) start
        [.connect 1, .frame 1 fetchFrame, .reply 1 (.reply [1]),
          .connect 2, .frame 2 fetchFrame, .reply 2 (.reply [2])] = some s ∧
      s.responses.map OnionResponse.payload = [[1], [2]] ∧ ¬ NonceSafe s := by
  have hrun : (Lib.exec (step Primitives.additive (Array32.ofNat 3)) (fun _ _ => True) start
      [.connect 1, .frame 1 fetchFrame, .reply 1 (.reply [1]),
        .connect 2, .frame 2 fetchFrame, .reply 2 (.reply [2])]).map
      (fun s => (s.responses.map OnionResponse.payload, decide (NonceSafe s))) =
        some ([[1], [2]], false) := by decide +kernel
  obtain ⟨s, hs, hvalues⟩ := Option.map_eq_some_iff.mp hrun
  obtain ⟨hpayloads, hreused⟩ := Prod.mk.inj hvalues
  exact ⟨s, hs, hpayloads, of_decide_eq_false hreused⟩

end OnionRelay

end Cypher.Relay
