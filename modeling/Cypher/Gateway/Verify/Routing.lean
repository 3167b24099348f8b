import Cypher.Gateway.Routing
import Cypher.Proto.Verify.RoundTrip
import Cypher.Signaling.Verify.Registry

/-!
# The way of a frame to its target

A `Passage` is one call of `route_frame` with all that it and signaling read on the way: the tables
at the two lookups of the gateway and the registry at the two lookups of signaling. From it follows
what is written to connections and what copies reach the target. A frame that is published reaches
the target by way of signaling, and directly as well if the second lookup finds it.
-/

namespace Cypher

open Proto Signaling

structure Passage where
  before : Gateway
  after : Gateway
  natsOk : Bool
  /-- The publication reaches signaling, and no command of its handler fails. -/
  handled : Bool
  atSender : Registry
  atTarget : Registry

def routedKinds : List Constructor :=
  [signalIceCandidate, signalOffer, signalAnswer, chatSend, fileOffer, fileAccept, fileChunk,
    fileComplete, fileChunkAck, fileResume]

/-- Those that are published whether the target is local or not. -/
def signalKinds : List Constructor :=
  [signalIceCandidate, signalOffer, signalAnswer]

def Route.subject : Route → Subject
  | server subject => subject
  | signal subject => subject
  | chat => .chatSend
  | file subject => subject

def deliveredPayload : Delivery → Bytes
  | .session _ sent => sent
  | .inbox _ sent => sent

def deliveredWrite : Delivery → Option Write
  | .session t sent => some ⟨t, sent⟩
  | .inbox _ _ => none

namespace Passage

variable (action? : Bytes → Option String) (w : Passage) (s : SessionId) (payload : Bytes)

def routed : Routed :=
  w.before.routeFrame action? w.after w.natsOk s payload

def handle : Subject × Envelope → List Delivery
  | (subject, .payload s payload) => (handleMessage w.atSender w.atTarget s payload subject).toList
  | (_, .request _ _) => []

def deliveries : List Delivery :=
  if w.handled then (w.routed action? s payload).published.flatMap w.handle else []

/-- The payloads that reach the target, over its connection or its inbox. -/
def copies : List Bytes :=
  (w.routed action? s payload).writes.map Write.payload ++
    (w.deliveries action? s payload).map deliveredPayload

/-- The frames written to connections, by the gateway and for signaling. -/
def written : List Write :=
  (w.routed action? s payload).writes ++
    (w.deliveries action? s payload).filterMap deliveredWrite

def relayed (m : Message) : Option Delivery :=
  if m.ctor = chatSend then
    (w.atSender.getPeerIdForSession s).bind fun senderHex =>
      (w.atTarget.tryForwardOrInbox (hexEncode m.peerId)
        (m.withPeerId (hexDecodeBytes senderHex)).serialize).1
  else if m.ctor = signalIceCandidate ∧ w.atSender.getPeerIdForSession s = none then none
  else w.atTarget.forwardToPeer (hexEncode m.peerId) payload

end Passage

/-! ## What becomes of a message with a target -/

/-- No message starts with a brace, so none is taken for JSON. -/
theorem head_ne_brace {payload : Bytes} {m : Message} (hm : dispatch coreP2p payload = .ok m) :
    payload.head? ≠ some 0x7B := by
  obtain ⟨hmem, hlen, hid, -⟩ := (dispatch_eq_ok_iff_fields coreP2p_ids coreP2p_hygienic).mp hm
  have hlow : ∀ c ∈ coreP2p, c.id.toNat % 256 ≠ 0x7B := by decide +kernel
  cases payload with
  | nil => simp
  | cons x rest =>
    intro hx
    obtain rfl : x = 0x7B := by simpa using hx
    apply hlow m.ctor hmem
    rw [← hid]
    simp [slice, Lib.leNat]

theorem routeFrame_of_dispatch {payload : Bytes} {m : Message}
    (hm : dispatch coreP2p payload = .ok m) (action? : Bytes → Option String)
    (before after : Gateway) (natsOk : Bool) (s : SessionId) :
    before.routeFrame action? after natsOk s payload =
      before.routeMessage after natsOk s payload m := by
  have hne : payload ≠ [] := by
    rintro rfl
    cases hm
  rw [Gateway.routeFrame, if_neg hne, if_neg (head_ne_brace hm), hm]

theorem routeOf_of_mem : ∀ c ∈ routedKinds,
    (c ∈ signalKinds ∧ c ≠ chatSend ∧ routeOf c = .signal (routeOf c).subject) ∨
    (c ∉ signalKinds ∧ c = chatSend ∧ routeOf c = .chat) ∨
    (c ∉ signalKinds ∧ c ≠ chatSend ∧ routeOf c = .file (routeOf c).subject) := by
  decide +kernel

/-- A message with a target is sent to it at the first lookup, unless it is a signal or the target
is not found; then it is published, and the target is looked up again. -/
theorem routeMessage_cases {m : Message} (hkind : m.ctor ∈ routedKinds) (before after : Gateway)
    (natsOk : Bool) (s : SessionId) (payload : Bytes) :
    (∃ t, before.localSession m.peerId = some t ∧ m.ctor ∉ signalKinds ∧
      before.routeMessage after natsOk s payload m =
        ⟨[⟨t, if m.ctor = chatSend then (m.withPeerId (before.peerIdOf s)).serialize
          else payload⟩], [], true⟩) ∨
    ((m.ctor ∈ signalKinds ∨ before.localSession m.peerId = none) ∧
      before.routeMessage after natsOk s payload m =
        after.publishAndForward natsOk s payload m.peerId (routeOf m.ctor).subject) := by
  unfold Gateway.routeMessage
  rcases routeOf_of_mem m.ctor hkind with ⟨hsignal, -, hroute⟩ | ⟨hsignal, hchat, hroute⟩ |
    ⟨hsignal, hchat, hroute⟩
  · right
    refine ⟨.inl hsignal, ?_⟩
    rw [hroute]
    rfl
  · rw [hroute]
    cases hlocal : before.localSession m.peerId with
    | some t =>
      left
      refine ⟨t, rfl, hsignal, ?_⟩
      rw [if_pos hchat]
    | none =>
      right
      exact ⟨.inr rfl, rfl⟩
  · rw [hroute]
    cases hlocal : before.localSession m.peerId with
    | some t =>
      left
      refine ⟨t, rfl, hsignal, ?_⟩
      rw [if_neg hchat]
    | none =>
      right
      exact ⟨.inr rfl, rfl⟩

theorem forwardMessage_of_dispatch {payload : Bytes} {m : Message}
    (hm : dispatch coreP2p payload = .ok m) {accepted : List Constructor}
    (hmem : m.ctor ∈ accepted) (r : Registry) :
    forwardMessage accepted r payload = r.forwardToPeer (hexEncode m.peerId) payload := by
  rw [forwardMessage, hm]
  exact if_pos hmem

theorem handleMessage_of_dispatch {w : Passage} {payload : Bytes} {m : Message}
    (hm : dispatch coreP2p payload = .ok m) (hkind : m.ctor ∈ routedKinds) (s : SessionId) :
    handleMessage w.atSender w.atTarget s payload (routeOf m.ctor).subject =
      w.relayed s payload m := by
  -- the handler of a constructor that is neither chat nor an ICE candidate
  have hplain : ∀ {c : Constructor} {accepted : List Constructor}, m.ctor = c → c ∈ accepted →
      c ≠ chatSend → c ≠ signalIceCandidate →
      forwardMessage accepted w.atTarget payload = w.relayed s payload m := by
    intro c accepted hc hmem hchat hice
    rw [forwardMessage_of_dispatch hm (hc ▸ hmem), Passage.relayed, if_neg (hc ▸ hchat),
      if_neg fun h => hice (hc ▸ h.1)]
  simp only [routedKinds, List.mem_cons, List.not_mem_nil, or_false] at hkind
  rcases hkind with h | h | h | h | h | h | h | h | h | h
  · rw [h]
    change handleIceCandidate w.atSender w.atTarget s payload = _
    have hchat : m.ctor ≠ chatSend := by rw [h]; decide
    rw [handleIceCandidate, hm, Passage.relayed, if_neg hchat]
    simp only [if_pos h]
    cases hpeer : w.atSender.getPeerIdForSession s with
    | none => rw [if_pos ⟨h, rfl⟩]
    | some p => rw [if_neg (by simp)]
  · rw [h]
    exact hplain h (by decide) (by decide) (by decide)
  · rw [h]
    exact hplain h (by decide) (by decide) (by decide)
  · rw [h]
    change handleChatSend w.atSender w.atTarget s payload = _
    rw [handleChatSend, hm, Passage.relayed, if_pos h]
    simp only [if_pos h]
    cases w.atSender.getPeerIdForSession s with
    | none => rfl
    | some p => rfl
  all_goals
    rw [h]
    exact hplain h (by decide) (by decide) (by decide)

namespace Passage

variable {w : Passage} {s : SessionId} {payload : Bytes} {m : Message}

/-- The three ways of a message with a target: sent at the first lookup, not published because NATS
failed, or published, looked up again and relayed by signaling. -/
theorem ways (action? : Bytes → Option String) (w : Passage) (s : SessionId)
    (hm : dispatch coreP2p payload = .ok m) (hkind : m.ctor ∈ routedKinds) :
    (∃ t, w.before.localSession m.peerId = some t ∧ m.ctor ∉ signalKinds ∧
      (w.routed action? s payload).writes =
        [⟨t, if m.ctor = chatSend then (m.withPeerId (w.before.peerIdOf s)).serialize
          else payload⟩] ∧
      w.deliveries action? s payload = []) ∨
    ((m.ctor ∈ signalKinds ∨ w.before.localSession m.peerId = none) ∧ w.natsOk = false ∧
      (w.routed action? s payload).writes = [] ∧ w.deliveries action? s payload = []) ∨
    ((m.ctor ∈ signalKinds ∨ w.before.localSession m.peerId = none) ∧ w.natsOk = true ∧
      (w.routed action? s payload).writes =
        (w.after.localSession m.peerId).toList.map (fun t => ⟨t, payload⟩) ∧
      w.deliveries action? s payload =
        if w.handled then (w.relayed s payload m).toList else []) := by
  have hrouted : w.routed action? s payload =
      w.before.routeMessage w.after w.natsOk s payload m :=
    routeFrame_of_dispatch hm action? w.before w.after w.natsOk s
  simp only [deliveries, hrouted]
  rcases routeMessage_cases hkind w.before w.after w.natsOk s payload with
    ⟨t, hlocal, hsignal, heq⟩ | ⟨hpublished, heq⟩
  · left
    refine ⟨t, hlocal, hsignal, ?_, ?_⟩
    · rw [heq]
    · rw [heq]
      simp
  · right
    rw [heq, Gateway.publishAndForward]
    cases hnats : w.natsOk with
    | false =>
      left
      exact ⟨hpublished, rfl, rfl, by simp⟩
    | true =>
      right
      refine ⟨hpublished, rfl, rfl, ?_⟩
      simp [handle, handleMessage_of_dispatch hm hkind s]

/-! ## At most one copy -/

/-- Signaling passes these on only for a session whose peer it knows. -/
def NeedsSender (m : Message) : Prop :=
  m.ctor = chatSend ∨ m.ctor = signalIceCandidate

theorem relayed_of_unknown (hneeds : NeedsSender m)
    (hunknown : w.atSender.getPeerIdForSession s = none) : w.relayed s payload m = none := by
  unfold relayed
  by_cases hchat : m.ctor = chatSend
  · rw [if_pos hchat, hunknown]
    rfl
  · rw [if_neg hchat, if_pos ⟨hneeds.resolve_left hchat, hunknown⟩]

theorem relayed_of_session {t : SessionId} (payload : Bytes)
    (hsession : w.atTarget.sessionAt w.atTarget.now (hexEncode m.peerId) = some t)
    (hknown : NeedsSender m → w.atSender.getPeerIdForSession s ≠ none) :
    ∃ sent, w.relayed s payload m = some (.session t sent) := by
  unfold relayed
  by_cases hchat : m.ctor = chatSend
  · obtain ⟨senderHex, hsender⟩ := Option.ne_none_iff_exists'.mp (hknown (.inl hchat))
    rw [if_pos hchat, hsender]
    exact ⟨_, Registry.tryForwardOrInbox_eq_session_iff.mpr ⟨hsession, rfl⟩⟩
  · rw [if_neg hchat, if_neg fun h => hknown (.inr h.1) h.2]
    obtain ⟨session, hget, rfl⟩ := Option.map_eq_some_iff.mp hsession
    refine ⟨payload, ?_⟩
    rw [Registry.forwardToPeer]
    exact Option.map_eq_some_iff.mpr ⟨session, hget, rfl⟩

/-- The frame is published and the target is found at the second lookup: it is sent directly and
relayed by signaling. -/
def Doubled (w : Passage) (s : SessionId) (m : Message) : Prop :=
  w.natsOk = true ∧ w.handled = true ∧
    (m.ctor ∈ signalKinds ∨ w.before.localSession m.peerId = none) ∧
    w.after.localSession m.peerId ≠ none ∧
    (NeedsSender m → w.atSender.getPeerIdForSession s ≠ none)

theorem written_length_le (action? : Bytes → Option String)
    (hm : dispatch coreP2p payload = .ok m) (hkind : m.ctor ∈ routedKinds)
    (h : ¬ w.Doubled s m) : (w.written action? s payload).length ≤ 1 := by
  unfold written
  rcases ways action? w s hm hkind with
    ⟨t, -, -, hwrites, hdeliveries⟩ | ⟨-, -, hwrites, hdeliveries⟩ |
      ⟨hpublished, hnats, hwrites, hdeliveries⟩
  · simp [hwrites, hdeliveries]
  · simp [hwrites, hdeliveries]
  · rw [hwrites, hdeliveries]
    cases hafter : w.after.localSession m.peerId with
    | none =>
      -- nothing is sent directly
      cases w.handled with
      | false => simp
      | true =>
        cases hrelayed : w.relayed s payload m with
        | none => simp
        | some d => cases hwrite : deliveredWrite d <;> simp [hwrite]
    | some t =>
      -- nothing is relayed
      cases hhandled : w.handled with
      | false => simp
      | true =>
        have hunknown : ¬ (NeedsSender m → w.atSender.getPeerIdForSession s ≠ none) :=
          fun hknown => h ⟨hnats, hhandled, hpublished, by simp [hafter], hknown⟩
        push Not at hunknown
        rw [relayed_of_unknown hunknown.1 hunknown.2]
        simp

/-- Where the gateway finds a peer, the registry has the same session for it. -/
def ConsistentWith (g : Gateway) (r : Registry) : Prop :=
  ∀ p t, g.localSession p = some t → r.sessionAt r.now (hexEncode p) = some t

theorem written_of_doubled (action? : Bytes → Option String)
    (hm : dispatch coreP2p payload = .ok m) (hkind : m.ctor ∈ routedKinds)
    (hcons : ConsistentWith w.after w.atTarget) (h : w.Doubled s m) :
    ∃ t sent, w.written action? s payload = [⟨t, payload⟩, ⟨t, sent⟩] := by
  obtain ⟨hnats, hhandled, hpublished, hafter, hknown⟩ := h
  obtain ⟨t, hlocal⟩ := Option.ne_none_iff_exists'.mp hafter
  obtain ⟨sent, hrelayed⟩ := relayed_of_session payload (hcons _ _ hlocal) hknown
  refine ⟨t, sent, ?_⟩
  unfold written
  rcases ways action? w s hm hkind with
    ⟨t', hbefore, hsignal, -, -⟩ | ⟨-, hno, -, -⟩ | ⟨-, -, hwrites, hdeliveries⟩
  · rcases hpublished with hsig | hnone
    · exact absurd hsig hsignal
    · rw [hbefore] at hnone
      cases hnone
  · rw [hnats] at hno
    cases hno
  · rw [hwrites, hdeliveries, hlocal, hhandled, hrelayed]
    rfl

/-- **When a frame is delivered at most once.** With tables that are consistent with the registry, a
frame with a target is written at most once to each connection, exactly if it is not doubled. -/
theorem at_most_once_iff (action? : Bytes → Option String) (w : Passage)
    (hcons : ConsistentWith w.after w.atTarget) (s : SessionId) (payload : Bytes) (m : Message)
    (hm : dispatch coreP2p payload = .ok m) (hkind : m.ctor ∈ routedKinds) :
    (∀ c, ((w.written action? s payload).filter fun write => write.session = c).length ≤ 1) ↔
      ¬ w.Doubled s m := by
  constructor
  · intro honce hdoubled
    obtain ⟨t, sent, hwritten⟩ := written_of_doubled action? hm hkind hcons hdoubled
    have htwice := honce t
    rw [hwritten] at htwice
    simp at htwice
  · intro h c
    exact Nat.le_trans (List.length_filter_le _ _) (written_length_le action? hm hkind h)

/-! ## The sender's id -/

/-- What is read from a payload as its sender. -/
def Names (a payload : Bytes) : Prop :=
  ∃ m, dispatch coreP2p payload = .ok m ∧ m.peerId = a

theorem names_iff (hm : dispatch coreP2p payload = .ok m) {a : Bytes} :
    Names a payload ↔ m.peerId = a := by
  constructor
  · rintro ⟨m', hm', hpeer⟩
    rw [hm] at hm'
    cases hm'
    exact hpeer
  · exact fun hpeer => ⟨m, hm, hpeer⟩

theorem names_withPeerId (hm : dispatch coreP2p payload = .ok m) (hchat : m.ctor = chatSend)
    {a : Bytes} (hshort : a.length < 2 ^ 32) : Names a (m.withPeerId a).serialize := by
  refine ⟨m.withPeerId a, dispatch_withPeerId hm hshort, Message.withPeerId_peerId ?_ a⟩
  rw [hchat]
  decide

theorem sessionInitId_short {init a : Bytes} (h : Gateway.sessionInitId init = some a) :
    a.length < 2 ^ 32 := by
  unfold Gateway.sessionInitId at h
  cases hm : dispatch coreP2p init with
  | error err => simp [hm] at h
  | ok m =>
    obtain ⟨-, hshort, -⟩ := (dispatch_eq_ok_iff coreP2p_hygienic).mp hm
    obtain ⟨ctor, fields⟩ := m
    simp only [hm, Message.as?] at h
    by_cases hctor : ctor = sessionInit
    · subst hctor
      rw [dif_pos rfl] at h
      obtain rfl := Option.some.inj h
      exact hshort.1
    · rw [dif_neg hctor] at h
      cases h

theorem deliveredPayload_of_forwardOrInbox {r : Registry} {p : List Char} {sent : Bytes}
    {d : Delivery} (h : (r.tryForwardOrInbox p sent).1 = some d) : deliveredPayload d = sent := by
  unfold Registry.tryForwardOrInbox at h
  cases hsession : r.getSession p with
  | some session =>
    simp only [hsession, Option.some.injEq] at h
    rw [← h]
    rfl
  | none =>
    cases hprekeys : r.getPrekeys p with
    | none => simp [hsession, hprekeys] at h
    | some bundle =>
      cases hinbox : bundle.inboxId with
      | none => simp [hsession, hprekeys, hinbox] at h
      | some inboxHex =>
        simp only [hsession, hprekeys, hinbox, Option.some.injEq] at h
        rw [← h]
        rfl

section Sender

variable {a : Bytes} (hshort : a.length < 2 ^ 32)
  (hreverse : ∀ p, w.atSender.getPeerIdForSession s = some p → p = hexEncode a)
  (hm : dispatch coreP2p payload = .ok m) (hpayload : ¬ Names a payload)

include hshort hreverse hm in
theorem names_of_relayed (hchat : m.ctor = chatSend) {d : Delivery}
    (hd : w.relayed s payload m = some d) : Names a (deliveredPayload d) := by
  rw [relayed, if_pos hchat] at hd
  obtain ⟨senderHex, hsender, hd⟩ := Option.bind_eq_some_iff.mp hd
  rw [deliveredPayload_of_forwardOrInbox hd, hreverse senderHex hsender, hexDecodeBytes_hexEncode]
  exact names_withPeerId hm hchat hshort

include hshort hreverse hm hpayload in
theorem chat_named_iff (action? : Bytes → Option String) (hsender : w.before.peerIdOf s = a)
    (hchat : m.ctor = chatSend) :
    (∀ copy ∈ w.copies action? s payload, Names a copy) ↔
      (w.before.localSession m.peerId = none → w.natsOk = true →
        w.after.localSession m.peerId = none) := by
  have hkind : m.ctor ∈ routedKinds := by rw [hchat]; decide
  have hsignal : m.ctor ∉ signalKinds := by rw [hchat]; decide
  unfold copies
  rcases ways action? w s hm hkind with ⟨t, hlocal, -, hwrites, hdeliveries⟩ |
    ⟨-, hnats, hwrites, hdeliveries⟩ | ⟨hpublished, hnats, hwrites, hdeliveries⟩
  · rw [hwrites, hdeliveries, if_pos hchat, hsender, hlocal]
    refine iff_of_true ?_ (fun h => by cases h)
    simpa using names_withPeerId hm hchat hshort
  · rw [hwrites, hdeliveries]
    refine iff_of_true (by simp) (fun _ h => ?_)
    rw [hnats] at h
    cases h
  · rw [hwrites, hdeliveries]
    have hbefore := hpublished.resolve_left hsignal
    cases hafter : w.after.localSession m.peerId with
    | some t =>
      refine iff_of_false (fun hall => ?_) (fun h => by cases h hbefore hnats)
      exact hpayload (hall payload (by simp))
    | none =>
      refine iff_of_true ?_ (fun _ _ => rfl)
      intro copy hcopy
      cases hhandled : w.handled with
      | false => simp [hhandled] at hcopy
      | true =>
        simp only [hhandled, Option.toList_none, List.map_nil, List.nil_append, if_true,
          List.mem_map, Option.mem_toList] at hcopy
        obtain ⟨d, hd, rfl⟩ := hcopy
        exact names_of_relayed hshort hreverse hm hchat hd

include hm hpayload in
theorem fileOffer_named_iff (action? : Bytes → Option String) (hfile : m.ctor = fileOffer) :
    (∀ copy ∈ w.copies action? s payload, Names a copy) ↔
      w.before.localSession m.peerId = none ∧
        (w.natsOk = true → w.after.localSession m.peerId = none ∧
          (w.handled = true → w.atTarget.getSession (hexEncode m.peerId) = none)) := by
  have hkind : m.ctor ∈ routedKinds := by rw [hfile]; decide
  have hsignal : m.ctor ∉ signalKinds := by rw [hfile]; decide
  have hchat : m.ctor ≠ chatSend := by rw [hfile]; decide
  have hice : m.ctor ≠ signalIceCandidate := by rw [hfile]; decide
  unfold copies
  rcases ways action? w s hm hkind with ⟨t, hlocal, -, hwrites, hdeliveries⟩ |
    ⟨hpublished, hnats, hwrites, hdeliveries⟩ | ⟨hpublished, hnats, hwrites, hdeliveries⟩
  · rw [hwrites, hdeliveries, if_neg hchat, hlocal]
    refine iff_of_false (fun hall => ?_) (fun h => by cases h.1)
    exact hpayload (hall payload (by simp))
  · rw [hwrites, hdeliveries]
    refine iff_of_true (by simp) ⟨hpublished.resolve_left hsignal, fun h => ?_⟩
    rw [hnats] at h
    cases h
  · have hrelayed : w.relayed s payload m =
        w.atTarget.forwardToPeer (hexEncode m.peerId) payload := by
      rw [relayed, if_neg hchat, if_neg fun h => hice h.1]
    rw [hwrites, hdeliveries, hrelayed, Registry.forwardToPeer]
    have hbefore := hpublished.resolve_left hsignal
    cases hafter : w.after.localSession m.peerId with
    | some t =>
      refine iff_of_false (fun hall => ?_) (fun h => by cases (h.2 hnats).1)
      exact hpayload (hall payload (by simp))
    | none =>
      cases hhandled : w.handled with
      | false => exact iff_of_true (by simp) ⟨hbefore, fun _ => ⟨rfl, fun h => by cases h⟩⟩
      | true =>
        cases hsession : w.atTarget.getSession (hexEncode m.peerId) with
        | none => exact iff_of_true (by simp) ⟨hbefore, fun _ => ⟨rfl, fun _ => rfl⟩⟩
        | some session =>
          refine iff_of_false (fun hall => ?_) (fun h => by cases (h.2 hnats).2 rfl)
          exact hpayload (hall payload (by simp [deliveredPayload]))

end Sender

/-- The lookups of a passage that let every copy of a chat message or file offer name its sender:
for chat, the target does not appear between the two lookups of the gateway; for a file offer, no
copy reaches the target. -/
def NamesSender (w : Passage) (m : Message) : Prop :=
  if m.ctor = chatSend then
    w.before.localSession m.peerId = none → w.natsOk = true →
      w.after.localSession m.peerId = none
  else
    w.before.localSession m.peerId = none ∧
      (w.natsOk = true → w.after.localSession m.peerId = none ∧
        (w.handled = true → w.atTarget.getSession (hexEncode m.peerId) = none))

/-- **When routed messages name their sender.** Of a chat message or file offer that a session
registered with peer id `a` sends to another peer, every copy that reaches the target names `a`
exactly if the lookups on its way are as `NamesSender` says. -/
theorem sender_named_iff (action? : Bytes → Option String) (w : Passage) (s : SessionId)
    (init a b : Bytes) (hinit : Gateway.sessionInitId init = some a)
    (hregistered : ∃ conn, w.before.connections s = some conn ∧ conn.peerId = a)
    (hreverse : ∀ p, w.atSender.getPeerIdForSession s = some p → p = hexEncode a)
    (payload : Bytes) (m : Message) (hm : dispatch coreP2p payload = .ok m)
    (hkind : m.ctor = chatSend ∨ m.ctor = fileOffer) (htarget : m.peerId = b) (hother : b ≠ a) :
    (∀ copy ∈ w.copies action? s payload, Names a copy) ↔ w.NamesSender m := by
  -- a copy that was not rewritten names the target
  have hpayload : ¬ Names a payload := by
    rw [names_iff hm, htarget]
    exact hother
  have hsender : w.before.peerIdOf s = a := by
    obtain ⟨conn, hconn, hpeer⟩ := hregistered
    simp only [Gateway.peerIdOf, hconn, hpeer]
  unfold NamesSender
  rcases hkind with hchat | hfile
  · rw [if_pos hchat]
    exact chat_named_iff (sessionInitId_short hinit) hreverse hm hpayload action? hsender hchat
  · rw [if_neg (by rw [hfile]; decide)]
    exact fileOffer_named_iff hm hpayload action? hfile

/-! ## Two peers on one gateway -/

def aliceId : Bytes := (Array32.ofNat 7).val

def bobId : Bytes := (Array32.ofNat 8).val

def bothLocal : Gateway where
  connections s := if s = 1 then some ⟨aliceId, 0⟩ else if s = 2 then some ⟨bobId, 0⟩ else none
  peers p := if p = aliceId then some 1 else if p = bobId then some 2 else none
  nextSessionId := 3

def aliceLocal : Gateway where
  connections s := if s = 1 then some ⟨aliceId, 0⟩ else if s = 2 then some ⟨[], 0⟩ else none
  peers p := if p = aliceId then some 1 else none
  nextSessionId := 3

def bothRegistered : Registry :=
  ((Registry.empty.register "gateway-0" 1 (hexEncode aliceId)).1.register "gateway-0" 2
    (hexEncode bobId)).1

theorem bothLocal_consistent : ConsistentWith bothLocal bothRegistered := by
  intro p t h
  by_cases halice : p = aliceId
  · subst halice
    have hlocal : bothLocal.localSession aliceId = some 1 := by decide +kernel
    rw [hlocal] at h
    cases h
    decide +kernel
  · by_cases hbob : p = bobId
    · subst hbob
      have hlocal : bothLocal.localSession bobId = some 2 := by decide +kernel
      rw [hlocal] at h
      cases h
      decide +kernel
    · simp [Gateway.localSession, bothLocal, halice, hbob] at h

/-- A frame of Alice's while Bob is connected all the time. -/
def steady : Passage :=
  ⟨bothLocal, bothLocal, true, true, bothRegistered, bothRegistered⟩

/-- A frame of Alice's during which Bob's SESSION_INIT is handled. -/
def joining : Passage :=
  ⟨aliceLocal, bothLocal, true, true, bothRegistered, bothRegistered⟩

def chatToBob : Message :=
  ⟨chatSend, (bobId, [1, 2, 3], [], (0 : UInt32), ())⟩

def fileOfferToBob : Message :=
  ⟨fileOffer, (bobId, [9], ⟨[], rfl⟩, (10 : UInt64), (1 : UInt32), [], (0 : UInt32), ())⟩

def offerToBob : Message :=
  ⟨signalOffer, ([1, 2, 3], bobId, ())⟩

theorem chatToBob_read : dispatch coreP2p chatToBob.serialize = .ok chatToBob :=
  dispatch_of_fits coreP2p_ids coreP2p_hygienic (by decide +kernel) (by decide)
    (fits_serialize chatToBob)

theorem sender_named_iff_steady :
    (steady.copies GatewayServer.noJson 1 chatToBob.serialize).length = 1 ∧
      ∀ copy ∈ steady.copies GatewayServer.noJson 1 chatToBob.serialize, Names aliceId copy := by
  refine ⟨by decide +kernel, ?_⟩
  refine (sender_named_iff GatewayServer.noJson steady 1 (GatewayServer.initFrame aliceId).payload
    aliceId bobId (by decide +kernel) ⟨⟨aliceId, 0⟩, rfl, rfl⟩ ?_ chatToBob.serialize chatToBob
    chatToBob_read (.inl rfl) rfl (by decide +kernel)).mpr ?_
  · have hpeer : bothRegistered.getPeerIdForSession 1 = some (hexEncode aliceId) := by
      decide +kernel
    intro p hp
    exact Option.some.inj (hp.symm.trans hpeer)
  · intro hbefore
    exact absurd hbefore (by decide +kernel)

/-- Bob reads his own id as the sender of Alice's file offer, and of the copy of her chat message
that the second lookup sends him. -/
theorem target_named_as_sender :
    (steady.copies GatewayServer.noJson 1 fileOfferToBob.serialize).map
        (fun copy => (dispatch coreP2p copy).toOption.map Message.peerId) = [some bobId] ∧
      (joining.copies GatewayServer.noJson 1 chatToBob.serialize).map
        (fun copy => (dispatch coreP2p copy).toOption.map Message.peerId) =
          [some bobId, some aliceId] := by
  decide +kernel

theorem at_most_once_iff_steady :
    (steady.written GatewayServer.noJson 1 chatToBob.serialize).map Write.session = [2] ∧
      ∀ c, ((steady.written GatewayServer.noJson 1 chatToBob.serialize).filter
        fun write => write.session = c).length ≤ 1 := by
  refine ⟨by decide +kernel, ?_⟩
  refine (at_most_once_iff GatewayServer.noJson steady bothLocal_consistent 1 chatToBob.serialize
    chatToBob chatToBob_read (by decide +kernel)).mpr ?_
  rintro ⟨-, -, hsignal | hbefore, -, -⟩
  · exact absurd hsignal (by decide +kernel)
  · exact absurd hbefore (by decide +kernel)

/-- Bob gets an SDP offer of Alice's twice, with tables and registry that agree. -/
theorem offer_delivered_twice :
    (steady.written GatewayServer.noJson 1 offerToBob.serialize) =
      [⟨2, offerToBob.serialize⟩, ⟨2, offerToBob.serialize⟩] := by
  decide +kernel

end Passage

end Cypher
