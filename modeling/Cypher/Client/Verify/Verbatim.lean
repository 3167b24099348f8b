import Cypher.Client.Messaging
import Cypher.Client.Verify.Agreement

/-!
# Is chat delivered verbatim?

The sender does not pad, the receiver removes padding wherever the decrypted bytes can be read as
padded. So a message arrives as it was sent exactly if its first two bytes do not read as a length
that the message can hold (`chat_verbatim_iff`), by whichever way it was sent and received. That the
sessions are synchronised is what agreement of the ratchets gives (`synchronised_of_run`).
-/

namespace Cypher.Client.Verify

open Crypto Crypto.Verify Onion

variable {Key Secret Ct : Type}

/-- What the sender encrypts next and the receiver decrypts is what was encrypted. -/
def Synchronised (S : Suite Key Secret Ct) (fresh : Secret) (senderId receiverId : PeerId)
    (sender receiver : KeyManager Key Secret) : Prop :=
  ∀ plaintext ciphertext ratchetKey msgNo raw,
    (sender.encryptForPeer S receiverId.val plaintext).2 = .ok (ciphertext, ratchetKey, msgNo) →
    (receiver.decryptFromPeer S fresh senderId.val ciphertext ratchetKey msgNo).2 = .ok raw →
    raw = plaintext

/-- Connected clients are synchronised in every state of a run over in-order channels in which no
message is on its way to the receiver. -/
theorem synchronised_of_run {S : Suite Key Secret Ct} (hdh : S.DhCommutes) (haead : S.AeadInverts)
    {id : Side → PeerId} (hid : id .alice ≠ id .bob) {km : Side → KeyManager Key Secret}
    (hnew : ∀ s, (km s).hasSession (id s.other).val = false) {first : Side → Secret}
    (hfirst : Peers.firstKey S id km first .alice ≠ Peers.firstKey S id km first .bob)
    {peers : Peers Key Secret Ct}
    (hrun : Lib.Run (Peers.step S id) (Peers.Regular S id) (Peers.connect S id km first) peers)
    {s : Side} (hwire : peers.wire s.other = [])
    (hcount : ∀ st ∈ (peers.keys s).getRatchetState (id s.other).val, st.sendCount + 1 < u32Size)
    {fresh : Secret} (hfresh : S.publicKey fresh ∉ peers.ratchetKeys) :
    Synchronised S fresh (id s) (id s.other) (peers.keys s) (peers.keys s.other) := by
  intro plaintext ciphertext ratchetKey msgNo raw henc hdec
  -- The run goes on with this message: it is sent and delivered.
  obtain ⟨sent, hsend, hkeys, hsentWire, hseen⟩ : ∃ sent : Peers Key Secret Ct,
      peers.step S id (.send s plaintext) = some sent ∧
        sent.keys s.other = peers.keys s.other ∧
        sent.wire s.other = [⟨plaintext, ciphertext, ratchetKey, msgNo⟩] ∧
        sent.ratchetKeys = peers.ratchetKeys := by
    cases hout : (peers.keys s).encryptForPeer S (id s.other).val plaintext with
    | mk km' res =>
      rw [hout] at henc
      dsimp only at henc
      simp only [Peers.step, hout, henc]
      refine ⟨_, rfl, Function.update_of_ne s.other_ne _ _, ?_, rfl⟩
      dsimp only
      rw [Function.update_self, hwire, List.nil_append]
  have hsentRun := hrun.tail (show peers.Regular S id (.send s plaintext) from hcount) hsend
  obtain ⟨arrived, hdeliver, hlog⟩ : ∃ arrived : Peers Key Secret Ct,
      sent.step S id (.deliver s.other fresh) = some arrived ∧
        arrived.delivered = sent.delivered ++ [(⟨plaintext, ciphertext, ratchetKey, msgNo⟩,
          (sent.keys s.other |>.decryptFromPeer S fresh (id s.other.other).val ciphertext ratchetKey
            msgNo).2)] := by
    simp only [Peers.step, hsentWire]
    exact ⟨_, rfl, rfl⟩
  have hfreshSent : sent.Regular S id (.deliver s.other fresh) := by
    intro m _ st _ pk _ _
    rw [hseen]
    exact hfresh
  have hagreed := agreed_of_run hdh haead hid hnew hfirst (hsentRun.tail hfreshSent hdeliver)
  rw [hkeys, Side.other_other, hdec] at hlog
  have hlast := hagreed (⟨plaintext, ciphertext, ratchetKey, msgNo⟩, .ok raw) (by simp [hlog])
  exact Except.ok.inj hlast

/-! ## Every way from the sender to the receiver -/

/-- The two functions that send chat. -/
inductive Outbound where
  | sendMessage
  | sendMessageOffline
  deriving DecidableEq, Repr

/-- The two functions that receive it. -/
inductive Inbound where
  | handleChatMessage
  | dispatchInboxChat
  deriving DecidableEq, Repr

def Outbound.send (S : Suite Key Secret Ct) :
    Outbound → ClientApi Key Secret → Env → Result Unit → PeerId → Bytes →
      ClientApi Key Secret × Result (ChatSend Ct)
  | sendMessage => ClientApi.sendMessage S
  | sendMessageOffline => ClientApi.sendMessageOffline S

/-- The client after the call and the events it emits. -/
def Inbound.receive (S : Suite Key Secret Ct) (way : Inbound) (c : ClientApi Key Secret) (env : Env)
    (fresh : Secret) (chat : ChatSend Ct) : ClientApi Key Secret × List ClientEvent :=
  match way with
  | handleChatMessage => c.handleChatMessage S env fresh chat
  | dispatchInboxChat =>
    ((c.dispatchInboxChat S env fresh chat).1, (c.dispatchInboxChat S env fresh chat).2.1)

section Ways

variable {S : Suite Key Secret Ct} {c : ClientApi Key Secret} {env : Env}

/-- What goes out is the plaintext itself, encrypted: neither function pads. -/
theorem Outbound.send_eq_ok {way : Outbound} {sendRaw : Result Unit} {peer : PeerId}
    {plaintext : Bytes} {chat : ChatSend Ct}
    (h : (way.send S c env sendRaw peer plaintext).2 = .ok chat) :
    (c.keys.encryptForPeer S peer.val plaintext).2 =
      .ok (chat.ciphertext, chat.ratchetKey, chat.msgNo) := by
  obtain ⟨named, h⟩ : ∃ named, (c.sendChat S env sendRaw named peer plaintext).2 = .ok chat := by
    cases way with
    | sendMessage => exact ⟨peer, h⟩
    | sendMessageOffline => exact ⟨c.peerId, h⟩
  unfold ClientApi.sendChat at h
  rcases henc : c.keys.encryptForPeer S peer.val plaintext with ⟨keys, err | out⟩
  · simp [henc] at h
  · cases sendRaw with
    | error err => simp [henc] at h
    | ok u =>
      simp only [henc, Except.ok.injEq] at h
      rw [← h]

theorem history_persistMessage {direction : Direction} {peer : PeerId} {plaintext : Bytes} :
    (c.persistMessage env direction peer plaintext).history =
      if c.messageStore.isSome ∧ env.messageSaved then
        c.history ++ [⟨peer, direction, plaintext, env.now⟩]
      else c.history := by
  cases hstore : c.messageStore with
  | none => simp [ClientApi.persistMessage, hstore]
  | some store =>
    cases hsaved : env.messageSaved <;>
      simp [ClientApi.persistMessage, ClientApi.history, hstore, hsaved]

theorem chatPlaintext_eq_self_iff {raw : Bytes} :
    ClientApi.chatPlaintext raw = raw ↔ NotPadded raw := by
  unfold ClientApi.chatPlaintext
  by_cases h : NotPadded raw
  · obtain ⟨err, herr⟩ := unpad_of_notPadded h
    rw [herr]
    exact iff_of_true rfl h
  · obtain ⟨out, hout, hlt⟩ := unpad_of_padded h
    rw [hout]
    exact iff_of_false (fun heq => Nat.lt_irrefl _ (heq ▸ hlt)) h

/-- A message that decrypts is reported and stored as `chatPlaintext` leaves it. -/
theorem Inbound.receive_of_ok (way : Inbound) (c : ClientApi Key Secret) (env : Env)
    {fresh : Secret} (chat : ChatSend Ct) {sender : PeerId} (hsender : chat.peerId = sender.val)
    {raw : Bytes}
    (hdec : (c.keys.decryptFromPeer S fresh chat.peerId chat.ciphertext chat.ratchetKey
      chat.msgNo).2 = .ok raw) :
    ∃ keys, way.receive S c env fresh chat =
      (({ c with keys } : ClientApi Key Secret).persistReceivedMessage env sender
          (ClientApi.chatPlaintext raw),
        [.messageReceived sender (ClientApi.chatPlaintext raw)]) := by
  cases hrk : Array32.tryFrom chat.ratchetKey with
  | none => simp [KeyManager.decryptFromPeer, hrk] at hdec
  | some rk =>
    have hval : rk.val = chat.ratchetKey := by
      unfold Array32.tryFrom at hrk
      split at hrk
      · exact congrArg Subtype.val (Option.some.inj hrk).symm
      · cases hrk
    have hid : Array32.tryFrom chat.peerId = some sender := by rw [hsender, Array32.tryFrom_val]
    rcases hout : c.keys.decryptFromPeer S fresh chat.peerId chat.ciphertext chat.ratchetKey
      chat.msgNo with ⟨keys, res⟩
    rw [hout] at hdec
    obtain rfl : res = .ok raw := hdec
    refine ⟨keys, ?_⟩
    cases way with
    | handleChatMessage =>
      simp only [Inbound.receive, ClientApi.handleChatMessage, hid, hrk, hval, hout]
    | dispatchInboxChat =>
      simp only [Inbound.receive, ClientApi.dispatchInboxChat, hid, hrk, hval, hout]

end Ways

/-- **When chat is delivered verbatim.** A message that is sent and decrypted over synchronised
sessions is reported and stored as it was sent exactly if it does not look padded. -/
theorem chat_verbatim_iff (S : Suite Key Secret Ct) (fresh : Secret)
    (sender receiver : ClientApi Key Secret)
    (hsync : Synchronised S fresh sender.peerId receiver.peerId sender.keys receiver.keys)
    (out : Outbound) (into : Inbound) (sendEnv receiveEnv : Env) (sendRaw : Result Unit)
    (p raw : Bytes) (chat : ChatSend Ct)
    (hsent : (out.send S sender sendEnv sendRaw receiver.peerId p).2 = .ok chat)
    (hdec : (receiver.keys.decryptFromPeer S fresh sender.peerId.val chat.ciphertext
      chat.ratchetKey chat.msgNo).2 = .ok raw) :
    ((into.receive S receiver receiveEnv fresh { chat with peerId := sender.peerId.val }).2 =
        [.messageReceived sender.peerId p] ∧
      ∀ e ∈ (into.receive S receiver receiveEnv fresh
          { chat with peerId := sender.peerId.val }).1.history,
        e ∈ receiver.history ∨ e.plaintext = p) ↔
    NotPadded p := by
  obtain rfl : raw = p := hsync _ _ _ _ _ (Outbound.send_eq_ok hsent) hdec
  obtain ⟨keys, hreceive⟩ := into.receive_of_ok receiver receiveEnv
    { chat with peerId := sender.peerId.val } rfl hdec
  rw [hreceive, ← chatPlaintext_eq_self_iff]
  constructor
  · rintro ⟨hevents, -⟩
    simpa using hevents
  · intro hplain
    rw [hplain]
    refine ⟨rfl, ?_⟩
    intro e he
    rw [ClientApi.persistReceivedMessage, history_persistMessage] at he
    split at he
    · -- the entry just written is the only new one
      rcases List.mem_append.mp he with hold | hnew
      · exact .inl hold
      · rw [List.mem_singleton.mp hnew]
        exact .inr rfl
    · exact .inl he

/-! ## Two connected clients -/

def justConnected : Peers Array32 Array32 Bytes :=
  Peers.connect Primitives.additive.suite twoIds twoManagers fun _ => .ofNat 11

/-- Two clients that have just connected, each with an empty history. -/
def connected (s : Side) : ClientApi Array32 Array32 where
  peerId := twoIds s
  keys := justConnected.keys s
  messageStore := some ⟨[], ∅⟩

theorem connected_synchronised :
    Synchronised Primitives.additive.suite (.ofNat 12) (connected .alice).peerId
      (connected .bob).peerId (connected .alice).keys (connected .bob).keys := by
  have hrun : Lib.Run (Peers.step Primitives.additive.suite twoIds)
      (Peers.Regular Primitives.additive.suite twoIds)
      (Peers.connect Primitives.additive.suite twoIds twoManagers fun _ => .ofNat 11)
      justConnected := .refl
  have hcount : ∀ st ∈ (justConnected.keys .alice).getRatchetState (twoIds .bob).val,
      st.sendCount + 1 < u32Size := by decide +kernel
  exact synchronised_of_run (s := .alice) Primitives.additive_commutes.suite
    Primitives.additive_inverts.suite (by decide +kernel) (fun s => by cases s <;> rfl)
    (by decide +kernel) hrun rfl hcount (by decide +kernel)

/-- The clock stands at 7 and every write succeeds. -/
def calm : Env := ⟨7, true, true⟩

/-- The `ChatSend` that Alice's first message goes out in. -/
def aliceSends (out : Outbound) (p : Bytes) : ChatSend Bytes :=
  (out.send Primitives.additive.suite (connected .alice) calm (.ok ()) (connected .bob).peerId
    p).2.toOption.getD ⟨[], [], [], 0⟩

/-- What Bob's client reports and stores when it arrives. -/
def bobReceives (out : Outbound) (into : Inbound) (p : Bytes) :
    List ClientEvent × List HistoryEntry :=
  let received := into.receive Primitives.additive.suite (connected .bob) calm (.ofNat 12)
    { aliceSends out p with peerId := (connected .alice).peerId.val }
  (received.2, received.1.history)

theorem chat_verbatim_iff_hi :
    (bobReceives .sendMessageOffline .dispatchInboxChat (ascii "hi")).1 =
      [.messageReceived (connected .alice).peerId (ascii "hi")] := by
  have hsent : (Outbound.sendMessageOffline.send Primitives.additive.suite (connected .alice) calm
      (.ok ()) (connected .bob).peerId (ascii "hi")).2 =
      .ok (aliceSends .sendMessageOffline (ascii "hi")) := by decide +kernel
  have hplain : NotPadded (ascii "hi") := by decide
  have hverbatim := (chat_verbatim_iff Primitives.additive.suite (.ofNat 12) (connected .alice)
    (connected .bob) connected_synchronised .sendMessageOffline .dispatchInboxChat calm calm
    (.ok ()) (ascii "hi") (ascii "hi") _ hsent (by decide +kernel)).mpr hplain
  dsimp only [bobReceives]
  exact hverbatim.1

/-- Four bytes of which the first two read as the length 1 arrive as one byte, over sessions that
are synchronised. -/
theorem chat_truncated :
    bobReceives .sendMessage .handleChatMessage [1, 0, 65, 66] =
      ([.messageReceived (twoIds .alice) [65]], [⟨twoIds .alice, .received, [65], 7⟩]) := by
  decide +kernel

end Cypher.Client.Verify
