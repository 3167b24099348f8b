import Cypher.Client.Requests
import Cypher.Proto.Verify.RoundTrip

/-!
# Which request a reply reaches

The client tells the kind of a reply from its members, and the replies that say that something was
not found have none of those members. So a reply completes the request that caused it exactly if what
was asked for was found (`reply_reaches_iff`); `join_link` and `initiate_session` wait for ever
otherwise (`missing_link_waits`). What a request then returns is what a peer has put there
(`created_link_joins`, `uploaded_prekeys_fetched`).
-/

namespace Cypher.Client

open Lib Proto Signaling

/-! ## Requests on the wire -/

/-- The handlers of signaling read the two binary requests as they were sent. -/
theorem Request.serve_eq_handlers (atLink atSession atJoiner atCreator : Directory)
    (newLink : List Char) (s : SessionId) (peerIdHex : List Char) {request : Request} {m : Message}
    (hm : request.message? = some m) (hshort : m.Short) :
    request.serve atLink atSession atJoiner atCreator newLink s peerIdHex =
      match request.kind with
      | .joinLink =>
        Directory.handleRequestPeer atLink atSession atJoiner atCreator s m.serialize
      | _ => atLink.handleGetPrekeys s m.serialize := by
  have hdispatch : m.ctor ∈ coreP2p → dispatch coreP2p m.serialize = .ok m := fun hctor =>
    dispatch_of_fits coreP2p_ids coreP2p_hygienic hctor hshort (fits_serialize m)
  cases request with
  | createLink => cases hm
  | joinLink link =>
    obtain rfl := Option.some.inj hm
    simp only [serve, kind, Directory.handleRequestPeer,
      hdispatch (show signalRequestPeer ∈ coreP2p by decide +kernel)]
    rfl
  | initiateSession peer =>
    obtain rfl := Option.some.inj hm
    simp only [serve, kind, Directory.handleGetPrekeys,
      hdispatch (show keysGetPrekeys ∈ coreP2p by decide +kernel)]
    rfl

/-! ## The kinds of replies -/

@[simp] theorem replyKind_linkCreated (linkId : List Char) :
    replyKind (linkCreated linkId) = some .createLink := rfl

@[simp] theorem replyKind_peerFound (hex : List Char) (session : Option Signaling.PeerSession) :
    replyKind (peerFound hex session) = some .joinLink := rfl

@[simp] theorem replyKind_linkNotFound : replyKind linkNotFound = none := rfl

@[simp] theorem replyKind_prekeysFound (bundle : PrekeyBundle) :
    replyKind (prekeysFound bundle) = some .getPrekeys := rfl

@[simp] theorem replyKind_prekeysNotFound : replyKind prekeysNotFound = none := rfl

/-- An object that is no notification completes the channel in the slot of its kind. -/
theorem dispatchJson_of_kind {json : Json} (hjoined : json.getBool? "peer_joined" = none)
    {kind : PendingKind} (hkind : replyKind json = some kind) {pending : Pending} {channel : Nat}
    (hslot : pending kind = some channel) :
    dispatchJson pending json = (Function.update pending kind none, .completed channel json) := by
  unfold dispatchJson
  rw [hjoined, if_neg (by simp), hkind]
  simp only [hslot]

theorem dispatchJson_of_unrecognised {json : Json}
    (hjoined : json.getBool? "peer_joined" = none) (hkind : replyKind json = none)
    (pending : Pending) : dispatchJson pending json = (pending, .ignored) := by
  unfold dispatchJson
  rw [hjoined, if_neg (by simp), hkind]

/-- The only outstanding request is the one on `channel`. -/
def Pending.only (kind : PendingKind) (channel : Nat) : Pending :=
  Function.update Pending.empty kind (some channel)

theorem Pending.only_self (kind : PendingKind) (channel : Nat) :
    Pending.only kind channel kind = some channel :=
  Function.update_self _ _ _

theorem Pending.only_completed (kind : PendingKind) (channel : Nat) :
    Function.update (Pending.only kind channel) kind none = Pending.empty := by
  rw [Pending.only, Function.update_idem]
  exact Function.update_eq_self kind Pending.empty

/-- The reply completes the waiting request, of the kind it is taken for. -/
def Reaches (json : Json) (kind : PendingKind) (channel : Nat) : Prop :=
  replyKind json = some kind ∧
    dispatchJson (Pending.only kind channel) json = (Pending.empty, .completed channel json)

theorem reaches_iff {json : Json} (hjoined : json.getBool? "peer_joined" = none)
    (kind : PendingKind) (channel : Nat) :
    Reaches json kind channel ↔ replyKind json = some kind := by
  refine ⟨And.left, fun hkind => ⟨hkind, ?_⟩⟩
  rw [dispatchJson_of_kind hjoined hkind (Pending.only_self kind channel), Pending.only_completed]

/-- What the request asks for is there when signaling reads it; a link is always created. -/
def Request.Found (d : Directory) : Request → Prop
  | createLink => True
  | joinLink link => (d.getLink link.val).isSome = true
  | initiateSession peer => (d.getPrekeys (hexEncode peer.val)).isSome = true

/-- **Which replies reach their request.** Signaling publishes a reply to every request, and it
completes the request, the only one outstanding, exactly if what was asked for was found. -/
theorem reply_reaches_iff (atLink atSession atJoiner atCreator : Directory) (newLink : List Char)
    (s : SessionId) (peerIdHex : List Char) (request : Request) (channel : Nat) :
    ∃ reply rest,
      request.serve atLink atSession atJoiner atCreator newLink s peerIdHex = reply :: rest ∧
        reply.session = s ∧
        (Reaches reply.json request.kind channel ↔ request.Found atLink) := by
  cases request with
  | createLink =>
    refine ⟨_, _, rfl, rfl, ?_⟩
    rw [reaches_iff rfl]
    exact iff_of_true rfl trivial
  | joinLink link =>
    simp only [Request.serve, Directory.answerRequestPeer, Request.Found]
    cases atLink.getLink link.val with
    | some creatorHex =>
      refine ⟨_, _, rfl, rfl, ?_⟩
      rw [reaches_iff rfl]
      exact iff_of_true rfl rfl
    | none =>
      refine ⟨_, _, rfl, rfl, ?_⟩
      rw [reaches_iff rfl, replyKind_linkNotFound]
      simp
  | initiateSession peer =>
    simp only [Request.serve, Directory.answerGetPrekeys, Request.Found]
    cases atLink.getPrekeys (hexEncode peer.val) with
    | some bundle =>
      refine ⟨_, _, rfl, rfl, ?_⟩
      rw [reaches_iff rfl]
      exact iff_of_true rfl rfl
    | none =>
      refine ⟨_, _, rfl, rfl, ?_⟩
      rw [reaches_iff rfl, replyKind_prekeysNotFound]
      simp

/-- Nobody has created the link: the reply is published for the session, of no kind, and `join_link`
is left in its slot. -/
theorem missing_link_waits :
    ((Request.joinLink ⟨ascii "abc", by decide⟩).serve .empty .empty .empty .empty [] 1 []).map
      (fun reply => (reply.session, replyKind reply.json,
        (dispatchJson (Pending.only .joinLink 0) reply.json).1 .joinLink)) =
      [(1, none, some 0)] := by
  decide +kernel

/-! ## What the calls return -/

theorem hexDecode_hexEncode (data : Bytes) : hexDecode (hexEncode data) = some (.ok data) := by
  have hsize : ∀ n < 16, (Nat.digitChar n).utf8Size = 1 := by decide
  have hpairs : ((hexEncode data).map Char.utf8Size).sum = 2 * data.length ∧
      ∀ offset, hexDecodeFrom offset (hexEncode data) = some (.ok data) := by
    induction data with
    | nil => exact ⟨rfl, fun _ => rfl⟩
    | cons byte rest ih =>
      have hhi := hsize (byte.toNat / 16) (by have := byte.toNat_lt; omega)
      have hlo := hsize (byte.toNat % 16) (by omega)
      have hcons : hexEncode (byte :: rest) = Nat.digitChar (byte.toNat / 16) ::
          Nat.digitChar (byte.toNat % 16) :: hexEncode rest := rfl
      refine ⟨?_, fun offset => ?_⟩
      · rw [hcons, List.map_cons, List.map_cons, List.sum_cons, List.sum_cons, ih.1, hhi, hlo,
          List.length_cons]
        omega
      · rw [hcons, hexDecodeFrom, hhi, if_neg (by decide), if_pos rfl]
        simp only [hlo, if_true, fromStrRadix16_digitChar, ih.2]
        rfl
  rw [hexDecode, hpairs.1, if_neg (by omega), hpairs.2]

theorem joinLinkResult_peerFound (creator : PeerId) (session : Option Signaling.PeerSession) :
    joinLinkResult (peerFound (hexEncode creator.val) session) = some (.ok creator) := by
  have hresult : joinLinkResult (peerFound (hexEncode creator.val) session) =
      (hexDecode (hexEncode creator.val)).map _ := rfl
  rw [hresult, hexDecode_hexEncode]
  simp only [Option.map_some, Array32.tryFrom, creator.property, dite_true]

/-- A link is joined with the id of the peer that created it, for as long as it is kept. -/
theorem created_link_joins (d atSession atJoiner atCreator : Directory) (linkId : List Char)
    (s joiner : SessionId) (creator : PeerId) {ms : Nat} (hms : ms ≤ linkTtl) :
    let created := d.handleCreateLink linkId s (hexEncode creator.val)
    created.2.map (createLinkResult ·.json) = [.ok linkId] ∧
      (Directory.answerRequestPeer { created.1 with now := d.now + ms } atSession atJoiner atCreator
        joiner (linkId.map fun c => UInt8.ofNat c.toNat)).head?.map (joinLinkResult ·.json) =
        some (some (.ok creator)) := by
  intro created
  have hlink : Directory.getLink { created.1 with now := d.now + ms }
      (linkId.map fun c => UInt8.ofNat c.toNat) = some (hexEncode creator.val) := by
    change Lib.Expiring.seen (d.links.set _ _ (d.now + linkTtl)) (d.now + ms) _ = _
    rw [Lib.Expiring.seen_set, Function.update_self, if_pos (by omega)]
  refine ⟨rfl, ?_⟩
  rw [Directory.answerRequestPeer, hlink]
  exact congrArg some (joinLinkResult_peerFound creator _)

theorem jsonBytesField_bytes {obj : Json} {field : String} {data : Bytes}
    (h : obj.get field = some (.bytes data)) : jsonBytesField obj field = .ok data := by
  unfold jsonBytesField
  rw [h]
  simp only [Option.bind_some, Json.bytes, Json.asArray?]
  clear h
  induction data with
  | nil => rfl
  | cons b data ih =>
    rw [List.map_cons, List.mapM_cons, ih]
    simp only [Json.asNat?, if_pos b.toNat_lt, UInt8.ofNat_toNat]
    rfl

theorem prekeysResult_found (bundle : PrekeyBundle) :
    prekeysResult (prekeysFound bundle) = .ok (bundle.identityKey, bundle.signedPrekey) := by
  have hik : jsonBytesField (prekeysFound bundle) "identity_key" = .ok bundle.identityKey :=
    jsonBytesField_bytes rfl
  have hspk : jsonBytesField (prekeysFound bundle) "signed_prekey" = .ok bundle.signedPrekey :=
    jsonBytesField_bytes rfl
  have hfound : (prekeysFound bundle).getBool? "found" = some true := rfl
  unfold prekeysResult
  rw [hfound, if_neg (by simp), hik, hspk]

/-- What a peer has uploaded is what `initiate_session` gets, for as long as it is kept. -/
theorem uploaded_prekeys_fetched (atSender d : Directory) (s asker : SessionId) (peer : PeerId)
    {ik spk inboxId : Bytes} (hshort : Message.Short ⟨keysUploadPrekeys, (ik, spk, inboxId, ())⟩)
    (hpeer : atSender.getPeerIdForSession s = some (hexEncode peer.val)) {ms : Nat}
    (hms : ms ≤ prekeyTtl) :
    let uploaded := Directory.handleUploadPrekeys atSender d s
      (Message.serialize ⟨keysUploadPrekeys, (ik, spk, inboxId, ())⟩)
    (Directory.answerGetPrekeys { uploaded with now := d.now + ms } asker peer.val).map
      (prekeysResult ·.json) = [.ok (ik, spk)] := by
  intro uploaded
  have hread : dispatch coreP2p
      (Message.serialize ⟨keysUploadPrekeys, (ik, spk, inboxId, ())⟩) = .ok _ :=
    dispatch_of_fits coreP2p_ids coreP2p_hygienic
      (show keysUploadPrekeys ∈ coreP2p by decide +kernel) hshort (fits_serialize _)
  have huploaded : uploaded.prekeys = d.prekeys.set (hexEncode peer.val)
      ⟨ik, spk, Directory.inboxIdHex inboxId⟩ (d.now + prekeyTtl) := by
    simp only [uploaded, Directory.handleUploadPrekeys, hread, hpeer]
    rfl
  have hfound : Registry.getPrekeys { uploaded.toRegistry with now := d.now + ms }
      (hexEncode peer.val) = some ⟨ik, spk, Directory.inboxIdHex inboxId⟩ := by
    change uploaded.prekeys.seen (d.now + ms) _ = _
    rw [huploaded, Lib.Expiring.seen_set, Function.update_self, if_pos (by omega)]
  rw [Directory.answerGetPrekeys, hfound]
  exact congrArg (fun result => [result]) (prekeysResult_found _)

end Cypher.Client
