import Cypher.Crypto.Ratchet
import Cypher.Crypto.X3dh

/-!
# Session keys of a client (`cypher-client-core/src/crypto.rs`)

`KeyManager` holds our identity and signed pre-key and one ratchet per peer; `initiateSession` is
the key agreement of `ClientApi::initiate_session` (`api/messaging.rs`) once the server's answer to
`KeysGetPrekeys` is known. The signing half of the identity, the signature of the pre-key and the
peer's inbox id take no part in it and are left out. `get_ratchet_state` copies a state by a
serialisation round trip of `postcard`; here it is the state itself.
-/

namespace Cypher.Client

open Crypto

variable {Key Secret Ct : Type}

/-- `PeerId`: 32 bytes, compared and ordered as such. -/
abbrev PeerId := Array32

structure KeyManager (Key Secret : Type) where
  identityDhSecret : Secret
  spkSecret : Secret
  peerSessions : Finmap fun _ : Bytes => RatchetState Key Secret

/-- `{:?}` of a byte slice. -/
def debugBytes (b : Bytes) : String :=
  "[" ++ String.intercalate ", " (b.map fun x => toString x.toNat) ++ "]"

def noSession (peerId : Bytes) : Error :=
  .session ("no session for peer " ++ debugBytes peerId)

namespace KeyManager

def hasSession (km : KeyManager Key Secret) (peerId : Bytes) : Bool :=
  (km.peerSessions.lookup peerId).isSome

def insertSession (km : KeyManager Key Secret) (peerId : Bytes) (st : RatchetState Key Secret) :
    KeyManager Key Secret :=
  { km with peerSessions := km.peerSessions.insert peerId st }

def getRatchetState (km : KeyManager Key Secret) (peerId : Bytes) :
    Option (RatchetState Key Secret) :=
  km.peerSessions.lookup peerId

def restoreRatchetState (km : KeyManager Key Secret) (peerId : Bytes)
    (state : RatchetState Key Secret) : KeyManager Key Secret :=
  km.insertSession peerId state

variable (S : Suite Key Secret Ct)

/-- `ourRatchetSecret` is what `RatchetState::init_sender` samples. -/
def initSenderSession (km : KeyManager Key Secret) (peerId : Bytes) (sharedSecret : Key)
    (peerRatchetPub : PublicKey) (ourRatchetSecret : Secret) : KeyManager Key Secret :=
  km.insertSession peerId (.initSender S sharedSecret peerRatchetPub ourRatchetSecret)

def initReceiverSession (km : KeyManager Key Secret) (peerId : Bytes) (sharedSecret : Key) :
    KeyManager Key Secret :=
  km.insertSession peerId (.initReceiver S sharedSecret km.spkSecret)

def encryptForPeer (km : KeyManager Key Secret) (peerId plaintext : Bytes) :
    KeyManager Key Secret × Result (Ct × Bytes × Nat) :=
  match km.peerSessions.lookup peerId with
  | none => (km, .error (noSession peerId))
  | some state =>
    match state.encrypt S plaintext with
    | (state, .error err) => (km.insertSession peerId state, .error err)
    | (state, .ok (ciphertext, ratchetKey, msgNo)) =>
      (km.insertSession peerId state, .ok (ciphertext, ratchetKey.val, msgNo))

/-- The length of the ratchet key is checked before the session is looked up. -/
def decryptFromPeer (km : KeyManager Key Secret) (fresh : Secret) (peerId : Bytes)
    (ciphertext : Ct) (ratchetKey : Bytes) (msgNo : Nat) :
    KeyManager Key Secret × Result Bytes :=
  match Array32.tryFrom ratchetKey with
  | none => (km, .error (.crypto "ratchet_key must be 32 bytes"))
  | some rk =>
    match km.peerSessions.lookup peerId with
    | none => (km, .error (noSession peerId))
    | some state =>
      let out := state.decrypt S fresh ciphertext rk msgNo
      (km.insertSession peerId out.1, out.2)

/-- `ClientApi::initiate_session`. `prekeys` is the identity key and signed pre-key the server
returned for the peer, or the error of that request; the smaller id becomes the sender. -/
def initiateSession (km : KeyManager Key Secret) (ourId peerId : PeerId)
    (prekeys : Result (Bytes × Bytes)) (ourRatchetSecret : Secret) :
    KeyManager Key Secret × Result Unit :=
  if km.hasSession peerId.val then (km, .ok ())
  else
    match prekeys with
    | .error err => (km, .error err)
    | .ok (ikDhBytes, spkBytes) =>
      match Array32.tryFrom ikDhBytes with
      | none => (km, .error (.crypto "identity_key must be 32 bytes"))
      | some theirIkDh =>
        match Array32.tryFrom spkBytes with
        | none => (km, .error (.crypto "signed_prekey must be 32 bytes"))
        | some theirSpk =>
          let sharedSecret := x3dhMutual S km.identityDhSecret km.spkSecret theirIkDh theirSpk
          if ourId.val < peerId.val then
            (km.initSenderSession S peerId.val sharedSecret theirSpk ourRatchetSecret, .ok ())
          else
            (km.initReceiverSession S peerId.val sharedSecret, .ok ())

/-! ## Sessions and their ratchets -/

variable {S} {km : KeyManager Key Secret} {peerId : Bytes} {st : RatchetState Key Secret}

@[simp] theorem lookup_insertSession :
    (km.insertSession peerId st).peerSessions.lookup peerId = some st :=
  Finmap.lookup_insert _

theorem encryptForPeer_of_session (h : km.peerSessions.lookup peerId = some st)
    (plaintext : Bytes) :
    km.encryptForPeer S peerId plaintext =
      (km.insertSession peerId (st.encrypt S plaintext).1,
        (st.encrypt S plaintext).2.map fun out => (out.1, out.2.1.val, out.2.2)) := by
  unfold encryptForPeer
  rw [h]
  rcases hst : st.encrypt S plaintext with ⟨st', err | ⟨ct, pk, n⟩⟩ <;>
    simp only [hst] <;> rfl

theorem decryptFromPeer_of_session (h : km.peerSessions.lookup peerId = some st) (fresh : Secret)
    (ct : Ct) (pk : PublicKey) (n : Nat) :
    km.decryptFromPeer S fresh peerId ct pk.val n =
      (km.insertSession peerId (st.decrypt S fresh ct pk n).1, (st.decrypt S fresh ct pk n).2) := by
  unfold decryptFromPeer
  rw [Array32.tryFrom_val, h]

theorem initiateSession_lookup (hnew : km.hasSession peerId = false) (ourId theirId : PeerId)
    (hid : theirId.val = peerId) (theirIkDh theirSpk : PublicKey) (first : Secret) :
    (km.initiateSession S ourId theirId (.ok (theirIkDh.val, theirSpk.val)) first).1.peerSessions.lookup
        peerId =
      some (if ourId.val < theirId.val then
          .initSender S (x3dhMutual S km.identityDhSecret km.spkSecret theirIkDh theirSpk)
            theirSpk first
        else
          .initReceiver S (x3dhMutual S km.identityDhSecret km.spkSecret theirIkDh theirSpk)
            km.spkSecret) := by
  subst hid
  unfold initiateSession
  simp only [hnew, Bool.false_eq_true, if_false, Array32.tryFrom_val]
  split <;> exact lookup_insertSession

end KeyManager

end Cypher.Client
