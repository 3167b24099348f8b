import Cypher.Client.KeyManager
import Cypher.Onion.Padding

/-!
# Sending and receiving chat (`api/messaging.rs`, `api/runtime.rs`)

`send_message` and `send_message_offline` encrypt the plaintext as it is; they differ in the id they
put into the `ChatSend`. `handle_chat_message` and `dispatch_inbox_chat` decrypt it and then take the
result for padded if it can be unpadded. What the environment contributes to a call is in `Env`: the
clock and whether the writes to the message store succeed.
-/

namespace Cypher.Client

open Crypto

variable {Key Secret Ct : Type}

inductive Direction where
  | sent
  | received
  deriving DecidableEq, Repr

structure HistoryEntry where
  peer : PeerId
  direction : Direction
  plaintext : Bytes
  timestamp : Nat
  deriving DecidableEq

structure MessageStore (Key Secret : Type) where
  messages : List HistoryEntry
  ratchets : Finmap fun _ : Bytes => RatchetState Key Secret

/-- The parts of `ClientApi` and `RuntimeContext` that chat goes through. -/
structure ClientApi (Key Secret : Type) where
  peerId : PeerId
  keys : KeyManager Key Secret
  messageStore : Option (MessageStore Key Secret)

structure Env where
  now : Nat
  messageSaved : Bool
  ratchetSaved : Bool

/-- `cypher_proto::ChatSend`. -/
structure ChatSend (Ct : Type) where
  peerId : Bytes
  ciphertext : Ct
  ratchetKey : Bytes
  msgNo : Nat
  deriving DecidableEq

inductive ClientEvent where
  | messageReceived (sender : PeerId) (plaintext : Bytes)
  | error (msg : String)
  deriving DecidableEq

namespace ClientApi

/-- The stored messages; none without a store. -/
def history (c : ClientApi Key Secret) : List HistoryEntry :=
  c.messageStore.elim [] (·.messages)

/-- A write that fails is logged and changes nothing. -/
def persistMessage (c : ClientApi Key Secret) (env : Env) (direction : Direction) (peer : PeerId)
    (plaintext : Bytes) : ClientApi Key Secret :=
  match c.messageStore with
  | none => c
  | some store =>
    let messages :=
      if env.messageSaved then store.messages ++ [⟨peer, direction, plaintext, env.now⟩]
      else store.messages
    let ratchets :=
      match c.keys.getRatchetState peer.val with
      | some state =>
        if env.ratchetSaved then store.ratchets.insert peer.val state else store.ratchets
      | none => store.ratchets
    { c with messageStore := some ⟨messages, ratchets⟩ }

def persistSentMessage (c : ClientApi Key Secret) (env : Env) (peer : PeerId) (plaintext : Bytes) :
    ClientApi Key Secret :=
  c.persistMessage env .sent peer plaintext

def persistReceivedMessage (c : ClientApi Key Secret) (env : Env) (sender : PeerId)
    (plaintext : Bytes) : ClientApi Key Secret :=
  c.persistMessage env .received sender plaintext

variable (S : Suite Key Secret Ct)

/-- Encrypt, send the `ChatSend` with id `named`, store. The result is the message that went out;
`sendRaw` is the outcome of handing it to the connection. -/
def sendChat (c : ClientApi Key Secret) (env : Env) (sendRaw : Result Unit) (named peer : PeerId)
    (plaintext : Bytes) : ClientApi Key Secret × Result (ChatSend Ct) :=
  match c.keys.encryptForPeer S peer.val plaintext with
  | (keys, .error err) => ({ c with keys }, .error err)
  | (keys, .ok (ciphertext, ratchetKey, msgNo)) =>
    match sendRaw with
    | .error err => ({ c with keys }, .error err)
    | .ok () =>
      (({ c with keys } : ClientApi Key Secret).persistSentMessage env peer plaintext,
        .ok ⟨named.val, ciphertext, ratchetKey, msgNo⟩)

/-- The `ChatSend` names the target; the gateway or signaling puts the sender in its place. -/
def sendMessage (c : ClientApi Key Secret) (env : Env) (sendRaw : Result Unit) (peer : PeerId)
    (plaintext : Bytes) : ClientApi Key Secret × Result (ChatSend Ct) :=
  c.sendChat S env sendRaw peer peer plaintext

/-- The `ChatSend` names the sender and goes into the peer's inbox as it is. -/
def sendMessageOffline (c : ClientApi Key Secret) (env : Env) (sendRaw : Result Unit)
    (peer : PeerId) (plaintext : Bytes) : ClientApi Key Secret × Result (ChatSend Ct) :=
  c.sendChat S env sendRaw c.peerId peer plaintext

/-- What is kept of a decrypted message. -/
def chatPlaintext (raw : Bytes) : Bytes :=
  match Onion.unpad raw with
  | .ok unpadded => unpadded
  | .error _ => raw

def handleChatMessage (c : ClientApi Key Secret) (env : Env) (fresh : Secret) (chat : ChatSend Ct) :
    ClientApi Key Secret × List ClientEvent :=
  match Array32.tryFrom chat.peerId with
  | none => (c, [])
  | some sender =>
    match Array32.tryFrom chat.ratchetKey with
    | none => (c, [])
    | some rk =>
      match c.keys.decryptFromPeer S fresh chat.peerId chat.ciphertext rk.val chat.msgNo with
      | (keys, .ok raw) =>
        let plaintext := chatPlaintext raw
        (({ c with keys } : ClientApi Key Secret).persistReceivedMessage env sender plaintext,
          [.messageReceived sender plaintext])
      | (keys, .error err) => ({ c with keys }, [.error ("decrypt: " ++ err.text)])

/-- Returns whether the message was delivered; a failed decryption raises no event. -/
def dispatchInboxChat (c : ClientApi Key Secret) (env : Env) (fresh : Secret) (chat : ChatSend Ct) :
    ClientApi Key Secret × List ClientEvent × Bool :=
  match Array32.tryFrom chat.peerId with
  | none => (c, [], false)
  | some sender =>
    match Array32.tryFrom chat.ratchetKey with
    | none => (c, [], false)
    | some rk =>
      match c.keys.decryptFromPeer S fresh chat.peerId chat.ciphertext rk.val chat.msgNo with
      | (keys, .ok raw) =>
        let plaintext := chatPlaintext raw
        (({ c with keys } : ClientApi Key Secret).persistReceivedMessage env sender plaintext,
          [.messageReceived sender plaintext], true)
      | (keys, .error _) => ({ c with keys }, [], false)

end ClientApi

end Cypher.Client
