import Cypher.Client.Messaging
import Cypher.Crypto.Serialize
import Cypher.Transfer.Chunker
import Mathlib.Data.List.AList

/-!
# The message store (`cypher-client-core/src/persistence/sqlite.rs`, `encryption.rs`)

The three tables of `SqliteMessageStore`, each under its primary key, the operations of
`MessageStore` that write them, and the two reads a restart depends on. `activate_identity`
(`commands/identity.rs`) restores the ratchets of the conversations it finds; the operations that the
client issues on its events are listed at the end.

SQLite, `postcard`, zstd and AES-GCM are from outside the repository. A statement either takes effect
or fails and has none; any of them may fail. Whether foreign keys are enforced is a matter of how
SQLite is built, so it is a parameter. The time and the nonce of a write are arguments.
-/

namespace Cypher.Client

open Crypto Transfer

variable {Key Secret : Type}

/-- `RatchetState::serialize` and `deserialize`; an error is the text of `postcard`'s. -/
structure RatchetCodec (Key Secret : Type) where
  toAllocvec : RatchetState Key Secret → Except String Bytes
  fromBytes : Bytes → Except String (RatchetState Key Secret)

namespace RatchetCodec

variable (codec : RatchetCodec Key Secret)

def serialize (state : RatchetState Key Secret) : Result Bytes :=
  (codec.toAllocvec state).mapError fun e => .crypto ("ratchet serialize: " ++ e)

def deserialize (data : Bytes) : Result (RatchetState Key Secret) :=
  (codec.fromBytes data).mapError fun e => .crypto ("ratchet deserialize: " ++ e)

def Inverts : Prop :=
  ∀ state data, codec.toAllocvec state = .ok data → codec.fromBytes data = .ok state

/-- The codec of `ratchet.rs`: `postcard` on the serialisable copy of a state. -/
def ofPostcard (postcard : Postcard) : RatchetCodec Array32 Array32 where
  toAllocvec state := postcard.toAllocvec state.toSerializable
  fromBytes data := (postcard.fromBytes data).map RatchetState.ofSerializable

end RatchetCodec

/-! ## Encryption at rest -/

def compressionThreshold : Nat := 64

structure StoreSuite (Key Secret : Type) where
  primitives : Primitives
  zstd : Zstd
  codec : RatchetCodec Key Secret
  /-- The storage key, derived from the identity seed. -/
  sek : Array32
  foreignKeys : Bool

namespace StoreSuite

variable (E : StoreSuite Key Secret)

def encrypt (nonce data : Bytes) : Result Bytes :=
  match E.primitives.aesGcmEncrypt E.sek nonce data [] with
  | some ct => .ok ct
  | none => .error (.crypto "encrypt: aead::Error")

def decrypt (ciphertext nonce : Bytes) : Result Bytes :=
  match E.primitives.aesGcmDecrypt E.sek nonce ciphertext [] with
  | some data => .ok data
  | none => .error (.crypto "decrypt: aead::Error")

def maybeCompress (data : Bytes) : Result (Bytes × Bool) :=
  if data.length > compressionThreshold then
    match E.zstd.encodeAll data with
    | .ok compressed => .ok (compressed, true)
    | .error e => .error (.crypto ("zstd compress: " ++ e))
  else .ok (data, false)

def compressAndEncrypt (nonce data : Bytes) : Result (Bytes × Bool) := do
  let (prepared, compressed) ← E.maybeCompress data
  let ct ← E.encrypt nonce prepared
  .ok (ct, compressed)

/-- The payload of a ratchet state: a byte for the format, then the serialised state, compressed from
1024 bytes on. -/
def ratchetPayload (serialized : Bytes) : Result Bytes :=
  if serialized.length ≥ 1024 then
    match E.zstd.encodeAll serialized with
    | .ok compressed => .ok (0x01 :: compressed)
    | .error e => .error (.crypto ("zstd compress ratchet: " ++ e))
  else .ok (0x00 :: serialized)

/-- The serialised state of a payload. One without a byte for the format is of an older version. -/
def ratchetSerialized (payload : Bytes) : Result Bytes :=
  match payload with
  | [] => .error (.crypto "empty ratchet state blob")
  | 0x00 :: rest => .ok rest
  | 0x01 :: rest =>
    (E.zstd.decodeAll rest).mapError fun e => .crypto ("zstd decompress ratchet: " ++ e)
  | _ =>
    (E.zstd.decodeAll payload).mapError fun e =>
      .crypto ("zstd decompress ratchet (legacy): " ++ e)

def ratchetBlob (nonce : Bytes) (state : RatchetState Key Secret) : Result Bytes := do
  let serialized ← E.codec.serialize state
  let payload ← E.ratchetPayload serialized
  E.encrypt nonce payload

def ratchetOfBlob (blob nonce : Bytes) : Result (RatchetState Key Secret) := do
  let payload ← E.decrypt blob nonce
  let serialized ← E.ratchetSerialized payload
  E.codec.deserialize serialized

end StoreSuite

/-! ## Tables -/

structure ConversationRow where
  nickname : Option Bytes
  createdAt : Nat
  lastMsgAt : Nat
  inboxId : Option Bytes
  deriving DecidableEq

structure MessageRow where
  id : Nat
  peerId : Bytes
  direction : Direction
  ciphertext : Bytes
  nonce : Bytes
  compressed : Bool
  timestamp : Nat
  deriving DecidableEq

structure RatchetRow where
  stateBlob : Bytes
  nonce : Bytes
  updatedAt : Nat
  deriving DecidableEq

structure Store where
  conversations : AList fun _ : Bytes => ConversationRow
  messages : List MessageRow
  /-- The largest id given out; `AUTOINCREMENT` does not reuse one. -/
  lastId : Nat
  ratchetState : AList fun _ : Bytes => RatchetRow

def Store.empty : Store :=
  ⟨∅, [], 0, ∅⟩

/-- The error, if any, of the lock (0) and of the statements (from 1) of a call. -/
abbrev StoreIo := Nat → Option String

/-- No step of the first `n` fails. -/
def StoreIo.Succeeds (io : StoreIo) (n : Nat) : Prop :=
  ∀ i < n, io i = none

instance (io : StoreIo) (n : Nat) : Decidable (io.Succeeds n) :=
  inferInstanceAs (Decidable (∀ i < n, io i = none))

inductive ReadIo where
  | ok
  /-- The lock or the preparation fails. -/
  | unavailable (err : Error)
  /-- The row cannot be read. -/
  | failed

/-! ## Operations -/

namespace Store

variable (store : Store)

def locked (io : StoreIo) : Result Unit :=
  match io 0 with
  | none => .ok ()
  | some _ => .error (.crypto "sqlite mutex poisoned")

/-- A statement of a call: its effect, or its error under the call's label. -/
def statement (io : StoreIo) (i : Nat) (label : String) (effect : Store → Store) (store : Store) :
    Store × Result Unit :=
  match io i with
  | none => (effect store, .ok ())
  | some e => (store, .error (.crypto (label ++ ": " ++ e)))

/-- The statement `next` if the ones before it succeeded. -/
def andThen (done : Store × Result Unit) (next : Store → Store × Result Unit) :
    Store × Result Unit :=
  match done.2 with
  | .ok () => next done.1
  | .error err => (done.1, .error err)

def updateConversation (peer : Bytes) (f : ConversationRow → ConversationRow) (store : Store) :
    Store :=
  match store.conversations.lookup peer with
  | none => store
  | some row => { store with conversations := store.conversations.insert peer (f row) }

def deleteMessages (peer : Bytes) (store : Store) : Store :=
  { store with messages := store.messages.filter fun row => row.peerId ≠ peer }

def deleteRatchet (peer : Bytes) (store : Store) : Store :=
  { store with ratchetState := store.ratchetState.erase peer }

def deleteConversationRow (peer : Bytes) (store : Store) : Store :=
  { store with conversations := store.conversations.erase peer }

def upsertConversation (peer : Bytes) (nickname : Option Bytes) (now : Nat) (store : Store) :
    Store :=
  match store.conversations.lookup peer with
  | none =>
    { store with conversations := store.conversations.insert peer ⟨nickname, now, now, none⟩ }
  | some row =>
    { store with
      conversations := store.conversations.insert peer
        { row with nickname := nickname.or row.nickname } }

def saveConversation (peer : PeerId) (nickname : Option Bytes) (now : Nat) (io : StoreIo) :
    Store × Result Unit :=
  andThen (store, locked io)
    (statement io 1 "save_conversation" (upsertConversation peer.val nickname now))

/-- An `UPDATE` of no row succeeds. -/
def savePeerInboxId (peer : PeerId) (inboxId : Bytes) (io : StoreIo) : Store × Result Unit :=
  andThen (store, locked io)
    (statement io 1 "save_peer_inbox_id"
      (updateConversation peer.val fun row => { row with inboxId := some inboxId }))

def deleteConversation (peer : PeerId) (io : StoreIo) : Store × Result Unit :=
  andThen
    (andThen
      (andThen (store, locked io) (statement io 1 "delete messages" (deleteMessages peer.val)))
      (statement io 2 "delete ratchet" (deleteRatchet peer.val)))
    (statement io 3 "delete conversation" (deleteConversationRow peer.val))

/-- The batch is not a transaction. -/
def clearAll (io : StoreIo) : Store × Result Unit :=
  andThen
    (andThen
      (andThen
        (andThen (store, locked io)
          (statement io 1 "clear_all" fun store => { store with messages := [] }))
        (statement io 2 "clear_all" fun store => { store with ratchetState := ∅ }))
      (statement io 3 "clear_all" fun store => { store with conversations := ∅ }))
    (statement io 4 "clear_all" id)

variable (E : StoreSuite Key Secret)

/-- `INSERT INTO messages`, which the foreign key on `peer_id` may refuse. -/
def insertMessage (peer : Bytes) (direction : Direction) (ct nonce : Bytes) (compressed : Bool)
    (timestamp : Nat) (io : StoreIo) (store : Store) : Store × Result Unit :=
  if E.foreignKeys = true ∧ store.conversations.lookup peer = none then
    (store, .error (.crypto "save_message: FOREIGN KEY constraint failed"))
  else
    statement io 1 "save_message" (fun store =>
      { store with
        messages := store.messages ++
          [⟨store.lastId + 1, peer, direction, ct, nonce, compressed, timestamp⟩]
        lastId := store.lastId + 1 }) store

/-- The id that it returns is `lastId` afterwards. -/
def saveMessage (peer : PeerId) (direction : Direction) (plaintext : Bytes) (timestamp : Nat)
    (nonce : Bytes) (io : StoreIo) : Store × Result Unit :=
  match E.compressAndEncrypt nonce plaintext with
  | .error err => (store, .error err)
  | .ok (ct, compressed) =>
    andThen
      (andThen (store, locked io)
        (insertMessage E peer.val direction ct nonce compressed timestamp io))
      (statement io 2 "update last_msg_at"
        (updateConversation peer.val fun row =>
          { row with lastMsgAt := max row.lastMsgAt timestamp }))

def saveRatchetState (peer : PeerId) (state : RatchetState Key Secret) (nonce : Bytes) (now : Nat)
    (io : StoreIo) : Store × Result Unit :=
  match E.ratchetBlob nonce state with
  | .error err => (store, .error err)
  | .ok blob =>
    andThen (store, locked io)
      (statement io 1 "save_ratchet_state" fun store =>
        { store with ratchetState := store.ratchetState.insert peer.val ⟨blob, nonce, now⟩ })

/-! ## Reading -/

/-- A row that cannot be read is no error: `.ok().flatten()`. -/
def loadPeerInboxId (peer : PeerId) : ReadIo → Result (Option Bytes)
  | .unavailable err => .error err
  | .failed => .ok none
  | .ok => .ok ((store.conversations.lookup peer.val).bind ConversationRow.inboxId)

def loadRatchetState (peer : PeerId) : ReadIo → Result (Option (RatchetState Key Secret))
  | .unavailable err => .error err
  | .failed => .ok none
  | .ok =>
    match store.ratchetState.lookup peer.val with
    | none => .ok none
    | some row => (E.ratchetOfBlob row.stateBlob row.nonce).map some

/-- How the reads of a restart go: of the list, of each of its rows, of each peer's ratchet. -/
structure RestartIo where
  list : Option Error
  row : Bytes → Bool
  ratchet : PeerId → ReadIo

/-- The rows that can be read, the newest conversation first. -/
def listConversations (io : RestartIo) : Result (List (Bytes × ConversationRow)) :=
  match io.list with
  | some err => .error err
  | none =>
    .ok (((store.conversations.entries.map fun entry => (entry.1, entry.2)).mergeSort
      fun a b => decide (b.2.lastMsgAt ≤ a.2.lastMsgAt)).filter fun entry => io.row entry.1)

/-- One round of the loop of `activate_identity`. -/
def restoreConversation (io : RestartIo) (km : KeyManager Key Secret) (peerId : Bytes) :
    KeyManager Key Secret :=
  match Array32.tryFrom peerId with
  | none => km
  | some pid =>
    match store.loadRatchetState E pid (io.ratchet pid) with
    | .ok (some ratchet) => km.restoreRatchetState pid.val ratchet
    | _ => km

/-- `activate_identity`, from where the store is open and `ClientApi::with_seed` has built `km`. -/
def activateIdentity (io : RestartIo) (km : KeyManager Key Secret) : KeyManager Key Secret :=
  match store.listConversations io with
  | .error _ => km
  | .ok convos => (convos.map Prod.fst).foldl (store.restoreConversation E io) km

end Store

/-! ## Runs -/

inductive StoreOp (Key Secret : Type) where
  | saveConversation (peer : PeerId) (nickname : Option Bytes) (now : Nat)
  | saveMessage (peer : PeerId) (direction : Direction) (plaintext : Bytes) (timestamp : Nat)
      (nonce : Bytes)
  | saveRatchetState (peer : PeerId) (state : RatchetState Key Secret) (nonce : Bytes) (now : Nat)
  | savePeerInboxId (peer : PeerId) (inboxId : Bytes)
  | deleteConversation (peer : PeerId)
  | clearAll

namespace Store

variable (E : StoreSuite Key Secret)

def apply (store : Store) (op : StoreOp Key Secret) (io : StoreIo) : Store × Result Unit :=
  match op with
  | .saveConversation peer nickname now => store.saveConversation peer nickname now io
  | .saveMessage peer direction plaintext timestamp nonce =>
    store.saveMessage E peer direction plaintext timestamp nonce io
  | .saveRatchetState peer state nonce now => store.saveRatchetState E peer state nonce now io
  | .savePeerInboxId peer inboxId => store.savePeerInboxId peer inboxId io
  | .deleteConversation peer => store.deleteConversation peer io
  | .clearAll => store.clearAll io

/-- Operations one after the other, each with the outcome of its statements. -/
def run (store : Store) (ops : List (StoreOp Key Secret × StoreIo)) : Store :=
  ops.foldl (fun store op => (store.apply E op.1 op.2).1) store

end Store

/-! ## What the client issues -/

/-- `initiate_session` for a new session; the server may have sent no inbox id. -/
def initiateSessionOps (peer : PeerId) (inboxId : Option Bytes) : List (StoreOp Key Secret) :=
  match inboxId with
  | some inboxId => [.savePeerInboxId peer inboxId]
  | none => []

/-- `join_link` initiates a session and saves no conversation. -/
def joinLinkOps (peer : PeerId) (inboxId : Option Bytes) : List (StoreOp Key Secret) :=
  initiateSessionOps peer inboxId

/-- `PeerConnected` saves the conversation after it has initiated the session. -/
def peerConnectedOps (peer : PeerId) (inboxId : Option Bytes) (now : Nat) :
    List (StoreOp Key Secret) :=
  initiateSessionOps peer inboxId ++ [.saveConversation peer none now]

/-- `persist_sent_message` and `persist_received_message`. The state is saved whether or not the
message was. -/
def persistMessageOps (peer : PeerId) (direction : Direction) (plaintext : Bytes) (now : Nat)
    (nonces : Bytes × Bytes) (state : RatchetState Key Secret) : List (StoreOp Key Secret) :=
  [.saveMessage peer direction plaintext now nonces.1, .saveRatchetState peer state nonces.2 now]

end Cypher.Client
