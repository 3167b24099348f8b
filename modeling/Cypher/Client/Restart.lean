import Cypher.Crypto.Ratchet

/-!
# One session of a client across restarts

`PeerSession` is the ratchet a client holds in memory for one peer and the state last written by
`save_ratchet_state`, with the tasks that may be caught by a restart:

* `send_message` and `send_message_offline` (`api/messaging.rs`) encrypt, wait for `send_raw`, and
  then copy the ratchet (`get_ratchet_state`) and write the copy;
* the send closure of `send_chunks` (`api/runtime.rs`) encrypts and writes nothing;
* `handle_chat_message` and its inbox counterpart decrypt and, on success, copy and write;
  `handle_file_chunk` decrypts and writes nothing.

Copying and writing are separate steps: the tasks run concurrently and every write may fail. A
restart (`activate_identity`) drops all tasks and takes the stored state for the ratchet. `calls` and
`seen` record the message keys that were used and the public keys that occurred.
-/

namespace Cypher.Client

open Crypto

variable {Key Secret Ct : Type}

/-- An `encrypt_for_peer` call that derived a message key, and the chain key it derived it from. -/
structure Call (Key : Type) where
  chainKey : Key
  messageKey : Key
  nonceMaterial : Bytes
  plaintext : Bytes
  deriving DecidableEq

structure PeerSession (Key Secret : Type) where
  ratchet : Option (RatchetState Key Secret)
  stored : Option (RatchetState Key Secret)
  /-- Chat messages that were encrypted and whose `send_raw` has not returned. -/
  unsent : Nat
  /-- Tasks that are about to call `get_ratchet_state`. -/
  persisting : Nat
  /-- Copies that are about to be written. -/
  snapshots : List (RatchetState Key Secret)
  /-- Newest first. -/
  calls : List (Call Key)
  seen : List PublicKey

inductive Sending where
  | message
  | offline
  | chunk
  deriving DecidableEq

inductive SessionAction (Secret Ct : Type) where
  | encrypt (via : Sending) (plaintext : Bytes)
  | sent
  | sendFailed
  | capture
  | save (i : Nat)
  | saveFailed (i : Nat)
  | receiveChat (fresh : Secret) (ciphertext : Ct) (ratchetKey : PublicKey) (msgNo : Nat)
  | receiveChunk (fresh : Secret) (ciphertext : Ct) (ratchetKey : PublicKey) (msgNo : Nat)
  | restart

namespace PeerSession

variable (S : Suite Key Secret Ct)

/-- A session that has just been set up and that nothing was stored of. -/
def start (st : RatchetState Key Secret) : PeerSession Key Secret :=
  ⟨some st, none, 0, 0, [], [], st.sendRatchetKey :: st.recvRatchetKey.toList⟩

/-- The ratchet after a `decrypt` call, whose header has now been seen. -/
def decrypted (c : PeerSession Key Secret) (ratchetKey : PublicKey) (st : RatchetState Key Secret) :
    PeerSession Key Secret :=
  { c with ratchet := some st, seen := st.sendRatchetKey :: ratchetKey :: c.seen }

/-- `none` is an action that is not possible, or an `encrypt` call that fails before it has derived
a message key. -/
def step (c : PeerSession Key Secret) : SessionAction Secret Ct → Option (PeerSession Key Secret)
  | .encrypt via plaintext => do
    let st ← c.ratchet
    let chainKey ← st.sendChainKey
    let messageKey := (S.kdfChain chainKey).2
    let out := st.encrypt S plaintext
    let c' := { c with
      ratchet := some out.1
      calls := ⟨chainKey, messageKey, S.nonceMaterial messageKey st.sendCount, plaintext⟩ :: c.calls }
    match out.2, via with
    | .error _, _ => some c'
    | .ok _, .chunk => some c'
    | .ok _, _ => some { c' with unsent := c.unsent + 1 }
  | .sent =>
    if 0 < c.unsent then some { c with unsent := c.unsent - 1, persisting := c.persisting + 1 }
    else none
  | .sendFailed => if 0 < c.unsent then some { c with unsent := c.unsent - 1 } else none
  | .capture =>
    if 0 < c.persisting then
      some { c with persisting := c.persisting - 1, snapshots := c.ratchet.toList ++ c.snapshots }
    else none
  | .save i => do
    let st ← c.snapshots[i]?
    some { c with stored := some st, snapshots := c.snapshots.eraseIdx i }
  | .saveFailed i => some { c with snapshots := c.snapshots.eraseIdx i }
  | .receiveChat fresh ct pk n => do
    let st ← c.ratchet
    let out := st.decrypt S fresh ct pk n
    match out.2 with
    | .ok _ => some { c.decrypted pk out.1 with persisting := c.persisting + 1 }
    | .error _ => some (c.decrypted pk out.1)
  | .receiveChunk fresh ct pk n => do
    let st ← c.ratchet
    some (c.decrypted pk (st.decrypt S fresh ct pk n).1)
  | .restart =>
    some { c with ratchet := c.stored, unsent := 0, persisting := 0, snapshots := [] }

/-- A ratchet key sampled by `decrypt` is new: it has not been generated or received before. -/
def Fresh (c : PeerSession Key Secret) : SessionAction Secret Ct → Prop
  | .receiveChat fresh _ pk n | .receiveChunk fresh _ pk n =>
    ∀ st ∈ c.ratchet, st.Ratchets pk n → S.publicKey fresh ∉ pk :: c.seen
  | _ => True

/-- A restart finds a stored state whose sending chain has not been used beyond it. -/
def RestartsUnused (c : PeerSession Key Secret) : SessionAction Secret Ct → Prop
  | .restart => ∀ st ∈ c.stored, ∀ chainKey ∈ st.sendChainKey,
      ∀ call ∈ c.calls, call.chainKey ≠ chainKey
  | _ => True

instance (c : PeerSession Key Secret) (a : SessionAction Secret Ct) : Decidable (c.Fresh S a) :=
  match a with
  | .receiveChat fresh _ pk n | .receiveChunk fresh _ pk n => inferInstanceAs (Decidable
      (∀ st ∈ c.ratchet, st.Ratchets pk n → S.publicKey fresh ∉ pk :: c.seen))
  | .encrypt _ _ | .sent | .sendFailed | .capture | .save _ | .saveFailed _ | .restart =>
    inferInstanceAs (Decidable True)

instance [DecidableEq Key] (c : PeerSession Key Secret) (a : SessionAction Secret Ct) :
    Decidable (c.RestartsUnused a) :=
  match a with
  | .restart => inferInstanceAs (Decidable (∀ st ∈ c.stored, ∀ chainKey ∈ st.sendChainKey,
      ∀ call ∈ c.calls, call.chainKey ≠ chainKey))
  | .encrypt _ _ | .sent | .sendFailed | .capture | .save _ | .saveFailed _
  | .receiveChat _ _ _ _ | .receiveChunk _ _ _ _ => inferInstanceAs (Decidable True)

end PeerSession

end Cypher.Client
