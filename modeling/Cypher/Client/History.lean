import Cypher.Client.Store

/-!
# Reading the history (`cypher-client-core/src/persistence/sqlite.rs`, `encryption.rs`)

`load_messages` selects the messages of a peer below an id, the newest first, and decrypts them. An id
is an `i64` in SQLite and a `u64` in Rust. A caller pages through the history by the id of the last
message it got; messages may be saved between its calls.
-/

namespace Cypher.Client

variable {Key Secret : Type}

def i64Max : Int := 2 ^ 63 - 1

/-- `n as i64` for a `u64`. -/
def asI64 (n : Nat) : Int := if n < 2 ^ 63 then n else n - 2 ^ 64

structure StoredMessage where
  id : Nat
  peerId : Bytes
  direction : Direction
  plaintext : Bytes
  timestamp : Nat
  deriving DecidableEq

namespace StoreSuite

variable (E : StoreSuite Key Secret)

def maybeDecompress (data : Bytes) (compressed : Bool) : Result Bytes :=
  if compressed = true then
    (E.zstd.decodeAll data).mapError fun e => .crypto ("zstd decompress: " ++ e)
  else .ok data

def decryptAndDecompress (ciphertext nonce : Bytes) (compressed : Bool) : Result Bytes := do
  let decrypted ← E.decrypt ciphertext nonce
  E.maybeDecompress decrypted compressed

def storedMessage (row : MessageRow) : Result StoredMessage := do
  let plaintext ← E.decryptAndDecompress row.ciphertext row.nonce row.compressed
  .ok ⟨row.id, row.peerId, row.direction, plaintext, row.timestamp⟩

end StoreSuite

/-- How a read of the history goes: the error of the lock, of `prepare` or of the query, and which rows
can be read. -/
structure HistoryIo where
  query : Option Error
  row : Nat → Bool

def HistoryIo.ok : HistoryIo := ⟨none, fun _ => true⟩

namespace Store

/-- `load_messages`. Rows that cannot be read are left out (`filter_map(|r| r.ok())`); one that cannot
be decrypted is an error of the call. -/
def loadMessages (store : Store) (E : StoreSuite Key Secret) (peer : PeerId) (limit : Nat)
    (beforeId : Option Nat) (io : HistoryIo) : Result (List StoredMessage) :=
  let bid := (beforeId.map asI64).getD i64Max
  match io.query with
  | some err => .error err
  | none =>
    let selected := store.messages.filter fun row => row.peerId = peer.val ∧ (row.id : Int) < bid
    let rows := ((selected.mergeSort fun a b => decide (b.id ≤ a.id)).take limit).filter
      fun row => io.row row.id
    rows.mapM E.storedMessage

end Store

/-! ## Paging -/

structure SaveCall where
  peer : PeerId
  direction : Direction
  plaintext : Bytes
  timestamp : Nat
  nonce : Bytes

def SaveCall.op (call : SaveCall) : StoreOp Key Secret :=
  .saveMessage call.peer call.direction call.plaintext call.timestamp call.nonce

def saveOps (saves : List (SaveCall × StoreIo)) : List (StoreOp Key Secret × StoreIo) :=
  saves.map fun save => (save.1.op, save.2)

/-- All pages from `beforeId` on, one after the other until one is empty; `between k` is saved after
page `k`. `none` if `fuel` calls are not enough. -/
def pageThrough (E : StoreSuite Key Secret) (peer : PeerId) (limit : Nat)
    (between : Nat → List (SaveCall × StoreIo)) :
    (fuel k : Nat) → Store → (beforeId : Option Nat) → Option (Result (List StoredMessage))
  | 0, _, _, _ => none
  | fuel + 1, k, store, beforeId =>
    match store.loadMessages E peer limit beforeId .ok with
    | .error err => some (.error err)
    | .ok page =>
      match page.getLast? with
      | none => some (.ok [])
      | some last =>
        (pageThrough E peer limit between fuel (k + 1) (store.run E (saveOps (between k)))
          (some last.id)).map fun result => result.map fun rest => page ++ rest

end Cypher.Client
