import Cypher.Lib.Double
import Cypher.Proto.Codec

/-!
# The codec of the web client (`clients/pwa/src/api/proto.ts`)

A `Uint8Array` is a byte list and the numbers that occur are non-negative integers. A string stands
for its UTF-8 form: `TextEncoder` writes it and `TextDecoder` reads it back, replacing what is
malformed and dropping one leading U+FEFF. `none` is the `RangeError` of a `DataView` read outside
the data; `Uint8Array.slice` clamps its bounds instead.
-/

namespace Cypher.Pwa

open Proto (Utf8 padding slice)

namespace CID

def sessionInit : Nat := 0xA1000001
def sessionAck : Nat := 0xA1000002
def signalRequestPeer : Nat := 0xB1000001
def keysGetPrekeys : Nat := 0xB2000002
def chatSend : Nat := 0xC1000001
def fileOffer : Nat := 0xD1000001
def fileAccept : Nat := 0xD1000002
def fileChunk : Nat := 0xD1000003
def fileComplete : Nat := 0xD1000004
def fileChunkAck : Nat := 0xD1000005
def inboxStore : Nat := 0xC2000001
def inboxFetch : Nat := 0xC2000002
def inboxMessages : Nat := 0xC2000003

end CID

/-! ## Numbers and strings of the platform -/

/-- `DataView.setUint32(_, v, true)`, which takes `v` modulo `2 ^ 32`. -/
def setUint32 (v : Int) : Bytes :=
  Lib.leBytes 4 (BitVec.ofInt 32 v).toNat

/-- `x & y`: both operands are taken to 32 bits, the result is read as a signed number. -/
def bitAnd (x y : Int) : Int :=
  (BitVec.ofInt 32 x &&& BitVec.ofInt 32 y).toInt

def byteOrderMark : Bytes :=
  [0xEF, 0xBB, 0xBF]

def textDecode (b : Bytes) : Bytes :=
  Lib.lossyUtf8 [] [] (if byteOrderMark.isPrefixOf b then b.drop 3 else b)

/-! ## Writer -/

namespace Writer

def u32 (v : Nat) : Bytes :=
  setUint32 v

/-- The quotient by a power of two is exact, so `Math.floor` rounds it once. -/
def u64 (v : Nat) : Bytes :=
  setUint32 (bitAnd v 0xFFFFFFFF) ++ setUint32 (v / 0x100000000 : Nat)

def bytes (data : Bytes) : Bytes :=
  u32 data.length ++ data ++ List.replicate (padding data.length) 0

/-- `TextEncoder.encode(s)` is the UTF-8 form. -/
def string (s : Utf8) : Bytes :=
  bytes s.val

end Writer

section Encoders

open Writer

def encodeSessionInit (clientId nonce : Bytes) : Bytes :=
  u32 CID.sessionInit ++ bytes clientId ++ bytes nonce

def encodeSignalRequestPeer (linkId : Utf8) : Bytes :=
  u32 CID.signalRequestPeer ++ string linkId

def encodeKeysGetPrekeys (peerId : Bytes) : Bytes :=
  u32 CID.keysGetPrekeys ++ bytes peerId

def encodeChatSend (peerId ciphertext ratchetKey : Bytes) (msgNo : Nat) : Bytes :=
  u32 CID.chatSend ++ bytes peerId ++ bytes ciphertext ++ bytes ratchetKey ++ u32 msgNo

def encodeFileOffer (peerId fileId : Bytes) (name : Utf8) (size chunks : Nat) (hash : Bytes)
    (compressed : Nat) : Bytes :=
  u32 CID.fileOffer ++ bytes peerId ++ bytes fileId ++ string name ++ u64 size ++ u32 chunks ++
    bytes hash ++ u32 compressed

def encodeFileAccept (peerId fileId : Bytes) : Bytes :=
  u32 CID.fileAccept ++ bytes peerId ++ bytes fileId

def encodeFileChunk (peerId fileId : Bytes) (index : Nat) (data hash ratchetKey : Bytes)
    (msgNo : Nat) : Bytes :=
  u32 CID.fileChunk ++ bytes peerId ++ bytes fileId ++ u32 index ++ bytes data ++ bytes hash ++
    bytes ratchetKey ++ u32 msgNo

def encodeFileComplete (peerId fileId : Bytes) : Bytes :=
  u32 CID.fileComplete ++ bytes peerId ++ bytes fileId

def encodeInboxFetch (inboxId : Bytes) : Bytes :=
  u32 CID.inboxFetch ++ bytes inboxId

def encodeInboxStore (inboxId ciphertext : Bytes) : Bytes :=
  u32 CID.inboxStore ++ bytes inboxId ++ bytes ciphertext

def encodeFileChunkAck (peerId fileId : Bytes) (index : Nat) : Bytes :=
  u32 CID.fileChunkAck ++ bytes peerId ++ bytes fileId ++ u32 index

end Encoders

/-! ## Reader -/

/-- A method of `Reader`: it moves `offset`, or throws. -/
abbrev Reader := StateT Nat Option

namespace Reader

variable (data : Bytes)

def getUint32 (offset : Nat) : Option Nat :=
  if offset + 4 ≤ data.length then some (Lib.leNat (slice data offset (offset + 4))) else none

def u32 : Reader Nat := fun offset => do
  let v ← getUint32 data offset
  return (v, offset + 4)

/-- The product is exact, the sum is rounded to a double. -/
def u64 : Reader Nat := fun offset => do
  let lo ← getUint32 data offset
  let hi ← getUint32 data (offset + 4)
  return (Lib.roundDouble (Lib.roundDouble (hi * 0x100000000) + lo), offset + 8)

def bytes : Reader Bytes := do
  let len ← u32 data
  let offset ← get
  let bytes := slice data offset (offset + len)
  set (offset + len + padding len)
  return bytes

def string : Reader Bytes := do
  return textDecode (← bytes data)

end Reader

inductive ProtoMessage where
  | sessionInit (clientId nonce : Bytes)
  | sessionAck (serverNonce : Bytes) (timestamp : Nat)
  | signalRequestPeer (linkId : Bytes)
  | chatSend (peerId ciphertext ratchetKey : Bytes) (msgNo : Nat)
  | fileOffer (peerId fileId name : Bytes) (size chunks : Nat) (hash : Bytes) (compressed : Nat)
  | fileAccept (peerId fileId : Bytes)
  | fileChunk (peerId fileId : Bytes) (index : Nat) (data hash ratchetKey : Bytes) (msgNo : Nat)
  | fileComplete (peerId fileId : Bytes)
  | fileChunkAck (peerId fileId : Bytes) (index : Nat)
  | inboxMessages (messages : Bytes) (count : Nat)
  | unknown (cid : Nat)
  deriving DecidableEq, Repr

section Dispatch

open Reader

/-- The `switch` over the constructor id. -/
def dispatchCid (data : Bytes) (cid : Nat) : Reader ProtoMessage := do
  if cid = CID.sessionInit then
    return .sessionInit (← bytes data) (← bytes data)
  else if cid = CID.sessionAck then
    return .sessionAck (← bytes data) (← u64 data)
  else if cid = CID.signalRequestPeer then
    return .signalRequestPeer (← string data)
  else if cid = CID.chatSend then
    return .chatSend (← bytes data) (← bytes data) (← bytes data) (← u32 data)
  else if cid = CID.fileOffer then
    return .fileOffer (← bytes data) (← bytes data) (← string data) (← u64 data) (← u32 data)
      (← bytes data) (← u32 data)
  else if cid = CID.fileAccept then
    return .fileAccept (← bytes data) (← bytes data)
  else if cid = CID.fileChunk then
    return .fileChunk (← bytes data) (← bytes data) (← u32 data) (← bytes data) (← bytes data)
      (← bytes data) (← u32 data)
  else if cid = CID.fileComplete then
    return .fileComplete (← bytes data) (← bytes data)
  else if cid = CID.fileChunkAck then
    return .fileChunkAck (← bytes data) (← bytes data) (← u32 data)
  else if cid = CID.inboxMessages then
    return .inboxMessages (← bytes data) (← u32 data)
  else
    return .unknown cid

def dispatch (data : Bytes) : Option ProtoMessage :=
  if data.length < 4 then some (.unknown 0)
  else
    let read : Reader ProtoMessage := do
      let cid ← u32 data
      dispatchCid data cid
    read.run' 0

end Dispatch

end Cypher.Pwa
