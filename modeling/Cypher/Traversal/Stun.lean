import Cypher.Net
import Cypher.Proto.Codec
import Cypher.Signaling.Hex

/-!
# The STUN client (`cypher-nat/src/stun.rs`)

`parse_binding_response` checks the header and goes through the attributes. The loop is over what is
left of them from `offset` on; an attribute that is cut off ends it, an address that cannot be read
ends the whole parse.
-/

namespace Cypher.Traversal

open Proto (slice)
open Signaling (hexEncode)

def stunMagicCookie : UInt32 := 0x2112A442
def bindingRequest : UInt16 := 0x0001
def bindingResponse : UInt16 := 0x0101
def attrMappedAddress : UInt16 := 0x0001
def attrXorMappedAddress : UInt16 := 0x0020
def stunHeaderSize : Nat := 20

def buildBindingRequest (transactionId : Array12) : Bytes :=
  toBeBytes16 bindingRequest ++ toBeBytes16 0 ++ toBeBytes32 stunMagicCookie.toNat ++
    transactionId.val

/-! ## Addresses -/

def octetsAt (data : Bytes) (h : 20 ≤ data.length) : Array16 :=
  ⟨slice data 4 20, by
    rw [slice, List.length_take, List.length_drop]
    omega⟩

/-- The family is printed with `0x{:02x}`. -/
def unknownFamily (family : UInt8) : Error :=
  .nat ("unknown address family: 0x" ++ String.ofList (hexEncode [family]))

def xorKey (transactionId : Array12) : Bytes :=
  toBeBytes32 stunMagicCookie.toNat ++ transactionId.val

theorem xorKey_length (transactionId : Array12) : (xorKey transactionId).length = 16 := by
  rw [xorKey, List.length_append, toBeBytes32_length, transactionId.property]

def parseXorMappedAddress (data : Bytes) (transactionId : Array12) : Result SocketAddr :=
  if data.length < 8 then .error (.nat "XOR-MAPPED-ADDRESS too short")
  else
    let family := data.getD 1 0
    let xPort := fromBeBytes16 (slice data 2 4)
    let port := xPort ^^^ (stunMagicCookie >>> 16).toUInt16
    if family = 0x01 then
      let xAddr := UInt32.ofNat (fromBeBytes32 (slice data 4 8))
      .ok (.new (.v4 (xAddr ^^^ stunMagicCookie)) port)
    else if family = 0x02 then
      if h : data.length < 20 then .error (.nat "XOR-MAPPED-ADDRESS IPv6 too short")
      else
        let xAddr := octetsAt data (Nat.le_of_not_lt h)
        have hlength : (xorBytes xAddr.val (xorKey transactionId)).length = 16 := by
          rw [xorBytes_length (xAddr.property.trans (xorKey_length _).symm), xAddr.property]
        .ok (.new (.v6 ⟨xorBytes xAddr.val (xorKey transactionId), hlength⟩) port)
    else .error (unknownFamily family)

/-- The same without the masks. -/
def parseMappedAddress (data : Bytes) : Result SocketAddr :=
  if data.length < 8 then .error (.nat "MAPPED-ADDRESS too short")
  else
    let family := data.getD 1 0
    let port := fromBeBytes16 (slice data 2 4)
    if family = 0x01 then
      .ok (.new (.v4 (UInt32.ofNat (fromBeBytes32 (slice data 4 8)))) port)
    else if family = 0x02 then
      if h : data.length < 20 then .error (.nat "MAPPED-ADDRESS IPv6 too short")
      else .ok (.new (.v6 (octetsAt data (Nat.le_of_not_lt h))) port)
    else .error (unknownFamily family)

/-! ## Messages -/

structure Mapped where
  xorResult : Option SocketAddr
  mappedResult : Option SocketAddr
  deriving DecidableEq

/-- The preferred address after the loop. -/
def Mapped.address (found : Mapped) : Result SocketAddr :=
  match found.xorResult.or found.mappedResult with
  | some addr => .ok addr
  | none => .error (.nat "no MAPPED-ADDRESS in STUN response")

/-- The `match` on the type of an attribute. -/
def readAttribute (transactionId : Array12) (attrType : UInt16) (value : Bytes) (found : Mapped) :
    Result Mapped :=
  if attrType = attrXorMappedAddress then do
    let addr ← parseXorMappedAddress value transactionId
    return { found with xorResult := some addr }
  else if attrType = attrMappedAddress then do
    let addr ← parseMappedAddress value
    return { found with mappedResult := some addr }
  else return found

def paddedLen (attrLen : Nat) : Nat :=
  (attrLen + 3) / 4 * 4

def readAttributes (transactionId : Array12) (rest : Bytes) (found : Mapped) : Result Mapped :=
  if rest.length < 4 then .ok found
  else
    let attrType := fromBeBytes16 (slice rest 0 2)
    let attrLen := (fromBeBytes16 (slice rest 2 4)).toNat
    if rest.length < 4 + attrLen then .ok found
    else do
      let found ← readAttribute transactionId attrType (slice rest 4 (4 + attrLen)) found
      readAttributes transactionId (rest.drop (4 + paddedLen attrLen)) found
termination_by rest.length
decreasing_by
  rw [List.length_drop]
  omega

def parseBindingResponse (data : Bytes) (transactionId : Array12) : Result SocketAddr :=
  if data.length < stunHeaderSize then .error (.nat "STUN response too short")
  else
    let msgType := fromBeBytes16 (slice data 0 2)
    if msgType ≠ bindingResponse then
      .error (.nat ("expected Binding Response (0x" ++
        String.ofList (hexEncode (toBeBytes16 bindingResponse)) ++ "), got 0x" ++
        String.ofList (hexEncode (toBeBytes16 msgType))))
    else
      let msgLen := (fromBeBytes16 (slice data 2 4)).toNat
      let cookie := fromBeBytes32 (slice data 4 8)
      if cookie ≠ stunMagicCookie.toNat then .error (.nat "invalid STUN magic cookie")
      else if slice data 8 20 ≠ transactionId.val then
        .error (.nat "STUN transaction ID mismatch")
      else
        let attrData := data.drop stunHeaderSize
        if attrData.length < msgLen then .error (.nat "STUN response truncated")
        else do
          let found ← readAttributes transactionId (attrData.take msgLen) ⟨none, none⟩
          found.address

/-! ## A request -/

/-- What comes of one attempt: the request cannot be sent, the socket reports an error, a datagram
comes in from anywhere, or nothing within two seconds. -/
inductive Attempt where
  | sendError (msg : String)
  | recvError (msg : String)
  | received (datagram : Bytes)
  | timedOut
  deriving DecidableEq

def maxAttempts : Nat := 3

def bufferSize : Nat := 576

/-- The loop of `binding_request`, `attempts` of whose rounds have timed out. It ends with the first
datagram, whatever it is; `none` if it still waits after these attempts. -/
def awaitResponse (transactionId : Array12) : (attempts : Nat) → List Attempt →
    Option (Result SocketAddr)
  | _, [] => none
  | _, .sendError msg :: _ => some (.error (.io msg))
  | _, .recvError msg :: _ => some (.error (.io msg))
  | _, .received datagram :: _ =>
    some (parseBindingResponse (datagram.take bufferSize) transactionId)
  | attempts, .timedOut :: rest =>
    if maxAttempts ≤ attempts + 1 then some (.error .timeout)
    else awaitResponse transactionId (attempts + 1) rest

end Cypher.Traversal
