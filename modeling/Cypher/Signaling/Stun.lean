import Cypher.Net
import Cypher.Proto.Codec

/-!
# The STUN server (`services/signaling/src/stun.rs`)

A binding request is answered with the address it came from, masked with the magic cookie and, for
IPv6, the transaction id.
-/

namespace Cypher.Signaling.Stun

open Proto (slice)

def stunMagicCookie : UInt32 := 0x2112A442
def stunBindingRequest : UInt16 := 0x0001
def stunBindingResponse : UInt16 := 0x0101
def stunAttrXorMappedAddress : UInt16 := 0x0020
def stunHeaderSize : Nat := 20

/-- The size of the buffer that `run` receives into. -/
def bufferSize : Nat := 576

/-- The mask of an IPv6 address. -/
def xorKey (transactionId : Array12) : Bytes :=
  toBeBytes32 stunMagicCookie.toNat ++ transactionId.val

/-- The value of the attribute, as `build_binding_response` starts with it. -/
def attrValue (transactionId : Array12) (peer : SocketAddr) : Bytes :=
  let xPort := peer.port ^^^ (stunMagicCookie >>> 16).toUInt16
  match peer with
  | .v4 bits _ =>
    let xAddr := bits ^^^ stunMagicCookie
    [0x00, 0x01] ++ toBeBytes16 xPort ++ toBeBytes32 xAddr.toNat
  | .v6 octets _ _ _ =>
    let xAddr := xorBytes octets.val (xorKey transactionId)
    [0x00, 0x02] ++ toBeBytes16 xPort ++ xAddr

/-- `None`, which the caller takes for an unsupported address family, is never returned. -/
def buildBindingResponse (transactionId : Array12) (peer : SocketAddr) : Option Bytes :=
  let value := attrValue transactionId peer
  let attrLen := UInt16.ofNat value.length
  let msgAttrsLen := 4 + value.length
  some (toBeBytes16 stunBindingResponse ++ toBeBytes16 (UInt16.ofNat msgAttrsLen) ++
    toBeBytes32 stunMagicCookie.toNat ++ transactionId.val ++
    toBeBytes16 stunAttrXorMappedAddress ++ toBeBytes16 attrLen ++ value)

/-- One round of `run`: what is sent back to `source` for a datagram received from it. -/
def answer (datagram : Bytes) (source : SocketAddr) : Option Bytes :=
  let data := datagram.take bufferSize
  if h : data.length < stunHeaderSize then none
  else
    let msgType := fromBeBytes16 (slice data 0 2)
    let cookie := fromBeBytes32 (slice data 4 8)
    if msgType ≠ stunBindingRequest ∨ cookie ≠ stunMagicCookie.toNat then none
    else
      have hlength : (slice data 8 20).length = 12 := by
        rw [slice, List.length_take, List.length_drop]
        rw [stunHeaderSize] at h
        omega
      buildBindingResponse ⟨slice data 8 20, hlength⟩ source

end Cypher.Signaling.Stun
