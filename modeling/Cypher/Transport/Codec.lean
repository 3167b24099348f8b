import Cypher.Common

/-!
# Transport frames (`cypher-transport/src/codec.rs`, `frame.rs`)

`FrameCodec` writes a frame as a big-endian length and that many bytes: sequence number,
acknowledgement, flags and payload. `decode` returns what is left of the buffer with the frame;
`none` leaves the buffer alone. An error is the text of an `io::Error` of kind `InvalidData`.
-/

namespace Cypher.Transport

structure Frame where
  seqNo : UInt32
  ack : UInt32
  flags : UInt8
  payload : Bytes
  deriving DecidableEq, Repr

namespace FrameFlags

def ping : UInt8 := 0x08
def pong : UInt8 := 0x10
def sessionInit : UInt8 := 0x20
def sessionClose : UInt8 := 0x40

def contains (flags other : UInt8) : Bool :=
  flags &&& other == other

end FrameFlags

/-- 1 MB. -/
def maxFrameSize : Nat := 1048576

/-- `seq_no`, `ack` and `flags`. -/
def headerSize : Nat := 9

def frameTooLarge (length : Nat) : String :=
  "frame too large: " ++ toString length ++ " bytes (max " ++ toString maxFrameSize ++ ")"

def getU32 (src : Bytes) : UInt32 × Bytes :=
  (UInt32.ofNat (fromBeBytes32 (src.take 4)), src.drop 4)

def getU8 (src : Bytes) : UInt8 × Bytes :=
  (src.headD 0, src.drop 1)

def decode (src : Bytes) : Except String (Option (Frame × Bytes)) :=
  if src.length < 4 then .ok none
  else
    let length := fromBeBytes32 (src.take 4)
    if length < headerSize then .error ("frame body too small: " ++ toString length)
    else if length > maxFrameSize then .error (frameTooLarge length)
    else
      let total := 4 + length
      if src.length < total then .ok none
      else
        let src := src.drop 4
        let (seqNo, src) := getU32 src
        let (ack, src) := getU32 src
        let (flags, src) := getU8 src
        let payloadLen := length - headerSize
        .ok (some (⟨seqNo, ack, flags, src.take payloadLen⟩, src.drop payloadLen))

/-- The bytes are appended to `dst`. -/
def encode (item : Frame) (dst : Bytes) : Except String Bytes :=
  let bodyLen := headerSize + item.payload.length
  if bodyLen > maxFrameSize then .error (frameTooLarge bodyLen)
  else
    .ok (dst ++ toBeBytes32 bodyLen ++ toBeBytes32 item.seqNo.toNat ++ toBeBytes32 item.ack.toNat ++
      [item.flags] ++ item.payload)

/-- Encode one frame after the other into the same buffer. -/
def encodeAll : List Frame → Bytes → Except String Bytes
  | [], dst => .ok dst
  | item :: rest, dst =>
    match encode item dst with
    | .error err => .error err
    | .ok dst => encodeAll rest dst

end Cypher.Transport
