import Cypher.Proto.Checked
import Cypher.Traversal.Stun

/-!
# The STUN parser with its index checks

`parse_binding_response` as the source has it, with an `offset` into the attributes: an index or a
slice outside the datagram panics, which is `none` here, and so is a loop that has not ended after
the given number of rounds. `parseBindingResponse?_eq` says that neither happens.
-/

namespace Cypher.Traversal

open Proto (slice slice? bytesAt? slice?_of_le bytesAt?_of_le)
open Signaling (hexEncode)

def ipv6? (octets : Bytes) : Option IpAddr :=
  if h : octets.length = 16 then some (.v6 ⟨octets, h⟩) else none

def parseXorMappedAddress? (data : Bytes) (transactionId : Array12) : Option (Result SocketAddr) :=
  if data.length < 8 then some (.error (.nat "XOR-MAPPED-ADDRESS too short"))
  else do
    let family ← data[1]?
    let xPort := fromBeBytes16 (← bytesAt? data 2 2)
    let port := xPort ^^^ (stunMagicCookie >>> 16).toUInt16
    if family = 0x01 then do
      let xAddr := UInt32.ofNat (fromBeBytes32 (← bytesAt? data 4 4))
      some (.ok (.new (.v4 (xAddr ^^^ stunMagicCookie)) port))
    else if family = 0x02 then
      if data.length < 20 then some (.error (.nat "XOR-MAPPED-ADDRESS IPv6 too short"))
      else do
        let addr ← ipv6? (xorBytes (← bytesAt? data 4 16) (xorKey transactionId))
        some (.ok (.new addr port))
    else some (.error (unknownFamily family))

def parseMappedAddress? (data : Bytes) : Option (Result SocketAddr) :=
  if data.length < 8 then some (.error (.nat "MAPPED-ADDRESS too short"))
  else do
    let family ← data[1]?
    let port := fromBeBytes16 (← bytesAt? data 2 2)
    if family = 0x01 then do
      let addr := UInt32.ofNat (fromBeBytes32 (← bytesAt? data 4 4))
      some (.ok (.new (.v4 addr) port))
    else if family = 0x02 then
      if data.length < 20 then some (.error (.nat "MAPPED-ADDRESS IPv6 too short"))
      else do
        let addr ← ipv6? (← slice? data 4 20)
        some (.ok (.new addr port))
    else some (.error (unknownFamily family))

def readAttribute? (transactionId : Array12) (attrType : UInt16) (value : Bytes) (found : Mapped) :
    Option (Result Mapped) :=
  if attrType = attrXorMappedAddress then do
    let addr ← parseXorMappedAddress? value transactionId
    some (addr.map fun addr => { found with xorResult := some addr })
  else if attrType = attrMappedAddress then do
    let addr ← parseMappedAddress? value
    some (addr.map fun addr => { found with mappedResult := some addr })
  else some (.ok found)

/-- The `while` loop, for at most this many rounds. -/
def readAttributes? (transactionId : Array12) (attrData : Bytes) :
    (rounds offset : Nat) → Mapped → Option (Result Mapped)
  | 0, _, _ => none
  | rounds + 1, offset, found =>
    if offset + 4 ≤ attrData.length then do
      let attrType := fromBeBytes16 (← bytesAt? attrData offset 2)
      let attrLen := (fromBeBytes16 (← bytesAt? attrData (offset + 2) 2)).toNat
      let valueStart := offset + 4
      let valueEnd := valueStart + attrLen
      if valueEnd > attrData.length then some (.ok found)
      else do
        let value ← slice? attrData valueStart valueEnd
        match ← readAttribute? transactionId attrType value found with
        | .error err => some (.error err)
        | .ok found =>
          readAttributes? transactionId attrData rounds (valueStart + paddedLen attrLen) found
    else some (.ok found)

def parseBindingResponse? (rounds : Nat) (data : Bytes) (transactionId : Array12) :
    Option (Result SocketAddr) :=
  if data.length < stunHeaderSize then some (.error (.nat "STUN response too short"))
  else do
    let msgType := fromBeBytes16 (← bytesAt? data 0 2)
    if msgType ≠ bindingResponse then
      some (.error (.nat ("expected Binding Response (0x" ++
        String.ofList (hexEncode (toBeBytes16 bindingResponse)) ++ "), got 0x" ++
        String.ofList (hexEncode (toBeBytes16 msgType)))))
    else do
      let msgLen := (fromBeBytes16 (← bytesAt? data 2 2)).toNat
      let cookie := fromBeBytes32 (← bytesAt? data 4 4)
      if cookie ≠ stunMagicCookie.toNat then some (.error (.nat "invalid STUN magic cookie"))
      else do
        let id ← slice? data 8 20
        if id ≠ transactionId.val then some (.error (.nat "STUN transaction ID mismatch"))
        else do
          let attrData ← slice? data stunHeaderSize data.length
          if attrData.length < msgLen then some (.error (.nat "STUN response truncated"))
          else do
            let attrData ← slice? attrData 0 msgLen
            match ← readAttributes? transactionId attrData rounds 0 ⟨none, none⟩ with
            | .error err => some (.error err)
            | .ok found => some found.address

/-! ## No index check fails -/

theorem getElem?_eq_getD {data : Bytes} {i : Nat} (h : i < data.length) :
    data[i]? = some (data.getD i 0) := by
  rw [List.getD, List.getElem?_eq_getElem h, Option.getD_some]

theorem ipv6?_of_length {octets : Bytes} (h : octets.length = 16) :
    ipv6? octets = some (.v6 ⟨octets, h⟩) :=
  dif_pos h

section

variable (data : Bytes) (transactionId : Array12)

theorem parseXorMappedAddress?_eq :
    parseXorMappedAddress? data transactionId =
      some (parseXorMappedAddress data transactionId) := by
  unfold parseXorMappedAddress? parseXorMappedAddress
  by_cases hlen : data.length < 8
  · rw [if_pos hlen, if_pos hlen]
  · rw [if_neg hlen, if_neg hlen, getElem?_eq_getD (by omega), bytesAt?_of_le (by omega)]
    dsimp only [Option.bind_eq_bind, Option.bind_some]
    split
    · rw [bytesAt?_of_le (by omega)]
      rfl
    · split
      · split
        · rfl
        · next hlong =>
          have hmasked : (xorBytes (slice data 4 20) (xorKey transactionId)).length = 16 := by
            have hslice : (slice data 4 (4 + 16)).length = 16 := Proto.length_slice (by omega)
            rw [xorBytes_length (hslice.trans (xorKey_length _).symm), hslice]
          rw [bytesAt?_of_le (by omega)]
          dsimp only [Option.bind_some]
          rw [ipv6?_of_length hmasked]
          rfl
      · rfl

theorem parseMappedAddress?_eq : parseMappedAddress? data = some (parseMappedAddress data) := by
  unfold parseMappedAddress? parseMappedAddress
  by_cases hlen : data.length < 8
  · rw [if_pos hlen, if_pos hlen]
  · rw [if_neg hlen, if_neg hlen, getElem?_eq_getD (by omega), bytesAt?_of_le (by omega)]
    dsimp only [Option.bind_eq_bind, Option.bind_some]
    split
    · rw [bytesAt?_of_le (by omega)]
      rfl
    · split
      · split
        · rfl
        · next hlong =>
          have hslice : (slice data 4 (4 + 16)).length = 16 := Proto.length_slice (by omega)
          rw [slice?_of_le (by omega) (by omega)]
          dsimp only [Option.bind_some]
          rw [ipv6?_of_length hslice]
          rfl
      · rfl

variable {data transactionId}

theorem readAttribute?_eq (attrType : UInt16) (value : Bytes) (found : Mapped) :
    readAttribute? transactionId attrType value found =
      some (readAttribute transactionId attrType value found) := by
  unfold readAttribute? readAttribute
  split
  · rw [parseXorMappedAddress?_eq]
    cases parseXorMappedAddress value transactionId <;> rfl
  · split
    · rw [parseMappedAddress?_eq]
      cases parseMappedAddress value <;> rfl
    · rfl

theorem slice_drop (data : Bytes) (offset start n : Nat) :
    slice (data.drop offset) start (start + n) =
      slice data (offset + start) (offset + start + n) := by
  rw [slice, slice, List.drop_drop, Nat.add_sub_cancel_left, Nat.add_sub_cancel_left]

/-- A round goes on by at least four bytes, so the loop ends before the rounds do. -/
theorem readAttributes?_eq {attrData : Bytes} {rounds offset : Nat}
    (h : attrData.length < offset + 4 * rounds) (found : Mapped) :
    readAttributes? transactionId attrData (rounds + 1) offset found =
      some (readAttributes transactionId (attrData.drop offset) found) := by
  induction rounds generalizing offset found with
  | zero =>
    rw [readAttributes?, if_neg (by omega), readAttributes, if_pos]
    rw [List.length_drop]
    omega
  | succ rounds ih =>
    rw [readAttributes?, readAttributes, List.length_drop]
    by_cases hheader : offset + 4 ≤ attrData.length
    · have htype : slice (attrData.drop offset) 0 2 = slice attrData offset (offset + 2) :=
        slice_drop attrData offset 0 2
      have hlen : slice (attrData.drop offset) 2 4 =
          slice attrData (offset + 2) (offset + 2 + 2) :=
        slice_drop attrData offset 2 2
      rw [if_pos hheader, if_neg (by omega), bytesAt?_of_le (by omega), bytesAt?_of_le (by omega),
        htype, hlen]
      dsimp only [Option.bind_eq_bind, Option.bind_some]
      generalize (fromBeBytes16 (slice attrData (offset + 2) (offset + 2 + 2))).toNat = attrLen
      by_cases hvalue : offset + 4 + attrLen > attrData.length
      · rw [if_pos hvalue, if_pos (by omega)]
      · rw [if_neg hvalue, if_neg (by omega), slice?_of_le (by omega) (by omega), slice_drop,
          List.drop_drop]
        dsimp only [Option.bind_some]
        rw [readAttribute?_eq]
        dsimp only [Option.bind_some]
        cases readAttribute transactionId (fromBeBytes16 (slice attrData offset (offset + 2)))
            (slice attrData (offset + 4) (offset + 4 + attrLen)) found with
        | error err => rfl
        | ok found =>
          rw [Nat.add_assoc offset 4]
          exact ih (by omega) found
    · rw [if_neg hheader, if_pos (by omega)]

/-- Every byte string is parsed to the end, and never read beyond. -/
theorem parseBindingResponse?_eq {rounds : Nat} (h : data.length ≤ rounds) :
    parseBindingResponse? rounds data transactionId =
      some (parseBindingResponse data transactionId) := by
  unfold parseBindingResponse? parseBindingResponse
  by_cases hheader : data.length < stunHeaderSize
  · rw [if_pos hheader, if_pos hheader]
  · rw [stunHeaderSize] at hheader
    rw [stunHeaderSize, if_neg hheader, if_neg hheader, bytesAt?_of_le (by omega)]
    dsimp only [Option.bind_eq_bind, Option.bind_some]
    split
    · rfl
    rw [bytesAt?_of_le (by omega), bytesAt?_of_le (by omega)]
    dsimp only [Option.bind_some]
    split
    · rfl
    rw [slice?_of_le (by omega) (by omega)]
    dsimp only [Option.bind_some]
    split
    · rfl
    have hattrs : slice data 20 data.length = data.drop 20 := by
      rw [slice, ← List.length_drop, List.take_length]
    rw [slice?_of_le (by omega) (Nat.le_refl _), hattrs]
    dsimp only [Option.bind_some]
    split
    · rfl
    · next hfits =>
      have htake : ∀ n, slice (data.drop 20) 0 n = (data.drop 20).take n := fun n => rfl
      obtain ⟨rounds, rfl⟩ : ∃ k, rounds = k + 1 := ⟨rounds - 1, by omega⟩
      rw [slice?_of_le (Nat.zero_le _) (Nat.le_of_not_lt hfits), htake]
      dsimp only [Option.bind_some]
      rw [readAttributes?_eq, List.drop_zero]
      · dsimp only [Option.bind_some]
        cases readAttributes transactionId ((data.drop 20).take _) ⟨none, none⟩ <;> rfl
      · rw [List.length_take, List.length_drop]
        omega

end

end Cypher.Traversal
