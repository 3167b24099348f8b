import Cypher.Common

/-!
# Hex strings (`hex_encode`, `hex_decode_bytes`)

Both services write ids in lower-case hex. The decoder drops pairs of characters that are no number;
it reads back what the encoder wrote.
-/

namespace Cypher.Signaling

def hexEncode (data : Bytes) : List Char :=
  data.flatMap fun byte => [Nat.digitChar (byte.toNat / 16), Nat.digitChar (byte.toNat % 16)]

def hexDigit? (c : Char) : Option Nat :=
  if '0' ≤ c ∧ c ≤ '9' then some (c.toNat - '0'.toNat)
  else if 'a' ≤ c ∧ c ≤ 'f' then some (c.toNat - 'a'.toNat + 10)
  else if 'A' ≤ c ∧ c ≤ 'F' then some (c.toNat - 'A'.toNat + 10)
  else none

/-- `u8::from_str_radix(_, 16)` on two characters; a leading plus sign is accepted. -/
def fromStrRadix16 (hi lo : Char) : Option UInt8 :=
  if hi = '+' then (hexDigit? lo).map UInt8.ofNat
  else (hexDigit? hi).bind fun h => (hexDigit? lo).map fun l => UInt8.ofNat (16 * h + l)

def hexPairs : List Char → Bytes
  | hi :: lo :: rest => (fromStrRadix16 hi lo).toList ++ hexPairs rest
  | _ => []

/-- `hex_decode_bytes` on an ASCII string: pairs that are no number are dropped. -/
def hexDecodeBytes (hex : List Char) : Bytes :=
  if hex.length % 2 ≠ 0 then [] else hexPairs hex

theorem fromStrRadix16_digitChar (byte : UInt8) :
    fromStrRadix16 (Nat.digitChar (byte.toNat / 16)) (Nat.digitChar (byte.toNat % 16)) =
      some byte := by
  have hall : ∀ n < 256, fromStrRadix16 (Nat.digitChar (n / 16)) (Nat.digitChar (n % 16)) =
      some (UInt8.ofNat n) := by decide +kernel
  rw [hall _ byte.toNat_lt, UInt8.ofNat_toNat]

theorem hexEncode_length (data : Bytes) : (hexEncode data).length = 2 * data.length := by
  induction data with
  | nil => rfl
  | cons byte rest ih =>
    rw [hexEncode, List.flatMap_cons, List.length_append, List.length_cons, ← hexEncode, ih]
    simp only [List.length_cons, List.length_nil]
    omega

@[simp] theorem hexDecodeBytes_hexEncode (data : Bytes) :
    hexDecodeBytes (hexEncode data) = data := by
  have hpairs : hexPairs (hexEncode data) = data := by
    induction data with
    | nil => rfl
    | cons byte rest ih =>
      simp only [hexEncode, List.flatMap_cons, List.cons_append, List.nil_append, hexPairs,
        fromStrRadix16_digitChar, Option.toList_some] at ih ⊢
      rw [ih]
  rw [hexDecodeBytes, hexEncode_length, if_neg (by omega), hpairs]

end Cypher.Signaling
