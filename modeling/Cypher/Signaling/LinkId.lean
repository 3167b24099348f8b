import Cypher.Common
import Cypher.Lib.Bits

/-!
# Link ids (`cypher-common/src/types.rs`)

`LinkId::generate` writes 16 random bytes in base32. `base32Encode` is the source's loop over a `u32`
accumulator; `Rfc4648` states what the encoding is meant to be, in terms of the bits of the input.
-/

namespace Cypher.Signaling

def base32Alphabet : List Char :=
  ['a', 'b', 'c', 'd', 'e', 'f', 'g', 'h', 'i', 'j', 'k', 'l', 'm', 'n', 'o', 'p', 'q', 'r', 's', 't',
    'u', 'v', 'w', 'x', 'y', 'z', '2', '3', '4', '5', '6', '7']

/-- `ALPHABET[(idx & 0x1F) as usize]`; the masked index is within the alphabet. -/
def base32Char (idx : UInt32) : Char := base32Alphabet.getD (idx &&& 0x1F).toNat 'a'

/-- The inner loop: characters are written while five bits are left. The accumulator is not masked. -/
def base32Drain (bits : UInt32) : (numBits : Nat) → (result : List Char) → List Char × Nat
  | numBits + 5, result =>
    base32Drain bits numBits (result ++ [base32Char (bits >>> UInt32.ofNat numBits)])
  | numBits, result => (result, numBits)

/-- The outer loop, with the accumulator and the number of its bits that are left. -/
def base32Loop : Bytes → UInt32 → Nat → List Char → List Char × UInt32 × Nat
  | [], bits, numBits, result => (result, bits, numBits)
  | byte :: data, bits, numBits, result =>
    let bits := bits <<< 8 ||| byte.toUInt32
    let drained := base32Drain bits (numBits + 8) result
    base32Loop data bits drained.2 drained.1

def base32Encode (data : Bytes) : List Char :=
  match base32Loop data 0 0 [] with
  | (result, bits, numBits) =>
    if numBits > 0 then result ++ [base32Char (bits <<< UInt32.ofNat (5 - numBits))] else result

/-- `LinkId::generate`; the bytes are those that `thread_rng` yields. -/
def linkIdGenerate (random : Fin 16 → UInt8) : List Char := base32Encode (List.ofFn random)

/-! ## RFC 4648 -/

namespace Rfc4648

def dataBits (data : Bytes) : List Bool := data.flatMap fun byte => Lib.bits 8 byte.toNat

def digitChar (group : List Bool) : Char := base32Alphabet.getD (Lib.bitsValue group) 'a'

/-- Section 6 without padding characters, in lower case: zeros are added on the right up to a whole
number of groups of five bits, and each group is written as a character. -/
def encode (data : Bytes) : List Char :=
  (Lib.wholeGroups 5 (dataBits data ++ Lib.padding 5 (dataBits data).length)).map digitChar

def digit? (c : Char) : Option Nat := base32Alphabet.findIdx? (· == c)

/-- The octets of the text. Characters outside the alphabet are refused, and so are more than four
bits after the last octet or a bit of them that is set. -/
def decode? (text : List Char) : Option Bytes :=
  (text.mapM digit?).bind fun digits =>
    let stream := digits.flatMap (Lib.bits 5)
    let rest := stream.drop (8 * (stream.length / 8))
    if rest.length < 5 ∧ ∀ b ∈ rest, b = false then
      some ((Lib.wholeGroups 8 stream).map fun group => UInt8.ofNat (Lib.bitsValue group))
    else none

end Rfc4648

end Cypher.Signaling
