import Cypher.Common
import Cypher.Lib.Utf8

/-!
# The wire codec (`cypher-proto`)

`build.rs` turns a schema into one struct per constructor with `serialize` and `deserialize`, and a
`dispatch` over all of them. Here a schema is data: a `Record` holds one value per field of a
constructor, `serialize` and `deserialize` follow its field list as the generated code does, and
`dispatch` selects the constructor by its id. All numbers are little-endian; `Bytes` and `String`
fields carry a `u32` length and are padded to a multiple of four.
-/

namespace Cypher.Proto

/-- Rust's `String`: a byte vector that is valid UTF-8. -/
abbrev Utf8 := {b : Bytes // Lib.validateUtf8 b = none}

inductive FieldType where
  | int
  | long
  | bytes
  | string
  deriving DecidableEq, Repr

def FieldType.Value : FieldType → Type
  | .int => UInt32
  | .long => UInt64
  | .bytes => Bytes
  | .string => Utf8

structure Field where
  name : String
  ty : FieldType
  deriving DecidableEq, Repr

structure Constructor where
  id : UInt32
  methodName : String
  fields : List Field
  deriving DecidableEq, Repr

/-- The struct generated for a field list. -/
def Record : List Field → Type
  | [] => Unit
  | f :: rest => f.ty.Value × Record rest

/-- The generated `Message` enum: a constructor and its struct. -/
structure Message where
  ctor : Constructor
  fields : Record ctor.fields

/-! ## Encoding -/

def padding (len : Nat) : Nat :=
  (4 - len % 4) % 4

/-- `encode_bytes`. The length is cast to `u32`. -/
def encodeBytes (data : Bytes) : Bytes :=
  Lib.leBytes 4 data.length ++ data ++ List.replicate (padding data.length) 0

def serializeField : (ty : FieldType) → ty.Value → Bytes
  | .int, (n : UInt32) => Lib.leBytes 4 n.toNat
  | .long, (n : UInt64) => Lib.leBytes 8 n.toNat
  | .bytes, (b : Bytes) => encodeBytes b
  | .string, (s : Utf8) => encodeBytes s.val

def serializeFields : (fields : List Field) → Record fields → Bytes
  | [], _ => []
  | f :: rest, (v, r) => serializeField f.ty v ++ serializeFields rest r

def serialize (c : Constructor) (r : Record c.fields) : Bytes :=
  Lib.leBytes 4 c.id.toNat ++ serializeFields c.fields r

def Message.serialize (m : Message) : Bytes :=
  Proto.serialize m.ctor m.fields

/-- The struct behind the variant of `Message` for `c`. -/
def Message.as? (c : Constructor) (m : Message) : Option (Record c.fields) :=
  if h : m.ctor = c then some (h ▸ m.fields) else none

/-! ## Decoding -/

def slice (buf : Bytes) (start stop : Nat) : Bytes :=
  (buf.drop start).take (stop - start)

theorem length_slice {buf : Bytes} {start stop : Nat} (h : stop ≤ buf.length) :
    (slice buf start stop).length = stop - start := by
  rw [slice, List.length_take, List.length_drop]
  omega

theorem slice_append {a b c : Bytes} {start n : Nat} (ha : a.length = start) (hb : b.length = n) :
    slice (a ++ (b ++ c)) start (start + n) = b := by
  rw [slice, List.drop_left' ha, List.take_left' (by omega)]

/-- `decode_bytes`: the data and the offset after its padding, which may lie past the end. -/
def decodeBytes (buf : Bytes) (offset : Nat) : Result (Bytes × Nat) :=
  if offset + 4 > buf.length then .error (.protocol "truncated bytes length")
  else
    let len := Lib.leNat (slice buf offset (offset + 4))
    let dataStart := offset + 4
    let dataEnd := dataStart + len
    if dataEnd > buf.length then .error (.protocol "truncated bytes data")
    else .ok (slice buf dataStart dataEnd, dataEnd + padding len)

def decodeString (buf : Bytes) (offset : Nat) : Result (Utf8 × Nat) :=
  match decodeBytes buf offset with
  | .error err => .error err
  | .ok (bytes, newOffset) =>
    match h : Lib.validateUtf8 bytes with
    | some e => .error (.protocol ("invalid UTF-8 string: " ++ e.text))
    | none => .ok (⟨bytes, h⟩, newOffset)

def deserializeField (name : String) (buf : Bytes) (offset : Nat) :
    (ty : FieldType) → Result (ty.Value × Nat)
  | .int =>
    if offset + 4 > buf.length then .error (.protocol ("truncated " ++ name))
    else .ok (UInt32.ofNat (Lib.leNat (slice buf offset (offset + 4))), offset + 4)
  | .long =>
    if offset + 8 > buf.length then .error (.protocol ("truncated " ++ name))
    else .ok (UInt64.ofNat (Lib.leNat (slice buf offset (offset + 8))), offset + 8)
  | .bytes => decodeBytes buf offset
  | .string => decodeString buf offset

/-- The bytes that the code after a field reads. Decoded fields are locals under their own names,
so a `Bytes` field called `__buf` hides the parameter of that name. -/
def bufferAfter : (f : Field) → f.ty.Value → Bytes → Bytes
  | ⟨name, .bytes⟩, (v : Bytes), buf => if name = "__buf" then v else buf
  | _, _, buf => buf

theorem bufferAfter_of_name_ne {f : Field} (h : f.name ≠ "__buf") (v : f.ty.Value) (buf : Bytes) :
    bufferAfter f v buf = buf := by
  unfold bufferAfter
  split
  · exact if_neg h
  · rfl

def deserializeFields (buf : Bytes) : (fields : List Field) → Nat → Result (Record fields)
  | [], _ => .ok ()
  | f :: rest, offset =>
    match deserializeField f.name buf offset f.ty with
    | .error err => .error err
    | .ok (v, offset) =>
      match deserializeFields (bufferAfter f v buf) rest offset with
      | .error err => .error err
      | .ok r => .ok (v, r)

def hexId (n : Nat) : String :=
  let digits := (Nat.toDigits 16 n).map Char.toUpper
  "0x" ++ String.ofList (List.replicate (8 - digits.length) '0' ++ digits)

def deserialize (c : Constructor) (buf : Bytes) : Result (Record c.fields) :=
  if buf.length < 4 then .error (.protocol "data too short")
  else
    let cid := Lib.leNat (slice buf 0 4)
    if cid ≠ c.id.toNat then
      .error (.protocol ("wrong constructor id: expected " ++ hexId c.id.toNat ++ ", got " ++
        hexId cid))
    else deserializeFields buf c.fields 4

def dispatch (schema : List Constructor) (data : Bytes) : Result Message :=
  if data.length < 4 then .error (.protocol "data too short for dispatch")
  else
    let cid := Lib.leNat (slice data 0 4)
    match schema.find? (fun c => c.id.toNat == cid) with
    | none => .error (.protocol ("unknown constructor id: " ++ hexId cid))
    | some c =>
      match deserialize c data with
      | .error err => .error err
      | .ok r => .ok ⟨c, r⟩

end Cypher.Proto
