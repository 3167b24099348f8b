import Cypher.Proto.Codec

/-!
# The decoder with its index checks

Indexing a slice outside its bounds panics, and so does `unwrap` after `try_into` on a slice of
another length. Here the decoder is written with these panics as `none`; the offsets are `usize`,
which holds every sum that occurs on a 64-bit machine.
-/

namespace Cypher.Proto

def slice? (buf : Bytes) (start stop : Nat) : Option Bytes :=
  if start ≤ stop ∧ stop ≤ buf.length then some (slice buf start stop) else none

/-- `[buf[start], buf[start + 1], ..]`: `n` single bytes. -/
def bytesAt? (buf : Bytes) (start n : Nat) : Option Bytes :=
  (List.range' start n).mapM (buf[·]?)

/-- `uN::from_le_bytes(buf[start..stop].try_into().unwrap())` for a number of `k` bytes. -/
def fromLeBytes? (k : Nat) (buf : Bytes) (start stop : Nat) : Option Nat := do
  let bytes ← slice? buf start stop
  if bytes.length = k then some (Lib.leNat bytes) else none

def decodeBytes? (buf : Bytes) (offset : Nat) : Option (Result (Bytes × Nat)) :=
  if offset + 4 > buf.length then some (.error (.protocol "truncated bytes length"))
  else do
    let len ← fromLeBytes? 4 buf offset (offset + 4)
    let dataStart := offset + 4
    let dataEnd := dataStart + len
    if dataEnd > buf.length then some (.error (.protocol "truncated bytes data"))
    else do
      let data ← slice? buf dataStart dataEnd
      some (.ok (data, dataEnd + padding len))

def decodeString? (buf : Bytes) (offset : Nat) : Option (Result (Utf8 × Nat)) := do
  match ← decodeBytes? buf offset with
  | .error err => some (.error err)
  | .ok (bytes, newOffset) =>
    match h : Lib.validateUtf8 bytes with
    | some e => some (.error (.protocol ("invalid UTF-8 string: " ++ e.text)))
    | none => some (.ok (⟨bytes, h⟩, newOffset))

def deserializeField? (name : String) (buf : Bytes) (offset : Nat) :
    (ty : FieldType) → Option (Result (ty.Value × Nat))
  | .int =>
    if offset + 4 > buf.length then some (.error (.protocol ("truncated " ++ name)))
    else do
      let n ← fromLeBytes? 4 buf offset (offset + 4)
      some (.ok (UInt32.ofNat n, offset + 4))
  | .long =>
    if offset + 8 > buf.length then some (.error (.protocol ("truncated " ++ name)))
    else do
      let n ← fromLeBytes? 8 buf offset (offset + 8)
      some (.ok (UInt64.ofNat n, offset + 8))
  | .bytes => decodeBytes? buf offset
  | .string => decodeString? buf offset

def deserializeFields? (buf : Bytes) :
    (fields : List Field) → Nat → Option (Result (Record fields))
  | [], _ => some (.ok ())
  | f :: rest, offset => do
    match ← deserializeField? f.name buf offset f.ty with
    | .error err => some (.error err)
    | .ok (v, offset) =>
      match ← deserializeFields? (bufferAfter f v buf) rest offset with
      | .error err => some (.error err)
      | .ok r => some (.ok (v, r))

def deserialize? (c : Constructor) (buf : Bytes) : Option (Result (Record c.fields)) :=
  if buf.length < 4 then some (.error (.protocol "data too short"))
  else do
    let cid ← fromLeBytes? 4 buf 0 4
    if cid ≠ c.id.toNat then
      some (.error (.protocol ("wrong constructor id: expected " ++ hexId c.id.toNat ++ ", got " ++
        hexId cid)))
    else deserializeFields? buf c.fields 4

def dispatch? (schema : List Constructor) (data : Bytes) : Option (Result Message) :=
  if data.length < 4 then some (.error (.protocol "data too short for dispatch"))
  else do
    let cid ← fromLeBytes? 4 data 0 4
    match schema.find? (fun c => c.id.toNat == cid) with
    | none => some (.error (.protocol ("unknown constructor id: " ++ hexId cid)))
    | some c =>
      match ← deserialize? c data with
      | .error err => some (.error err)
      | .ok r => some (.ok ⟨c, r⟩)

/-! ## No index check fails -/

section

variable {buf : Bytes} {offset : Nat}

theorem slice?_of_le {start stop : Nat} (h : start ≤ stop) (hstop : stop ≤ buf.length) :
    slice? buf start stop = some (slice buf start stop) :=
  if_pos ⟨h, hstop⟩

theorem bytesAt?_of_le {start n : Nat} (h : start + n ≤ buf.length) :
    bytesAt? buf start n = some (slice buf start (start + n)) := by
  induction n generalizing start with
  | zero =>
    rw [bytesAt?, List.range'_zero, slice, Nat.add_zero, Nat.sub_self, List.take_zero]
    rfl
  | succ n ih =>
    have hstart : start < buf.length := by omega
    have hrest : bytesAt? buf (start + 1) n = some (slice buf (start + 1) (start + 1 + n)) :=
      ih (by omega)
    have hslice : slice buf start (start + (n + 1)) =
        buf[start] :: slice buf (start + 1) (start + 1 + n) := by
      rw [slice, slice, List.drop_eq_getElem_cons hstart, Nat.add_sub_cancel_left,
        Nat.add_sub_cancel_left, List.take_succ_cons]
    rw [bytesAt?] at hrest ⊢
    rw [List.range'_succ, List.mapM_cons, hrest, hslice, List.getElem?_eq_getElem hstart]
    rfl

theorem fromLeBytes?_of_le {k : Nat} (h : offset + k ≤ buf.length) :
    fromLeBytes? k buf offset (offset + k) = some (Lib.leNat (slice buf offset (offset + k))) := by
  have hlen : (slice buf offset (offset + k)).length = k := by
    rw [slice, List.length_take, List.length_drop]
    omega
  rw [fromLeBytes?, slice?_of_le (by omega) h]
  exact if_pos hlen

theorem decodeBytes?_eq (buf : Bytes) (offset : Nat) :
    decodeBytes? buf offset = some (decodeBytes buf offset) := by
  unfold decodeBytes? decodeBytes
  by_cases hlen : offset + 4 > buf.length
  · rw [if_pos hlen, if_pos hlen]
  · rw [if_neg hlen, if_neg hlen, fromLeBytes?_of_le (by omega)]
    dsimp only [Option.bind_eq_bind, Option.bind_some]
    by_cases hend : offset + 4 + Lib.leNat (slice buf offset (offset + 4)) > buf.length
    · rw [if_pos hend, if_pos hend]
    · rw [if_neg hend, if_neg hend, slice?_of_le (by omega) (by omega)]
      rfl

section

variable {buf : Bytes} {offset : Nat} {out : Bytes × Nat} (hout : decodeBytes buf offset = .ok out)

include hout in
theorem decodeString_of_invalid {e : Lib.Utf8Error} (he : Lib.validateUtf8 out.1 = some e) :
    decodeString buf offset = .error (.protocol ("invalid UTF-8 string: " ++ e.text)) ∧
      decodeString? buf offset =
        some (.error (.protocol ("invalid UTF-8 string: " ++ e.text))) := by
  constructor
  · unfold decodeString
    rw [hout]
    dsimp only
    split
    · next e' he' =>
      cases he.symm.trans he'
      rfl
    · next he' => cases he.symm.trans he'
  · unfold decodeString?
    rw [decodeBytes?_eq, hout]
    dsimp only [Option.bind_eq_bind, Option.bind_some]
    split
    · next e' he' =>
      cases he.symm.trans he'
      rfl
    · next he' => cases he.symm.trans he'

include hout in
theorem decodeString_of_valid (he : Lib.validateUtf8 out.1 = none) :
    decodeString buf offset = .ok (⟨out.1, he⟩, out.2) ∧
      decodeString? buf offset = some (.ok (⟨out.1, he⟩, out.2)) := by
  constructor
  · unfold decodeString
    rw [hout]
    dsimp only
    split
    · next e' he' => cases he.symm.trans he'
    · rfl
  · unfold decodeString?
    rw [decodeBytes?_eq, hout]
    dsimp only [Option.bind_eq_bind, Option.bind_some]
    split
    · next e' he' => cases he.symm.trans he'
    · rfl

end

theorem decodeString?_eq (buf : Bytes) (offset : Nat) :
    decodeString? buf offset = some (decodeString buf offset) := by
  cases hout : decodeBytes buf offset with
  | error err =>
    unfold decodeString? decodeString
    rw [decodeBytes?_eq, hout]
    rfl
  | ok out =>
    cases he : Lib.validateUtf8 out.1 with
    | some e =>
      obtain ⟨hplain, hchecked⟩ := decodeString_of_invalid hout he
      rw [hplain, hchecked]
    | none =>
      obtain ⟨hplain, hchecked⟩ := decodeString_of_valid hout he
      rw [hplain, hchecked]

theorem deserializeField?_eq (name : String) (buf : Bytes) (offset : Nat) (ty : FieldType) :
    deserializeField? name buf offset ty = some (deserializeField name buf offset ty) := by
  cases ty with
  | int =>
    dsimp only [deserializeField?, deserializeField]
    by_cases hlen : offset + 4 > buf.length
    · rw [if_pos hlen, if_pos hlen]
    · rw [if_neg hlen, if_neg hlen, fromLeBytes?_of_le (by omega)]
      rfl
  | long =>
    dsimp only [deserializeField?, deserializeField]
    by_cases hlen : offset + 8 > buf.length
    · rw [if_pos hlen, if_pos hlen]
    · rw [if_neg hlen, if_neg hlen, fromLeBytes?_of_le (by omega)]
      rfl
  | bytes => exact decodeBytes?_eq buf offset
  | string => exact decodeString?_eq buf offset

/-- `decode_bytes` may hand on an offset past the end; the next field checks it again. -/
theorem deserializeFields?_eq (buf : Bytes) (fields : List Field) (offset : Nat) :
    deserializeFields? buf fields offset = some (deserializeFields buf fields offset) := by
  induction fields generalizing buf offset with
  | nil => rfl
  | cons f rest ih =>
    rw [deserializeFields?, deserializeFields, deserializeField?_eq]
    cases deserializeField f.name buf offset f.ty with
    | error err => rfl
    | ok out =>
      dsimp only [Option.bind_eq_bind, Option.bind_some]
      rw [ih]
      cases deserializeFields (bufferAfter f out.1 buf) rest out.2 <;> rfl

theorem deserialize?_eq (c : Constructor) (buf : Bytes) :
    deserialize? c buf = some (deserialize c buf) := by
  unfold deserialize? deserialize
  by_cases hlen : buf.length < 4
  · rw [if_pos hlen, if_pos hlen]
  · rw [if_neg hlen, if_neg hlen, fromLeBytes?_of_le (by omega)]
    dsimp only [Option.bind_eq_bind, Option.bind_some]
    split
    · rfl
    · exact deserializeFields?_eq buf c.fields 4

/-- `dispatch` does not panic, whatever the schema and the bytes. -/
theorem dispatch?_eq (schema : List Constructor) (data : Bytes) :
    dispatch? schema data = some (dispatch schema data) := by
  unfold dispatch? dispatch
  by_cases hlen : data.length < 4
  · rw [if_pos hlen, if_pos hlen]
  · rw [if_neg hlen, if_neg hlen, fromLeBytes?_of_le (by omega)]
    dsimp only [Option.bind_eq_bind, Option.bind_some]
    cases schema.find? (fun c => c.id.toNat == Lib.leNat (slice data 0 (0 + 4))) with
    | none => rfl
    | some c =>
      dsimp only
      rw [deserialize?_eq]
      cases deserialize c data <;> rfl

end

end Cypher.Proto
