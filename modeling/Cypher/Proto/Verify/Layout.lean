import Cypher.Lib.Template
import Cypher.Proto.Schema

/-!
# What the decoder reads

The layout of a message is its encoding with the alignment padding left free. `dispatch` returns a
message exactly on the byte strings that fit its layout (`dispatch_eq_ok_iff`), provided that no
`Bytes` or `String` field is too long for its length prefix. The proof goes field by field: a field
is read at the offset the encoder reached, and the offset it hands on is the one the encoder goes on
from.
-/

namespace Cypher.Proto

/-! ## Layouts -/

/-- `encode_bytes` with the padding left free. -/
def layoutBytes (data : Bytes) : List (Option UInt8) :=
  (Lib.leBytes 4 data.length).map some ++ data.map some ++
    List.replicate (padding data.length) none

def layoutField : (ty : FieldType) → ty.Value → List (Option UInt8)
  | .int, (n : UInt32) => (Lib.leBytes 4 n.toNat).map some
  | .long, (n : UInt64) => (Lib.leBytes 8 n.toNat).map some
  | .bytes, (b : Bytes) => layoutBytes b
  | .string, (s : Utf8) => layoutBytes s.val

def layoutFields : (fields : List Field) → Record fields → List (Option UInt8)
  | [], _ => []
  | f :: rest, (v, r) => layoutField f.ty v ++ layoutFields rest r

def Message.layout (m : Message) : List (Option UInt8) :=
  (Lib.leBytes 4 m.ctor.id.toNat).map some ++ layoutFields m.ctor.fields m.fields

/-- Position `i` of `m.serialize` is an alignment padding byte. -/
def Message.IsPadding (m : Message) (i : Nat) : Prop :=
  m.layout[i]? = some none

instance (m : Message) (i : Nat) : Decidable (m.IsPadding i) :=
  inferInstanceAs (Decidable (m.layout[i]? = some none))

theorem layoutBytes_fill (data : Bytes) :
    (layoutBytes data).map (·.getD 0) = encodeBytes data := by
  simp [layoutBytes, encodeBytes, Function.comp_def]

theorem layoutField_fill (ty : FieldType) (v : ty.Value) :
    (layoutField ty v).map (·.getD 0) = serializeField ty v := by
  cases ty with
  | int => simp [layoutField, serializeField, Function.comp_def]
  | long => simp [layoutField, serializeField, Function.comp_def]
  | bytes => exact layoutBytes_fill v
  | string => exact layoutBytes_fill v.val

theorem layoutFields_fill (fields : List Field) (r : Record fields) :
    (layoutFields fields r).map (·.getD 0) = serializeFields fields r := by
  induction fields with
  | nil => rfl
  | cons f rest ih =>
    obtain ⟨v, r⟩ := r
    rw [layoutFields, serializeFields, List.map_append, layoutField_fill, ih]

/-- The padding is what `serialize` fills with zeros. -/
theorem Message.layout_fill (m : Message) : m.layout.map (·.getD 0) = m.serialize := by
  rw [layout, List.map_append, layoutFields_fill]
  simp [Message.serialize, Proto.serialize, Function.comp_def]

/-! ## One field -/

/-- A length-prefixed value that fits its prefix. -/
def FieldType.Short : (ty : FieldType) → ty.Value → Prop
  | .int, _ => True
  | .long, _ => True
  | .bytes, (b : Bytes) => b.length < 2 ^ 32
  | .string, (s : Utf8) => s.val.length < 2 ^ 32

instance : (ty : FieldType) → (v : ty.Value) → Decidable (ty.Short v)
  | .int, _ => isTrue trivial
  | .long, _ => isTrue trivial
  | .bytes, (b : Bytes) => inferInstanceAs (Decidable (b.length < 2 ^ 32))
  | .string, (s : Utf8) => inferInstanceAs (Decidable (s.val.length < 2 ^ 32))

def RecordShort : (fields : List Field) → Record fields → Prop
  | [], _ => True
  | f :: rest, (v, r) => f.ty.Short v ∧ RecordShort rest r

instance decidableRecordShort :
    (fields : List Field) → (r : Record fields) → Decidable (RecordShort fields r)
  | [], _ => isTrue trivial
  | f :: rest, (v, r) =>
    have := decidableRecordShort rest r
    inferInstanceAs (Decidable (f.ty.Short v ∧ RecordShort rest r))

/-- Every `Bytes` and `String` field is shorter than `2 ^ 32` bytes. -/
def Message.Short (m : Message) : Prop :=
  RecordShort m.ctor.fields m.fields

instance (m : Message) : Decidable m.Short :=
  inferInstanceAs (Decidable (RecordShort m.ctor.fields m.fields))

section

variable {buf : Bytes} {offset : Nat}

theorem fits_leBytes_iff {k x : Nat} (hk : 0 < k) (hx : x < 256 ^ k) :
    Lib.Fits ((Lib.leBytes k x).map some) offset buf ↔
      offset + k ≤ buf.length ∧ Lib.leNat (slice buf offset (offset + k)) = x := by
  have hslice : slice buf offset (offset + k) = (buf.drop offset).take k := by
    rw [slice, Nat.add_sub_cancel_left]
  constructor
  · intro h
    have hne : Lib.leBytes k x ≠ [] := by
      apply List.ne_nil_of_length_pos
      rw [Lib.leBytes_length]
      exact hk
    have hlen := h.length_le hne
    rw [Lib.leBytes_length] at hlen
    refine ⟨hlen, ?_⟩
    rw [Lib.Fits.map_some_iff, Lib.leBytes_length] at h
    rw [hslice, h, Lib.leNat_leBytes hx]
  · rintro ⟨hlen, hval⟩
    have hsize : (slice buf offset (offset + k)).length = k := by
      rw [length_slice hlen]
      omega
    rw [Lib.leNat_eq_iff hsize hx, hslice] at hval
    rw [Lib.Fits.map_some_iff, Lib.leBytes_length, hval]

theorem fits_data_iff {data : Bytes} {start : Nat} (hstart : start ≤ buf.length) :
    Lib.Fits (data.map some) start buf ↔
      start + data.length ≤ buf.length ∧ slice buf start (start + data.length) = data := by
  rw [Lib.Fits.map_some_iff, slice, Nat.add_sub_cancel_left]
  constructor
  · intro h
    have hlen := congrArg List.length h
    rw [List.length_take, List.length_drop] at hlen
    exact ⟨by omega, h⟩
  · exact And.right

theorem layoutBytes_length (data : Bytes) :
    (layoutBytes data).length = 4 + data.length + padding data.length := by
  simp [layoutBytes, Nat.add_assoc]

theorem decodeBytes_eq_ok_iff {data : Bytes} {next : Nat} :
    decodeBytes buf offset = .ok (data, next) ↔
      data.length < 2 ^ 32 ∧ Lib.Fits (layoutBytes data) offset buf ∧
        next = offset + (layoutBytes data).length := by
  rw [layoutBytes_length, layoutBytes, Lib.Fits.append_iff, Lib.Fits.append_iff, List.length_map,
    Lib.leBytes_length]
  simp only [Lib.Fits.replicate_none, and_true]
  unfold decodeBytes
  dsimp only
  constructor
  · intro h
    by_cases hlen : offset + 4 > buf.length
    · rw [if_pos hlen] at h
      cases h
    · rw [if_neg hlen] at h
      by_cases hend : offset + 4 + Lib.leNat (slice buf offset (offset + 4)) > buf.length
      · rw [if_pos hend] at h
        cases h
      · rw [if_neg hend] at h
        simp only [Except.ok.injEq, Prod.mk.injEq] at h
        obtain ⟨hdata, hnext⟩ := h
        have hsize : data.length = Lib.leNat (slice buf offset (offset + 4)) := by
          rw [← hdata, length_slice (by omega)]
          omega
        have hshort : data.length < 2 ^ 32 := by
          have := Lib.leNat_lt (slice buf offset (offset + 4))
          rw [length_slice (by omega), Nat.add_sub_cancel_left] at this
          omega
        rw [← hsize] at hdata hend hnext
        refine ⟨hshort, ⟨?_, ?_⟩, by omega⟩
        · rw [fits_leBytes_iff (by decide) (by omega)]
          exact ⟨by omega, hsize.symm⟩
        · rw [fits_data_iff (by omega)]
          exact ⟨by omega, hdata⟩
  · rintro ⟨hshort, ⟨hlength, hdata⟩, hnext⟩
    rw [fits_leBytes_iff (by decide) (by omega)] at hlength
    obtain ⟨hlen, hsize⟩ := hlength
    rw [fits_data_iff hlen] at hdata
    obtain ⟨hend, hdata⟩ := hdata
    rw [if_neg (by omega), hsize, if_neg (by omega), hdata]
    rw [show offset + 4 + data.length + padding data.length = next by omega]

theorem decodeString_eq_ok_iff {s : Utf8} {next : Nat} :
    decodeString buf offset = .ok (s, next) ↔ decodeBytes buf offset = .ok (s.val, next) := by
  unfold decodeString
  cases hdec : decodeBytes buf offset with
  | error err => simp
  | ok out =>
    obtain ⟨bytes, newOffset⟩ := out
    dsimp only
    split
    · next e he =>
      simp only [reduceCtorEq, Except.ok.injEq, Prod.mk.injEq, false_iff, not_and]
      rintro rfl
      rw [s.property] at he
      cases he
    · next he =>
      simp only [Except.ok.injEq, Prod.mk.injEq, Subtype.ext_iff]

theorem fixedWidth_eq_ok_iff {α : Type} {k : Nat} {toNat : α → Nat} {ofNat : Nat → α}
    (hof : ∀ n < 256 ^ k, ∀ v, ofNat n = v ↔ n = toNat v) {err : Error} {v : α} {next : Nat} :
    (if offset + k > buf.length then .error err
      else .ok (ofNat (Lib.leNat (slice buf offset (offset + k))), offset + k) : Result (α × Nat)) =
        .ok (v, next) ↔
      (offset + k ≤ buf.length ∧ Lib.leNat (slice buf offset (offset + k)) = toNat v) ∧
        next = offset + k := by
  by_cases hlen : offset + k > buf.length
  · rw [if_pos hlen]
    simp only [reduceCtorEq, false_iff]
    omega
  · have hsize := Lib.leNat_lt (slice buf offset (offset + k))
    rw [length_slice (by omega), Nat.add_sub_cancel_left] at hsize
    rw [if_neg hlen]
    simp only [Except.ok.injEq, Prod.mk.injEq, hof _ hsize, Nat.not_lt.mp hlen, true_and,
      eq_comm (a := next)]

theorem deserializeInt_eq_ok_iff {name : String} {v : UInt32} {next : Nat} :
    deserializeField name buf offset .int = .ok (v, next) ↔
      (offset + 4 ≤ buf.length ∧ Lib.leNat (slice buf offset (offset + 4)) = v.toNat) ∧
        next = offset + 4 := by
  have hof : ∀ n < 256 ^ 4, ∀ v : UInt32, UInt32.ofNat n = v ↔ n = v.toNat := by
    intro n hn v
    rw [← UInt32.toNat_inj, UInt32.toNat_ofNat_of_lt' hn]
  exact fixedWidth_eq_ok_iff hof

theorem deserializeLong_eq_ok_iff {name : String} {v : UInt64} {next : Nat} :
    deserializeField name buf offset .long = .ok (v, next) ↔
      (offset + 8 ≤ buf.length ∧ Lib.leNat (slice buf offset (offset + 8)) = v.toNat) ∧
        next = offset + 8 := by
  have hof : ∀ n < 256 ^ 8, ∀ v : UInt64, UInt64.ofNat n = v ↔ n = v.toNat := by
    intro n hn v
    rw [← UInt64.toNat_inj, UInt64.toNat_ofNat_of_lt' hn]
  exact fixedWidth_eq_ok_iff hof

theorem deserializeField_eq_ok_iff {name : String} {ty : FieldType} {v : ty.Value} {next : Nat} :
    deserializeField name buf offset ty = .ok (v, next) ↔
      ty.Short v ∧ Lib.Fits (layoutField ty v) offset buf ∧
        next = offset + (layoutField ty v).length := by
  cases ty with
  | int =>
    simp only [FieldType.Short, layoutField, true_and, List.length_map, Lib.leBytes_length]
    rw [fits_leBytes_iff (by decide) (UInt32.toNat_lt v)]
    exact deserializeInt_eq_ok_iff
  | long =>
    simp only [FieldType.Short, layoutField, true_and, List.length_map, Lib.leBytes_length]
    rw [fits_leBytes_iff (by decide) (UInt64.toNat_lt v)]
    exact deserializeLong_eq_ok_iff
  | bytes => exact decodeBytes_eq_ok_iff
  | string => exact decodeString_eq_ok_iff.trans decodeBytes_eq_ok_iff

end

/-! ## Records and messages -/

/-- No field takes the name of the parameter that holds the bytes. -/
def Hygienic (schema : List Constructor) : Prop :=
  ∀ c ∈ schema, ∀ f ∈ c.fields, f.name ≠ "__buf"

instance (schema : List Constructor) : Decidable (Hygienic schema) :=
  inferInstanceAs (Decidable (∀ c ∈ schema, ∀ f ∈ c.fields, f.name ≠ "__buf"))

theorem deserializeFields_cons_eq_ok_iff {f : Field} {rest : List Field} (hname : f.name ≠ "__buf")
    {buf : Bytes} {offset : Nat} {v : f.ty.Value} {r : Record rest} :
    deserializeFields buf (f :: rest) offset = .ok (v, r) ↔
      ∃ next, deserializeField f.name buf offset f.ty = .ok (v, next) ∧
        deserializeFields buf rest next = .ok r := by
  rw [deserializeFields]
  cases deserializeField f.name buf offset f.ty with
  | error err => simp
  | ok out =>
    obtain ⟨v', next⟩ := out
    dsimp only
    rw [bufferAfter_of_name_ne hname]
    cases hrest : deserializeFields buf rest next with
    | error err =>
      simp only [reduceCtorEq, Except.ok.injEq, Prod.mk.injEq, false_iff, not_exists, not_and]
      rintro _ ⟨-, rfl⟩
      simp [hrest]
    | ok r' =>
      constructor
      · intro h
        cases h
        exact ⟨next, rfl, hrest⟩
      · rintro ⟨_, h, hr⟩
        cases h
        cases hrest.symm.trans hr
        rfl

theorem deserializeFields_eq_ok_iff {fields : List Field} (hname : ∀ f ∈ fields, f.name ≠ "__buf")
    {buf : Bytes} {offset : Nat} {r : Record fields} :
    deserializeFields buf fields offset = .ok r ↔
      RecordShort fields r ∧ Lib.Fits (layoutFields fields r) offset buf := by
  induction fields generalizing offset with
  | nil =>
    cases r
    simp [deserializeFields, RecordShort, layoutFields]
  | cons f rest ih =>
    obtain ⟨v, r⟩ := r
    obtain ⟨hf, hrest⟩ := List.forall_mem_cons.mp hname
    rw [deserializeFields_cons_eq_ok_iff hf, RecordShort, layoutFields, Lib.Fits.append_iff]
    constructor
    · rintro ⟨next, hfield, hfields⟩
      obtain ⟨hshort, hfits, rfl⟩ := deserializeField_eq_ok_iff.mp hfield
      obtain ⟨hshorts, hfitss⟩ := (ih hrest).mp hfields
      exact ⟨⟨hshort, hshorts⟩, hfits, hfitss⟩
    · rintro ⟨⟨hshort, hshorts⟩, hfits, hfitss⟩
      exact ⟨_, deserializeField_eq_ok_iff.mpr ⟨hshort, hfits, rfl⟩, (ih hrest).mpr ⟨hshorts, hfitss⟩⟩

theorem deserialize_eq_ok_iff {c : Constructor} (hname : ∀ f ∈ c.fields, f.name ≠ "__buf")
    {buf : Bytes} {r : Record c.fields} :
    deserialize c buf = .ok r ↔ Message.Short ⟨c, r⟩ ∧ Lib.Fits (Message.layout ⟨c, r⟩) 0 buf := by
  rw [Message.layout, Lib.Fits.append_iff, fits_leBytes_iff (by decide) c.id.toNat_lt, List.length_map,
    Lib.leBytes_length, Nat.zero_add]
  unfold deserialize
  by_cases hlen : buf.length < 4
  · rw [if_pos hlen]
    simp only [reduceCtorEq, false_iff]
    omega
  · by_cases hid : Lib.leNat (slice buf 0 4) = c.id.toNat
    · simp only [if_neg hlen, hid, ne_eq, not_true_eq_false, if_false]
      rw [deserializeFields_eq_ok_iff hname]
      exact ⟨fun h => ⟨h.1, ⟨by omega, trivial⟩, h.2⟩, fun h => ⟨h.1, h.2.2⟩⟩
    · simp only [if_neg hlen, ne_eq, hid, not_false_eq_true, if_true, reduceCtorEq, false_iff]
      tauto

/-- `dispatch` returns a message exactly on the byte strings that fit its layout. -/
theorem dispatch_eq_ok_iff {schema : List Constructor} (hname : Hygienic schema) {data : Bytes}
    {m : Message} :
    dispatch schema data = .ok m ↔
      schema.find? (fun c => c.id.toNat == m.ctor.id.toNat) = some m.ctor ∧ m.Short ∧
        Lib.Fits m.layout 0 data := by
  constructor
  · intro h
    unfold dispatch at h
    by_cases hlen : data.length < 4
    · rw [if_pos hlen] at h
      cases h
    · simp only [if_neg hlen] at h
      cases hfind : schema.find? (fun c => c.id.toNat == Lib.leNat (slice data 0 4)) with
      | none => simp [hfind] at h
      | some c =>
        simp only [hfind] at h
        cases hdes : deserialize c data with
        | error err => simp [hdes] at h
        | ok r =>
          simp only [hdes, Except.ok.injEq] at h
          subst h
          have hid := List.find?_some hfind
          rw [beq_iff_eq] at hid
          rw [← hid] at hfind
          have hc := hname c (List.mem_of_find?_eq_some hfind)
          exact ⟨hfind, (deserialize_eq_ok_iff hc).mp hdes⟩
  · rintro ⟨hfind, hshort, hfits⟩
    have hc := hname m.ctor (List.mem_of_find?_eq_some hfind)
    have hid := (Lib.Fits.append_iff.mp hfits).1
    rw [fits_leBytes_iff (by decide) m.ctor.id.toNat_lt, Nat.zero_add] at hid
    have hdes := (deserialize_eq_ok_iff hc).mpr ⟨hshort, hfits⟩
    simp only [dispatch, if_neg (Nat.not_lt.mpr hid.1), hid.2, hfind, hdes]

end Cypher.Proto
