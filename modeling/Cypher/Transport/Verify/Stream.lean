import Cypher.Lib.Stream
import Cypher.Transport.Codec

/-!
# Framing of the byte stream

The frames that `encode` accepts are self-delimiting for `decode`: the length prefix of an accepted
frame lies between the header size and the maximum, so a whole frame is decoded, and on every proper
part of one `decode` waits, whether the cut is in the prefix or behind it. What a reader makes of any
segmentation of the stream is then the library's `SelfDelimiting.read_eq`.
-/

namespace Cypher.Transport

def Accepted (item : Frame) : Prop :=
  headerSize + item.payload.length ≤ maxFrameSize

def frameBody (item : Frame) : Bytes :=
  toBeBytes32 item.seqNo.toNat ++ (toBeBytes32 item.ack.toNat ++ ([item.flags] ++ item.payload))

def frameBytes (item : Frame) : Bytes :=
  toBeBytes32 (headerSize + item.payload.length) ++ frameBody item

theorem encode_of_accepted {item : Frame} (h : Accepted item) (dst : Bytes) :
    encode item dst = .ok (dst ++ frameBytes item) := by
  simp only [encode, if_neg (Nat.not_lt.mpr h), frameBytes, frameBody, List.append_assoc]

theorem accepted_of_encode {item : Frame} {dst out : Bytes} (h : encode item dst = .ok out) :
    Accepted item := by
  by_contra hlarge
  simp only [encode, if_pos (Nat.lt_of_not_le hlarge)] at h
  cases h

theorem encodeAll_eq_ok {frames : List Frame} {dst wire : Bytes}
    (h : encodeAll frames dst = .ok wire) :
    (∀ item ∈ frames, Accepted item) ∧ wire = dst ++ frames.flatMap frameBytes := by
  induction frames generalizing dst with
  | nil =>
    cases h
    simp
  | cons item rest ih =>
    rw [encodeAll] at h
    cases hitem : encode item dst with
    | error err =>
      rw [hitem] at h
      cases h
    | ok out =>
      rw [hitem] at h
      have haccepted := accepted_of_encode hitem
      rw [encode_of_accepted haccepted] at hitem
      cases hitem
      obtain ⟨hrest, rfl⟩ := ih h
      refine ⟨List.forall_mem_cons.mpr ⟨haccepted, hrest⟩, ?_⟩
      rw [List.flatMap_cons, List.append_assoc]

/-! ## Decoding -/

theorem frameBody_length (item : Frame) :
    (frameBody item).length = headerSize + item.payload.length := by
  simp only [frameBody, List.length_append, toBeBytes32_length, List.length_cons, List.length_nil,
    headerSize]
  omega

theorem getU32_append (n : UInt32) (rest : Bytes) :
    getU32 (toBeBytes32 n.toNat ++ rest) = (n, rest) := by
  rw [getU32, List.take_left' (toBeBytes32_length _), List.drop_left' (toBeBytes32_length _),
    fromBeBytes32_toBeBytes32 n.toNat_lt, UInt32.ofNat_toNat]

theorem getU8_cons (b : UInt8) (rest : Bytes) : getU8 (b :: rest) = (b, rest) :=
  rfl

theorem decode_length_append {length : Nat} (hlow : headerSize ≤ length)
    (hhigh : length ≤ maxFrameSize)
    (rest : Bytes) :
    decode (toBeBytes32 length ++ rest) =
      if rest.length < length then .ok none
      else
        let (seqNo, rest) := getU32 rest
        let (ack, rest) := getU32 rest
        let (flags, rest) := getU8 rest
        .ok (some (⟨seqNo, ack, flags, rest.take (length - headerSize)⟩,
          rest.drop (length - headerSize))) := by
  have hlt : length < 2 ^ 32 := by
    rw [maxFrameSize] at hhigh
    omega
  have hlen : (toBeBytes32 length ++ rest).length = 4 + rest.length := by
    rw [List.length_append, toBeBytes32_length]
  unfold decode
  rw [if_neg (by omega)]
  simp only [List.take_left' (toBeBytes32_length length), List.drop_left' (toBeBytes32_length length),
    fromBeBytes32_toBeBytes32 hlt, if_neg (Nat.not_lt.mpr hlow), if_neg (Nat.not_lt.mpr hhigh), hlen,
    Nat.add_lt_add_iff_left]

theorem decode_frameBytes {item : Frame} (h : Accepted item) (rest : Bytes) :
    decode (frameBytes item ++ rest) = .ok (some (item, rest)) := by
  rw [frameBytes, List.append_assoc, decode_length_append (Nat.le_add_right _ _) h, if_neg (by
    rw [List.length_append, frameBody_length]
    omega)]
  simp only [frameBody, List.append_assoc, getU32_append, List.cons_append, List.nil_append,
    getU8_cons, Nat.add_sub_cancel_left, List.take_left, List.drop_left]

theorem decode_of_short {buf : Bytes} (h : buf.length < 4) : decode buf = .ok none :=
  if_pos h

theorem decode_part {item : Frame} (h : Accepted item) {part rest : Bytes}
    (hpart : part ++ rest = frameBytes item) (hrest : rest ≠ []) : decode part = .ok none := by
  have hpos := List.length_pos_iff.mpr hrest
  by_cases hshort : part.length < 4
  · exact decode_of_short hshort
  · -- The part holds the whole prefix, but not all the bytes that it announces.
    have hhead : toBeBytes32 (headerSize + item.payload.length) <+: part := by
      apply List.prefix_of_prefix_length_le (List.prefix_append _ (frameBody item))
      · exact ⟨rest, hpart⟩
      · rw [toBeBytes32_length]
        omega
    obtain ⟨body, rfl⟩ := hhead
    have hlen := congrArg List.length hpart
    simp only [frameBytes, List.length_append, toBeBytes32_length, frameBody_length] at hlen
    rw [decode_length_append (Nat.le_add_right _ _) h, if_pos (by omega)]

theorem decode_consumes {buf rest : Bytes} {item : Frame}
    (h : decode buf = .ok (some (item, rest))) : rest.length < buf.length := by
  unfold decode at h
  by_cases hshort : buf.length < 4
  · rw [if_pos hshort] at h
    cases h
  · rw [if_neg hshort] at h
    dsimp only at h
    split at h
    · cases h
    · split at h
      · cases h
      · split at h
        · cases h
        · simp only [getU32, getU8, Except.ok.injEq, Option.some.injEq, Prod.mk.injEq] at h
          rw [← h.2]
          simp only [List.length_drop]
          omega

def codec : Lib.Decoder UInt8 Frame String where
  decode := decode
  consumes := decode_consumes

theorem codec_selfDelimiting : Lib.SelfDelimiting codec frameBytes Accepted where
  whole := decode_frameBytes
  cut := decode_part
  nil := rfl

/-- However the encodings of frames are cut into segments, the reader yields the frames, in order,
without an error and with an empty buffer at the end. -/
theorem framing_exact {frames : List Frame} {wire : Bytes} (hwire : encodeAll frames [] = .ok wire)
    {segments : List Bytes} (hcut : segments.flatten = wire) :
    codec.read segments [] = .ok (frames, []) := by
  obtain ⟨haccepted, hbytes⟩ := encodeAll_eq_ok hwire
  rw [List.nil_append] at hbytes
  exact codec_selfDelimiting.read_eq haccepted (hcut.trans hbytes)

/-- Two frames, cut inside a prefix, inside a header and inside a payload. -/
theorem framing_exact_two :
    codec.read [[0, 0], [0, 11, 0, 0, 0], [], [1, 0, 0, 0, 0, 2, 7], [8, 0, 0, 0, 9, 0, 0, 0, 2,
      0, 0, 0, 1, 8]] [] = .ok ([⟨1, 0, 2, [7, 8]⟩, ⟨2, 1, 8, []⟩], []) :=
  framing_exact (show encodeAll [⟨1, 0, 2, [7, 8]⟩, ⟨2, 1, 8, []⟩] [] = .ok [0, 0, 0, 11, 0, 0, 0, 1,
    0, 0, 0, 0, 2, 7, 8, 0, 0, 0, 9, 0, 0, 0, 2, 0, 0, 0, 1, 8] by decide +kernel) (by decide)

end Cypher.Transport
