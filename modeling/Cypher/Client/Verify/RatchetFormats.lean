import Cypher.Client.Verify.Store

/-!
# The formats of a stored ratchet state

A payload is told by its first byte: 0x00 for the plain serialisation, 0x01 for a compressed one, and
anything else is taken for the older format, which is a bare zstd frame. The first two are written by
`save_ratchet_state`, on either side of 1024 bytes; the third is not taken for one of them because a
zstd frame starts with 0x28.
-/

namespace Cypher.Client

open Crypto Transfer

theorem RatchetCodec.ofPostcard_inverts {postcard : Postcard} (h : postcard.Inverts) :
    (RatchetCodec.ofPostcard postcard).Inverts := by
  intro state data hdata
  have hread := h _ _ hdata
  unfold RatchetCodec.ofPostcard
  dsimp only
  rw [hread, Except.map, RatchetState.ofSerializable_toSerializable]

def ZstdMagic (zstd : Zstd) : Prop :=
  ∀ data encoded, zstd.encodeAll data = .ok encoded → ∃ rest, encoded = 0x28 :: rest

/-- The store over the byte-level primitives and `postcard`. -/
def postcardSuite (P : Primitives) (zstd : Zstd) (postcard : Postcard) (sek : Array32)
    (foreignKeys : Bool) : StoreSuite Array32 Array32 :=
  ⟨P, zstd, .ofPostcard postcard, sek, foreignKeys⟩

namespace Store

variable {Key Secret : Type} {E : StoreSuite Key Secret} {store : Store} {peer : PeerId}
  {state : RatchetState Key Secret} {nonce : Bytes} {now : Nat} {io : StoreIo}

theorem saveRatchetState_eq_ok_iff :
    (store.saveRatchetState E peer state nonce now io).2 = .ok () ↔
      (∃ blob, E.ratchetBlob nonce state = .ok blob) ∧ io.Succeeds 2 := by
  unfold saveRatchetState
  cases E.ratchetBlob nonce state with
  | error err =>
    refine iff_of_false (fun h => nomatch h) ?_
    rintro ⟨⟨blob, hblob⟩, -⟩
    cases hblob
  | ok blob =>
    rw [andThen_statement (locked_succeeds store), and_iff_right ⟨blob, rfl⟩]

theorem loadRatchetState_of_row {row : RatchetRow} (hrow : ratchet peer store = some row)
    (hstate : E.ratchetOfBlob row.stateBlob row.nonce = .ok state) :
    store.loadRatchetState E peer .ok = .ok (some state) := by
  have hlookup : store.ratchetState.lookup peer.val = some row := hrow
  unfold loadRatchetState
  dsimp only
  rw [hlookup]
  dsimp only
  rw [hstate]
  rfl

theorem loadRatchetState_saveRatchetState (hgcm : E.primitives.AesGcmInverts)
    (hzstd : E.zstd.Inverts) (hcodec : E.codec.Inverts)
    (hok : (store.saveRatchetState E peer state nonce now io).2 = .ok ()) :
    (store.saveRatchetState E peer state nonce now io).1.loadRatchetState E peer .ok =
      .ok (some state) := by
  obtain ⟨blob, hblob, hrow⟩ := ratchet_saveRatchetState hok
  exact loadRatchetState_of_row hrow (ratchetOfBlob_ratchetBlob hgcm hzstd hcodec hblob)

theorem ratchetSerialized_frame (hzstd : E.zstd.Inverts) (hmagic : ZstdMagic E.zstd)
    {serialized compressed : Bytes} (h : E.zstd.encodeAll serialized = .ok compressed) :
    E.ratchetSerialized compressed = .ok serialized := by
  obtain ⟨rest, rfl⟩ := hmagic _ _ h
  exact mapError_eq_ok_iff.mpr (hzstd _ _ h)

theorem ratchetOfBlob_legacy (hgcm : E.primitives.AesGcmInverts) (hzstd : E.zstd.Inverts)
    (hmagic : ZstdMagic E.zstd) (hcodec : E.codec.Inverts) {serialized compressed blob : Bytes}
    (hserialized : E.codec.serialize state = .ok serialized)
    (hcompressed : E.zstd.encodeAll serialized = .ok compressed)
    (hblob : E.encrypt nonce compressed = .ok blob) : E.ratchetOfBlob blob nonce = .ok state := by
  exact bind_eq_ok_iff.mpr ⟨compressed, decrypt_encrypt hgcm hblob, bind_eq_ok_iff.mpr
    ⟨serialized, ratchetSerialized_frame hzstd hmagic hcompressed,
      deserialize_serialize hcodec hserialized⟩⟩

end Store

/-- **Every format of a stored ratchet state loads back.** A state that `save_ratchet_state` accepts,
whatever its size, is the one that `load_ratchet_state` returns; and so is the state of a row that
holds the encryption of its bare compressed serialisation. -/
theorem ratchet_formats_load (P : Primitives) (zstd : Zstd) (postcard : Postcard) (sek : Array32)
    (foreignKeys : Bool) (hgcm : P.AesGcmInverts) (hzstd : zstd.Inverts) (hmagic : ZstdMagic zstd)
    (hpostcard : postcard.Inverts) (store : Store) (peer : PeerId)
    (state : RatchetState Array32 Array32) (nonce : Bytes) (now : Nat) (io : StoreIo) :
    let E := postcardSuite P zstd postcard sek foreignKeys
    let saved := store.saveRatchetState E peer state nonce now io
    (saved.2 = .ok () ↔ (∃ blob, E.ratchetBlob nonce state = .ok blob) ∧ io.Succeeds 2) ∧
      (saved.2 = .ok () → saved.1.loadRatchetState E peer .ok = .ok (some state)) ∧
      ∀ serialized compressed blob, E.codec.serialize state = .ok serialized →
        zstd.encodeAll serialized = .ok compressed → E.encrypt nonce compressed = .ok blob →
        store.ratchetState.lookup peer.val = some ⟨blob, nonce, now⟩ →
        store.loadRatchetState E peer .ok = .ok (some state) := by
  have hcodec := RatchetCodec.ofPostcard_inverts hpostcard
  refine ⟨Store.saveRatchetState_eq_ok_iff,
    Store.loadRatchetState_saveRatchetState hgcm hzstd hcodec, ?_⟩
  intro serialized compressed blob hserialized hcompressed hblob hrow
  exact Store.loadRatchetState_of_row hrow
    (Store.ratchetOfBlob_legacy hgcm hzstd hmagic hcodec hserialized hcompressed hblob)

/-- Frames that hold their data as it is. -/
def framedZstd : Zstd where
  encodeAll data := .ok (0x28 :: data)
  decodeAll
    | 0x28 :: data => .ok data
    | _ => .error "Unknown frame descriptor"

theorem framedZstd_inverts : framedZstd.Inverts := by
  intro data encoded h
  cases h
  rfl

theorem framedZstd_magic : ZstdMagic framedZstd := by
  intro data encoded h
  cases h
  exact ⟨data, rfl⟩

/-- A state that is serialised into one byte, and one into 1024. -/
def shortState : RatchetState Array32 Array32 :=
  .initReceiver Primitives.additive.suite (.ofNat 1) (.ofNat 3)

def longState : RatchetState Array32 Array32 :=
  .initReceiver Primitives.additive.suite (.ofNat 2) (.ofNat 3)

def twoStates : Postcard where
  toAllocvec s :=
    if s = shortState.toSerializable then .ok [7]
    else if s = longState.toSerializable then .ok (List.replicate 1024 8)
    else .error "SerializeBufferFull"
  fromBytes
    | [] => .error "Hit the end of buffer, expected more data"
    | b :: _ => .ok (if b = 7 then shortState.toSerializable else longState.toSerializable)

theorem twoStates_inverts : twoStates.Inverts := by
  intro s data h
  unfold twoStates at h
  dsimp only at h
  split at h
  · next hshort =>
    cases h
    rw [hshort]
    rfl
  · split at h
    · next hlong =>
      cases h
      rw [hlong]
      rfl
    · cases h

def twoStatesSuite : StoreSuite Array32 Array32 :=
  postcardSuite .additive framedZstd twoStates (.ofNat 2) true

/-- Both sides of the threshold, and a row with a bare frame. -/
theorem ratchet_formats_load_both :
    ((Store.empty.saveRatchetState twoStatesSuite (.ofNat 1) shortState (List.replicate 12 0) 100
        Store.noFailure).1.loadRatchetState twoStatesSuite (.ofNat 1) .ok =
      .ok (some shortState)) ∧
    ((Store.empty.saveRatchetState twoStatesSuite (.ofNat 1) longState (List.replicate 12 0) 100
        Store.noFailure).1.loadRatchetState twoStatesSuite (.ofNat 1) .ok =
      .ok (some longState)) ∧
    ∃ blob, twoStatesSuite.encrypt (List.replicate 12 0) [0x28, 7] = .ok blob ∧
      Store.loadRatchetState { Store.empty with
        ratchetState := Store.empty.ratchetState.insert (Array32.ofNat 1).val
          ⟨blob, List.replicate 12 0, 100⟩ } twoStatesSuite (.ofNat 1) .ok =
        .ok (some shortState) := by
  have hload := ratchet_formats_load .additive framedZstd twoStates (.ofNat 2) true
    Primitives.additive_inverts framedZstd_inverts framedZstd_magic twoStates_inverts
  refine ⟨?_, ?_, ?_⟩
  · exact (hload .empty (.ofNat 1) shortState (List.replicate 12 0) 100 Store.noFailure).2.1
      (by decide +kernel)
  · exact (hload .empty (.ofNat 1) longState (List.replicate 12 0) 100 Store.noFailure).2.1
      (by decide +kernel)
  · obtain ⟨blob, hblob⟩ : ∃ blob,
        twoStatesSuite.encrypt (List.replicate 12 0) [0x28, 7] = .ok blob := ⟨_, rfl⟩
    refine ⟨blob, hblob, ?_⟩
    exact (hload _ (.ofNat 1) shortState (List.replicate 12 0) 100 Store.noFailure).2.2 [7] [0x28, 7]
      blob rfl rfl hblob (AList.lookup_insert _)

end Cypher.Client
