import Cypher.Proto.Checked
import Cypher.Proto.Fields
import Cypher.Proto.Verify.Layout

/-!
# Round trip and acceptance

Both directions of `dispatch_eq_ok_iff`. A serialized message fits its own layout, so it is read back
(`dispatch_serialize`). What `dispatch` accepts fits the layout of the message it returns, so it has
every byte of the encoding but the padding (`accepts_only_encodings`).
-/

namespace Cypher.Proto

theorem find_of_mem {schema : List Constructor} (hids : (schema.map (·.id)).Nodup)
    {c : Constructor} (hc : c ∈ schema) :
    schema.find? (fun d => d.id.toNat == c.id.toNat) = some c := by
  induction schema with
  | nil => cases hc
  | cons d rest ih =>
    rw [List.map_cons, List.nodup_cons] at hids
    rcases List.mem_cons.mp hc with rfl | hrest
    · simp
    · have hne : d.id ≠ c.id := by
        intro heq
        apply hids.1
        rw [heq]
        exact List.mem_map_of_mem hrest
      have hbeq : (d.id.toNat == c.id.toNat) = false := by
        rw [beq_eq_false_iff_ne, ne_eq, UInt32.toNat_inj]
        exact hne
      rw [List.find?_cons, hbeq]
      exact ih hids.2 hrest

theorem fits_serialize (m : Message) : Lib.Fits m.layout 0 m.serialize := by
  rw [← m.layout_fill]
  exact Lib.Fits.fill 0

theorem dispatch_of_fits {schema : List Constructor} (hids : (schema.map (·.id)).Nodup)
    (hname : Hygienic schema) {m : Message} (hm : m.ctor ∈ schema) (hshort : m.Short)
    {data : Bytes} (hfits : Lib.Fits m.layout 0 data) : dispatch schema data = .ok m :=
  (dispatch_eq_ok_iff hname).mpr ⟨find_of_mem hids hm, hshort, hfits⟩

theorem dispatch_eq_ok_iff_fields {schema : List Constructor} (hids : (schema.map (·.id)).Nodup)
    (hname : Hygienic schema) {m : Message} {data : Bytes} :
    dispatch schema data = .ok m ↔
      m.ctor ∈ schema ∧ 4 ≤ data.length ∧ Lib.leNat (slice data 0 4) = m.ctor.id.toNat ∧
        deserializeFields data m.ctor.fields 4 = .ok m.fields := by
  have hfits : Lib.Fits m.layout 0 data ↔ (4 ≤ data.length ∧
      Lib.leNat (slice data 0 4) = m.ctor.id.toNat) ∧
        Lib.Fits (layoutFields m.ctor.fields m.fields) 4 data := by
    rw [Message.layout, Lib.Fits.append_iff, fits_leBytes_iff (by decide) m.ctor.id.toNat_lt,
      List.length_map, Lib.leBytes_length, Nat.zero_add]
  rw [dispatch_eq_ok_iff hname, hfits]
  constructor
  · rintro ⟨hfind, hshort, ⟨hlen, hid⟩, hfields⟩
    have hm := List.mem_of_find?_eq_some hfind
    exact ⟨hm, hlen, hid, (deserializeFields_eq_ok_iff (hname _ hm)).mpr ⟨hshort, hfields⟩⟩
  · rintro ⟨hm, hlen, hid, hdes⟩
    obtain ⟨hshort, hfields⟩ := (deserializeFields_eq_ok_iff (hname _ hm)).mp hdes
    exact ⟨find_of_mem hids hm, hshort, ⟨hlen, hid⟩, hfields⟩

theorem coreP2p_ids : (coreP2p.map (·.id)).Nodup := by
  decide +kernel

theorem coreP2p_hygienic : Hygienic coreP2p := by
  decide +kernel

/-- Every message is read back, for every schema with distinct ids in which no field is called
`__buf`, and so for `core.p2p`. -/
theorem dispatch_serialize :
    (∀ schema : List Constructor, (schema.map (·.id)).Nodup → Hygienic schema →
      ∀ m : Message, m.ctor ∈ schema → m.Short → dispatch schema m.serialize = .ok m) ∧
    ∀ m : Message, m.ctor ∈ coreP2p → m.Short → dispatch coreP2p m.serialize = .ok m := by
  constructor
  · intro schema hids hname m hm hshort
    exact dispatch_of_fits hids hname hm hshort (fits_serialize m)
  · intro m hm hshort
    exact dispatch_of_fits coreP2p_ids coreP2p_hygienic hm hshort (fits_serialize m)

/-- `inbox.store` with a field of one byte and one of four. -/
def storeMessage : Message :=
  ⟨inboxStore, ([7], [1, 2, 3, 4], ())⟩

theorem dispatch_serialize_store :
    dispatch [inboxFetch, inboxStore] storeMessage.serialize = .ok storeMessage ∧
      dispatch coreP2p storeMessage.serialize = .ok storeMessage := by
  have hshort : storeMessage.Short := by decide
  constructor
  · exact dispatch_serialize.1 _ (by decide) (by decide) storeMessage (by decide) hshort
  · exact dispatch_serialize.2 storeMessage (by decide +kernel) hshort

/-- A schema whose first field takes the name of the parameter. -/
def shadowing : Constructor :=
  ⟨1, "log.append", [⟨"__buf", .bytes⟩, ⟨"index", .int⟩]⟩

def shadowingMessage : Message :=
  ⟨shadowing, ([1, 2, 3, 4], (7 : UInt32), ())⟩

/-- The index is looked for behind the end of the first field's value. -/
theorem shadowed_field_lost :
    ([shadowing].map (·.id)).Nodup ∧ shadowingMessage.Short ∧
      dispatch [shadowing] shadowingMessage.serialize =
        .error (.protocol "truncated index") := by
  refine ⟨by decide, by decide, ?_⟩
  rfl

/-! ## Acceptance -/

theorem Message.isPadding_or_fixed (m : Message) {i : Nat} (hi : i < m.serialize.length) :
    m.IsPadding i ∨ ∃ x, m.layout[i]? = some (some x) ∧ m.serialize[i]? = some x := by
  have hlayout : i < m.layout.length := by
    rwa [← m.layout_fill, List.length_map] at hi
  rcases hfix : m.layout[i] with _ | x
  · left
    rw [IsPadding, List.getElem?_eq_getElem hlayout, hfix]
  · right
    have hsome : m.layout[i]? = some (some x) := by
      rw [List.getElem?_eq_getElem hlayout, hfix]
    refine ⟨x, hsome, ?_⟩
    rw [← m.layout_fill, List.getElem?_map, hsome]
    rfl

theorem Message.lt_of_fixed {m : Message} {i : Nat} {x : UInt8}
    (h : m.layout[i]? = some (some x)) : i < m.serialize.length ∧ ¬ m.IsPadding i := by
  constructor
  · rw [← m.layout_fill, List.length_map]
    exact (List.getElem?_eq_some_iff.mp h).1
  · rw [IsPadding, h]
    simp

/-- `dispatch` reads inside `b`; if it accepts `b`, every byte of the message's encoding that is not
padding stands in `b`, and a byte string it reads differently differs from `b` in one of them. -/
theorem accepts_only_encodings (b : Bytes) :
    dispatch? coreP2p b = some (dispatch coreP2p b) ∧
    (∀ m, dispatch coreP2p b = .ok m →
      ∀ i < m.serialize.length, ¬ m.IsPadding i → b[i]? = m.serialize[i]?) ∧
    ∀ b' m m', dispatch coreP2p b = .ok m → dispatch coreP2p b' = .ok m' → m ≠ m' →
      ∃ i < m.serialize.length, ¬ m.IsPadding i ∧ b[i]? ≠ b'[i]? := by
  refine ⟨dispatch?_eq coreP2p b, ?_, ?_⟩
  · intro m hm i hi hpad
    obtain ⟨-, -, hfits⟩ := (dispatch_eq_ok_iff coreP2p_hygienic).mp hm
    rcases m.isPadding_or_fixed hi with hp | ⟨x, hfix, hser⟩
    · exact absurd hp hpad
    · have hb := hfits i x hfix
      rw [Nat.zero_add] at hb
      rw [hb, hser]
  · intro b' m m' hm hm' hne
    obtain ⟨hfind, hshort, hfits⟩ := (dispatch_eq_ok_iff coreP2p_hygienic).mp hm
    by_contra hagree
    push Not at hagree
    -- If all fixed bytes agreed, `b'` would fit the layout of `m` and be read as `m`.
    have hfits' : Lib.Fits m.layout 0 b' := by
      apply hfits.of_agree
      intro i x hfix
      obtain ⟨hi, hpad⟩ := Message.lt_of_fixed hfix
      rw [Nat.zero_add]
      exact (hagree i hi hpad).symm
    have hread := (dispatch_eq_ok_iff coreP2p_hygienic).mpr ⟨hfind, hshort, hfits'⟩
    rw [hm'] at hread
    cases hread
    exact hne rfl

/-- Other padding and a longer tail still decode to the message. -/
theorem accepts_only_encodings_store :
    dispatch coreP2p (storeMessage.serialize.set 9 0xFF ++ [0]) = .ok storeMessage ∧
      (storeMessage.serialize.set 9 0xFF ++ [0])[8]? = storeMessage.serialize[8]? := by
  have hread : dispatch coreP2p (storeMessage.serialize.set 9 0xFF ++ [0]) = .ok storeMessage := by
    rfl
  refine ⟨hread, ?_⟩
  exact (accepts_only_encodings _).2.1 storeMessage hread 8 (by decide) (by decide)

/-! ## Replacing a field -/

theorem recordShort_setBytes (name : String) {value : Bytes} (hvalue : value.length < 2 ^ 32) :
    ∀ (fields : List Field) (r : Record fields), RecordShort fields r →
      RecordShort fields (Record.setBytes name value fields r)
  | [], _, h => h
  | ⟨n, .bytes⟩ :: rest, ((v : Bytes), r), ⟨hv, hr⟩ => by
    by_cases hn : n = name
    · subst hn
      rw [Record.setBytes_self]
      exact ⟨hvalue, hr⟩
    · rw [Record.setBytes_of_ne hn]
      exact ⟨hv, recordShort_setBytes name hvalue rest r hr⟩
  | ⟨_, .int⟩ :: rest, (_, r), ⟨hv, hr⟩ => ⟨hv, recordShort_setBytes name hvalue rest r hr⟩
  | ⟨_, .long⟩ :: rest, (_, r), ⟨hv, hr⟩ => ⟨hv, recordShort_setBytes name hvalue rest r hr⟩
  | ⟨_, .string⟩ :: rest, (_, r), ⟨hv, hr⟩ => ⟨hv, recordShort_setBytes name hvalue rest r hr⟩

theorem dispatch_withPeerId {data : Bytes} {m : Message} (hm : dispatch coreP2p data = .ok m)
    {peerId : Bytes} (hshort : peerId.length < 2 ^ 32) :
    dispatch coreP2p (m.withPeerId peerId).serialize = .ok (m.withPeerId peerId) := by
  obtain ⟨hfind, hmshort, -⟩ := (dispatch_eq_ok_iff coreP2p_hygienic).mp hm
  have hmem : (m.withPeerId peerId).ctor ∈ coreP2p := List.mem_of_find?_eq_some hfind
  have hnew : (m.withPeerId peerId).Short :=
    recordShort_setBytes "peer_id" hshort m.ctor.fields m.fields hmshort
  exact dispatch_of_fits coreP2p_ids coreP2p_hygienic hmem hnew (fits_serialize _)

end Cypher.Proto
