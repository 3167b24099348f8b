import Cypher.Traversal.Checked
import Cypher.Traversal.Verify.Stun

/-!
# Which address a response stands for

A response may carry any attributes in any order, with values of any length. What it stands for is
read off its list of attributes: the last XOR-MAPPED-ADDRESS, or else the last MAPPED-ADDRESS. The
walk over the bytes is a fold over this list (`readAttributes_response`), and the fold remembers the
last address of either type (`foldlM_readAttribute`).
-/

namespace Cypher.Traversal.Verify

open Proto (slice slice_append)

/-- An attribute and the bytes that fill it up to a multiple of four. -/
structure PaddedAttribute extends Attribute where
  padding : Bytes
  padding_length : padding.length < 4
  aligned : 4 ∣ value.length + padding.length

namespace PaddedAttribute

def bytes (a : PaddedAttribute) : Bytes :=
  toBeBytes16 a.attrType ++ (toBeBytes16 (UInt16.ofNat a.value.length) ++ (a.value ++ a.padding))

theorem length_padding (a : PaddedAttribute) :
    a.value.length + a.padding.length = paddedLen a.value.length := by
  have hlt := a.padding_length
  have haligned := a.aligned
  rw [paddedLen]
  omega

end PaddedAttribute

variable (transactionId : Array12)

def response (attributes : List PaddedAttribute) : Bytes :=
  headed transactionId bindingResponse
    (UInt16.ofNat (attributes.flatMap PaddedAttribute.bytes).length)
    (attributes.flatMap PaddedAttribute.bytes)

/-! ## The values of address attributes -/

def mappedValue : IpAddr → (port : UInt16) → Bytes
  | .v4 bits, port => addressValue 0x01 port (toBeBytes32 bits.toNat)
  | .v6 octets, port => addressValue 0x02 port octets.val

/-- Port and address are masked with the cookie, an IPv6 address with the transaction as well. -/
def xorMappedValue : IpAddr → (port : UInt16) → Bytes
  | .v4 bits, port =>
    addressValue 0x01 (port ^^^ (stunMagicCookie >>> 16).toUInt16)
      (toBeBytes32 (bits ^^^ stunMagicCookie).toNat)
  | .v6 octets, port =>
    addressValue 0x02 (port ^^^ (stunMagicCookie >>> 16).toUInt16)
      (xorBytes octets.val (xorKey transactionId))

theorem parse_xorMappedValue (ip : IpAddr) (port : UInt16) :
    parseXorMappedAddress (xorMappedValue transactionId ip port) transactionId =
      .ok (.new ip port) := by
  cases ip with
  | v4 bits => exact parse_attrValue transactionId (.v4 bits port)
  | v6 octets => exact parse_attrValue transactionId (.v6 octets port 0 0)

theorem parse_mappedValue (ip : IpAddr) (port : UInt16) :
    parseMappedAddress (mappedValue ip port) = .ok (.new ip port) := by
  cases ip with
  | v4 bits =>
    have hbits : slice (addressValue 0x01 port (toBeBytes32 bits.toNat)) 4 8 =
        toBeBytes32 bits.toNat :=
      slice_addressValue_addr _ _ _ (toBeBytes32_length _)
    have hlong : ¬ (addressValue 0x01 port (toBeBytes32 bits.toNat)).length < 8 := by
      rw [addressValue_length, toBeBytes32_length]
      decide
    rw [mappedValue, parseMappedAddress, if_neg hlong, slice_addressValue_port,
      fromBeBytes16_toBeBytes16, hbits, fromBeBytes32_toBeBytes32 bits.toNat_lt, UInt32.ofNat_toNat]
    rfl
  | v6 octets =>
    have hlong : ¬ (addressValue 0x02 port octets.val).length < 20 := by
      rw [addressValue_length, octets.property]
      decide
    have hoctets : octetsAt (addressValue 0x02 port octets.val) (Nat.le_of_not_lt hlong) = octets :=
      Subtype.ext (slice_addressValue_addr 0x02 port octets.val octets.property)
    have hfamily : (addressValue 0x02 port octets.val).getD 1 0 = 0x02 := rfl
    rw [mappedValue, parseMappedAddress, if_neg (by omega), hfamily, slice_addressValue_port,
      fromBeBytes16_toBeBytes16]
    dsimp only
    rw [if_neg (by decide), if_pos rfl, dif_neg hlong, hoctets]

/-- Address attributes hold an address; other attributes hold anything. -/
structure WellFormed (a : Attribute) : Prop where
  xorMapped : a.attrType = attrXorMappedAddress →
    ∃ ip port, a.value = xorMappedValue transactionId ip port
  mapped : a.attrType = attrMappedAddress → ∃ ip port, a.value = mappedValue ip port

/-! ## The walk as a fold over the attributes -/

def lastOf (attrType : UInt16) (attributes : List PaddedAttribute) : Option PaddedAttribute :=
  (attributes.filter (·.attrType = attrType)).getLast?

theorem lastOf_append (attrType : UInt16) (attributes : List PaddedAttribute)
    (a : PaddedAttribute) :
    lastOf attrType (attributes ++ [a]) =
      if a.attrType = attrType then some a else lastOf attrType attributes := by
  by_cases h : a.attrType = attrType
  · rw [if_pos h, lastOf, List.filter_append, List.filter_cons_of_pos (by simpa using h),
      List.filter_nil, List.getLast?_concat]
  · rw [if_neg h, lastOf, List.filter_append, List.filter_cons_of_neg (by simpa using h),
      List.filter_nil, List.append_nil, lastOf]

structure Remembers (attributes : List PaddedAttribute) (found : Mapped) : Prop where
  xorResult : found.xorResult = (lastOf attrXorMappedAddress attributes).bind fun a =>
    (parseXorMappedAddress a.value transactionId).toOption
  mappedResult : found.mappedResult = (lastOf attrMappedAddress attributes).bind fun a =>
    (parseMappedAddress a.value).toOption

theorem readAttributes_response (attributes : List PaddedAttribute) (found : Mapped) :
    readAttributes transactionId (attributes.flatMap PaddedAttribute.bytes) found =
      attributes.foldlM (fun found a => readAttribute transactionId a.attrType a.value found)
        found := by
  refine readAttributes_foldlM transactionId ?_ attributes found
  intro a rest found
  rw [PaddedAttribute.bytes, List.append_assoc, List.append_assoc, List.append_assoc]
  exact readAttributes_padded transactionId a.toAttribute a.length_padding rest found

variable {transactionId}

theorem readAttribute_remembers {attributes : List PaddedAttribute} {a : PaddedAttribute}
    {found : Mapped} (ha : WellFormed transactionId a.toAttribute)
    (h : Remembers transactionId attributes found) :
    ∃ found', readAttribute transactionId a.attrType a.value found = .ok found' ∧
      Remembers transactionId (attributes ++ [a]) found' := by
  unfold readAttribute
  by_cases hxor : a.attrType = attrXorMappedAddress
  · have hmapped : a.attrType ≠ attrMappedAddress := by
      rw [hxor]
      decide
    obtain ⟨ip, port, hvalue⟩ := ha.xorMapped hxor
    have hparsed : parseXorMappedAddress a.value transactionId = .ok (.new ip port) := by
      rw [hvalue, parse_xorMappedValue]
    refine ⟨{ found with xorResult := some (.new ip port) }, ?_, ?_, ?_⟩
    · rw [if_pos hxor, hparsed]
      rfl
    · rw [lastOf_append, if_pos hxor, Option.bind_some, hparsed]
      rfl
    · rw [lastOf_append, if_neg hmapped]
      exact h.mappedResult
  · by_cases hmapped : a.attrType = attrMappedAddress
    · obtain ⟨ip, port, hvalue⟩ := ha.mapped hmapped
      have hparsed : parseMappedAddress a.value = .ok (.new ip port) := by
        rw [hvalue, parse_mappedValue]
      refine ⟨{ found with mappedResult := some (.new ip port) }, ?_, ?_, ?_⟩
      · rw [if_neg hxor, if_pos hmapped, hparsed]
        rfl
      · rw [lastOf_append, if_neg hxor]
        exact h.xorResult
      · rw [lastOf_append, if_pos hmapped, Option.bind_some, hparsed]
        rfl
    · refine ⟨found, ?_, ?_, ?_⟩
      · rw [if_neg hxor, if_neg hmapped]
        rfl
      · rw [lastOf_append, if_neg hxor]
        exact h.xorResult
      · rw [lastOf_append, if_neg hmapped]
        exact h.mappedResult

theorem foldlM_readAttribute {attributes : List PaddedAttribute}
    (hwf : ∀ a ∈ attributes, WellFormed transactionId a.toAttribute) :
    ∃ found, attributes.foldlM
        (fun found a => readAttribute transactionId a.attrType a.value found) ⟨none, none⟩ =
          .ok found ∧ Remembers transactionId attributes found := by
  induction attributes using List.reverseRecOn with
  | nil => exact ⟨⟨none, none⟩, rfl, rfl, rfl⟩
  | append_singleton attributes a ih =>
    obtain ⟨hfront, ha⟩ := List.forall_mem_append.mp hwf
    obtain ⟨found, hfold, hfound⟩ := ih hfront
    obtain ⟨found', hstep, hfound'⟩ :=
      readAttribute_remembers (ha a (List.mem_singleton_self a)) hfound
    refine ⟨found', ?_, hfound'⟩
    have hlast : [a].foldlM
        (fun found a => readAttribute transactionId a.attrType a.value found) found =
          .ok found' := by
      rw [List.foldlM_cons, hstep]
      rfl
    rw [List.foldlM_append, hfold]
    exact hlast

theorem mem_of_lastOf {attrType : UInt16} {attributes : List PaddedAttribute} {a : PaddedAttribute}
    (h : lastOf attrType attributes = some a) : a ∈ attributes ∧ a.attrType = attrType := by
  have hmem := List.mem_of_getLast? h
  simpa using hmem

variable (transactionId)

/-- **The parser agrees with the attribute list**, and never leaves the datagram. -/
theorem parse_last_address :
    (∀ attributes : List PaddedAttribute,
      (attributes.flatMap PaddedAttribute.bytes).length < 2 ^ 16 →
      (∀ a ∈ attributes, WellFormed transactionId a.toAttribute) →
      match lastOf attrXorMappedAddress attributes, lastOf attrMappedAddress attributes with
      | some a, _ => ∃ ip port, a.value = xorMappedValue transactionId ip port ∧
          parseBindingResponse (response transactionId attributes) transactionId =
            .ok (.new ip port)
      | none, some a => ∃ ip port, a.value = mappedValue ip port ∧
          parseBindingResponse (response transactionId attributes) transactionId =
            .ok (.new ip port)
      | none, none => ∃ err,
          parseBindingResponse (response transactionId attributes) transactionId = .error err) ∧
    ∀ data rounds, data.length ≤ rounds →
      parseBindingResponse? rounds data transactionId =
        some (parseBindingResponse data transactionId) := by
  refine ⟨?_, fun data rounds => parseBindingResponse?_eq⟩
  intro attributes hshort hwf
  obtain ⟨found, hfold, hfound⟩ := foldlM_readAttribute hwf
  have hparse : parseBindingResponse (response transactionId attributes) transactionId =
      found.address := by
    rw [response, parse_headed transactionId hshort, if_neg (not_not_intro rfl),
      readAttributes_response, hfold]
    rfl
  rw [hparse]
  split
  · next a hxor =>
    obtain ⟨hmem, htype⟩ := mem_of_lastOf hxor
    obtain ⟨ip, port, hvalue⟩ := (hwf a hmem).xorMapped htype
    refine ⟨ip, port, hvalue, ?_⟩
    rw [Mapped.address, hfound.xorResult, hxor, Option.bind_some, hvalue, parse_xorMappedValue]
    rfl
  · next a hxor hmapped =>
    obtain ⟨hmem, htype⟩ := mem_of_lastOf hmapped
    obtain ⟨ip, port, hvalue⟩ := (hwf a hmem).mapped htype
    refine ⟨ip, port, hvalue, ?_⟩
    rw [Mapped.address, hfound.xorResult, hfound.mappedResult, hxor, hmapped, Option.bind_some,
      hvalue, parse_mappedValue]
    rfl
  · next hxor hmapped =>
    rw [Mapped.address, hfound.xorResult, hfound.mappedResult, hxor, hmapped]
    exact ⟨_, rfl⟩

/-- An unknown attribute of three bytes with its padding, an XOR-MAPPED-ADDRESS and, after it, a
MAPPED-ADDRESS. -/
def mixedAttributes : List PaddedAttribute :=
  [⟨⟨0x8022, [1, 2, 3], by decide⟩, [0xFF], by decide, by decide⟩,
    ⟨⟨attrXorMappedAddress, xorMappedValue ⟨List.replicate 12 7, rfl⟩ (.v4 0x7F000001) 443,
      by decide⟩, [], by decide, by decide⟩,
    ⟨⟨attrMappedAddress, mappedValue (.v4 0x0A000001) 80, by decide⟩, [], by decide, by decide⟩]

/-- The masked address counts although a plain one comes after it. -/
theorem parse_last_address_mixed :
    (∃ ip port, xorMappedValue ⟨List.replicate 12 7, rfl⟩ (.v4 0x7F000001) 443 =
        xorMappedValue ⟨List.replicate 12 7, rfl⟩ ip port ∧
      parseBindingResponse (response ⟨List.replicate 12 7, rfl⟩ mixedAttributes)
        ⟨List.replicate 12 7, rfl⟩ = .ok (.new ip port)) ∧
    parseBindingResponse? 3 [1, 1, 0] ⟨List.replicate 12 7, rfl⟩ =
      some (parseBindingResponse [1, 1, 0] ⟨List.replicate 12 7, rfl⟩) := by
  obtain ⟨hlast, hchecked⟩ := parse_last_address ⟨List.replicate 12 7, rfl⟩
  refine ⟨hlast mixedAttributes (by decide) ?_, hchecked _ 3 (by decide)⟩
  rintro a (_ | ⟨_, _ | ⟨_, _ | ⟨_, ⟨⟩⟩⟩⟩)
  · exact ⟨fun h => absurd h (by decide), fun h => absurd h (by decide)⟩
  · exact ⟨fun _ => ⟨.v4 0x7F000001, 443, rfl⟩, fun h => absurd h (by decide)⟩
  · exact ⟨fun h => absurd h (by decide), fun _ => ⟨.v4 0x0A000001, 80, rfl⟩⟩

end Cypher.Traversal.Verify
