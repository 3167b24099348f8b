import Cypher.Client.Requests

/-!
# Which strings the client's `hex_decode` reads

The string is cut into pairs of bytes, and `u8::from_str_radix` reads each of them. Two things are
wider than "pairs of hex digits": the parser accepts a plus sign in front of one digit, and a slice
that does not end at a character boundary panics. The loop goes through the readable pairs
(`hexDecodeFrom_pairs`) and what follows them decides (`exists_pairs`): the end, a pair that is
refused, or a character that is cut.
-/

namespace Cypher.Client

open Cypher.Signaling

/-- The digits 0-9, a-f and A-F. -/
def hexDigits : List Char :=
  ['0', '1', '2', '3', '4', '5', '6', '7', '8', '9', 'a', 'b', 'c', 'd', 'e', 'f',
    'A', 'B', 'C', 'D', 'E', 'F']

def byteLen (s : List Char) : Nat := (s.map Char.utf8Size).sum

/-- Even length and nothing but hex digits. -/
def HexString (s : List Char) : Prop := byteLen s % 2 = 0 ∧ ∀ c ∈ s, c ∈ hexDigits

/-- `hex_decode` is exact and safe on `s`: a hex string is read into the bytes that `hex_encode`
writes as `s` in lower case, and any other string is an error. -/
def ReadsExactly (s : List Char) : Prop :=
  (HexString s → ∃ bytes, hexDecode s = some (.ok bytes) ∧ hexEncode bytes = s.map Char.toLower) ∧
    (¬ HexString s → ∃ err, hexDecode s = some (.error err))

def Readable (p : Char × Char) : Prop := (p.1 ∈ hexDigits ∨ p.1 = '+') ∧ p.2 ∈ hexDigits

def Cut : List Char → Prop
  | c :: rest => 3 ≤ c.utf8Size ∨ c.utf8Size = 1 ∧ ∃ d tail, rest = d :: tail ∧ 2 ≤ d.utf8Size
  | [] => False

def ofPairs (pairs : List (Char × Char)) : List Char := pairs.flatMap fun p => [p.1, p.2]

/-- A string of even length whose readable pairs are followed by a character that the next slice
cuts, or which consists of readable pairs, one of them with a plus sign. -/
def Misread (s : List Char) : Prop :=
  byteLen s % 2 = 0 ∧ ∃ pairs rest, s = ofPairs pairs ++ rest ∧ (∀ p ∈ pairs, Readable p) ∧
    (Cut rest ∨ rest = [] ∧ ∃ p ∈ pairs, p.1 = '+')

/-! ## Single characters -/

theorem hexDigit?_isSome_iff (c : Char) : (hexDigit? c).isSome = true ↔ c ∈ hexDigits := by
  have hsmall : ∀ n < 128, (hexDigit? (Char.ofNat n)).isSome = true ↔ Char.ofNat n ∈ hexDigits := by
    decide +kernel
  rcases Nat.lt_or_ge c.toNat 128 with hlt | hge
  · rw [← Char.ofNat_toNat c]
    exact hsmall _ hlt
  · -- beyond ASCII there is no digit on either side
    have hbound : (hexDigits.all fun d => decide (d.toNat < 128)) = true := by decide
    have hnone : hexDigit? c = none := by
      have hle : ∀ d : Char, d.toNat < 128 → ¬ c ≤ d := fun d hd hcd => by
        have hnat : c.toNat ≤ d.toNat := hcd
        omega
      unfold hexDigit?
      rw [if_neg fun h => hle _ (by decide) h.2, if_neg fun h => hle _ (by decide) h.2,
        if_neg fun h => hle _ (by decide) h.2]
    rw [hnone]
    constructor
    · intro h
      cases h
    · intro hmem
      exact absurd (of_decide_eq_true (List.all_eq_true.mp hbound c hmem)) (by omega)

theorem fromStrRadix16_isSome_iff (c d : Char) :
    (fromStrRadix16 c d).isSome = true ↔ Readable (c, d) := by
  unfold fromStrRadix16 Readable
  rw [← hexDigit?_isSome_iff c, ← hexDigit?_isSome_iff d]
  by_cases hplus : c = '+'
  · rw [if_pos hplus, Option.isSome_map]
    exact ⟨fun h => ⟨.inr hplus, h⟩, fun h => h.2⟩
  · rw [if_neg hplus]
    cases hexDigit? c with
    | none => simp [hplus]
    | some hi => simp

theorem utf8Size_of_mem_hexDigits {c : Char} (hc : c ∈ hexDigits) : c.utf8Size = 1 := by
  have hall : (hexDigits.all fun d => decide (d.utf8Size = 1)) = true := by decide +kernel
  exact of_decide_eq_true (List.all_eq_true.mp hall c hc)

theorem Readable.utf8Size_fst {p : Char × Char} (h : Readable p) : p.1.utf8Size = 1 := by
  rcases h.1 with hdigit | hplus
  · exact utf8Size_of_mem_hexDigits hdigit
  · rw [hplus]
    decide

theorem Readable.utf8Size_snd {p : Char × Char} (h : Readable p) : p.2.utf8Size = 1 :=
  utf8Size_of_mem_hexDigits h.2

def pairValue (p : Char × Char) : UInt8 := (fromStrRadix16 p.1 p.2).getD 0

theorem fromStrRadix16_of_readable {p : Char × Char} (h : Readable p) :
    fromStrRadix16 p.1 p.2 = some (pairValue p) := by
  obtain ⟨byte, hbyte⟩ := Option.isSome_iff_exists.mp ((fromStrRadix16_isSome_iff p.1 p.2).mpr h)
  rw [pairValue, hbyte, Option.getD_some]

theorem hexEncode_pairValue {p : Char × Char} (hfst : p.1 ∈ hexDigits) (hsnd : p.2 ∈ hexDigits) :
    hexEncode [pairValue p] = [p.1.toLower, p.2.toLower] := by
  have hall : (hexDigits.all fun c => hexDigits.all fun d =>
      decide (hexEncode [pairValue (c, d)] = [c.toLower, d.toLower])) = true := by
    decide +kernel
  exact of_decide_eq_true (List.all_eq_true.mp (List.all_eq_true.mp hall _ hfst) _ hsnd)

/-! ## The loop -/

theorem ofPairs_cons (p : Char × Char) (pairs : List (Char × Char)) :
    ofPairs (p :: pairs) = p.1 :: p.2 :: ofPairs pairs := by
  rw [ofPairs, List.flatMap_cons]
  rfl

theorem byteLen_cons (c : Char) (s : List Char) : byteLen (c :: s) = c.utf8Size + byteLen s := by
  rw [byteLen, List.map_cons, List.sum_cons]
  rfl

theorem hexDecodeFrom_readable {p : Char × Char} (hp : Readable p) (offset : Nat)
    (rest : List Char) :
    hexDecodeFrom offset (p.1 :: p.2 :: rest) =
      (hexDecodeFrom (offset + 2) rest).map fun result =>
        result.map fun bytes => pairValue p :: bytes := by
  rw [hexDecodeFrom, hp.utf8Size_fst, if_neg (by decide), if_pos rfl, hp.utf8Size_snd, if_pos rfl,
    fromStrRadix16_of_readable hp]

theorem hexDecodeFrom_pairs {pairs : List (Char × Char)} (hpairs : ∀ p ∈ pairs, Readable p)
    (offset : Nat) (rest : List Char) :
    hexDecodeFrom offset (ofPairs pairs ++ rest) =
      (hexDecodeFrom (offset + 2 * pairs.length) rest).map fun result =>
        result.map fun bytes => pairs.map pairValue ++ bytes := by
  induction pairs generalizing offset with
  | nil =>
    have hid : (fun result : Result Bytes => result.map fun bytes => [] ++ bytes) = id := by
      funext result
      cases result <;> rfl
    rw [List.map_nil, hid, Option.map_id, id]
    rfl
  | cons p pairs ih =>
    rw [ofPairs_cons, List.cons_append, List.cons_append,
      hexDecodeFrom_readable (hpairs p List.mem_cons_self),
      ih (fun q hq => hpairs q (List.mem_cons_of_mem p hq)), List.length_cons,
      show offset + 2 + 2 * pairs.length = offset + 2 * (pairs.length + 1) by omega, Option.map_map]
    congr 1
    funext result
    cases result <;> rfl

/-- The two bytes at the front are characters, but no number. -/
def Refused : List Char → Prop
  | c :: rest =>
    c.utf8Size = 2 ∨ c.utf8Size = 1 ∧ ∃ d tail, rest = d :: tail ∧ d.utf8Size = 1 ∧ ¬ Readable (c, d)
  | [] => False

theorem hexDecodeFrom_refused {rest : List Char} (h : Refused rest) (offset : Nat) :
    ∃ err, hexDecodeFrom offset rest = some (.error err) := by
  cases rest with
  | nil => exact h.elim
  | cons c rest =>
    rcases h with htwo | ⟨hone, d, tail, rfl, hd, hno⟩
    · unfold hexDecodeFrom
      rw [if_pos htwo]
      exact ⟨_, rfl⟩
    · have hnone : fromStrRadix16 c d = none := by
        rw [← Option.not_isSome_iff_eq_none, fromStrRadix16_isSome_iff]
        exact hno
      rw [hexDecodeFrom, hone, if_neg (by decide), if_pos rfl, hd, if_pos rfl, hnone]
      exact ⟨_, rfl⟩

theorem hexDecodeFrom_cut {rest : List Char} (h : Cut rest) (offset : Nat) :
    hexDecodeFrom offset rest = none := by
  cases rest with
  | nil => exact h.elim
  | cons c rest =>
    rcases h with hthree | ⟨hone, d, tail, rfl, hd⟩
    · unfold hexDecodeFrom
      rw [if_neg (by omega), if_neg (by omega)]
    · rw [hexDecodeFrom, hone, if_neg (by decide), if_pos rfl, if_neg (by omega)]

theorem exists_pairs : ∀ s : List Char, byteLen s % 2 = 0 →
    ∃ pairs rest, s = ofPairs pairs ++ rest ∧ (∀ p ∈ pairs, Readable p) ∧
      (rest = [] ∨ Refused rest ∨ Cut rest)
  | [], _ => ⟨[], [], rfl, fun _ hp => absurd hp List.not_mem_nil, .inl rfl⟩
  | [c], heven => by
    refine ⟨[], [c], rfl, fun _ hp => absurd hp List.not_mem_nil, .inr ?_⟩
    have hlen : byteLen [c] = c.utf8Size := by rw [byteLen_cons]; rfl
    rw [hlen] at heven
    rcases Nat.lt_or_ge c.utf8Size 3 with hsmall | hthree
    · have hpos := c.utf8Size_pos
      exact .inl (.inl (by omega))
    · exact .inr (.inl hthree)
  | c :: d :: rest, heven => by
    by_cases hread : Readable (c, d)
    · have hrest : byteLen rest % 2 = 0 := by
        rw [byteLen_cons, byteLen_cons, hread.utf8Size_fst, hread.utf8Size_snd] at heven
        omega
      obtain ⟨pairs, tail, hrest, hpairs, hstop⟩ := exists_pairs rest hrest
      refine ⟨(c, d) :: pairs, tail, ?_, ?_, hstop⟩
      · rw [ofPairs_cons, hrest, List.cons_append, List.cons_append]
      · intro p hp
        rcases List.mem_cons.mp hp with rfl | hp
        · exact hread
        · exact hpairs p hp
    · refine ⟨[], c :: d :: rest, rfl, fun _ hp => absurd hp List.not_mem_nil, .inr ?_⟩
      have hc := c.utf8Size_pos
      have hd := d.utf8Size_pos
      by_cases hthree : 3 ≤ c.utf8Size
      · exact .inr (.inl hthree)
      · by_cases htwo : c.utf8Size = 2
        · exact .inl (.inl htwo)
        · by_cases hone : d.utf8Size = 1
          · exact .inl (.inr ⟨by omega, d, rest, rfl, hone, hread⟩)
          · exact .inr (.inr ⟨by omega, d, rest, rfl, by omega⟩)

/-! ## Hex strings -/

theorem ofPairs_mem_hexDigits {pairs : List (Char × Char)} (hpairs : ∀ p ∈ pairs, Readable p)
    (hplus : ¬ ∃ p ∈ pairs, p.1 = '+') : ∀ p ∈ pairs, p.1 ∈ hexDigits ∧ p.2 ∈ hexDigits := by
  intro p hp
  refine ⟨(hpairs p hp).1.resolve_right fun heq => hplus ⟨p, hp, heq⟩, (hpairs p hp).2⟩

theorem hexEncode_ofPairs {pairs : List (Char × Char)}
    (hdigits : ∀ p ∈ pairs, p.1 ∈ hexDigits ∧ p.2 ∈ hexDigits) :
    hexEncode (pairs.map pairValue) = (ofPairs pairs).map Char.toLower := by
  induction pairs with
  | nil => rfl
  | cons p pairs ih =>
    obtain ⟨hfst, hsnd⟩ := hdigits p List.mem_cons_self
    have hhead := hexEncode_pairValue hfst hsnd
    have htail := ih fun q hq => hdigits q (List.mem_cons_of_mem p hq)
    unfold hexEncode at hhead htail ⊢
    rw [List.flatMap_cons, List.flatMap_nil, List.append_nil] at hhead
    rw [List.map_cons, List.flatMap_cons, hhead, htail, ofPairs_cons, List.map_cons, List.map_cons]
    rfl

theorem not_refused_of_digits {rest : List Char} (hdigits : ∀ c ∈ rest, c ∈ hexDigits) :
    ¬ Refused rest := by
  intro h
  cases rest with
  | nil => exact h
  | cons c rest =>
    have hc := hdigits c List.mem_cons_self
    rcases h with htwo | ⟨hone, d, tail, rfl, hd, hno⟩
    · rw [utf8Size_of_mem_hexDigits hc] at htwo
      cases htwo
    · exact hno ⟨.inl hc, hdigits d (List.mem_cons_of_mem c List.mem_cons_self)⟩

theorem hexDecode_of_odd {s : List Char} (hodd : byteLen s % 2 ≠ 0) :
    hexDecode s = some (.error (.protocol "odd-length hex string")) :=
  if_pos hodd

theorem hexDecode_of_even {s : List Char} (heven : byteLen s % 2 = 0) :
    hexDecode s = hexDecodeFrom 0 s :=
  if_neg fun hodd => hodd heven

theorem hexDecode_ofPairs {pairs : List (Char × Char)} {rest : List Char}
    (heven : byteLen (ofPairs pairs ++ rest) % 2 = 0) (hpairs : ∀ p ∈ pairs, Readable p) :
    hexDecode (ofPairs pairs ++ rest) =
      (hexDecodeFrom (2 * pairs.length) rest).map fun result =>
        result.map fun bytes => pairs.map pairValue ++ bytes := by
  rw [hexDecode_of_even heven, hexDecodeFrom_pairs hpairs, Nat.zero_add]

theorem hexDecode_ofPairs_nil {pairs : List (Char × Char)} (hpairs : ∀ p ∈ pairs, Readable p)
    (heven : byteLen (ofPairs pairs ++ []) % 2 = 0) :
    hexDecode (ofPairs pairs ++ []) = some (.ok (pairs.map pairValue)) := by
  rw [hexDecode_ofPairs heven hpairs, hexDecodeFrom, Option.map_some, Except.map, List.append_nil]

theorem not_readsExactly_of_misread {s : List Char} (h : Misread s) : ¬ ReadsExactly s := by
  rintro ⟨hread, hrefused⟩
  obtain ⟨heven, pairs, rest, rfl, hpairs, hcut | ⟨rfl, p, hp, hplus⟩⟩ := h
  · have hnone : hexDecode (ofPairs pairs ++ rest) = none := by
      rw [hexDecode_ofPairs heven hpairs, hexDecodeFrom_cut hcut, Option.map_none]
    by_cases hhex : HexString (ofPairs pairs ++ rest)
    · obtain ⟨bytes, hok, -⟩ := hread hhex
      rw [hnone] at hok
      cases hok
    · obtain ⟨err, herr⟩ := hrefused hhex
      rw [hnone] at herr
      cases herr
  · have hnothex : ¬ HexString (ofPairs pairs ++ []) := by
      intro hhex
      have hmem : '+' ∈ ofPairs pairs ++ [] := by
        rw [List.append_nil]
        exact List.mem_flatMap.mpr ⟨p, hp, by rw [← hplus]; exact List.mem_cons_self⟩
      exact absurd (hhex.2 '+' hmem) (by decide)
    obtain ⟨err, herr⟩ := hrefused hnothex
    rw [hexDecode_ofPairs_nil hpairs heven] at herr
    cases herr

theorem readsExactly_of_not_misread {s : List Char} (h : ¬ Misread s) : ReadsExactly s := by
  by_cases heven : byteLen s % 2 = 0
  · obtain ⟨pairs, rest, rfl, hpairs, hstop⟩ := exists_pairs s heven
    rcases hstop with rfl | hrefused | hcut
    · have hplus : ¬ ∃ p ∈ pairs, p.1 = '+' :=
        fun hplus => h ⟨heven, pairs, [], rfl, hpairs, .inr ⟨rfl, hplus⟩⟩
      have hdigits := ofPairs_mem_hexDigits hpairs hplus
      have hhex : HexString (ofPairs pairs ++ []) := by
        refine ⟨heven, fun c hc => ?_⟩
        rw [List.append_nil] at hc
        obtain ⟨p, hp, hcp⟩ := List.mem_flatMap.mp hc
        rcases List.mem_pair.mp hcp with rfl | rfl
        · exact (hdigits p hp).1
        · exact (hdigits p hp).2
      refine ⟨fun _ => ⟨_, hexDecode_ofPairs_nil hpairs heven, ?_⟩, fun hno => absurd hhex hno⟩
      rw [List.append_nil]
      exact hexEncode_ofPairs hdigits
    · constructor
      · intro hhex
        exact absurd hrefused (not_refused_of_digits fun c hc =>
          hhex.2 c (List.mem_append_right _ hc))
      · intro _
        obtain ⟨err, herr⟩ := hexDecodeFrom_refused hrefused (2 * pairs.length)
        refine ⟨err, ?_⟩
        rw [hexDecode_ofPairs heven hpairs, herr]
        rfl
    · exact absurd ⟨heven, pairs, rest, rfl, hpairs, .inl hcut⟩ h
  · exact ⟨fun hhex => absurd hhex.1 heven, fun _ => ⟨_, hexDecode_of_odd heven⟩⟩

/-- **Which strings `hex_decode` reads exactly and safely.** -/
theorem hex_decode_exact_iff (s : List Char) : ReadsExactly s ↔ ¬ Misread s :=
  ⟨fun hexact hmis => not_readsExactly_of_misread hmis hexact, readsExactly_of_not_misread⟩

/-- "+f" is no hex string and is read as the byte of "0f". On "a€" the second byte of the first slice
is the first of three, so `hex_decode` panics, and with it the handling of a `peer_joined` message. -/
theorem hex_decode_misreads :
    (hexDecode ['+', 'f'] = some (.ok [15]) ∧ ¬ HexString ['+', 'f'] ∧
      hexEncode [15] = ['0', 'f']) ∧
    hexDecode ['a', '€'] = none ∧
    (dispatchJson .empty (.obj [("peer_joined", .bool true), ("peer_id", .str ['a', '€'])])).2 =
      .panicked := by
  refine ⟨⟨by decide +kernel, fun h => ?_, by decide +kernel⟩, by decide +kernel, rfl⟩
  exact absurd (h.2 '+' List.mem_cons_self) (by decide)

end Cypher.Client
