import Cypher.Signaling.LinkId
import Mathlib.Algebra.Order.Floor.Div

/-!
# `base32_encode` is RFC 4648

The accumulator is shifted by eight for every byte and never masked, so beyond its low `num_bits` bits
it holds stale ones, and on long inputs bits fall out at the top. Only the low bits are ever read.
`pending` is what a state of the loop stands for: the text of the low `num_bits` bits of the
accumulator and of the bytes to come. A byte appends its bits to them (`bits_shiftIn`), a character
takes five away (`pending_add_five`).
-/

namespace Cypher.Signaling

open Lib

namespace Rfc4648

/-! ## The accumulator -/

theorem bits_shiftIn (acc : UInt32) (byte : UInt8) {n : Nat} (hn : n < 5) :
    bits (n + 8) (acc <<< 8 ||| byte.toUInt32).toNat = bits n acc.toNat ++ bits 8 byte.toNat := by
  have hbyte : byte.toNat < 2 ^ 8 := byte.toNat_lt
  have hacc : (acc <<< 8 ||| byte.toUInt32).toNat = (acc.toNat <<< 8) % 2 ^ 32 ||| byte.toNat := by
    rw [UInt32.toNat_or, UInt32.toNat_shiftLeft, UInt8.toNat_toUInt32]
    rfl
  rw [hacc, bits_add]
  congr 1
  · refine bits_congr fun i hi => ?_
    rw [Nat.testBit_shiftRight, Nat.testBit_or, Nat.testBit_mod_two_pow, Nat.testBit_shiftLeft,
      Nat.testBit_lt_two_pow (hbyte.trans_le (Nat.pow_le_pow_right (by decide) (Nat.le_add_right 8 i))),
      decide_eq_true (by omega : 8 + i < 32), decide_eq_true (by omega : 8 + i ≥ 8),
      Nat.add_sub_cancel_left, Bool.true_and, Bool.true_and, Bool.or_false]
  · refine bits_congr fun i hi => ?_
    rw [Nat.testBit_or, Nat.testBit_mod_two_pow, Nat.testBit_shiftLeft,
      decide_eq_false (by omega : ¬ i ≥ 8), Bool.false_and, Bool.and_false, Bool.false_or]

theorem toNat_and_mask (x : UInt32) : (x &&& 0x1F).toNat = x.toNat % 2 ^ 5 := by
  rw [UInt32.toNat_and]
  exact Nat.and_two_pow_sub_one_eq_mod x.toNat 5

theorem base32Char_eq (x : UInt32) {v : Nat} (h : x.toNat % 2 ^ 5 = v % 2 ^ 5) :
    base32Char x = digitChar (bits 5 v) := by
  rw [base32Char, digitChar, toNat_and_mask, bitsValue_bits, h]

theorem base32Char_shiftRight (acc : UInt32) {n : Nat} (hn : n < 32) :
    base32Char (acc >>> UInt32.ofNat n) = digitChar (bits 5 (acc.toNat >>> n)) := by
  refine base32Char_eq _ ?_
  rw [UInt32.toNat_shiftRight, UInt32.toNat_ofNat', Nat.mod_eq_of_lt (by omega : n < 2 ^ 32),
    Nat.mod_eq_of_lt hn]

theorem base32Char_shiftLeft (acc : UInt32) {n : Nat} (hn : n < 5) :
    base32Char (acc <<< UInt32.ofNat (5 - n)) =
      digitChar (bits n acc.toNat ++ List.replicate (5 - n) false) := by
  have hsplit : bits 5 (acc.toNat <<< (5 - n)) =
      bits n acc.toNat ++ List.replicate (5 - n) false := by
    have hadd := bits_add n (5 - n) (acc.toNat <<< (5 - n))
    rw [Nat.shiftLeft_shiftRight, bits_shiftLeft, Nat.add_sub_of_le hn.le] at hadd
    exact hadd
  rw [← hsplit]
  refine base32Char_eq _ ?_
  rw [UInt32.toNat_shiftLeft, UInt32.toNat_ofNat', Nat.mod_eq_of_lt (by omega : 5 - n < 2 ^ 32),
    Nat.mod_eq_of_lt (by omega : 5 - n < 32)]
  exact Nat.mod_mod_of_dvd _ (by decide)

/-! ## The loops -/

/-- What the encoding still writes when the low `n` bits of `acc` are left and `rest` follows. -/
def pending (acc : UInt32) (n : Nat) (rest : List Bool) : List Char :=
  (wholeGroups 5 (bits n acc.toNat ++ rest)).map digitChar

theorem pending_add_five (acc : UInt32) {n : Nat} (hn : n < 32) (rest : List Bool) :
    pending acc (n + 5) rest = base32Char (acc >>> UInt32.ofNat n) :: pending acc n rest := by
  rw [pending, Nat.add_comm n 5, bits_add, List.append_assoc,
    wholeGroups_append (by decide) (length_bits 5 _), List.map_cons, ← base32Char_shiftRight acc hn,
    pending]

theorem base32Drain_spec (acc : UInt32) (n : Nat) (hn : n < 32) (result : List Char)
    (rest : List Bool) :
    (base32Drain acc n result).1 ++ pending acc (base32Drain acc n result).2 rest =
        result ++ pending acc n rest ∧
      (base32Drain acc n result).2 = n % 5 := by
  induction n, result using base32Drain.induct acc with
  | case1 n result ih =>
    obtain ⟨hwritten, hleft⟩ := ih (by omega)
    rw [base32Drain, hwritten, hleft, pending_add_five acc (by omega), List.append_assoc]
    exact ⟨rfl, (Nat.add_mod_right n 5).symm⟩
  | case2 n result hsmall =>
    have hlt : n < 5 := by
      by_contra hge
      exact hsmall (n - 5) (by omega)
    have hstop : base32Drain acc n result = (result, n) := by
      rw [base32Drain]
      exact hsmall
    rw [hstop, Nat.mod_eq_of_lt hlt]
    exact ⟨rfl, rfl⟩

theorem base32Loop_spec (data : Bytes) (acc : UInt32) (n : Nat) (hn : n < 5) (result : List Char)
    (rest : List Bool) :
    (base32Loop data acc n result).1 ++
        pending (base32Loop data acc n result).2.1 (base32Loop data acc n result).2.2 rest =
        result ++ pending acc n (dataBits data ++ rest) ∧
      (base32Loop data acc n result).2.2 = (n + 8 * data.length) % 5 := by
  induction data generalizing acc n result with
  | nil => exact ⟨rfl, (Nat.mod_eq_of_lt hn).symm⟩
  | cons byte data ih =>
    obtain ⟨hwritten, hleft⟩ := base32Drain_spec (acc <<< 8 ||| byte.toUInt32) (n + 8) (by omega)
      result (dataBits data ++ rest)
    obtain ⟨hrest, hcount⟩ := ih (acc <<< 8 ||| byte.toUInt32)
      (base32Drain (acc <<< 8 ||| byte.toUInt32) (n + 8) result).2
      (by rw [hleft]; exact Nat.mod_lt _ (by decide))
      (base32Drain (acc <<< 8 ||| byte.toUInt32) (n + 8) result).1
    rw [base32Loop]
    refine ⟨?_, ?_⟩
    · rw [hrest, hwritten, pending, pending, bits_shiftIn acc byte hn, dataBits, dataBits,
        List.flatMap_cons, List.append_assoc, List.append_assoc]
    · rw [hcount, hleft, List.length_cons]
      omega

theorem length_dataBits (data : Bytes) : (dataBits data).length = 8 * data.length := by
  induction data with
  | nil => rfl
  | cons byte data ih =>
    rw [dataBits, List.flatMap_cons, List.length_append, length_bits, ← dataBits, ih,
      List.length_cons]
    omega

/-- Whatever the accumulator holds above its low bits, the loops write the encoding of the bits. -/
theorem base32Encode_eq (data : Bytes) : base32Encode data = encode data := by
  have hloop := base32Loop_spec data 0 0 (by decide) [] (padding 5 (dataBits data).length)
  rw [base32Encode]
  generalize base32Loop data 0 0 [] = out at hloop ⊢
  obtain ⟨result, acc, n⟩ := out
  obtain ⟨hwritten, hleft⟩ := hloop
  dsimp only at hwritten hleft ⊢
  rw [Nat.zero_add] at hleft
  have hn : n < 5 := hleft.trans_lt (Nat.mod_lt _ (by decide))
  have hencode : encode data = pending 0 0 (dataBits data ++ padding 5 (dataBits data).length) := rfl
  rw [hencode, ← List.nil_append (pending 0 0 _), ← hwritten, pending, padding, length_dataBits,
    ← hleft]
  rcases Nat.eq_zero_or_pos n with rfl | hpos
  · -- no bits are left, and no zeros are added
    have hnone : (bits 0 acc.toNat ++ List.replicate ((5 - 0) % 5) false).length < 5 := Nat.succ_pos 4
    rw [if_neg (Nat.lt_irrefl 0), wholeGroups_of_short hnone, List.map_nil, List.append_nil]
  · have hlast : (bits n acc.toNat ++ List.replicate (5 - n) false).length = 5 := by
      rw [List.length_append, length_bits, List.length_replicate]
      omega
    rw [if_pos hpos, Nat.mod_eq_of_lt (by omega : 5 - n < 5), base32Char_shiftLeft acc hn,
      ← List.append_nil (bits n acc.toNat ++ _), wholeGroups_append (by decide) hlast,
      wholeGroups_of_short (by decide), List.map_cons, List.map_nil]
    rw [List.append_nil]

-- "foobar" of the test vectors in RFC 4648
example : base32Encode [0x66, 0x6F, 0x6F, 0x62, 0x61, 0x72] =
    ['m', 'z', 'x', 'w', '6', 'y', 't', 'b', 'o', 'i'] := by
  decide +kernel

/-! ## Length, alphabet, decoding -/

theorem length_encode (data : Bytes) : (encode data).length = 8 * data.length ⌈/⌉ 5 := by
  rw [encode, List.length_map, length_wholeGroups (by decide), List.length_append, length_dataBits,
    padding, List.length_replicate, Nat.ceilDiv_eq_add_pred_div]
  omega

theorem bitsValue_lt_of_length {g : List Bool} (hg : g.length = 5) :
    bitsValue g < base32Alphabet.length := by
  have hlt := bitsValue_lt g
  rw [hg] at hlt
  exact hlt

theorem digitChar_mem {g : List Bool} (hg : g.length = 5) : digitChar g ∈ base32Alphabet := by
  rw [digitChar, List.getD_eq_getElem _ _ (bitsValue_lt_of_length hg)]
  exact List.getElem_mem _

theorem mem_alphabet_of_mem_encode {data : Bytes} {c : Char} (h : c ∈ encode data) :
    c ∈ base32Alphabet := by
  obtain ⟨g, hg, rfl⟩ := List.mem_map.mp h
  exact digitChar_mem (length_of_mem_wholeGroups hg)

theorem digit?_digitChar {g : List Bool} (hg : g.length = 5) :
    digit? (digitChar g) = some (bitsValue g) := by
  have hall : ∀ n < 32, digit? (base32Alphabet.getD n 'a') = some n := by decide
  exact hall _ (bitsValue_lt_of_length hg)

theorem mapM_digit?_encode (data : Bytes) :
    (encode data).mapM digit? =
      some ((wholeGroups 5 (dataBits data ++ padding 5 (dataBits data).length)).map bitsValue) := by
  have hgroups : ∀ gs : List (List Bool), (∀ g ∈ gs, g.length = 5) →
      (gs.map digitChar).mapM digit? = some (gs.map bitsValue) := by
    intro gs
    induction gs with
    | nil => exact fun _ => rfl
    | cons g gs ih =>
      intro hlen
      rw [List.map_cons, List.mapM_cons, digit?_digitChar (hlen g List.mem_cons_self),
        ih fun g' hg' => hlen g' (List.mem_cons_of_mem g hg')]
      rfl
  exact hgroups _ fun g hg => length_of_mem_wholeGroups hg

theorem flatMap_bits_digits (stream : List Bool) (h : 5 ∣ stream.length) :
    ((wholeGroups 5 stream).map bitsValue).flatMap (bits 5) = stream := by
  have hgroups : ∀ gs : List (List Bool), (∀ g ∈ gs, g.length = 5) →
      (gs.map bitsValue).flatMap (bits 5) = gs.flatten := by
    intro gs
    induction gs with
    | nil => exact fun _ => rfl
    | cons g gs ih =>
      intro hlen
      have hg : bits 5 (bitsValue g) = g := by
        rw [← hlen g List.mem_cons_self]
        exact bits_bitsValue g
      rw [List.map_cons, List.flatMap_cons, hg,
        ih fun g' hg' => hlen g' (List.mem_cons_of_mem g hg'), List.flatten_cons]
  rw [hgroups _ fun g hg => length_of_mem_wholeGroups hg, flatten_wholeGroups h]

theorem ofNat_bitsValue_bits (byte : UInt8) : UInt8.ofNat (bitsValue (bits 8 byte.toNat)) = byte := by
  rw [bitsValue_bits, Nat.mod_eq_of_lt byte.toNat_lt, UInt8.ofNat_toNat]

theorem decode?_encode (data : Bytes) : decode? (encode data) = some data := by
  have hpad : (padding 5 (dataBits data).length).length < 5 := length_padding_lt (by decide) _
  have hdvd : 5 ∣ (dataBits data ++ padding 5 (dataBits data).length).length := by
    rw [List.length_append]
    exact dvd_add_length_padding (by decide) _
  have hrest : (dataBits data ++ padding 5 (dataBits data).length).drop
      (8 * ((dataBits data ++ padding 5 (dataBits data).length).length / 8)) =
      padding 5 (dataBits data).length := by
    refine List.drop_left' ?_
    rw [List.length_append, length_dataBits]
    rw [length_dataBits] at hpad
    omega
  have hzeros : ∀ b ∈ padding 5 (dataBits data).length, b = false :=
    fun b hb => (List.mem_replicate.mp hb).2
  have hoctets : wholeGroups 8 (dataBits data ++ padding 5 (dataBits data).length) =
      data.map fun byte => bits 8 byte.toNat :=
    wholeGroups_flatMap (by decide) (fun byte => length_bits 8 _) data (by omega)
  rw [decode?, mapM_digit?_encode, Option.bind_some, flatMap_bits_digits _ hdvd]
  dsimp only
  rw [hrest, if_pos ⟨hpad, hzeros⟩, hoctets, List.map_map]
  refine congrArg some ((List.map_congr_left fun byte _ => ?_).trans (List.map_id data))
  exact ofNat_bitsValue_bits byte

end Rfc4648

open Rfc4648 in
/-- **Link ids are base32.** For every byte string, `base32_encode` writes the RFC 4648 encoding. It
has `⌈8 · len / 5⌉` characters, all of the alphabet, and is decoded to the byte string, so two byte
strings never have the same text. -/
theorem base32_encode_rfc4648 (data : Bytes) :
    base32Encode data = encode data ∧
      (base32Encode data).length = 8 * data.length ⌈/⌉ 5 ∧
      (∀ c ∈ base32Encode data, c ∈ base32Alphabet) ∧
      decode? (base32Encode data) = some data ∧
      ∀ other, base32Encode other = base32Encode data → other = data := by
  rw [base32Encode_eq data]
  refine ⟨rfl, length_encode data, fun c hc => mem_alphabet_of_mem_encode hc, decode?_encode data,
    fun other hsame => ?_⟩
  rw [base32Encode_eq other] at hsame
  have hdecoded := decode?_encode other
  rw [hsame, decode?_encode data] at hdecoded
  exact (Option.some.inj hdecoded).symm

/-- Two link ids are the same text only if the same bytes were drawn. -/
theorem linkIdGenerate_injective : Function.Injective linkIdGenerate := by
  intro random random' hsame
  have hdecoded := Rfc4648.decode?_encode (List.ofFn random)
  rw [← Rfc4648.base32Encode_eq, ← linkIdGenerate, hsame, linkIdGenerate, Rfc4648.base32Encode_eq,
    Rfc4648.decode?_encode] at hdecoded
  exact (List.ofFn_injective (Option.some.inj hdecoded)).symm

end Cypher.Signaling
