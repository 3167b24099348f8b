import Mathlib.Data.Nat.Bitwise

/-!
# Bit strings

Numbers as lists of bits, most significant first, and the cutting of a list of bits into groups of
equal width. An encoding into characters of `w` bits each pads its bits to a multiple of `w` and cuts
them (`wholeGroups`); a decoder cuts them again at another width and is left with the padding.
-/

namespace Cypher.Lib

def bits : (k v : Nat) → List Bool
  | 0, _ => []
  | k + 1, v => v.testBit k :: bits k v

def bitsValue : List Bool → Nat
  | [] => 0
  | b :: bs => 2 ^ bs.length * b.toNat + bitsValue bs

@[simp] theorem length_bits (k v : Nat) : (bits k v).length = k := by
  induction k with
  | zero => rfl
  | succ k ih => rw [bits, List.length_cons, ih]

theorem bits_congr {k v w : Nat} (h : ∀ i < k, v.testBit i = w.testBit i) : bits k v = bits k w := by
  induction k with
  | zero => rfl
  | succ k ih =>
    rw [bits, bits, h k (Nat.lt_succ_self k), ih fun i hi => h i (Nat.lt_succ_of_lt hi)]

theorem bits_add (m k v : Nat) : bits (m + k) v = bits m (v >>> k) ++ bits k v := by
  induction m with
  | zero => rw [Nat.zero_add, bits, List.nil_append]
  | succ m ih =>
    rw [Nat.add_right_comm, bits, ih, bits, List.cons_append, Nat.testBit_shiftRight,
      Nat.add_comm k m]

theorem bits_shiftLeft (k v : Nat) : bits k (v <<< k) = List.replicate k false := by
  have hzero : ∀ n, bits n 0 = List.replicate n false := by
    intro n
    induction n with
    | zero => rfl
    | succ n ih => rw [bits, ih, Nat.zero_testBit, List.replicate_succ]
  rw [← hzero k]
  refine bits_congr fun i hi => ?_
  rw [Nat.testBit_shiftLeft, Nat.zero_testBit, decide_eq_false (by omega), Bool.false_and]

theorem bitsValue_bits (k v : Nat) : bitsValue (bits k v) = v % 2 ^ k := by
  induction k with
  | zero => rw [bits, bitsValue, Nat.pow_zero, Nat.mod_one]
  | succ k ih =>
    rw [bits, bitsValue, ih, length_bits, Nat.toNat_testBit, Nat.mod_pow_succ, Nat.add_comm]

theorem bitsValue_lt (bs : List Bool) : bitsValue bs < 2 ^ bs.length := by
  induction bs with
  | nil => exact Nat.one_pos
  | cons b bs ih =>
    have hmul : 2 ^ bs.length * b.toNat ≤ 2 ^ bs.length * 1 := Nat.mul_le_mul_left _ b.toNat_le
    rw [bitsValue, List.length_cons, Nat.pow_succ]
    omega

theorem bits_bitsValue (bs : List Bool) : bits bs.length (bitsValue bs) = bs := by
  induction bs with
  | nil => rfl
  | cons b bs ih =>
    have hlt := bitsValue_lt bs
    have hhead : (bitsValue (b :: bs)).testBit bs.length = b := by
      rw [bitsValue, Nat.testBit_two_pow_mul_add _ hlt, if_neg (Nat.lt_irrefl _), Nat.sub_self]
      cases b <;> rfl
    have htail : bits bs.length (bitsValue (b :: bs)) = bits bs.length (bitsValue bs) := by
      refine bits_congr fun i hi => ?_
      rw [bitsValue, Nat.testBit_two_pow_mul_add _ hlt, if_pos hi]
    rw [List.length_cons, bits, hhead, htail, ih]

/-! ## Groups -/

/-- The groups of `w` bits from the front; a shorter rest is dropped. -/
def wholeGroups (w : Nat) (bs : List Bool) : List (List Bool) :=
  if _h : 0 < w ∧ w ≤ bs.length then bs.take w :: wholeGroups w (bs.drop w) else []
termination_by bs.length
decreasing_by
  rw [List.length_drop]
  omega

variable {w : Nat}

theorem wholeGroups_of_short {bs : List Bool} (h : bs.length < w) : wholeGroups w bs = [] := by
  rw [wholeGroups, dif_neg]
  omega

theorem wholeGroups_append {g : List Bool} (hw : 0 < w) (hg : g.length = w) (bs : List Bool) :
    wholeGroups w (g ++ bs) = g :: wholeGroups w bs := by
  rw [wholeGroups, dif_pos ⟨hw, by rw [List.length_append]; omega⟩, List.take_left' hg,
    List.drop_left' hg]

theorem wholeGroups_flatMap {α : Type} {f : α → List Bool} (hw : 0 < w) (hf : ∀ x, (f x).length = w)
    (xs : List α) {rest : List Bool} (hrest : rest.length < w) :
    wholeGroups w (xs.flatMap f ++ rest) = xs.map f := by
  induction xs with
  | nil => exact wholeGroups_of_short hrest
  | cons x xs ih =>
    rw [List.flatMap_cons, List.append_assoc, wholeGroups_append hw (hf x), ih, List.map_cons]

theorem length_of_mem_wholeGroups {bs g : List Bool} (h : g ∈ wholeGroups w bs) : g.length = w := by
  induction bs using wholeGroups.induct w with
  | case1 bs hle ih =>
    rw [wholeGroups, dif_pos hle] at h
    rcases List.mem_cons.mp h with rfl | hmem
    · rw [List.length_take, Nat.min_eq_left hle.2]
    · exact ih hmem
  | case2 bs hshort =>
    rw [wholeGroups, dif_neg hshort] at h
    cases h

/-- Nothing is lost if the width divides the length. -/
theorem flatten_wholeGroups {bs : List Bool} (h : w ∣ bs.length) :
    (wholeGroups w bs).flatten = bs := by
  induction bs using wholeGroups.induct w with
  | case1 bs hle ih =>
    have hrest : w ∣ (bs.drop w).length := by
      rw [List.length_drop]
      exact Nat.dvd_sub h (Nat.dvd_refl w)
    rw [wholeGroups, dif_pos hle, List.flatten_cons, ih hrest, List.take_append_drop]
  | case2 bs hshort =>
    have hnil : bs.length = 0 := by
      rcases Nat.eq_zero_or_pos bs.length with hzero | hpos
      · exact hzero
      · have hle := Nat.le_of_dvd hpos h
        have hw := Nat.pos_of_dvd_of_pos h hpos
        exact absurd ⟨hw, hle⟩ hshort
    rw [wholeGroups, dif_neg hshort, List.eq_nil_of_length_eq_zero hnil, List.flatten_nil]

theorem length_wholeGroups (hw : 0 < w) (bs : List Bool) :
    (wholeGroups w bs).length = bs.length / w := by
  induction bs using wholeGroups.induct w with
  | case1 bs hle ih =>
    rw [wholeGroups, dif_pos hle, List.length_cons, ih, List.length_drop, Nat.div_eq_sub_div hw hle.2]
  | case2 bs hshort =>
    rw [wholeGroups, dif_neg hshort, List.length_nil, Nat.div_eq_of_lt]
    omega

def padding (w len : Nat) : List Bool := List.replicate ((w - len % w) % w) false

theorem length_padding_lt (hw : 0 < w) (len : Nat) : (padding w len).length < w := by
  rw [padding, List.length_replicate]
  exact Nat.mod_lt _ hw

theorem dvd_add_length_padding (hw : 0 < w) (len : Nat) : w ∣ len + (padding w len).length := by
  rw [padding, List.length_replicate]
  have hlt := Nat.mod_lt len hw
  rcases Nat.eq_zero_or_pos (len % w) with hzero | hpos
  · rw [hzero, Nat.sub_zero, Nat.mod_self, Nat.add_zero]
    exact Nat.dvd_of_mod_eq_zero hzero
  · rw [Nat.mod_eq_of_lt (by omega)]
    refine ⟨len / w + 1, ?_⟩
    have hdiv := Nat.div_add_mod len w
    rw [Nat.mul_add, Nat.mul_one]
    omega

end Cypher.Lib
