import Mathlib.Data.Nat.Log
import Mathlib.Tactic

/-!
# Natural numbers as binary64

A binary64 number has 53 significant bits. `roundDouble n` is the double nearest to `n`, ties to
even, for `n` far below the largest double. A natural number is a double itself exactly if all its
bits below the leading 53 are zero (`roundDouble_eq_self_iff`).
-/

namespace Cypher.Lib

/-- The number of low bits that a double of the size of `n` does not hold. -/
def lostBits (n : Nat) : Nat :=
  n.log2 - 52

/-- `n` is a double: it has at most 53 significant bits. -/
def IsDouble (n : Nat) : Prop :=
  2 ^ lostBits n ∣ n

instance (n : Nat) : Decidable (IsDouble n) :=
  inferInstanceAs (Decidable (2 ^ lostBits n ∣ n))

def roundDouble (n : Nat) : Nat :=
  let unit := 2 ^ lostBits n
  let low := n / unit
  let rest := n % unit
  if 2 * rest > unit ∨ (2 * rest = unit ∧ low % 2 = 1) then (low + 1) * unit else low * unit

theorem dvd_roundDouble (n : Nat) : 2 ^ lostBits n ∣ roundDouble n := by
  dsimp only [roundDouble]
  split
  · exact Nat.dvd_mul_left _ _
  · exact Nat.dvd_mul_left _ _

theorem roundDouble_eq_self_iff {n : Nat} : roundDouble n = n ↔ IsDouble n := by
  constructor
  · intro h
    have hdvd := dvd_roundDouble n
    rwa [h] at hdvd
  · intro h
    have hpos : 0 < 2 ^ lostBits n := Nat.two_pow_pos _
    have hrest : n % 2 ^ lostBits n = 0 := Nat.mod_eq_zero_of_dvd h
    dsimp only [roundDouble]
    rw [hrest, if_neg (by omega)]
    exact Nat.div_mul_cancel h

theorem isDouble_of_lt {n : Nat} (h : n < 2 ^ 53) : IsDouble n := by
  have hlost : lostBits n = 0 := by
    rw [lostBits]
    rcases Nat.eq_zero_or_pos n with rfl | hpos
    · simp
    · have := (Nat.log2_lt (by omega)).mpr h
      omega
  rw [IsDouble, hlost]
  exact Nat.one_dvd n

theorem isDouble_mul_pow {hi k : Nat} (hhi : hi < 2 ^ 32) : IsDouble (hi * 2 ^ k) := by
  rcases Nat.eq_zero_or_pos hi with rfl | hpos
  · simp [IsDouble]
  · have hne : hi * 2 ^ k ≠ 0 := by positivity
    have hlt : hi * 2 ^ k < 2 ^ (32 + k) := by
      rw [Nat.pow_add]
      exact Nat.mul_lt_mul_of_pos_right hhi (Nat.two_pow_pos k)
    have hlog := (Nat.log2_lt hne).mpr hlt
    have hlost : lostBits (hi * 2 ^ k) ≤ k := by
      rw [lostBits]
      omega
    exact (Nat.pow_dvd_pow 2 hlost).trans (Nat.dvd_mul_left _ _)

end Cypher.Lib
