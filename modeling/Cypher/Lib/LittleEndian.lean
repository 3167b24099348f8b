import Mathlib.Data.Nat.Basic
import Mathlib.Tactic

/-!
# Fixed-width little-endian numbers

`leBytes k x` is the `k`-byte little-endian encoding of `x` (its low `8 * k` bits) and `leNat` reads
such bytes back. Below `256 ^ k` the encoding is read back exactly, so it is injective there.
-/

namespace Cypher.Lib

/-- The low `k` bytes of `x`, least significant first. -/
def leBytes : Nat → Nat → List UInt8
  | 0, _ => []
  | k + 1, x => UInt8.ofNat x :: leBytes k (x / 256)

/-- The number a byte string denotes, least significant byte first. -/
def leNat : List UInt8 → Nat
  | [] => 0
  | b :: rest => b.toNat + 256 * leNat rest

@[simp] theorem leBytes_length (k x : Nat) : (leBytes k x).length = k := by
  induction k generalizing x with
  | zero => rfl
  | succ k ih => simp only [leBytes, List.length_cons, ih]

theorem leNat_leBytes {k x : Nat} (hx : x < 256 ^ k) : leNat (leBytes k x) = x := by
  induction k generalizing x with
  | zero =>
    have : x = 0 := by simpa using hx
    subst this
    rfl
  | succ k ih =>
    have hdiv : x / 256 < 256 ^ k := by
      apply (Nat.div_lt_iff_lt_mul (by decide : 0 < 256)).mpr
      simpa only [Nat.pow_succ] using hx
    simp only [leBytes, leNat, ih hdiv, UInt8.toNat_ofNat']
    omega

theorem leBytes_mod (k x : Nat) : leBytes k (x % 256 ^ k) = leBytes k x := by
  induction k generalizing x with
  | zero => rfl
  | succ k ih =>
    have hlow : UInt8.ofNat (x % 256 ^ (k + 1)) = UInt8.ofNat x := by
      apply UInt8.toNat_inj.mp
      rw [UInt8.toNat_ofNat', UInt8.toNat_ofNat', Nat.pow_succ]
      exact Nat.mod_mod_of_dvd x (Dvd.intro_left (256 ^ k) rfl)
    have hhigh : x % 256 ^ (k + 1) / 256 = x / 256 % 256 ^ k := by
      rw [Nat.pow_succ, Nat.mul_comm, Nat.mod_mul_right_div_self]
    rw [leBytes, leBytes, hlow, hhigh, ih]

theorem leBytes_add (j k x : Nat) : leBytes (j + k) x = leBytes j x ++ leBytes k (x / 256 ^ j) := by
  induction j generalizing x with
  | zero => simp [leBytes]
  | succ j ih =>
    rw [Nat.succ_add, leBytes, leBytes, ih, List.cons_append, Nat.div_div_eq_div_mul, Nat.pow_succ,
      Nat.mul_comm]

theorem leNat_append (a b : List UInt8) : leNat (a ++ b) = leNat a + 256 ^ a.length * leNat b := by
  induction a with
  | nil => simp [leNat]
  | cons x a ih =>
    rw [List.cons_append, leNat, leNat, ih, List.length_cons, Nat.pow_succ]
    ring

theorem leBytes_inj {k x y : Nat} (hx : x < 256 ^ k) (hy : y < 256 ^ k)
    (h : leBytes k x = leBytes k y) : x = y := by
  rw [← leNat_leBytes hx, h, leNat_leBytes hy]

theorem leNat_lt (b : List UInt8) : leNat b < 256 ^ b.length := by
  induction b with
  | nil => simp [leNat]
  | cons x rest ih =>
    have hx := x.toNat_lt
    rw [leNat, List.length_cons, Nat.pow_succ]
    omega

theorem leBytes_leNat (b : List UInt8) : leBytes b.length (leNat b) = b := by
  induction b with
  | nil => rfl
  | cons x rest ih =>
    have hx := x.toNat_lt
    have hlow : UInt8.ofNat (x.toNat + 256 * leNat rest) = x := by
      apply UInt8.toNat_inj.mp
      rw [UInt8.toNat_ofNat']
      omega
    have hhigh : (x.toNat + 256 * leNat rest) / 256 = leNat rest := by omega
    rw [leNat, List.length_cons, leBytes, hlow, hhigh, ih]

theorem leNat_eq_iff {k x : Nat} {b : List UInt8} (hb : b.length = k) (hx : x < 256 ^ k) :
    leNat b = x ↔ b = leBytes k x := by
  constructor
  · rintro rfl
    rw [← hb, leBytes_leNat]
  · rintro rfl
    exact leNat_leBytes hx

end Cypher.Lib
