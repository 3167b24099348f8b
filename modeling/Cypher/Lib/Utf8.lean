import Mathlib.Data.List.Basic

/-!
# UTF-8 validation

A string is a byte list that `validateUtf8` accepts. Validation follows the standard library of Rust:
the first malformed sequence is reported with its position and with the number of bytes to skip, or
without that number if the input ends inside a sequence that may still be completed. `lossyUtf8`
goes through the same sequences and replaces each malformed one, as the Encoding Standard does.
-/

namespace Cypher.Lib

structure Utf8Error where
  validUpTo : Nat
  errorLen : Option Nat
  deriving DecidableEq, Repr

def Utf8Error.text (e : Utf8Error) : String :=
  match e.errorLen with
  | some len => "invalid utf-8 sequence of " ++ toString len ++ " bytes from index " ++
      toString e.validUpTo
  | none => "incomplete utf-8 byte sequence from index " ++ toString e.validUpTo

/-- The bytes that may follow a leading byte, for each position of the sequence; `none` for a byte
that starts none. -/
def continuations (b : UInt8) : Option (List (UInt8 × UInt8)) :=
  if b < 0x80 then some []
  else if 0xC2 ≤ b ∧ b ≤ 0xDF then some [(0x80, 0xBF)]
  else if b = 0xE0 then some [(0xA0, 0xBF), (0x80, 0xBF)]
  else if b = 0xED then some [(0x80, 0x9F), (0x80, 0xBF)]
  else if 0xE1 ≤ b ∧ b ≤ 0xEF then some [(0x80, 0xBF), (0x80, 0xBF)]
  else if b = 0xF0 then some [(0x90, 0xBF), (0x80, 0xBF), (0x80, 0xBF)]
  else if 0xF1 ≤ b ∧ b ≤ 0xF3 then some [(0x80, 0xBF), (0x80, 0xBF), (0x80, 0xBF)]
  else if b = 0xF4 then some [(0x80, 0x8F), (0x80, 0xBF), (0x80, 0xBF)]
  else none

/-- Scan on: at `pos`, inside a sequence of which `done` bytes are read and `expected` remain. -/
def scanUtf8 (pos done : Nat) : (expected : List (UInt8 × UInt8)) → List UInt8 → Option Utf8Error
  | [], [] => none
  | _ :: _, [] => some ⟨pos, none⟩
  | [], b :: rest =>
    match continuations b with
    | none => some ⟨pos + done, some 1⟩
    | some expected => scanUtf8 (pos + done) 1 expected rest
  | (lo, hi) :: expected, b :: rest =>
    if lo ≤ b ∧ b ≤ hi then scanUtf8 pos (done + 1) expected rest
    else some ⟨pos, some done⟩

/-- `core::str::from_utf8`: the error, or `none` for a valid string. -/
def validateUtf8 (b : List UInt8) : Option Utf8Error :=
  scanUtf8 0 0 [] b

def replacement : List UInt8 :=
  [0xEF, 0xBF, 0xBD]

/-- Decode with replacement: `pending` is the sequence under way, of which `expected` remains. A byte
that does not continue it is read again as the start of the next one. -/
def lossyUtf8 (pending : List UInt8) :
    (expected : List (UInt8 × UInt8)) → List UInt8 → List UInt8
  | [], [] => pending
  | _ :: _, [] => replacement
  | [], b :: rest =>
    pending ++
      match continuations b with
      | none => replacement ++ lossyUtf8 [] [] rest
      | some expected => lossyUtf8 [b] expected rest
  | (lo, hi) :: expected, b :: rest =>
    if lo ≤ b ∧ b ≤ hi then lossyUtf8 (pending ++ [b]) expected rest
    else
      replacement ++
        match continuations b with
        | none => replacement ++ lossyUtf8 [] [] rest
        | some expected => lossyUtf8 [b] expected rest

theorem lossyUtf8_of_valid {pos done : Nat} {expected : List (UInt8 × UInt8)} {b : List UInt8}
    (h : scanUtf8 pos done expected b = none) (pending : List UInt8) :
    lossyUtf8 pending expected b = pending ++ b := by
  induction b generalizing pos done expected pending with
  | nil =>
    cases expected with
    | nil => simp [lossyUtf8]
    | cons e expected => simp [scanUtf8] at h
  | cons x rest ih =>
    cases expected with
    | nil =>
      cases hx : continuations x with
      | none => simp [scanUtf8, hx] at h
      | some expected =>
        simp only [scanUtf8, hx] at h
        simp only [lossyUtf8, hx, ih h, List.singleton_append]
    | cons e expected =>
      obtain ⟨lo, hi⟩ := e
      by_cases hx : lo ≤ x ∧ x ≤ hi
      · simp only [scanUtf8, if_pos hx] at h
        simp only [lossyUtf8, if_pos hx, ih h, List.append_assoc, List.singleton_append]
      · simp [scanUtf8, if_neg hx] at h

end Cypher.Lib
