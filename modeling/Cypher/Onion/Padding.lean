import Cypher.Common

/-!
# Padding (`onion/padding.rs`)

A padded payload is a little-endian `u16` length, that many bytes, and filling up to the next of five
sizes. `unpad` trusts the length if the payload is long enough for it.
-/

namespace Cypher.Onion

def paddingBuckets : List Nat :=
  [512, 1024, 2048, 4096, 8192]

def resize (buf : Bytes) (len : Nat) : Bytes :=
  buf.take len ++ List.replicate (len - buf.length) 0

def pad (plaintext : Bytes) : Result Bytes :=
  let needed := plaintext.length + 2
  match paddingBuckets.find? (needed ≤ ·) with
  | none =>
    .error (.protocol ("plaintext too large for padding: " ++ toString plaintext.length ++
      " bytes (max " ++ toString (paddingBuckets.getLastD 0 - 2) ++ ")"))
  | some bucket => .ok (resize (Lib.leBytes 2 plaintext.length ++ plaintext) bucket)

def unpad (padded : Bytes) : Result Bytes :=
  if padded.length < 2 then .error (.protocol "padded payload too short")
  else
    let len := Lib.leNat (padded.take 2)
    if 2 + len > padded.length then
      .error (.protocol ("padding length prefix " ++ toString len ++ " exceeds payload size " ++
        toString (padded.length - 2)))
    else .ok ((padded.drop 2).take len)

/-- The first two bytes do not read as a length that the rest can hold. -/
def NotPadded (b : Bytes) : Prop :=
  b.length < 2 ∨ b.length < 2 + Lib.leNat (b.take 2)

instance (b : Bytes) : Decidable (NotPadded b) :=
  inferInstanceAs (Decidable (_ ∨ _))

theorem unpad_of_notPadded {b : Bytes} (h : NotPadded b) : ∃ err, unpad b = .error err := by
  by_cases hlen : b.length < 2
  · exact ⟨_, if_pos hlen⟩
  · have hlarge : 2 + Lib.leNat (b.take 2) > b.length := h.resolve_left hlen
    rw [unpad, if_neg hlen]
    exact ⟨_, if_pos hlarge⟩

theorem unpad_of_padded {b : Bytes} (h : ¬ NotPadded b) :
    ∃ out, unpad b = .ok out ∧ out.length < b.length := by
  unfold NotPadded at h
  push Not at h
  obtain ⟨hlen, hfits⟩ := h
  refine ⟨(b.drop 2).take (Lib.leNat (b.take 2)), ?_, ?_⟩
  · rw [unpad, if_neg (Nat.not_lt.mpr hlen)]
    exact if_neg (Nat.not_lt.mpr hfits)
  · rw [List.length_take, List.length_drop]
    omega

end Cypher.Onion
