import Cypher.Lib.Increasing
import Cypher.Onion.Padding

/-!
# What padding keeps and what it hides

`pad` takes the first bucket that holds the plaintext and its two-byte length, which is the least one
because the buckets increase. The length of the padded text is a function of the bucket alone. No
bucket is larger than `2 ^ 16`, so the length field reads back.
-/

namespace Cypher.Onion

/-- The buckets that have room for a plaintext of this length. -/
def fittingBuckets (len : Nat) : Set Nat :=
  {b | b ∈ paddingBuckets ∧ len + 2 ≤ b}

theorem fittingBuckets_anti {m n : Nat} (h : m ≤ n) : fittingBuckets n ⊆ fittingBuckets m := by
  rintro b ⟨hb, hfits⟩
  exact ⟨hb, by omega⟩

theorem paddingBuckets_le {b : Nat} (h : b ∈ paddingBuckets) : b ≤ 8192 := by
  revert b
  decide

theorem length_resize (buf : Bytes) (len : Nat) : (resize buf len).length = len := by
  simp only [resize, List.length_append, List.length_take, List.length_replicate]
  omega

theorem resize_of_le {buf : Bytes} {len : Nat} (h : buf.length ≤ len) :
    resize buf len = buf ++ List.replicate (len - buf.length) 0 := by
  rw [resize, List.take_of_length_le h]

theorem pad_of_le {p : Bytes} (h : p.length ≤ 8190) :
    ∃ bucket, IsLeast (fittingBuckets p.length) bucket ∧
      pad p = .ok (resize (Lib.leBytes 2 p.length ++ p) bucket) := by
  have hsome : (paddingBuckets.find? (p.length + 2 ≤ ·)).isSome := by
    rw [List.find?_isSome]
    exact ⟨8192, by decide, by simpa using by omega⟩
  obtain ⟨bucket, hfind⟩ := Option.isSome_iff_exists.mp hsome
  refine ⟨bucket, ?_, ?_⟩
  · have hleast := Lib.isLeast_of_find? (by decide : paddingBuckets.Pairwise (· ≤ ·)) hfind
    simpa only [fittingBuckets, decide_eq_true_eq] using hleast
  · simp only [pad, hfind]

theorem pad_of_lt {p : Bytes} (h : 8190 < p.length) : ∃ err, pad p = .error err := by
  have hnone : paddingBuckets.find? (p.length + 2 ≤ ·) = none := by
    rw [List.find?_eq_none]
    intro b hb
    have := paddingBuckets_le hb
    simpa using by omega
  simp only [pad, hnone]
  exact ⟨_, rfl⟩

theorem of_pad_eq_ok {p padded : Bytes} (h : pad p = .ok padded) :
    p.length ≤ 8190 ∧ ∃ bucket, IsLeast (fittingBuckets p.length) bucket ∧
      padded = resize (Lib.leBytes 2 p.length ++ p) bucket := by
  rcases Nat.lt_or_ge 8190 p.length with hlong | hfits
  · obtain ⟨err, herr⟩ := pad_of_lt hlong
    rw [herr] at h
    cases h
  · obtain ⟨bucket, hleast, hpad⟩ := pad_of_le hfits
    rw [hpad] at h
    exact ⟨hfits, bucket, hleast, (Except.ok.inj h).symm⟩

theorem isLeast_of_pad {p padded : Bytes} (h : pad p = .ok padded) :
    IsLeast (fittingBuckets p.length) padded.length := by
  obtain ⟨-, bucket, hleast, rfl⟩ := of_pad_eq_ok h
  rw [length_resize]
  exact hleast

theorem unpad_append (p filling : Bytes) (h : p.length < 2 ^ 16) :
    unpad (Lib.leBytes 2 p.length ++ p ++ filling) = .ok p := by
  have hlen : (Lib.leBytes 2 p.length).length = 2 := Lib.leBytes_length 2 _
  have htake : (Lib.leBytes 2 p.length ++ p ++ filling).take 2 = Lib.leBytes 2 p.length := by
    rw [List.append_assoc, List.take_left' hlen]
  have hdrop : (Lib.leBytes 2 p.length ++ p ++ filling).drop 2 = p ++ filling := by
    rw [List.append_assoc, List.drop_left' hlen]
  have htotal : (Lib.leBytes 2 p.length ++ p ++ filling).length = 2 + p.length + filling.length := by
    rw [List.length_append, List.length_append, hlen]
  rw [unpad, htake, hdrop, htotal, Lib.leNat_leBytes h, if_neg (by omega)]
  dsimp only
  rw [if_neg (by omega), List.take_left' rfl]

theorem unpad_pad {p padded : Bytes} (h : pad p = .ok padded) : unpad padded = .ok p := by
  obtain ⟨hfits, bucket, hleast, rfl⟩ := of_pad_eq_ok h
  have hroom : (Lib.leBytes 2 p.length ++ p).length ≤ bucket := by
    have := hleast.1.2
    rw [List.length_append, Lib.leBytes_length]
    omega
  rw [resize_of_le hroom]
  exact unpad_append p _ (by omega)

/-- `unpad` never leaves its input: it fails, or returns the bytes from 2 up to an end inside. -/
theorem unpad_cases (b : Bytes) :
    (∃ err, unpad b = .error err) ∨
      ∃ len, 2 + len ≤ b.length ∧ unpad b = .ok ((b.drop 2).take len) := by
  by_cases h : NotPadded b
  · exact .inl (unpad_of_notPadded h)
  · unfold NotPadded at h
    push Not at h
    obtain ⟨hlen, hfits⟩ := h
    refine .inr ⟨Lib.leNat (b.take 2), hfits, ?_⟩
    rw [unpad, if_neg (Nat.not_lt.mpr hlen)]
    exact if_neg (Nat.not_lt.mpr hfits)

/-- Padding is invertible, its length depends only on the bucket and grows with the plaintext, and
what does not fit is refused. -/
theorem pad_invertible_within_bucket :
    (∀ p : Bytes, p.length ≤ 8190 → ∃ padded, pad p = .ok padded ∧ unpad padded = .ok p ∧
      IsLeast {b | b ∈ paddingBuckets ∧ p.length + 2 ≤ b} padded.length) ∧
    (∀ p q x y bucket, IsLeast {b | b ∈ paddingBuckets ∧ p.length + 2 ≤ b} bucket →
      IsLeast {b | b ∈ paddingBuckets ∧ q.length + 2 ≤ b} bucket →
      pad p = .ok x → pad q = .ok y → x.length = y.length) ∧
    (∀ p q x y, p.length ≤ q.length → pad p = .ok x → pad q = .ok y → x.length ≤ y.length) ∧
    (∀ p : Bytes, 8190 < p.length → ∃ err, pad p = .error err) ∧
    ∀ b : Bytes, (∃ err, unpad b = .error err) ∨
      ∃ len, 2 + len ≤ b.length ∧ unpad b = .ok ((b.drop 2).take len) := by
  refine ⟨?_, ?_, ?_, fun p => pad_of_lt, unpad_cases⟩
  · intro p hp
    obtain ⟨bucket, -, hpad⟩ := pad_of_le hp
    exact ⟨_, hpad, unpad_pad hpad, isLeast_of_pad hpad⟩
  · intro p q x y bucket hbp hbq hx hy
    have hxb : x.length = bucket := (isLeast_of_pad hx).unique hbp
    have hyb : y.length = bucket := (isLeast_of_pad hy).unique hbq
    rw [hxb, hyb]
  · intro p q x y hle hx hy
    exact (isLeast_of_pad hy).mono (isLeast_of_pad hx) (fittingBuckets_anti hle)

/-- The empty text and a three-byte text go to the same bucket, and 8191 bytes are refused. -/
theorem pad_invertible_small :
    (∃ padded, pad [1, 2, 3] = .ok padded ∧ unpad padded = .ok [1, 2, 3] ∧
      IsLeast {b | b ∈ paddingBuckets ∧ [1, 2, 3].length + 2 ≤ b} padded.length) ∧
    (∀ x y, pad [] = .ok x → pad [1, 2, 3] = .ok y → x.length = y.length ∧ x.length ≤ y.length) ∧
    ∃ err, pad (List.replicate 8191 0) = .error err := by
  have hleast : ∀ len ≤ 510, IsLeast {b | b ∈ paddingBuckets ∧ len + 2 ≤ b} 512 := by
    intro len hlen
    refine ⟨⟨by decide, by omega⟩, ?_⟩
    rintro b ⟨hb, -⟩
    revert b
    decide
  obtain ⟨hinv, hbucket, hgrows, hlong, -⟩ := pad_invertible_within_bucket
  refine ⟨hinv _ (by decide), ?_, hlong _ (by rw [List.length_replicate]; decide)⟩
  intro x y hx hy
  exact ⟨hbucket [] [1, 2, 3] x y 512 (hleast 0 (by decide)) (hleast 3 (by decide)) hx hy,
    hgrows [] [1, 2, 3] x y (by decide) hx hy⟩

end Cypher.Onion
