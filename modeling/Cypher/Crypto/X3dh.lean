import Cypher.Crypto.Suite

/-!
# Mutual key agreement (`x3dh_mutual` of `cypher-crypto/src/x3dh.rs`)

Both peers call `x3dh_mutual` with each other's public keys. The two cross terms come out in swapped
positions on the two sides and are sorted by their bytes, so both sides hash one concatenation.
-/

namespace Cypher.Crypto

variable {Key Secret Ct : Type}

/-- `x3dh_mutual`, on our identity DH secret and signed pre-key secret and the peer's two public
keys. -/
def x3dhMutual (S : Suite Key Secret Ct) (ourIkDh ourSpkSecret : Secret)
    (theirIkDh theirSpk : PublicKey) : Key :=
  let dhIk := S.asBytes (S.diffieHellman ourIkDh theirIkDh)
  let dhCrossA := S.asBytes (S.diffieHellman ourIkDh theirSpk)
  let dhCrossB := S.asBytes (S.diffieHellman ourSpkSecret theirIkDh)
  let sorted := if dhCrossA ≤ dhCrossB then (dhCrossA, dhCrossB) else (dhCrossB, dhCrossA)
  S.x3dhKdf (dhIk ++ sorted.1 ++ sorted.2)

/-- Sorting two byte strings forgets the order in which they are given. -/
theorem sortPair_comm (a b : Bytes) :
    (if a ≤ b then (a, b) else (b, a)) = if b ≤ a then (b, a) else (a, b) := by
  by_cases hab : a ≤ b
  · by_cases hba : b ≤ a
    · have heq : a = b := List.le_antisymm hab hba
      subst heq
      rfl
    · simp only [hab, hba, if_true, if_false]
  · have hba : b ≤ a := (List.le_total a b).resolve_left hab
    simp only [hab, hba, if_true, if_false]

/-- **Both sides derive one shared secret**, whichever of them calls `x3dh_mutual`. -/
theorem x3dhMutual_comm (S : Suite Key Secret Ct) (hdh : S.DhCommutes)
    (ikA spkA ikB spkB : Secret) :
    x3dhMutual S ikA spkA (S.publicKey ikB) (S.publicKey spkB) =
      x3dhMutual S ikB spkB (S.publicKey ikA) (S.publicKey spkA) := by
  unfold x3dhMutual
  rw [hdh ikA ikB, hdh ikA spkB, hdh spkA ikB]
  simp only [sortPair_comm (S.asBytes (S.diffieHellman spkB (S.publicKey ikA)))]

end Cypher.Crypto
