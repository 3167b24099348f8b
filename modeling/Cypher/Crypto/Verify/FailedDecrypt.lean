import Cypher.Crypto.Ratchet

/-!
# What a failed decryption changes

`decrypt` has no way back: it takes a skipped key out, makes the DH ratchet step, or moves the
receiving chain on, before the ciphertext is checked. An error leaves the state as it was only if it
comes from `skip_messages` or from a missing receiving chain, without a DH ratchet step before it
(`Refused`). The one other case is a duplicate of the last message over a chain key that is a fixed
point of `kdf_chain` (`Standstill`).
-/

namespace Cypher.Crypto.Verify

open RatchetState

variable {Key Secret Ct : Type} {S : Suite Key Secret Ct}

variable (S) in
/-- The states that `encrypt` and `decrypt` reach, with any arguments. A message number is a `u32`. -/
inductive Reachable : RatchetState Key Secret → Prop
  | initSender (sharedSecret : Key) (peerRatchetPubkey : PublicKey) (ourRatchetSecret : Secret) :
      Reachable (initSender S sharedSecret peerRatchetPubkey ourRatchetSecret)
  | initReceiver (sharedSecret : Key) (ourRatchetSecret : Secret) :
      Reachable (initReceiver S sharedSecret ourRatchetSecret)
  | encrypt {st : RatchetState Key Secret} (h : Reachable st) (plaintext : Bytes) :
      Reachable (st.encrypt S plaintext).1
  | decrypt {st : RatchetState Key Secret} (h : Reachable st) (fresh : Secret) (ct : Ct)
      (pk : PublicKey) {n : Nat} (hn : n < u32Size) : Reachable (st.decrypt S fresh ct pk n).1

/-- The message is beyond the limits of `skip_messages`. -/
def BeyondLimits (st : RatchetState Key Secret) (n : Nat) : Prop :=
  maxSkip < n - st.recvCount ∨ maxTotalSkipped < st.skippedKeys.keys.card + (n - st.recvCount)

/-- `decrypt` fails before it writes anything. -/
structure Refused (st : RatchetState Key Secret) (pk : PublicKey) (n : Nat) : Prop where
  notSkipped : st.skippedKeys.lookup (pk, n) = none
  sameKey : st.recvRatchetKey = some pk
  refused : st.recvChainKey = none ∨ BeyondLimits st n

variable (S) in
/-- The last message again, and the chain does not move. -/
structure Standstill (st : RatchetState Key Secret) (pk : PublicKey) (n : Nat) : Prop where
  notSkipped : st.skippedKeys.lookup (pk, n) = none
  sameKey : st.recvRatchetKey = some pk
  last : n + 1 = st.recvCount
  chain : ∃ chainKey, st.recvChainKey = some chainKey ∧ (S.kdfChain chainKey).1 = chainKey

/-! ## The common part of both branches -/

section Receive

variable {st : RatchetState Key Secret} {pk : PublicKey} {n : Nat} {chainKey : Key}

theorem receive_of_none (hchain : st.recvChainKey = none) (ct : Ct) (pk : PublicKey) (n : Nat) :
    ∃ err, receive S st ct pk n = (st, .error err) := by
  have hskip : skipMessages S st n = (st, .ok ()) := by
    unfold skipMessages
    rw [hchain]
  unfold receive
  rw [hskip]
  dsimp only
  rw [hchain]
  exact ⟨_, rfl⟩

theorem receive_of_beyond (hchain : st.recvChainKey = some chainKey)
    (hkey : st.recvRatchetKey = some pk) (hbeyond : BeyondLimits st n) (ct : Ct) (pk' : PublicKey) :
    ∃ err, receive S st ct pk' n = (st, .error err) := by
  refine receive_refused hchain hkey ?_ ct pk'
  rintro ⟨hfew, hroom⟩
  rcases hbeyond with hmany | hfull
  · exact Nat.not_le.mpr hmany hfew
  · exact Nat.not_le.mpr hfull hroom

theorem receive_of_within (hchain : st.recvChainKey = some chainKey)
    (hkey : st.recvRatchetKey = some pk) (hwithin : ¬ BeyondLimits st n) (ct : Ct)
    (pk' : PublicKey) :
    (receive S st ct pk' n).1 =
      { st with
        skippedKeys := (skipLoop S pk (n - st.recvCount) st.recvCount chainKey st.skippedKeys).2
        recvChainKey := some (S.kdfChain
          (skipLoop S pk (n - st.recvCount) st.recvCount chainKey st.skippedKeys).1).1
        recvCount := wrappingSucc32 n } := by
  obtain ⟨hfew, hroom⟩ := not_or.mp hwithin
  have hskip : skipMessages S st n =
      ({ st with
        skippedKeys := (skipLoop S pk (n - st.recvCount) st.recvCount chainKey st.skippedKeys).2
        recvChainKey := some
          (skipLoop S pk (n - st.recvCount) st.recvCount chainKey st.skippedKeys).1
        recvCount := n }, .ok ()) := by
    unfold skipMessages
    rw [hchain, hkey]
    dsimp only
    rw [if_neg hfew, if_neg hroom]
  unfold receive
  rw [hskip]

theorem receive_eq_self_iff (hchain : st.recvChainKey = some chainKey)
    (hkey : st.recvRatchetKey = some pk) (hwithin : ¬ BeyondLimits st n) (hn : n < u32Size)
    (hcount : st.recvCount < u32Size) (ct : Ct) (pk' : PublicKey) :
    (receive S st ct pk' n).1 = st ↔ n + 1 = st.recvCount ∧ (S.kdfChain chainKey).1 = chainKey := by
  rw [receive_of_within hchain hkey hwithin]
  constructor
  · intro heq
    have hrecv : wrappingSucc32 n = st.recvCount := congrArg RatchetState.recvCount heq
    have hfew : ¬ maxSkip < n - st.recvCount := fun hmany => hwithin (.inl hmany)
    have hlast : n + 1 = st.recvCount := by
      rw [wrappingSucc32] at hrecv
      rcases Nat.lt_or_ge (n + 1) u32Size with hsmall | hwrap
      · rwa [Nat.mod_eq_of_lt hsmall] at hrecv
      · -- a number that wraps is too far from the start of a chain
        have hfull : n + 1 = u32Size := by omega
        rw [hfull, Nat.mod_self] at hrecv
        rw [maxSkip, ← hrecv] at hfew
        rw [u32Size] at hfull
        omega
    have hchainKey := congrArg RatchetState.recvChainKey heq
    dsimp only at hchainKey
    rw [show n - st.recvCount = 0 by omega, skipLoop, hchain] at hchainKey
    exact ⟨hlast, Option.some.inj hchainKey⟩
  · rintro ⟨hlast, hstill⟩
    rw [show n - st.recvCount = 0 by omega, skipLoop, hstill, ← hchain,
      wrappingSucc32_of_lt (by omega), hlast]

theorem recvCount_skipMessages_lt (hcount : st.recvCount < u32Size) (hn : n < u32Size) :
    (skipMessages S st n).1.recvCount < u32Size := by
  obtain hsame | ⟨chainKey, pk, -, -, -, hskip⟩ := skipMessages_cases S st n
  · rw [hsame]
    exact hcount
  · rw [hskip]
    exact hn

theorem recvCount_receive_lt (hcount : st.recvCount < u32Size) (hn : n < u32Size) (ct : Ct) :
    (receive S st ct pk n).1.recvCount < u32Size := by
  obtain ⟨err, heq⟩ | ⟨chainKey, -, heq⟩ := receive_cases S st ct pk n
  · rw [heq]
    exact recvCount_skipMessages_lt hcount hn
  · rw [heq]
    exact Nat.mod_lt _ (by decide)

end Receive

theorem Reachable.recvCount_lt {st : RatchetState Key Secret} (h : Reachable S st) :
    st.recvCount < u32Size := by
  induction h with
  | initSender sharedSecret peer secret => exact (by decide : 0 < u32Size)
  | initReceiver sharedSecret secret => exact (by decide : 0 < u32Size)
  | encrypt h plaintext ih =>
    obtain hsame | ⟨chainKey, -, hmoved⟩ := encrypt_cases S _ plaintext
    · rwa [hsame]
    · rwa [hmoved]
  | decrypt h fresh ct pk hn ih =>
    unfold RatchetState.decrypt
    split
    · exact ih
    · refine recvCount_receive_lt ?_ hn ct
      split
      · exact (by decide : 0 < u32Size)
      · exact ih

/-! ## The three ways into `decrypt` -/

section Decrypt

variable {st : RatchetState Key Secret} {pk : PublicKey} {n : Nat}

theorem decrypt_ne_of_skipped {messageKey : Key}
    (hskipped : st.skippedKeys.lookup (pk, n) = some messageKey) (fresh : Secret) (ct : Ct) :
    (st.decrypt S fresh ct pk n).1 ≠ st := by
  intro heq
  have hlookup := congrArg (fun st : RatchetState Key Secret => st.skippedKeys.lookup (pk, n)) heq
  unfold RatchetState.decrypt at hlookup
  rw [hskipped] at hlookup
  dsimp only at hlookup
  rw [Finmap.lookup_erase] at hlookup
  cases hlookup

theorem recvRatchetKey_skipMessages (st : RatchetState Key Secret) (n : Nat) :
    (skipMessages S st n).1.recvRatchetKey = st.recvRatchetKey := by
  obtain hsame | ⟨chainKey, pk, -, -, -, hskip⟩ := skipMessages_cases S st n
  · rw [hsame]
  · rw [hskip]

theorem recvRatchetKey_receive (st : RatchetState Key Secret) (ct : Ct) (pk : PublicKey) (n : Nat) :
    (receive S st ct pk n).1.recvRatchetKey = st.recvRatchetKey := by
  have hskip := recvRatchetKey_skipMessages (S := S) st n
  obtain ⟨err, heq⟩ | ⟨chainKey, -, heq⟩ := receive_cases S st ct pk n
  · rw [heq]
    exact hskip
  · rw [heq]
    exact hskip

/-- A DH ratchet step puts the new key in the place of another one, or of none. -/
theorem decrypt_ne_of_ratchets (hnone : st.skippedKeys.lookup (pk, n) = none)
    (hkey : st.recvRatchetKey ≠ some pk) (fresh : Secret) (ct : Ct) :
    (st.decrypt S fresh ct pk n).1 ≠ st := by
  have hneed : st.needDhRatchet pk = true := by
    unfold needDhRatchet
    split
    · rfl
    · next existing heq =>
      rw [bne_iff_ne]
      rintro rfl
      exact hkey heq
  intro heq
  have hrecv := congrArg RatchetState.recvRatchetKey heq
  unfold RatchetState.decrypt at hrecv
  rw [hnone] at hrecv
  dsimp only at hrecv
  rw [recvRatchetKey_receive, if_pos hneed] at hrecv
  exact hkey hrecv.symm

theorem decrypt_of_sameKey (hnone : st.skippedKeys.lookup (pk, n) = none)
    (hkey : st.recvRatchetKey = some pk) (fresh : Secret) (ct : Ct) :
    st.decrypt S fresh ct pk n = receive S st ct pk n := by
  have hneed : st.needDhRatchet pk = false := by
    unfold needDhRatchet
    rw [hkey]
    exact bne_self_eq_false pk
  unfold RatchetState.decrypt
  rw [hnone]
  dsimp only
  rw [hneed, if_neg Bool.false_ne_true]

theorem decrypt_of_refused (h : Refused st pk n) (fresh : Secret) (ct : Ct) :
    (st.decrypt S fresh ct pk n).1 = st := by
  rw [decrypt_of_sameKey h.notSkipped h.sameKey]
  cases hchain : st.recvChainKey with
  | none =>
    obtain ⟨err, herr⟩ := receive_of_none (S := S) hchain ct pk n
    rw [herr]
  | some chainKey =>
    have hbeyond := h.refused.resolve_left (by rw [hchain]; exact Option.some_ne_none _)
    obtain ⟨err, herr⟩ := receive_of_beyond (S := S) hchain h.sameKey hbeyond ct pk
    rw [herr]

theorem decrypt_eq_self_iff (hcount : st.recvCount < u32Size) (hn : n < u32Size) (fresh : Secret)
    (ct : Ct) :
    (st.decrypt S fresh ct pk n).1 = st ↔ Refused st pk n ∨ Standstill S st pk n := by
  constructor
  · intro heq
    cases hskipped : st.skippedKeys.lookup (pk, n) with
    | some messageKey => exact absurd heq (decrypt_ne_of_skipped hskipped fresh ct)
    | none =>
      by_cases hkey : st.recvRatchetKey = some pk
      · rw [decrypt_of_sameKey hskipped hkey] at heq
        cases hchain : st.recvChainKey with
        | none => exact .inl ⟨hskipped, hkey, .inl hchain⟩
        | some chainKey =>
          by_cases hbeyond : BeyondLimits st n
          · exact .inl ⟨hskipped, hkey, .inr hbeyond⟩
          · obtain ⟨hlast, hstill⟩ :=
              (receive_eq_self_iff hchain hkey hbeyond hn hcount ct pk).mp heq
            exact .inr ⟨hskipped, hkey, hlast, chainKey, hchain, hstill⟩
      · exact absurd heq (decrypt_ne_of_ratchets hskipped hkey fresh ct)
  · rintro (hrefused | hstill)
    · exact decrypt_of_refused hrefused fresh ct
    · obtain ⟨chainKey, hchain, hfixed⟩ := hstill.chain
      by_cases hbeyond : BeyondLimits st n
      · exact decrypt_of_refused ⟨hstill.notSkipped, hstill.sameKey, .inr hbeyond⟩ fresh ct
      · rw [decrypt_of_sameKey hstill.notSkipped hstill.sameKey]
        exact (receive_eq_self_iff hchain hstill.sameKey hbeyond hn hcount ct pk).mpr
          ⟨hstill.last, hfixed⟩

end Decrypt

/-- **When a failed decryption leaves the ratchet intact.** For every reachable state and every
ciphertext, header key and message number: exactly if `decrypt` is refused before it writes anything,
or stands still, or does not fail. -/
theorem failed_decrypt_intact_iff (S : Suite Key Secret Ct) (st : RatchetState Key Secret)
    (hst : Reachable S st) (fresh : Secret) (ct : Ct) (pk : PublicKey) (n : Nat)
    (hn : n < u32Size) :
    (∀ err, (st.decrypt S fresh ct pk n).2 = .error err → (st.decrypt S fresh ct pk n).1 = st) ↔
      Refused st pk n ∨ Standstill S st pk n ∨
        ∃ plaintext, (st.decrypt S fresh ct pk n).2 = .ok plaintext := by
  have hself : (st.decrypt S fresh ct pk n).1 = st ↔ Refused st pk n ∨ Standstill S st pk n :=
    decrypt_eq_self_iff hst.recvCount_lt hn fresh ct
  rw [← or_assoc, ← hself]
  constructor
  · intro hintact
    cases hresult : (st.decrypt S fresh ct pk n).2 with
    | ok plaintext => exact .inr ⟨plaintext, rfl⟩
    | error err => exact .inl (hintact err hresult)
  · rintro (hsame | ⟨plaintext, hok⟩) err herr
    · exact hsame
    · rw [hok] at herr
      cases herr

/-- The initiator of a session, before its first message. -/
def initiator : RatchetState Array32 Array32 :=
  initSender Primitives.additive.suite (.ofNat 1) (.ofNat 3) (.ofNat 2)

/-- The initiator's ciphertext number `n`, each of them the byte `n`. -/
def initiatorCiphertext (n : Nat) : Bytes :=
  let sent := (List.range n).foldl
    (fun st i => (st.encrypt Primitives.additive.suite [UInt8.ofNat i]).1) initiator
  match (sent.encrypt Primitives.additive.suite [UInt8.ofNat n]).2 with
  | .ok (ciphertext, _) => ciphertext
  | .error _ => []

/-- The responder, after the initiator's first message. -/
def responder : RatchetState Array32 Array32 :=
  ((initReceiver Primitives.additive.suite (.ofNat 1) (.ofNat 3)).decrypt Primitives.additive.suite
    (.ofNat 4) (initiatorCiphertext 0) (.ofNat 2) 0).1

theorem responder_reachable : Reachable Primitives.additive.suite responder := by
  have hn : 0 < u32Size := by decide
  unfold responder
  exact .decrypt (.initReceiver _ _) _ _ _ hn

/-- A gap over `MAX_SKIP` is refused and changes nothing. -/
theorem failed_decrypt_intact_gap :
    Reachable Primitives.additive.suite responder ∧ Refused responder (.ofNat 2) 300 ∧
      ∀ err, (responder.decrypt Primitives.additive.suite (.ofNat 5) [0] (.ofNat 2) 300).2 =
          .error err →
        (responder.decrypt Primitives.additive.suite (.ofNat 5) [0] (.ofNat 2) 300).1 =
          responder := by
  have hrefused : Refused responder (.ofNat 2) 300 :=
    ⟨by decide +kernel, by decide +kernel, .inr (.inl (by decide +kernel))⟩
  exact ⟨responder_reachable, hrefused,
    (failed_decrypt_intact_iff Primitives.additive.suite responder responder_reachable (.ofNat 5) [0]
      (.ofNat 2) 300 (by decide)).mpr (.inl hrefused)⟩

/-- One byte under a made-up ratchet key fails, and the state is not the one before. The initiator's
next message, which the responder would have decrypted, then fails as well. -/
theorem forged_key_breaks_session :
    Reachable Primitives.additive.suite responder ∧
      (responder.decrypt Primitives.additive.suite (.ofNat 5) [0] (.ofNat 99) 0).2 =
        .error (.crypto "AES-GCM decryption failed: aead::Error") ∧
      (responder.decrypt Primitives.additive.suite (.ofNat 5) [0] (.ofNat 99) 0).1 ≠ responder ∧
      (responder.decrypt Primitives.additive.suite (.ofNat 6) (initiatorCiphertext 1) (.ofNat 2)
        1).2 = .ok [1] ∧
      ((responder.decrypt Primitives.additive.suite (.ofNat 5) [0] (.ofNat 99) 0).1.decrypt
        Primitives.additive.suite (.ofNat 6) (initiatorCiphertext 1) (.ofNat 2) 1).2 =
        .error (.crypto "AES-GCM decryption failed: aead::Error") :=
  ⟨responder_reachable, by decide +kernel, by decide +kernel, by decide +kernel, by decide +kernel⟩

end Cypher.Crypto.Verify
