import Cypher.Lib.Counted
import Cypher.Crypto.Verify.FailedDecrypt

/-!
# The bounds on skipped keys

A header is not authenticated before `decrypt` acts on it: its ratchet key may start a new receiving
chain, and its message number moves `recv_count` to any value. What bounds the work and the memory is
`skip_messages` alone, by two checks made before its loop. `BoundedGrowth` says what one call may do to
the map; that it holds of every branch of `decrypt` gives the bound over all runs.

The calls of `kdf_chain` are counted by a copy of `decrypt` in `Lib.Counted`, which computes the same
result (`value_decryptCounted`).
-/

namespace Cypher.Crypto.Verify

open RatchetState
open Lib (Counted)

variable {Key Secret Ct : Type} {S : Suite Key Secret Ct}

/-! ## Counting `kdf_chain` -/

section Counting

variable (S)

def skipLoopCounted (recvRatchetKey : PublicKey) :
    (fuel i : Nat) → Key → SkippedKeys Key → Counted (Key × SkippedKeys Key)
  | 0, _, chainKey, skipped => pure (chainKey, skipped)
  | fuel + 1, i, chainKey, skipped => do
    let keys ← Counted.tick (S.kdfChain chainKey)
    skipLoopCounted recvRatchetKey fuel (i + 1) keys.1 (skipped.insert (recvRatchetKey, i) keys.2)

def skipMessagesCounted (st : RatchetState Key Secret) (til : Nat) :
    Counted (RatchetState Key Secret × Result Unit) :=
  match st.recvChainKey, st.recvRatchetKey with
  | some recvChainKey, some recvRatchetKey =>
    let toSkip := til - st.recvCount
    if toSkip > maxSkip then
      pure (st, .error (.crypto ("Too many skipped messages: " ++ toString toSkip)))
    else if st.skippedKeys.keys.card + toSkip > maxTotalSkipped then
      pure (st,
        .error (.crypto ("Global skipped key limit reached (" ++ toString maxTotalSkipped ++ ")")))
    else do
      let out ← skipLoopCounted S recvRatchetKey toSkip st.recvCount recvChainKey st.skippedKeys
      pure ({ st with skippedKeys := out.2, recvChainKey := some out.1, recvCount := til }, .ok ())
  | _, _ => pure (st, .ok ())

def receiveCounted (st : RatchetState Key Secret) (ciphertext : Ct) (ratchetPubkey : PublicKey)
    (msgNo : Nat) : Counted (RatchetState Key Secret × Result Bytes) := do
  match ← skipMessagesCounted S st msgNo with
  | (st, .error e) => pure (st, .error e)
  | (st, .ok ()) =>
    match st.recvChainKey with
    | none => pure (st, .error (.crypto "recv_chain_key not initialized"))
    | some recvChainKey =>
      let keys ← Counted.tick (S.kdfChain recvChainKey)
      pure ({ st with recvChainKey := some keys.1, recvCount := wrappingSucc32 st.recvCount },
        S.aeadDecrypt keys.2 (S.nonceMaterial keys.2 msgNo) ciphertext ratchetPubkey.val)

/-- `decrypt` with the number of `kdf_chain` calls it makes. -/
def decryptCounted (st : RatchetState Key Secret) (fresh : Secret) (ciphertext : Ct)
    (ratchetPubkey : PublicKey) (msgNo : Nat) :
    Counted (RatchetState Key Secret × Result Bytes) :=
  match st.skippedKeys.lookup (ratchetPubkey, msgNo) with
  | some messageKey =>
    pure ({ st with skippedKeys := st.skippedKeys.erase (ratchetPubkey, msgNo) },
      S.aeadDecrypt messageKey (S.nonceMaterial messageKey msgNo) ciphertext ratchetPubkey.val)
  | none =>
    let st := if st.needDhRatchet ratchetPubkey then dhRatchetStep S st fresh ratchetPubkey else st
    receiveCounted S st ciphertext ratchetPubkey msgNo

end Counting

theorem value_skipLoopCounted (pk : PublicKey) (fuel i : Nat) (chainKey : Key)
    (skipped : SkippedKeys Key) :
    (skipLoopCounted S pk fuel i chainKey skipped).value =
      skipLoop S pk fuel i chainKey skipped := by
  induction fuel generalizing i chainKey skipped with
  | zero => rfl
  | succ fuel ih =>
    rw [skipLoopCounted, skipLoop, Counted.value_bind]
    exact ih _ _ _

theorem steps_skipLoopCounted (pk : PublicKey) (fuel i : Nat) (chainKey : Key)
    (skipped : SkippedKeys Key) :
    (skipLoopCounted S pk fuel i chainKey skipped).steps = fuel := by
  induction fuel generalizing i chainKey skipped with
  | zero => rfl
  | succ fuel ih =>
    rw [skipLoopCounted, Counted.steps_bind, Counted.steps_tick, ih]
    exact Nat.add_comm 1 fuel

theorem value_skipMessagesCounted (st : RatchetState Key Secret) (n : Nat) :
    (skipMessagesCounted S st n).value = skipMessages S st n := by
  unfold skipMessagesCounted skipMessages
  cases st.recvChainKey with
  | none => rfl
  | some chainKey =>
    cases st.recvRatchetKey with
    | none => rfl
    | some pk =>
      dsimp only
      by_cases hmany : n - st.recvCount > maxSkip
      · rw [if_pos hmany, if_pos hmany, Counted.value_pure]
      · by_cases hfull : st.skippedKeys.keys.card + (n - st.recvCount) > maxTotalSkipped
        · rw [if_neg hmany, if_neg hmany, if_pos hfull, if_pos hfull, Counted.value_pure]
        · rw [if_neg hmany, if_neg hmany, if_neg hfull, if_neg hfull, Counted.value_bind,
            Counted.value_pure, value_skipLoopCounted]

/-- The loop is entered with at most `MAX_SKIP` messages to skip. -/
theorem steps_skipMessagesCounted_le (st : RatchetState Key Secret) (n : Nat) :
    (skipMessagesCounted S st n).steps ≤ maxSkip := by
  unfold skipMessagesCounted
  split
  · dsimp only
    split
    · exact Nat.zero_le _
    · next hfew =>
      split
      · exact Nat.zero_le _
      · rw [Counted.steps_bind, steps_skipLoopCounted, Counted.steps_pure]
        exact Nat.le_of_not_gt hfew
  · exact Nat.zero_le _

theorem value_receiveCounted (st : RatchetState Key Secret) (ct : Ct) (pk : PublicKey) (n : Nat) :
    (receiveCounted S st ct pk n).value = receive S st ct pk n := by
  unfold receiveCounted receive
  rw [Counted.value_bind, value_skipMessagesCounted]
  obtain ⟨st', result⟩ := skipMessages S st n
  cases result with
  | error err => rfl
  | ok _ =>
    dsimp only
    cases st'.recvChainKey with
    | none => rfl
    | some chainKey => rfl

theorem steps_receiveCounted_le (st : RatchetState Key Secret) (ct : Ct) (pk : PublicKey)
    (n : Nat) : (receiveCounted S st ct pk n).steps ≤ maxSkip + 1 := by
  have hskip := steps_skipMessagesCounted_le (S := S) st n
  unfold receiveCounted
  rw [Counted.steps_bind]
  refine Nat.add_le_add hskip ?_
  split
  · exact Nat.zero_le _
  · split
    · exact Nat.zero_le _
    · exact Nat.le_refl 1

theorem value_decryptCounted (st : RatchetState Key Secret) (fresh : Secret) (ct : Ct)
    (pk : PublicKey) (n : Nat) :
    (decryptCounted S st fresh ct pk n).value = st.decrypt S fresh ct pk n := by
  unfold decryptCounted RatchetState.decrypt
  cases st.skippedKeys.lookup (pk, n) with
  | some messageKey => rfl
  | none => exact value_receiveCounted _ ct pk n

theorem steps_decryptCounted_le (st : RatchetState Key Secret) (fresh : Secret) (ct : Ct)
    (pk : PublicKey) (n : Nat) : (decryptCounted S st fresh ct pk n).steps ≤ maxSkip + 1 := by
  unfold decryptCounted
  split
  · exact Nat.zero_le _
  · exact steps_receiveCounted_le _ ct pk n

/-! ## What one call stores -/

/-- Every entry of `new` outside `added` is an entry of `old`. -/
def EntriesFrom (added : Finset (PublicKey × Nat)) (old new : SkippedKeys Key) : Prop :=
  ∀ k messageKey, new.lookup k = some messageKey → k ∈ added ∨ old.lookup k = some messageKey

theorem EntriesFrom.card_le {added : Finset (PublicKey × Nat)} {old new : SkippedKeys Key}
    (h : EntriesFrom added old new) : new.keys.card ≤ old.keys.card + added.card := by
  have hsub : new.keys ⊆ old.keys ∪ added := by
    intro k hk
    obtain ⟨messageKey, hlookup⟩ := Finmap.mem_iff.mp (Finmap.mem_keys.mp hk)
    rcases h k messageKey hlookup with hadded | hold
    · exact Finset.mem_union_right _ hadded
    · exact Finset.mem_union_left _ (Finmap.mem_keys.mpr (Finmap.mem_iff.mpr ⟨messageKey, hold⟩))
  exact (Finset.card_le_card hsub).trans (Finset.card_union_le _ _)

/-- What one call may do to the skipped keys: at most `MAX_SKIP` of the entries are new, and the total
stays within its limit. -/
structure BoundedGrowth (old new : SkippedKeys Key) : Prop where
  added : ∃ added, added.card ≤ maxSkip ∧ EntriesFrom added old new
  total : old.keys.card ≤ maxTotalSkipped → new.keys.card ≤ maxTotalSkipped

theorem BoundedGrowth.refl (skipped : SkippedKeys Key) : BoundedGrowth skipped skipped :=
  ⟨⟨∅, Nat.zero_le _, fun _ _ hlookup => .inr hlookup⟩, id⟩

theorem BoundedGrowth.erase (skipped : SkippedKeys Key) (k : PublicKey × Nat) :
    BoundedGrowth skipped (skipped.erase k) := by
  have hentries : EntriesFrom ∅ skipped (skipped.erase k) := by
    intro k' messageKey hlookup
    by_cases heq : k' = k
    · rw [heq, Finmap.lookup_erase] at hlookup
      cases hlookup
    · rw [Finmap.lookup_erase_ne heq] at hlookup
      exact .inr hlookup
  exact ⟨⟨∅, Nat.zero_le _, hentries⟩, hentries.card_le.trans⟩

theorem entriesFrom_skipLoop (pk : PublicKey) (fuel i : Nat) (chainKey : Key)
    (skipped : SkippedKeys Key) :
    EntriesFrom ((Finset.range fuel).image fun j => (pk, i + j)) skipped
      (skipLoop S pk fuel i chainKey skipped).2 := by
  induction fuel generalizing i chainKey skipped with
  | zero => exact fun _ _ hlookup => .inr hlookup
  | succ fuel ih =>
    intro k messageKey hlookup
    rw [skipLoop] at hlookup
    rcases ih _ _ _ k messageKey hlookup with hlater | hbefore
    · obtain ⟨j, hj, rfl⟩ := Finset.mem_image.mp hlater
      refine .inl (Finset.mem_image.mpr ⟨j + 1, ?_, ?_⟩)
      · exact Finset.mem_range.mpr (Nat.succ_lt_succ (Finset.mem_range.mp hj))
      · rw [Nat.add_right_comm, Nat.add_assoc]
    · by_cases heq : k = (pk, i)
      · exact .inl (Finset.mem_image.mpr ⟨0, Finset.mem_range.mpr (Nat.succ_pos fuel), heq.symm⟩)
      · rw [Finmap.lookup_insert_of_ne _ heq] at hbefore
        exact .inr hbefore

theorem boundedGrowth_skipMessages (st : RatchetState Key Secret) (n : Nat) :
    BoundedGrowth st.skippedKeys (skipMessages S st n).1.skippedKeys := by
  obtain hsame | ⟨chainKey, pk, -, hfew, hroom, hskip⟩ := skipMessages_cases S st n
  · rw [hsame]
    exact .refl _
  · rw [hskip]
    have hentries := entriesFrom_skipLoop (S := S) pk (n - st.recvCount) st.recvCount chainKey
      st.skippedKeys
    have hcard : ((Finset.range (n - st.recvCount)).image fun j => (pk, st.recvCount + j)).card
        ≤ n - st.recvCount :=
      Finset.card_image_le.trans_eq (Finset.card_range _)
    refine ⟨⟨_, hcard.trans hfew, hentries⟩, fun _ => ?_⟩
    -- the check leaves room for every key of the loop
    exact (hentries.card_le.trans (Nat.add_le_add_left hcard _)).trans hroom

theorem skippedKeys_receive (st : RatchetState Key Secret) (ct : Ct) (pk : PublicKey) (n : Nat) :
    (receive S st ct pk n).1.skippedKeys = (skipMessages S st n).1.skippedKeys := by
  obtain ⟨err, heq⟩ | ⟨chainKey, -, heq⟩ := receive_cases S st ct pk n
  · rw [heq]
  · rw [heq]

theorem boundedGrowth_decrypt (st : RatchetState Key Secret) (fresh : Secret) (ct : Ct)
    (pk : PublicKey) (n : Nat) :
    BoundedGrowth st.skippedKeys (st.decrypt S fresh ct pk n).1.skippedKeys := by
  unfold RatchetState.decrypt
  split
  · exact .erase _ _
  · dsimp only
    rw [skippedKeys_receive]
    -- a DH ratchet step keeps the map, whatever it does to the chains
    have hsame : (if st.needDhRatchet pk then dhRatchetStep S st fresh pk else st).skippedKeys =
        st.skippedKeys := by
      split <;> rfl
    rw [← hsame]
    exact boundedGrowth_skipMessages _ n

theorem skippedKeys_encrypt (st : RatchetState Key Secret) (plaintext : Bytes) :
    (st.encrypt S plaintext).1.skippedKeys = st.skippedKeys := by
  obtain hsame | ⟨chainKey, -, hmoved⟩ := encrypt_cases S st plaintext
  · rw [hsame]
  · rw [hmoved]

theorem Reachable.card_skippedKeys_le {st : RatchetState Key Secret} (h : Reachable S st) :
    st.skippedKeys.keys.card ≤ maxTotalSkipped := by
  induction h with
  | initSender sharedSecret peer secret => exact Nat.zero_le _
  | initReceiver sharedSecret secret => exact Nat.zero_le _
  | encrypt h plaintext ih => rwa [skippedKeys_encrypt]
  | decrypt h fresh ct pk hn ih => exact (boundedGrowth_decrypt _ fresh ct pk _).total ih

/-- **Skipped-key memory and work are bounded.** In every state that `encrypt` and `decrypt` reach
with any arguments, the map is within `MAX_TOTAL_SKIPPED`; and a call of `decrypt` there, with any
arguments, adds at most `MAX_SKIP` entries and makes at most `MAX_SKIP + 1` steps of `kdf_chain`. -/
theorem skipped_keys_bounded (S : Suite Key Secret Ct) (st : RatchetState Key Secret)
    (hst : Reachable S st) :
    st.skippedKeys.keys.card ≤ maxTotalSkipped ∧
      ∀ (fresh : Secret) (ct : Ct) (pk : PublicKey) (n : Nat),
        (∃ added, added.card ≤ maxSkip ∧
          EntriesFrom added st.skippedKeys (st.decrypt S fresh ct pk n).1.skippedKeys) ∧
        (decryptCounted S st fresh ct pk n).value = st.decrypt S fresh ct pk n ∧
        (decryptCounted S st fresh ct pk n).steps ≤ maxSkip + 1 :=
  ⟨hst.card_skippedKeys_le, fun fresh ct pk n =>
    ⟨(boundedGrowth_decrypt st fresh ct pk n).added, value_decryptCounted st fresh ct pk n,
      steps_decryptCounted_le st fresh ct pk n⟩⟩

/-- The responder is asked for message 5 when it has received message 0: four keys, five steps. -/
theorem skipped_keys_bounded_gap :
    Reachable Primitives.additive.suite responder ∧
      ((responder.decrypt Primitives.additive.suite (.ofNat 5) [0] (.ofNat 2) 5).1.skippedKeys
        ).keys.card = 4 ∧
      (decryptCounted Primitives.additive.suite responder (.ofNat 5) [0] (.ofNat 2) 5).steps = 5 ∧
      (decryptCounted Primitives.additive.suite responder (.ofNat 5) [0] (.ofNat 2) 5).steps
        ≤ maxSkip + 1 :=
  ⟨responder_reachable, by decide +kernel, by decide +kernel,
    ((skipped_keys_bounded Primitives.additive.suite responder responder_reachable).2 (.ofNat 5) [0]
      (.ofNat 2) 5).2.2⟩

end Cypher.Crypto.Verify
