import Cypher.Crypto.Suite
import Mathlib.Data.Finmap

/-!
# The Double Ratchet (`cypher-crypto/src/ratchet.rs`)

`RatchetState` with `init_sender`, `init_receiver`, `encrypt` and `decrypt`. A method that takes
`&mut self` returns the state it leaves behind together with its result, on the error paths too:
`decrypt` writes several fields before it can fail. The secret that `OsRng` yields in a DH ratchet
step is an argument. Counters are `u32` of a release build.
-/

namespace Cypher.Crypto

/-- `MAX_SKIP`: skipped message keys stored per ratchet step. -/
def maxSkip : Nat := 256

/-- `MAX_TOTAL_SKIPPED`: skipped message keys stored per session. -/
def maxTotalSkipped : Nat := 2048

/-- `HashMap<SkippedKey, [u8; 32]>`: message keys by ratchet public key and message number. -/
abbrev SkippedKeys (Key : Type) := Finmap fun _ : PublicKey × Nat => Key

structure RatchetState (Key Secret : Type) where
  rootKey : Key
  /-- `none` before the first DH ratchet step on the receiver's side. -/
  sendChainKey : Option Key
  /-- `none` before the first message under a new ratchet key. -/
  recvChainKey : Option Key
  sendRatchetSecret : Secret
  sendRatchetKey : PublicKey
  recvRatchetKey : Option PublicKey
  sendCount : Nat
  recvCount : Nat
  /-- The previous sending chain's length. It is kept, but no header carries it. -/
  prevSendCount : Nat
  skippedKeys : SkippedKeys Key
  deriving DecidableEq

namespace RatchetState

variable {Key Secret Ct : Type} (S : Suite Key Secret Ct)

def initSender (sharedSecret : Key) (peerRatchetPubkey : PublicKey) (ourRatchetSecret : Secret) :
    RatchetState Key Secret :=
  let dhOutput := S.diffieHellman ourRatchetSecret peerRatchetPubkey
  let keys := S.dhRatchet sharedSecret dhOutput
  { rootKey := keys.1
    sendChainKey := some keys.2
    recvChainKey := none
    sendRatchetSecret := ourRatchetSecret
    sendRatchetKey := S.publicKey ourRatchetSecret
    recvRatchetKey := some peerRatchetPubkey
    sendCount := 0
    recvCount := 0
    prevSendCount := 0
    skippedKeys := ∅ }

def initReceiver (sharedSecret : Key) (ourRatchetSecret : Secret) : RatchetState Key Secret :=
  { rootKey := sharedSecret
    sendChainKey := none
    recvChainKey := none
    sendRatchetSecret := ourRatchetSecret
    sendRatchetKey := S.publicKey ourRatchetSecret
    recvRatchetKey := none
    sendCount := 0
    recvCount := 0
    prevSendCount := 0
    skippedKeys := ∅ }

/-- `RatchetState::encrypt`: the ciphertext, the ratchet public key and the message number. -/
def encrypt (st : RatchetState Key Secret) (plaintext : Bytes) :
    RatchetState Key Secret × Result (Ct × PublicKey × Nat) :=
  match st.sendChainKey with
  | none => (st, .error (.crypto "send_chain_key must be initialized before encrypting"))
  | some sendChainKey =>
    let keys := S.kdfChain sendChainKey
    let msgNo := st.sendCount
    let st' := { st with sendChainKey := some keys.1, sendCount := wrappingSucc32 st.sendCount }
    -- the chain has advanced even if the cipher then fails
    match S.aeadEncrypt keys.2 (S.nonceMaterial keys.2 msgNo) plaintext st.sendRatchetKey.val with
    | .error e => (st', .error e)
    | .ok ciphertext => (st', .ok (ciphertext, st.sendRatchetKey, msgNo))

/-- The loop of `skip_messages`: `fuel` chain steps from message number `i` on, each message key
stored under `(recv_ratchet_key, i)`. -/
def skipLoop (recvRatchetKey : PublicKey) :
    (fuel i : Nat) → Key → SkippedKeys Key → Key × SkippedKeys Key
  | 0, _, chainKey, skipped => (chainKey, skipped)
  | fuel + 1, i, chainKey, skipped =>
    let keys := S.kdfChain chainKey
    skipLoop recvRatchetKey fuel (i + 1) keys.1 (skipped.insert (recvRatchetKey, i) keys.2)

/-- `RatchetState::skip_messages`. The range `recv_count..until` is empty when `until` lies below
`recv_count`, and `recv_count` is then set back to `until`. -/
def skipMessages (st : RatchetState Key Secret) (til : Nat) : RatchetState Key Secret × Result Unit :=
  match st.recvChainKey, st.recvRatchetKey with
  | some recvChainKey, some recvRatchetKey =>
    let toSkip := til - st.recvCount
    if toSkip > maxSkip then
      (st, .error (.crypto ("Too many skipped messages: " ++ toString toSkip)))
    else if st.skippedKeys.keys.card + toSkip > maxTotalSkipped then
      (st, .error (.crypto ("Global skipped key limit reached (" ++ toString maxTotalSkipped ++ ")")))
    else
      let out := skipLoop S recvRatchetKey toSkip st.recvCount recvChainKey st.skippedKeys
      ({ st with skippedKeys := out.2, recvChainKey := some out.1, recvCount := til }, .ok ())
  | _, _ => (st, .ok ())

/-- The DH ratchet step of `decrypt`: a receiving chain for the peer's new key, then a new key pair
of ours (`fresh`) and its sending chain. -/
def dhRatchetStep (st : RatchetState Key Secret) (fresh : Secret) (ratchetPubkey : PublicKey) :
    RatchetState Key Secret :=
  let recv := S.dhRatchet st.rootKey (S.diffieHellman st.sendRatchetSecret ratchetPubkey)
  let send := S.dhRatchet recv.1 (S.diffieHellman fresh ratchetPubkey)
  { st with
    prevSendCount := st.sendCount
    sendCount := 0
    recvCount := 0
    recvRatchetKey := some ratchetPubkey
    recvChainKey := some recv.2
    sendRatchetSecret := fresh
    sendRatchetKey := S.publicKey fresh
    rootKey := send.1
    sendChainKey := some send.2 }

/-- `need_dh_ratchet` of `decrypt`. -/
def needDhRatchet (st : RatchetState Key Secret) (ratchetPubkey : PublicKey) : Bool :=
  match st.recvRatchetKey with
  | none => true
  | some existing => existing != ratchetPubkey

/-- The rest of `decrypt`, common to both branches: skip to `msg_no`, take one step of the receiving
chain and open the ciphertext with the message key. -/
def receive (st : RatchetState Key Secret) (ciphertext : Ct) (ratchetPubkey : PublicKey)
    (msgNo : Nat) : RatchetState Key Secret × Result Bytes :=
  match skipMessages S st msgNo with
  | (st, .error e) => (st, .error e)
  | (st, .ok ()) =>
    match st.recvChainKey with
    | none => (st, .error (.crypto "recv_chain_key not initialized"))
    | some recvChainKey =>
      let keys := S.kdfChain recvChainKey
      ({ st with recvChainKey := some keys.1, recvCount := wrappingSucc32 st.recvCount },
        S.aeadDecrypt keys.2 (S.nonceMaterial keys.2 msgNo) ciphertext ratchetPubkey.val)

/-- `RatchetState::decrypt`; `fresh` is the secret `OsRng` yields if a DH ratchet step is made. -/
def decrypt (st : RatchetState Key Secret) (fresh : Secret) (ciphertext : Ct)
    (ratchetPubkey : PublicKey) (msgNo : Nat) : RatchetState Key Secret × Result Bytes :=
  match st.skippedKeys.lookup (ratchetPubkey, msgNo) with
  | some messageKey =>
    ({ st with skippedKeys := st.skippedKeys.erase (ratchetPubkey, msgNo) },
      S.aeadDecrypt messageKey (S.nonceMaterial messageKey msgNo) ciphertext ratchetPubkey.val)
  | none =>
    let st := if st.needDhRatchet ratchetPubkey then dhRatchetStep S st fresh ratchetPubkey else st
    receive S st ciphertext ratchetPubkey msgNo

/-- `decrypt` is about to make a DH ratchet step. -/
def Ratchets (st : RatchetState Key Secret) (ratchetPubkey : PublicKey) (msgNo : Nat) : Prop :=
  st.skippedKeys.lookup (ratchetPubkey, msgNo) = none ∧ st.needDhRatchet ratchetPubkey = true

instance (st : RatchetState Key Secret) (ratchetPubkey : PublicKey) (msgNo : Nat) :
    Decidable (st.Ratchets ratchetPubkey msgNo) :=
  match h : st.skippedKeys.lookup (ratchetPubkey, msgNo) with
  | none => decidable_of_iff (st.needDhRatchet ratchetPubkey = true) (by simp [Ratchets, h])
  | some _ => isFalse (by simp [Ratchets, h])

/-! ## What a call does to the state -/

/-- `encrypt` moves the sending chain if there is one, and nothing else. -/
theorem encrypt_cases (st : RatchetState Key Secret) (plaintext : Bytes) :
    (st.encrypt S plaintext).1 = st ∨
      ∃ chainKey, st.sendChainKey = some chainKey ∧
        (st.encrypt S plaintext).1 =
          { st with
            sendChainKey := some (S.kdfChain chainKey).1
            sendCount := wrappingSucc32 st.sendCount } := by
  unfold encrypt
  split
  · exact .inl rfl
  · next chainKey hchain =>
    refine .inr ⟨chainKey, hchain, ?_⟩
    dsimp only
    split <;> rfl

theorem skipMessages_cases (st : RatchetState Key Secret) (til : Nat) :
    (skipMessages S st til).1 = st ∨
      ∃ chainKey pk, st.recvChainKey = some chainKey ∧ til - st.recvCount ≤ maxSkip ∧
        st.skippedKeys.keys.card + (til - st.recvCount) ≤ maxTotalSkipped ∧
        (skipMessages S st til).1 =
          { st with
            skippedKeys :=
              (skipLoop S pk (til - st.recvCount) st.recvCount chainKey st.skippedKeys).2
            recvChainKey :=
              some (skipLoop S pk (til - st.recvCount) st.recvCount chainKey st.skippedKeys).1
            recvCount := til } := by
  unfold skipMessages
  split
  · next chainKey pk hchain _ =>
    dsimp only
    split
    · exact .inl rfl
    · next hfew =>
      split
      · exact .inl rfl
      · next hroom =>
        exact .inr ⟨chainKey, pk, hchain, Nat.le_of_not_gt hfew, Nat.le_of_not_gt hroom, rfl⟩
  · exact .inl rfl

theorem receive_cases (st : RatchetState Key Secret) (ct : Ct) (pk : PublicKey) (n : Nat) :
    (∃ err, receive S st ct pk n = ((skipMessages S st n).1, .error err)) ∨
      ∃ chainKey, (skipMessages S st n).1.recvChainKey = some chainKey ∧
        receive S st ct pk n =
          ({ (skipMessages S st n).1 with
              recvChainKey := some (S.kdfChain chainKey).1
              recvCount := wrappingSucc32 (skipMessages S st n).1.recvCount },
            S.aeadDecrypt (S.kdfChain chainKey).2 (S.nonceMaterial (S.kdfChain chainKey).2 n) ct
              pk.val) := by
  unfold receive
  split
  · next st' err heq =>
    rw [heq]
    exact .inl ⟨err, rfl⟩
  · next st' heq =>
    rw [heq]
    split
    · exact .inl ⟨_, rfl⟩
    · next chainKey hchain => exact .inr ⟨chainKey, hchain, rfl⟩

variable {S} in
theorem receive_refused {st : RatchetState Key Secret} {chainKey : Key} {key : PublicKey} {n : Nat}
    (hchain : st.recvChainKey = some chainKey) (hkey : st.recvRatchetKey = some key)
    (hbeyond : ¬ (n - st.recvCount ≤ maxSkip ∧
      st.skippedKeys.keys.card + (n - st.recvCount) ≤ maxTotalSkipped)) (ct : Ct) (pk : PublicKey) :
    ∃ err, receive S st ct pk n = (st, .error err) := by
  unfold receive skipMessages
  simp only [hchain, hkey]
  by_cases hmany : n - st.recvCount > maxSkip
  · simp only [if_pos hmany]
    exact ⟨_, rfl⟩
  · have hfull : st.skippedKeys.keys.card + (n - st.recvCount) > maxTotalSkipped := by
      by_contra hroom
      exact hbeyond ⟨Nat.not_lt.mp hmany, Nat.not_lt.mp hroom⟩
    simp only [if_neg hmany, if_pos hfull]
    exact ⟨_, rfl⟩

/-- The fields that `receive` does not write. -/
structure SameSender (st st' : RatchetState Key Secret) : Prop where
  rootKey : st'.rootKey = st.rootKey
  sendChainKey : st'.sendChainKey = st.sendChainKey
  sendRatchetKey : st'.sendRatchetKey = st.sendRatchetKey

theorem skipMessages_sameSender (st : RatchetState Key Secret) (til : Nat) :
    SameSender st (skipMessages S st til).1 := by
  obtain hsame | ⟨chainKey, pk, -, -, -, hskip⟩ := skipMessages_cases S st til
  · rw [hsame]
    exact ⟨rfl, rfl, rfl⟩
  · rw [hskip]
    exact ⟨rfl, rfl, rfl⟩

theorem receive_sameSender (st : RatchetState Key Secret) (ct : Ct) (pk : PublicKey) (n : Nat) :
    SameSender st (receive S st ct pk n).1 := by
  have hskip := skipMessages_sameSender S st n
  obtain ⟨err, heq⟩ | ⟨chainKey, -, heq⟩ := receive_cases S st ct pk n
  · rw [heq]
    exact hskip
  · rw [heq]
    exact ⟨hskip.rootKey, hskip.sendChainKey, hskip.sendRatchetKey⟩

end RatchetState

end Cypher.Crypto
