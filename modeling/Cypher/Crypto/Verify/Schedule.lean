import Cypher.Crypto.Ratchet

/-!
# The key schedule of a session

All ratchet key pairs of a session, in the order in which they are generated, form one sequence: the
receiver's signed pre-key (0), the sender's first key (1), the receiver's answer (2), and so on. Each
pair of neighbours contributes one DH output (`link`), which turns the root key into the next one
and starts one sending chain. `Schedule` is this sequence and the shared secret; `root`, `chainKey`
and `messageKey` read the derived keys off it.

A party that owns key `e` is *in epoch `e`* (`InEpoch`): its fields are the schedule's values at `e`
and it receives on chain `e - 1`. The lemmas here say what the operations of `ratchet.rs` do to a
party in epoch `e`; two parties and the messages between them are the subject of `Session`.
-/

namespace Cypher.Crypto.Verify

variable {Key Secret Ct : Type}

/-- The shared secret and the ratchet secrets of a session in the order of their generation. -/
structure Schedule (Key Secret : Type) where
  shared : Key
  secret : Nat → Secret

namespace Schedule

section Keys

variable (S : Suite Key Secret Ct) (K : Schedule Key Secret)

def ratchetKey (i : Nat) : PublicKey :=
  S.publicKey (K.secret i)

/-- The DH output between the neighbouring keys `i` and `i + 1`. -/
def link (i : Nat) : Key :=
  S.diffieHellman (K.secret i) (K.ratchetKey S (i + 1))

def root : Nat → Key
  | 0 => K.shared
  | i + 1 => (S.dhRatchet (root i) (K.link S i)).1

/-- The first chain key of chain `i`; there is no chain 0. -/
def chainStart : Nat → Key
  | 0 => K.shared
  | i + 1 => (S.dhRatchet (K.root S i) (K.link S i)).2

def chainKey (i n : Nat) : Key :=
  (fun ck => (S.kdfChain ck).1)^[n] (K.chainStart S i)

def messageKey (i n : Nat) : Key :=
  (S.kdfChain (K.chainKey S i n)).2

end Keys

def extend (K : Schedule Key Secret) (i : Nat) (s : Secret) : Schedule Key Secret :=
  { K with secret := Function.update K.secret i s }

variable {S : Suite Key Secret Ct} {K : Schedule Key Secret}

theorem kdfChain_chainKey (i n : Nat) :
    S.kdfChain (K.chainKey S i n) = (K.chainKey S i (n + 1), K.messageKey S i n) := by
  unfold messageKey chainKey
  rw [Function.iterate_succ_apply']

@[simp] theorem extend_secret_self (i : Nat) (s : Secret) : (K.extend i s).secret i = s := by
  simp [extend]

theorem extend_secret_of_ne {i j : Nat} (h : j ≠ i) (s : Secret) :
    (K.extend i s).secret j = K.secret j := by
  simp [extend, h]

theorem ratchetKey_extend {i j : Nat} (h : j ≠ i) (s : Secret) :
    (K.extend i s).ratchetKey S j = K.ratchetKey S j := by
  simp only [ratchetKey, extend_secret_of_ne h]

theorem link_extend {i j : Nat} (h : j + 1 < i) (s : Secret) :
    (K.extend i s).link S j = K.link S j := by
  simp only [link, extend_secret_of_ne (show j ≠ i by omega),
    ratchetKey_extend (show j + 1 ≠ i by omega)]

theorem root_extend {i j : Nat} (h : j < i) (s : Secret) :
    (K.extend i s).root S j = K.root S j := by
  induction j with
  | zero => rfl
  | succ j ih => simp only [root, ih (by omega), link_extend h]

theorem chainStart_extend {i j : Nat} (h : j < i) (s : Secret) :
    (K.extend i s).chainStart S j = K.chainStart S j := by
  cases j with
  | zero => rfl
  | succ j => simp only [chainStart, root_extend (show j < i by omega), link_extend h]

theorem chainKey_extend {i j : Nat} (h : j < i) (s : Secret) (n : Nat) :
    (K.extend i s).chainKey S j n = K.chainKey S j n := by
  simp only [chainKey, chainStart_extend h]

theorem messageKey_extend {i j : Nat} (h : j < i) (s : Secret) (n : Nat) :
    (K.extend i s).messageKey S j n = K.messageKey S j n := by
  simp only [messageKey, chainKey_extend h]

end Schedule

/-! ## A party in an epoch -/

/-- The party owns ratchet key `e` and receives on chain `e - 1`. Epoch 0 is the receiver before its
first message, epoch 1 the sender before its first. -/
structure InEpoch (S : Suite Key Secret Ct) (K : Schedule Key Secret) (e : Nat)
    (st : RatchetState Key Secret) : Prop where
  root : st.rootKey = K.root S e
  secret : st.sendRatchetSecret = K.secret e
  ratchetKey : st.sendRatchetKey = K.ratchetKey S e
  sendChain : st.sendChainKey = if e = 0 then none else some (K.chainKey S e st.sendCount)
  recvKey : st.recvRatchetKey = if e = 0 then none else some (K.ratchetKey S (e - 1))
  recvChain : st.recvChainKey = if e ≤ 1 then none else some (K.chainKey S (e - 1) st.recvCount)

variable {S : Suite Key Secret Ct} {K : Schedule Key Secret} {e : Nat} {st : RatchetState Key Secret}

theorem initReceiver_inEpoch : InEpoch S K 0 (.initReceiver S K.shared (K.secret 0)) :=
  ⟨rfl, rfl, rfl, rfl, rfl, rfl⟩

/-- `init_sender` puts a party in epoch 1: its DH output with the peer's key is the peer's with its
own. -/
theorem initSender_inEpoch (hdh : S.DhCommutes) :
    InEpoch S K 1 (.initSender S K.shared (K.ratchetKey S 0) (K.secret 1)) := by
  have hlink : S.diffieHellman (K.secret 1) (K.ratchetKey S 0) = K.link S 0 :=
    hdh (K.secret 1) (K.secret 0)
  refine ⟨?_, rfl, rfl, ?_, rfl, rfl⟩
  · simp only [RatchetState.initSender, hlink, Schedule.root]
  · simp only [RatchetState.initSender, hlink, Nat.one_ne_zero, if_false]
    rfl

namespace InEpoch

/-- Replacing a later secret of the schedule changes nothing a party in epoch `e` knows. -/
theorem extend (h : InEpoch S K e st) {i : Nat} (hi : e < i) (s : Secret) :
    InEpoch S (K.extend i s) e st := by
  refine ⟨?_, ?_, ?_, ?_, ?_, ?_⟩
  · rw [Schedule.root_extend hi, h.root]
  · rw [Schedule.extend_secret_of_ne (by omega), h.secret]
  · rw [Schedule.ratchetKey_extend (by omega), h.ratchetKey]
  · rw [Schedule.chainKey_extend hi, h.sendChain]
  · rw [Schedule.ratchetKey_extend (by omega), h.recvKey]
  · rw [Schedule.chainKey_extend (by omega), h.recvChain]

/-- Only the schedule's values at `e` and `e - 1` and the two counters enter `InEpoch`. -/
theorem congr {st' : RatchetState Key Secret} (h : InEpoch S K e st)
    (hroot : st'.rootKey = st.rootKey) (hsecret : st'.sendRatchetSecret = st.sendRatchetSecret)
    (hkey : st'.sendRatchetKey = st.sendRatchetKey) (hsend : st'.sendChainKey = st.sendChainKey)
    (hrecv : st'.recvRatchetKey = st.recvRatchetKey) (hchain : st'.recvChainKey = st.recvChainKey)
    (hsc : st'.sendCount = st.sendCount) (hrc : st'.recvCount = st.recvCount) :
    InEpoch S K e st' :=
  ⟨hroot ▸ h.root, hsecret ▸ h.secret, hkey ▸ h.ratchetKey,
    by rw [hsend, hsc]; exact h.sendChain, hrecv ▸ h.recvKey,
    by rw [hchain, hrc]; exact h.recvChain⟩

theorem encrypt (h : InEpoch S K e st) {plaintext : Bytes} {ct : Ct} {pk : PublicKey} {n : Nat}
    {st' : RatchetState Key Secret} (hst : st.encrypt S plaintext = (st', .ok (ct, pk, n))) :
    e ≠ 0 ∧ pk = K.ratchetKey S e ∧ n = st.sendCount ∧
      S.aeadEncrypt (K.messageKey S e n) (S.nonceMaterial (K.messageKey S e n) n) plaintext pk.val
        = .ok ct ∧
      st' = { st with sendChainKey := some (K.chainKey S e (n + 1)),
                      sendCount := wrappingSucc32 n } := by
  have hsend := h.sendChain
  unfold RatchetState.encrypt at hst
  by_cases he : e = 0
  · rw [hsend, if_pos he] at hst
    simp at hst
  · rw [hsend, if_neg he] at hst
    simp only [Schedule.kdfChain_chainKey] at hst
    split at hst
    · simp at hst
    · next c hc =>
      simp only [Prod.mk.injEq, Except.ok.injEq] at hst
      obtain ⟨hst', rfl, rfl, rfl⟩ := hst
      exact ⟨he, h.ratchetKey, rfl, hc, hst'.symm⟩

/-- The DH ratchet step on the peer's next key moves a party from epoch `e` to `e + 2`; the sampled
secret becomes key `e + 2` of the schedule. -/
theorem dhRatchetStep (hdh : S.DhCommutes) (h : InEpoch S K e st) (fresh : Secret) :
    InEpoch S (K.extend (e + 2) fresh) (e + 2)
      (st.dhRatchetStep S fresh (K.ratchetKey S (e + 1))) := by
  have hroot : (K.extend (e + 2) fresh).root S e = K.root S e := Schedule.root_extend (by omega) _
  have hkey : (K.extend (e + 2) fresh).ratchetKey S (e + 1) = K.ratchetKey S (e + 1) :=
    Schedule.ratchetKey_extend (by omega) _
  have hrecv : S.diffieHellman st.sendRatchetSecret (K.ratchetKey S (e + 1)) =
      (K.extend (e + 2) fresh).link S e := by
    rw [Schedule.link_extend (by omega), h.secret]
    rfl
  have hsend : S.diffieHellman fresh (K.ratchetKey S (e + 1)) =
      (K.extend (e + 2) fresh).link S (e + 1) := by
    have hcomm := hdh fresh ((K.extend (e + 2) fresh).secret (e + 1))
    change S.diffieHellman fresh ((K.extend (e + 2) fresh).ratchetKey S (e + 1)) = _ at hcomm
    rw [hkey] at hcomm
    rw [hcomm]
    simp only [Schedule.link, Schedule.ratchetKey, Schedule.extend_secret_self]
  have hroot1 : (S.dhRatchet st.rootKey ((K.extend (e + 2) fresh).link S e)).1 =
      (K.extend (e + 2) fresh).root S (e + 1) := by
    rw [h.root, ← hroot]
    rfl
  refine ⟨?_, ?_, ?_, ?_, ?_, ?_⟩
  · simp only [RatchetState.dhRatchetStep, hrecv, hsend, hroot1]
    rfl
  · simp [RatchetState.dhRatchetStep]
  · simp [RatchetState.dhRatchetStep, Schedule.ratchetKey]
  · simp only [RatchetState.dhRatchetStep, hrecv, hsend, hroot1]
    rfl
  · simp only [RatchetState.dhRatchetStep, Nat.add_eq_zero_iff, OfNat.ofNat_ne_zero, and_false,
      if_false]
    rw [← hkey]
    rfl
  · simp only [RatchetState.dhRatchetStep, hrecv, h.root, ← hroot]
    rw [if_neg (by omega)]
    rfl

end InEpoch

/-! ## Skipping along a chain -/

theorem skipLoop_spec (pk : PublicKey) (j fuel i : Nat) (skipped : SkippedKeys Key) :
    (RatchetState.skipLoop S pk fuel i (K.chainKey S j i) skipped).1 = K.chainKey S j (i + fuel) ∧
      ∀ q m, (RatchetState.skipLoop S pk fuel i (K.chainKey S j i) skipped).2.lookup (q, m) =
        if q = pk ∧ i ≤ m ∧ m < i + fuel then some (K.messageKey S j m)
        else skipped.lookup (q, m) := by
  induction fuel generalizing i skipped with
  | zero =>
    refine ⟨rfl, fun q m => ?_⟩
    rw [if_neg (by omega)]
    rfl
  | succ fuel ih =>
    simp only [RatchetState.skipLoop, Schedule.kdfChain_chainKey]
    obtain ⟨hck, hlook⟩ := ih (i + 1) (skipped.insert (pk, i) (K.messageKey S j i))
    refine ⟨by rw [hck]; congr 1; omega, fun q m => ?_⟩
    rw [hlook]
    by_cases hin : q = pk ∧ i + 1 ≤ m ∧ m < i + 1 + fuel
    · rw [if_pos hin, if_pos ⟨hin.1, by omega, by omega⟩]
    · rw [if_neg hin]
      by_cases hhead : (q, m) = (pk, i)
      · obtain ⟨rfl, rfl⟩ := Prod.mk.inj hhead
        rw [Finmap.lookup_insert, if_pos ⟨rfl, Nat.le_refl _, by omega⟩]
      · rw [Finmap.lookup_insert_of_ne _ hhead, if_neg]
        rintro ⟨rfl, h1, h2⟩
        have hm : m ≠ i := fun hm => hhead (by rw [hm])
        exact hin ⟨rfl, by omega, by omega⟩

/-- Both limits of `skip_messages` allow a jump to message `n`. -/
def Fits (st : RatchetState Key Secret) (n : Nat) : Prop :=
  n - st.recvCount ≤ maxSkip ∧ st.skippedKeys.keys.card + (n - st.recvCount) ≤ maxTotalSkipped

instance (n : Nat) : Decidable (Fits st n) :=
  inferInstanceAs (Decidable (_ ∧ _))

/-- `st'` is `st` after it took message `n` of chain `j` and stored the keys it passed over. -/
structure Received (S : Suite Key Secret Ct) (K : Schedule Key Secret) (j n : Nat)
    (st st' : RatchetState Key Secret) : Prop where
  recvCount : st'.recvCount = n + 1
  sendCount : st'.sendCount = st.sendCount
  sendRatchetKey : st'.sendRatchetKey = st.sendRatchetKey
  recvRatchetKey : st'.recvRatchetKey = st.recvRatchetKey
  lookup : ∀ q m, st'.skippedKeys.lookup (q, m) =
    if q = K.ratchetKey S j ∧ st.recvCount ≤ m ∧ m < n then some (K.messageKey S j m)
    else st.skippedKeys.lookup (q, m)

theorem InEpoch.recvChainKey_eq (h : InEpoch S K (e + 2) st) :
    st.recvChainKey = some (K.chainKey S (e + 1) st.recvCount) := by
  rw [h.recvChain, if_neg (by omega)]
  rfl

theorem InEpoch.recvRatchetKey_eq (h : InEpoch S K (e + 2) st) :
    st.recvRatchetKey = some (K.ratchetKey S (e + 1)) := by
  rw [h.recvKey, if_neg (by omega)]
  rfl

theorem InEpoch.receive (h : InEpoch S K (e + 2) st) (ct : Ct) {n : Nat} (hn : st.recvCount ≤ n)
    (hu32 : n + 1 < u32Size) (hfits : Fits st n) :
    ∃ st', st.receive S ct (K.ratchetKey S (e + 1)) n =
        (st', S.aeadDecrypt (K.messageKey S (e + 1) n)
          (S.nonceMaterial (K.messageKey S (e + 1) n) n) ct (K.ratchetKey S (e + 1)).val) ∧
      InEpoch S K (e + 2) st' ∧ Received S K (e + 1) n st st' := by
  have hchain := h.recvChainKey_eq
  have hkey := h.recvRatchetKey_eq
  obtain ⟨hck, hlook⟩ := skipLoop_spec (S := S) (K := K) (K.ratchetKey S (e + 1)) (e + 1)
    (n - st.recvCount) st.recvCount st.skippedKeys
  have hend : st.recvCount + (n - st.recvCount) = n := by omega
  rw [hend] at hck hlook
  obtain ⟨hskip, htotal⟩ := hfits
  have hrecv : ∃ skipped : SkippedKeys Key,
      (∀ q m, skipped.lookup (q, m) =
        if q = K.ratchetKey S (e + 1) ∧ st.recvCount ≤ m ∧ m < n
        then some (K.messageKey S (e + 1) m) else st.skippedKeys.lookup (q, m)) ∧
      st.receive S ct (K.ratchetKey S (e + 1)) n =
        ({ st with skippedKeys := skipped, recvChainKey := some (K.chainKey S (e + 1) (n + 1)),
                   recvCount := n + 1 },
          S.aeadDecrypt (K.messageKey S (e + 1) n)
            (S.nonceMaterial (K.messageKey S (e + 1) n) n) ct (K.ratchetKey S (e + 1)).val) := by
    refine ⟨_, hlook, ?_⟩
    unfold RatchetState.receive RatchetState.skipMessages
    simp only [hchain, hkey, if_neg (Nat.not_lt.mpr hskip), if_neg (Nat.not_lt.mpr htotal), hck,
      Schedule.kdfChain_chainKey, wrappingSucc32_of_lt hu32]
  obtain ⟨skipped, hlookup, heq⟩ := hrecv
  refine ⟨_, heq, ?_, ⟨rfl, rfl, rfl, rfl, hlookup⟩⟩
  exact ⟨h.root, h.secret, h.ratchetKey, h.sendChain, h.recvKey, by rw [if_neg (by omega)]; rfl⟩

theorem InEpoch.receive_unfit (h : InEpoch S K (e + 2) st) (ct : Ct) (pk : PublicKey) {n : Nat}
    (hfits : ¬ Fits st n) : ∃ err, st.receive S ct pk n = (st, .error err) :=
  RatchetState.receive_refused h.recvChainKey_eq h.recvRatchetKey_eq hfits ct pk

end Cypher.Crypto.Verify
