import Cypher.Crypto.Verify.Schedule
import Cypher.Lib.Run
import Mathlib.Data.List.Perm.Basic

/-!
# Two ratchets and the messages between them

`Net` is a session seen from outside: the states of the party set up by `init_sender` and of the
party set up by `init_receiver`, the messages that are under way in each direction, the outcome of
every delivery so far, and the ratchet keys generated so far. An action encrypts at one party or
delivers one of the messages under way, in any order; a message not delivered may stay under way for
ever. `Regular` is what the environment is assumed to do: ratchet keys are fresh when a DH ratchet
step samples them, and a chain stays below `2 ^ 32` messages.

`Session S K e net` ties a net to a key schedule `K`: the parties are in the neighbouring epochs
`e .sender` and `e .receiver`, every message under way is the one its header names, and every stored
message key belongs to a number the party has passed. The lemmas `send`, `ratchet` and `put` say how
it is kept.
-/

namespace Cypher.Crypto.Verify

variable {Key Secret Ct : Type}

inductive Role where
  | sender
  | receiver
  deriving DecidableEq, Repr

namespace Role

def other : Role → Role
  | sender => receiver
  | receiver => sender

@[simp] theorem other_other (r : Role) : r.other.other = r := by cases r <;> rfl

@[simp] theorem other_ne (r : Role) : r.other ≠ r := by cases r <;> decide

theorem eq_or_eq_other (r r' : Role) : r' = r ∨ r' = r.other := by
  cases r <;> cases r' <;> simp [other]

end Role

/-- A message under way: what `encrypt` returned, with the plaintext and the message key it used. -/
structure Packet (Key Ct : Type) where
  plaintext : Bytes
  messageKey : Key
  ciphertext : Ct
  ratchetKey : PublicKey
  msgNo : Nat
  deriving DecidableEq

structure Net (Key Secret Ct : Type) where
  party : Role → RatchetState Key Secret
  /-- The messages addressed to a party and not yet delivered, oldest first. -/
  inFlight : Role → List (Packet Key Ct)
  delivered : List (Packet Key Ct × Result Bytes)
  ratchetKeys : List PublicKey

inductive Action (Secret : Type) where
  | send (r : Role) (plaintext : Bytes)
  | deliver (r : Role) (i : Nat) (fresh : Secret)
  deriving DecidableEq

namespace Net

variable (S : Suite Key Secret Ct)

def start (shared : Key) (spk first : Secret) : Net Key Secret Ct where
  party
    | .sender => .initSender S shared (S.publicKey spk) first
    | .receiver => .initReceiver S shared spk
  inFlight _ := []
  delivered := []
  ratchetKeys := [S.publicKey spk, S.publicKey first]

/-- Message `i` on its way to `r` has been handed to `decrypt`, with the outcome `out`. -/
def put (net : Net Key Secret Ct) (r : Role) (i : Nat) (p : Packet Key Ct)
    (out : RatchetState Key Secret × Result Bytes) : Net Key Secret Ct where
  party := Function.update net.party r out.1
  inFlight := Function.update net.inFlight r ((net.inFlight r).eraseIdx i)
  delivered := net.delivered ++ [(p, out.2)]
  ratchetKeys := out.1.sendRatchetKey :: net.ratchetKeys

def step (net : Net Key Secret Ct) : Action Secret → Option (Net Key Secret Ct)
  | .send r plaintext =>
    match (net.party r).sendChainKey, (net.party r).encrypt S plaintext with
    | some ck, (st, .ok (ct, pk, n)) =>
      some { net with
        party := Function.update net.party r st
        inFlight := Function.update net.inFlight r.other
          (net.inFlight r.other ++ [⟨plaintext, (S.kdfChain ck).2, ct, pk, n⟩]) }
    | _, _ => none
  | .deliver r i fresh =>
    (net.inFlight r)[i]?.map fun p =>
      net.put r i p ((net.party r).decrypt S fresh p.ciphertext p.ratchetKey p.msgNo)

variable {S} in
theorem step_send {net : Net Key Secret Ct} {r : Role} {plaintext : Bytes} {ck : Key}
    {st : RatchetState Key Secret} {ct : Ct} {pk : PublicKey} {n : Nat}
    (hck : (net.party r).sendChainKey = some ck)
    (henc : (net.party r).encrypt S plaintext = (st, .ok (ct, pk, n))) :
    net.step S (.send r plaintext) = some { net with
      party := Function.update net.party r st
      inFlight := Function.update net.inFlight r.other
        (net.inFlight r.other ++ [⟨plaintext, (S.kdfChain ck).2, ct, pk, n⟩]) } := by
  simp only [step, hck, henc]

/-- A sampled ratchet key is new, and no chain reaches `2 ^ 32` messages. -/
def Regular (net : Net Key Secret Ct) : Action Secret → Prop
  | .send r _ => (net.party r).sendCount + 1 < u32Size
  | .deliver r i fresh => ∀ p ∈ (net.inFlight r)[i]?,
      (net.party r).Ratchets p.ratchetKey p.msgNo → S.publicKey fresh ∉ net.ratchetKeys

/-- Every delivery so far returned the plaintext that was encrypted. -/
def Agreed (net : Net Key Secret Ct) : Prop :=
  ∀ d ∈ net.delivered, d.2 = .ok d.1.plaintext

theorem Agreed.put {net : Net Key Secret Ct} (h : net.Agreed) {r : Role} {i : Nat}
    {p : Packet Key Ct} {out : RatchetState Key Secret × Result Bytes}
    (hout : out.2 = .ok p.plaintext) : (net.put r i p out).Agreed := by
  intro d hd
  rcases List.mem_append.mp hd with hd | hd
  · exact h d hd
  · rw [List.mem_singleton.mp hd]
    exact hout

instance [DecidableEq Key] (net : Net Key Secret Ct) (a : Action Secret) :
    Decidable (net.Regular S a) :=
  match a with
  | .send r _ => inferInstanceAs (Decidable ((net.party r).sendCount + 1 < u32Size))
  | .deliver r i fresh => inferInstanceAs (Decidable (∀ p ∈ (net.inFlight r)[i]?,
      (net.party r).Ratchets p.ratchetKey p.msgNo → S.publicKey fresh ∉ net.ratchetKeys))

end Net

/-! ## The invariant -/

/-- The packet is message `p.msgNo` of chain `i`. -/
structure OnChain (S : Suite Key Secret Ct) (K : Schedule Key Secret) (i : Nat)
    (p : Packet Key Ct) : Prop where
  ratchetKey : p.ratchetKey = K.ratchetKey S i
  messageKey : p.messageKey = K.messageKey S i p.msgNo
  sealed : S.aeadEncrypt p.messageKey (S.nonceMaterial p.messageKey p.msgNo) p.plaintext
    p.ratchetKey.val = .ok p.ciphertext

/-- Every stored key of a party in epoch `e` is that of a message it has passed. -/
def Stored (S : Suite Key Secret Ct) (K : Schedule Key Secret) (e : Nat)
    (st : RatchetState Key Secret) : Prop :=
  ∀ k n mk, st.skippedKeys.lookup (k, n) = some mk →
    ∃ i, k = K.ratchetKey S i ∧ mk = K.messageKey S i n ∧
      (i + 1 < e ∨ (i + 1 = e ∧ n < st.recvCount))

structure Session (S : Suite Key Secret Ct) (K : Schedule Key Secret) (e : Role → Nat)
    (net : Net Key Secret Ct) : Prop where
  near : ∀ r, e r.other = e r + 1 ∨ e r = e r.other + 1
  epoch : ∀ r, InEpoch S K (e r) (net.party r)
  distinct : ∀ r r' {i j}, i ≤ e r → j ≤ e r' → K.ratchetKey S i = K.ratchetKey S j → i = j
  known : ∀ {r i}, i ≤ e r → K.ratchetKey S i ∈ net.ratchetKeys
  packet : ∀ {r p}, p ∈ net.inFlight r → ∃ i, OnChain S K i p ∧ 1 ≤ i ∧ i ≤ e r.other ∧
    i % 2 = e r.other % 2 ∧ p.msgNo + 1 < u32Size ∧
    (i = e r.other → p.msgNo < (net.party r.other).sendCount)
  unique : ∀ r, (net.inFlight r).Pairwise fun p q =>
    ¬ (p.ratchetKey = q.ratchetKey ∧ p.msgNo = q.msgNo)
  stored : ∀ r, Stored S K (e r) (net.party r)

variable {S : Suite Key Secret Ct} {K : Schedule Key Secret} {e : Role → Nat}
  {net net' : Net Key Secret Ct}

/-! ## The start of a session -/

def startEpoch : Role → Nat
  | .sender => 1
  | .receiver => 0

def startSchedule (shared : Key) (spk first : Secret) : Schedule Key Secret :=
  ⟨shared, fun i => if i = 0 then spk else first⟩

theorem Session.start (hdh : S.DhCommutes) (shared : Key) {spk first : Secret}
    (hne : S.publicKey spk ≠ S.publicKey first) :
    Session S (startSchedule shared spk first) startEpoch (Net.start S shared spk first) := by
  have hle : ∀ {r i}, i ≤ startEpoch r → i = 0 ∨ i = 1 := by
    intro r i hi
    cases r <;> simp only [startEpoch] at hi <;> omega
  refine ⟨?_, ?_, ?_, ?_, ?_, fun _ => List.Pairwise.nil, ?_⟩
  · intro r
    cases r <;> simp [Role.other, startEpoch]
  · intro r
    cases r with
    | sender => exact initSender_inEpoch (K := startSchedule shared spk first) hdh
    | receiver => exact initReceiver_inEpoch (K := startSchedule shared spk first)
  · intro r r' i j hi hj hij
    rcases hle hi with rfl | rfl <;> rcases hle hj with rfl | rfl
    · rfl
    · exact absurd hij hne
    · exact absurd hij.symm hne
    · rfl
  · intro r i hi
    rcases hle hi with rfl | rfl <;> simp [Net.start, Schedule.ratchetKey, startSchedule]
  · intro r p hp
    cases hp
  · intro r k n mk hlook
    cases r <;> simp [Net.start, RatchetState.initSender, RatchetState.initReceiver] at hlook

/-! ## Packets and stored keys under a longer schedule -/

theorem OnChain.extend {i j : Nat} {p : Packet Key Ct} (h : OnChain S K i p) (hij : i < j)
    (s : Secret) : OnChain S (K.extend j s) i p :=
  ⟨by rw [Schedule.ratchetKey_extend (by omega), h.ratchetKey],
    by rw [Schedule.messageKey_extend hij, h.messageKey], h.sealed⟩

theorem OnChain.of_extend {i j : Nat} {p : Packet Key Ct} {s : Secret}
    (h : OnChain S (K.extend j s) i p) (hij : i < j) : OnChain S K i p :=
  ⟨by rw [h.ratchetKey, Schedule.ratchetKey_extend (by omega)],
    by rw [h.messageKey, Schedule.messageKey_extend hij], h.sealed⟩

theorem Stored.extend {st : RatchetState Key Secret} {d j : Nat} (h : Stored S K d st)
    (hj : d ≤ j) (s : Secret) : Stored S (K.extend j s) d st := by
  intro k n mk hlook
  obtain ⟨i, hk, hmk, hi⟩ := h k n mk hlook
  have hij : i < j := by omega
  exact ⟨i, by rw [Schedule.ratchetKey_extend (by omega), hk],
    by rw [Schedule.messageKey_extend hij, hmk], hi⟩

theorem Stored.congr {st st' : RatchetState Key Secret} {d : Nat} (h : Stored S K d st)
    (hskip : st'.skippedKeys = st.skippedKeys) (hrecv : st'.recvCount = st.recvCount) :
    Stored S K d st' := by
  intro k n mk hlook
  rw [hskip] at hlook
  rw [hrecv]
  exact h k n mk hlook

theorem Stored.erase {st : RatchetState Key Secret} {d : Nat} (h : Stored S K d st)
    (x : PublicKey × Nat) : Stored S K d { st with skippedKeys := st.skippedKeys.erase x } := by
  intro k n mk hlook
  by_cases hx : (k, n) = x
  · subst hx
    simp only [Finmap.lookup_erase, reduceCtorEq] at hlook
  · simp only [Finmap.lookup_erase_ne hx] at hlook
    exact h k n mk hlook

theorem Stored.received {st st' : RatchetState Key Secret} {j n : Nat} (h : Stored S K (j + 1) st)
    (hr : Received S K j n st st') (hn : st.recvCount ≤ n) : Stored S K (j + 1) st' := by
  intro k m mk hlook
  rw [hr.lookup] at hlook
  split at hlook
  · next hin =>
    simp only [Option.some.injEq] at hlook
    exact ⟨j, hin.1, hlook.symm, Or.inr ⟨rfl, by rw [hr.recvCount]; omega⟩⟩
  · obtain ⟨i, hk, hmk, hi⟩ := h k m mk hlook
    refine ⟨i, hk, hmk, hi.imp id fun hi => ⟨hi.1, ?_⟩⟩
    rw [hr.recvCount]
    omega

namespace Session

theorem chain_cases (h : Session S K e net) {r : Role} {i : Nat} (hle : i ≤ e r.other)
    (hpar : i % 2 = e r.other % 2) : i = e r + 1 ∨ i + 1 = e r ∨ i + 1 < e r := by
  rcases h.near r with hr | hr <;> omega

theorem lookup_none (h : Session S K e net) {r : Role} {i n : Nat} (hi : i ≤ e r.other)
    (hpos : e r ≤ i + 1) (hn : i + 1 = e r → (net.party r).recvCount ≤ n) :
    (net.party r).skippedKeys.lookup (K.ratchetKey S i, n) = none := by
  cases hlook : (net.party r).skippedKeys.lookup (K.ratchetKey S i, n) with
  | none => rfl
  | some mk =>
    obtain ⟨j, hk, -, hj⟩ := h.stored r _ _ _ hlook
    have hij : i = j := h.distinct r.other r hi (by omega) hk
    subst hij
    rcases hj with hj | ⟨hj, hlt⟩
    · omega
    · have := hn hj
      omega

theorem lookup_eq (h : Session S K e net) {r : Role} {i : Nat} {p : Packet Key Ct} {mk : Key}
    (hi : i ≤ e r.other) (hp : OnChain S K i p)
    (hlook : (net.party r).skippedKeys.lookup (p.ratchetKey, p.msgNo) = some mk) :
    mk = p.messageKey := by
  obtain ⟨j, hk, hmk, hj⟩ := h.stored r _ _ _ hlook
  have hij : i = j := h.distinct r.other r hi (by omega) (hp.ratchetKey ▸ hk)
  subst hij
  rw [hmk, hp.messageKey]

theorem needDhRatchet_next (h : Session S K e net) {r : Role} (hr : e r.other = e r + 1) :
    (net.party r).needDhRatchet (K.ratchetKey S (e r + 1)) = true := by
  unfold RatchetState.needDhRatchet
  rw [(h.epoch r).recvKey]
  by_cases he : e r = 0
  · rw [if_pos he]
  · rw [if_neg he]
    simp only [bne_iff_ne, ne_eq]
    intro hk
    have := h.distinct r r.other (by omega) (by omega) hk
    omega

theorem needDhRatchet_current (h : Session S K e net) {r : Role} {i : Nat} (hi : i + 1 = e r) :
    (net.party r).needDhRatchet (K.ratchetKey S i) = false := by
  unfold RatchetState.needDhRatchet
  rw [(h.epoch r).recvKey, if_neg (by omega), ← hi]
  simp

theorem header_ne_next (h : Session S K e net) {r : Role} {p : Packet Key Ct}
    (hp : p ∈ net.inFlight r.other) :
    ¬ (p.ratchetKey = K.ratchetKey S (e r) ∧ p.msgNo = (net.party r).sendCount) := by
  rintro ⟨hkey, hno⟩
  obtain ⟨i, hi, -, hle, -, -, hlast⟩ := h.packet hp
  rw [Role.other_other] at hle hlast
  have hie : i = e r := h.distinct _ _ hle (Nat.le_refl (e r)) (by rw [← hi.ratchetKey, hkey])
  have := hlast hie
  omega

/-! ## Encrypting -/

/-- A successful `encrypt` at `r` adds the next message of its chain, and nothing else changes but
`r`'s position on that chain. -/
theorem send (h : Session S K e net) {r : Role} {plaintext : Bytes}
    (hok : net.Regular S (.send r plaintext))
    (hstep : net.step S (.send r plaintext) = some net') :
    Session S K e net' ∧ ∃ p st, p.plaintext = plaintext ∧ OnChain S K (e r) p ∧
      p.msgNo = (net.party r).sendCount ∧ st.sendCount = (net.party r).sendCount + 1 ∧
      st.recvCount = (net.party r).recvCount ∧ st.skippedKeys = (net.party r).skippedKeys ∧
      st.recvRatchetKey = (net.party r).recvRatchetKey ∧
      net'.party = Function.update net.party r st ∧
      net'.inFlight = Function.update net.inFlight r.other (net.inFlight r.other ++ [p]) ∧
      net'.delivered = net.delivered := by
  have hchain := (h.epoch r).sendChain
  simp only [Net.step] at hstep
  split at hstep
  · next ck st ct pk n hck henc =>
    simp only [Option.some.injEq] at hstep
    obtain ⟨he, hpk, hn, hseal, hst⟩ := (h.epoch r).encrypt henc
    have hu32 : (net.party r).sendCount + 1 < u32Size := hok
    rw [hn, wrappingSucc32_of_lt hu32] at hst
    rw [hck, if_neg he] at hchain
    simp only [Option.some.injEq] at hchain
    have hmk : (S.kdfChain ck).2 = K.messageKey S (e r) n := by
      rw [hchain, ← hn, Schedule.kdfChain_chainKey]
    have hon : OnChain S K (e r) ⟨plaintext, (S.kdfChain ck).2, ct, pk, n⟩ :=
      ⟨hpk, hmk, by rw [hmk]; exact hseal⟩
    have hepoch : InEpoch S K (e r) st := by
      subst hst
      exact ⟨(h.epoch r).root, (h.epoch r).secret, (h.epoch r).ratchetKey, by rw [if_neg he],
        (h.epoch r).recvKey, (h.epoch r).recvChain⟩
    have hcount : st.sendCount = (net.party r).sendCount + 1 := by rw [hst]
    have hskip : st.skippedKeys = (net.party r).skippedKeys := by rw [hst]
    have hrecv : st.recvCount = (net.party r).recvCount := by rw [hst]
    have hkey : st.recvRatchetKey = (net.party r).recvRatchetKey := by rw [hst]
    subst hstep
    refine ⟨⟨h.near, ?_, h.distinct, h.known, ?_, ?_, ?_⟩,
      _, st, rfl, hon, hn, hcount, hrecv, hskip, hkey, rfl, rfl, rfl⟩
    · exact (Function.forall_update_iff net.party fun r' st => InEpoch S K (e r') st).mpr
        ⟨hepoch, fun r' _ => h.epoch r'⟩
    · intro r' p hp
      rcases Role.eq_or_eq_other r r' with rfl | rfl
      · -- addressed to the party that encrypts: its sender is unchanged
        simp only [Function.update_of_ne r'.other_ne.symm] at hp
        simpa only [Function.update_of_ne r'.other_ne] using h.packet hp
      · simp only [Function.update_self, List.mem_append, List.mem_singleton, Role.other_other]
          at hp ⊢
        rcases hp with hp | rfl
        · obtain ⟨i, hi, h1, hle, hpar, hlt, hlast⟩ := h.packet hp
          rw [Role.other_other] at hle hpar hlast
          exact ⟨i, hi, h1, hle, hpar, hlt, fun hi' => by have := hlast hi'; omega⟩
        · exact ⟨e r, hon, by omega, Nat.le_refl _, rfl, by simp only [hn]; exact hu32,
            fun _ => by simp only [hn, hcount]; omega⟩
    · intro r'
      rcases Role.eq_or_eq_other r r' with rfl | rfl
      · simpa only [Function.update_of_ne r'.other_ne.symm] using h.unique r'
      · simp only [Function.update_self]
        refine List.pairwise_append.mpr ⟨h.unique _, List.pairwise_singleton _ _, ?_⟩
        intro p hp q hq hpq
        rw [List.mem_singleton] at hq
        subst hq
        exact h.header_ne_next hp ⟨hpq.1.trans hpk, hpq.2.trans hn⟩
    · exact (Function.forall_update_iff net.party fun r' st => Stored S K (e r') st).mpr
        ⟨(h.stored r).congr hskip hrecv, fun r' _ => h.stored r'⟩
  · cases hstep

/-! ## Delivering -/

theorem ratchet (hdh : S.DhCommutes) (h : Session S K e net) {r : Role}
    (hr : e r.other = e r + 1) {fresh : Secret} (hfresh : S.publicKey fresh ∉ net.ratchetKeys) :
    Session S (K.extend (e r + 2) fresh) (Function.update e r (e r + 2))
      { net with
        party := Function.update net.party r
          ((net.party r).dhRatchetStep S fresh (K.ratchetKey S (e r + 1)))
        ratchetKeys := S.publicKey fresh :: net.ratchetKeys } := by
  have hself : Function.update e r (e r + 2) r = e r + 2 := Function.update_self ..
  have hoth : Function.update e r (e r + 2) r.other = e r.other :=
    Function.update_of_ne r.other_ne ..
  have hbound : ∀ r' i, i ≤ Function.update e r (e r + 2) r' → i = e r + 2 ∨ i ≤ e r.other := by
    intro r' i hi
    rcases Role.eq_or_eq_other r r' with rfl | rfl
    · rw [hself] at hi; omega
    · rw [hoth] at hi; exact Or.inr hi
  have hnew : (K.extend (e r + 2) fresh).ratchetKey S (e r + 2) = S.publicKey fresh := by
    simp only [Schedule.ratchetKey, Schedule.extend_secret_self]
  have hold : ∀ i, i ≤ e r.other →
      (K.extend (e r + 2) fresh).ratchetKey S i = K.ratchetKey S i :=
    fun i hi => Schedule.ratchetKey_extend (by omega) _
  have hne : ∀ i, i ≤ e r.other → K.ratchetKey S i ≠ S.publicKey fresh :=
    fun i hi heq => hfresh (heq ▸ h.known hi)
  refine ⟨?_, ?_, ?_, ?_, ?_, h.unique, ?_⟩
  -- the party that was one epoch behind is now one ahead
  · intro r'
    rcases Role.eq_or_eq_other r r' with rfl | rfl
    · rw [hself, hoth]; omega
    · rw [Role.other_other, hself, hoth]; omega
  · intro r'
    rcases Role.eq_or_eq_other r r' with rfl | rfl
    · simp only [Function.update_self]
      exact (h.epoch r').dhRatchetStep hdh fresh
    · rw [hoth]
      simp only [Function.update_of_ne r.other_ne]
      exact (h.epoch r.other).extend (by omega) fresh
  · intro r₁ r₂ i j hi hj hij
    rcases hbound _ _ hi with rfl | hi <;> rcases hbound _ _ hj with rfl | hj
    · rfl
    · rw [hnew, hold j hj] at hij
      exact absurd hij.symm (hne j hj)
    · rw [hnew, hold i hi] at hij
      exact absurd hij (hne i hi)
    · rw [hold i hi, hold j hj] at hij
      exact h.distinct _ _ hi hj hij
  · intro r' i hi
    rcases hbound _ _ hi with rfl | hi
    · rw [hnew]; exact List.mem_cons_self
    · rw [hold i hi]; exact List.mem_cons_of_mem _ (h.known hi)
  · intro r' p hp
    obtain ⟨i, hi, h1, hle, hpar, hlt, hlast⟩ := h.packet hp
    rcases Role.eq_or_eq_other r r' with rfl | rfl
    · refine ⟨i, hi.extend (by omega) fresh, h1, ?_⟩
      rw [hoth]
      simp only [Function.update_of_ne r'.other_ne]
      exact ⟨hle, hpar, hlt, hlast⟩
    · rw [Role.other_other] at hle hpar
      refine ⟨i, hi.extend (by omega) fresh, h1, ?_⟩
      rw [Role.other_other, hself]
      exact ⟨by omega, by omega, hlt, fun hi' => by omega⟩
  · intro r'
    rcases Role.eq_or_eq_other r r' with rfl | rfl
    · rw [hself]
      simp only [Function.update_self]
      have hst := (h.stored r').extend (show e r' ≤ e r' + 2 by omega) fresh
      intro k n mk hlook
      obtain ⟨i, hk, hmk, hi⟩ := hst k n mk hlook
      exact ⟨i, hk, hmk, Or.inl (by omega)⟩
    · rw [hoth]
      simp only [Function.update_of_ne r.other_ne]
      exact (h.stored r.other).extend (by omega) fresh

/-- Handing a packet to `decrypt` keeps the session if the state it leaves is in the party's epoch
and stores keys of passed messages only. -/
theorem put (h : Session S K e net) {r : Role} {i : Nat} {p : Packet Key Ct}
    {out : RatchetState Key Secret × Result Bytes} (hepoch : InEpoch S K (e r) out.1)
    (hcount : out.1.sendCount = (net.party r).sendCount) (hstored : Stored S K (e r) out.1) :
    Session S K e (net.put r i p out) := by
  have hsub : ∀ r', ((net.put r i p out).inFlight r').Sublist (net.inFlight r') := by
    exact (Function.forall_update_iff net.inFlight fun r' packets =>
      packets.Sublist (net.inFlight r')).mpr
        ⟨List.eraseIdx_sublist .., fun _ _ => List.Sublist.refl _⟩
  have hsend : ∀ r', ((net.put r i p out).party r').sendCount = (net.party r').sendCount := by
    exact (Function.forall_update_iff net.party fun r' st =>
      st.sendCount = (net.party r').sendCount).mpr ⟨hcount, fun _ _ => rfl⟩
  refine ⟨h.near, ?_, h.distinct, ?_, ?_, ?_, ?_⟩
  · exact (Function.forall_update_iff net.party fun r' st => InEpoch S K (e r') st).mpr
      ⟨hepoch, fun r' _ => h.epoch r'⟩
  · intro r' j hj
    exact List.mem_cons_of_mem _ (h.known hj)
  · intro r' q hq
    obtain ⟨j, hj, h1, hle, hpar, hlt, hlast⟩ := h.packet ((hsub r').subset hq)
    exact ⟨j, hj, h1, hle, hpar, hlt, fun hj' => by rw [hsend]; exact hlast hj'⟩
  · intro r'
    exact (h.unique r').sublist (hsub r')
  · exact (Function.forall_update_iff net.party fun r' st => Stored S K (e r') st).mpr
      ⟨hstored, fun r' _ => h.stored r'⟩

/-- Only the keys that were generated matter, not how often they are listed. -/
theorem withKeys (h : Session S K e net) (keys : List PublicKey)
    (hsub : net.ratchetKeys ⊆ keys) : Session S K e { net with ratchetKeys := keys } :=
  ⟨h.near, h.epoch, h.distinct, fun hi => hsub (h.known hi), h.packet, h.unique, h.stored⟩

end Session

/-! ## What `decrypt` makes of a genuine message -/

/-- How many messages `skip_messages` passes over for message `n` under ratchet key `pk`: a DH
ratchet step sets `recv_count` to 0 first. -/
def gap (st : RatchetState Key Secret) (pk : PublicKey) (n : Nat) : Nat :=
  n - if st.needDhRatchet pk then 0 else st.recvCount

def WithinLimits (st : RatchetState Key Secret) (pk : PublicKey) (n : Nat) : Prop :=
  gap st pk n ≤ maxSkip ∧ st.skippedKeys.keys.card + gap st pk n ≤ maxTotalSkipped

instance (st : RatchetState Key Secret) (pk : PublicKey) (n : Nat) :
    Decidable (WithinLimits st pk n) :=
  inferInstanceAs (Decidable (_ ∧ _))

theorem WithinLimits.fits {st : RatchetState Key Secret} {pk : PublicKey} {n : Nat}
    (h : WithinLimits st pk n) (hneed : st.needDhRatchet pk = false) : Fits st n := by
  simp only [WithinLimits, gap, hneed, Bool.false_eq_true, if_false] at h
  exact h

theorem WithinLimits.fits_dhRatchetStep {st : RatchetState Key Secret} {pk : PublicKey} {n : Nat}
    (h : WithinLimits st pk n) (hneed : st.needDhRatchet pk = true) (fresh : Secret) :
    Fits (st.dhRatchetStep S fresh pk) n := by
  simp only [WithinLimits, gap, hneed, if_true] at h
  exact h

/-- The outcome of `receive` on a message of the current chain that has not been passed: it is
opened, or a limit stops it and nothing changes. -/
def Outcome (S : Suite Key Secret Ct) (K : Schedule Key Secret) (j : Nat) (p : Packet Key Ct)
    (st : RatchetState Key Secret) (out : RatchetState Key Secret × Result Bytes) : Prop :=
  (Fits st p.msgNo ∧ out.2 = .ok p.plaintext ∧ Received S K j p.msgNo st out.1) ∨
    (¬ Fits st p.msgNo ∧ out.1 = st ∧ ∃ err, out.2 = .error err)

theorem OnChain.opens (haead : S.AeadInverts) {j : Nat} {p : Packet Key Ct}
    (h : OnChain S K j p) : S.aeadDecrypt p.messageKey (S.nonceMaterial p.messageKey p.msgNo)
      p.ciphertext p.ratchetKey.val = .ok p.plaintext :=
  haead h.sealed

theorem Outcome.sendCount {j : Nat} {p : Packet Key Ct} {st : RatchetState Key Secret}
    {out : RatchetState Key Secret × Result Bytes} (h : Outcome S K j p st out) :
    out.1.sendCount = st.sendCount ∧ out.1.sendRatchetKey = st.sendRatchetKey := by
  rcases h with ⟨-, -, hr⟩ | ⟨-, hst, -⟩
  · exact ⟨hr.sendCount, hr.sendRatchetKey⟩
  · rw [hst]
    exact ⟨rfl, rfl⟩

theorem InEpoch.outcome (haead : S.AeadInverts) {j : Nat} {p : Packet Key Ct}
    {st : RatchetState Key Secret} (h : InEpoch S K (j + 1) st) (hj : 1 ≤ j)
    (hp : OnChain S K j p) (hn : st.recvCount ≤ p.msgNo) (hu32 : p.msgNo + 1 < u32Size) :
    InEpoch S K (j + 1) (st.receive S p.ciphertext p.ratchetKey p.msgNo).1 ∧
      Outcome S K j p st (st.receive S p.ciphertext p.ratchetKey p.msgNo) := by
  obtain ⟨d, rfl⟩ := Nat.exists_eq_add_of_le' hj
  by_cases hfits : Fits st p.msgNo
  · obtain ⟨st', heq, hepoch, hreceived⟩ := h.receive p.ciphertext hn hu32 hfits
    rw [← hp.ratchetKey, ← hp.messageKey, hp.opens haead] at heq
    rw [heq]
    exact ⟨hepoch, Or.inl ⟨hfits, rfl, hreceived⟩⟩
  · obtain ⟨err, heq⟩ := h.receive_unfit p.ciphertext p.ratchetKey hfits
    rw [heq]
    exact ⟨h, Or.inr ⟨hfits, rfl, err, rfl⟩⟩

namespace Session

variable {r : Role} {i j : Nat} {p : Packet Key Ct}

theorem mem_eraseIdx (h : Session S K e net) (hp : (net.inFlight r)[i]? = some p)
    {q : Packet Key Ct} : q ∈ (net.inFlight r).eraseIdx i ↔
      q ∈ net.inFlight r ∧ ¬ (q.ratchetKey = p.ratchetKey ∧ q.msgNo = p.msgNo) := by
  obtain ⟨hlt, rfl⟩ := List.getElem?_eq_some_iff.mp hp
  have hperm := List.getElem_cons_eraseIdx_perm hlt
  have hpair := (hperm.pairwise_iff fun {x y} hxy hyx => hxy ⟨hyx.1.symm, hyx.2.symm⟩).mpr
    (h.unique r)
  have hmem : q ∈ net.inFlight r ↔ q = (net.inFlight r)[i] ∨ q ∈ (net.inFlight r).eraseIdx i := by
    rw [← hperm.mem_iff, List.mem_cons]
  rw [hmem]
  constructor
  · intro hq
    exact ⟨Or.inr hq, fun heq => (List.pairwise_cons.mp hpair).1 q hq ⟨heq.1.symm, heq.2.symm⟩⟩
  · rintro ⟨rfl | hq, hne⟩
    · exact absurd ⟨rfl, rfl⟩ hne
    · exact hq

theorem deliver_stored (haead : S.AeadInverts) (h : Session S K e net) (hp : OnChain S K j p)
    (hj : j ≤ e r.other) (fresh : Secret)
    (hlook : (net.party r).skippedKeys.lookup (p.ratchetKey, p.msgNo) ≠ none) :
    ∃ out, (net.party r).decrypt S fresh p.ciphertext p.ratchetKey p.msgNo = out ∧
      Session S K e (net.put r i p out) ∧ out.2 = .ok p.plaintext ∧
      out.1 = { net.party r with
        skippedKeys := (net.party r).skippedKeys.erase (p.ratchetKey, p.msgNo) } := by
  refine ⟨_, rfl, ?_⟩
  obtain ⟨mk, hmk⟩ := Option.ne_none_iff_exists'.mp hlook
  have hkey := h.lookup_eq hj hp hmk
  subst hkey
  unfold RatchetState.decrypt
  simp only [hmk]
  refine ⟨h.put ?_ rfl ((h.stored r).erase _), hp.opens haead, trivial⟩
  exact (h.epoch r).congr rfl rfl rfl rfl rfl rfl rfl rfl

theorem deliver_current (haead : S.AeadInverts) (h : Session S K e net) (hp : OnChain S K j p)
    (hj : j + 1 = e r) (h1 : 1 ≤ j) (hle : j ≤ e r.other) (fresh : Secret)
    (hn : (net.party r).recvCount ≤ p.msgNo) (hu32 : p.msgNo + 1 < u32Size) :
    ∃ out, (net.party r).decrypt S fresh p.ciphertext p.ratchetKey p.msgNo = out ∧
      Session S K e (net.put r i p out) ∧ Outcome S K j p (net.party r) out := by
  have hnone : (net.party r).skippedKeys.lookup (p.ratchetKey, p.msgNo) = none := by
    rw [hp.ratchetKey]
    exact h.lookup_none hle (by omega) fun _ => hn
  have hneed : (net.party r).needDhRatchet p.ratchetKey = false := by
    rw [hp.ratchetKey]
    exact h.needDhRatchet_current hj
  have hepoch : InEpoch S K (j + 1) (net.party r) := hj ▸ h.epoch r
  obtain ⟨hepoch', hout⟩ := hepoch.outcome haead h1 hp hn hu32
  refine ⟨_, rfl, ?_⟩
  unfold RatchetState.decrypt
  simp only [hnone, hneed, Bool.false_eq_true, if_false]
  have hstored : Stored S K (j + 1) (net.party r) := hj ▸ h.stored r
  refine ⟨h.put (hj ▸ hepoch') hout.sendCount.1 (hj ▸ ?_), hout⟩
  rcases hout with ⟨-, -, hr⟩ | ⟨-, hst, -⟩
  · exact hstored.received hr hn
  · rw [hst]
    exact hstored

/-- The first message of the next chain to arrive: the receiver makes its DH ratchet step and then
treats the message as one of the current chain. -/
theorem deliver_next (hdh : S.DhCommutes) (haead : S.AeadInverts) (h : Session S K e net)
    (hp : OnChain S K (e r + 1) p) (hr : e r.other = e r + 1) {fresh : Secret}
    (hfresh : S.publicKey fresh ∉ net.ratchetKeys) (hu32 : p.msgNo + 1 < u32Size) :
    ∃ out, (net.party r).decrypt S fresh p.ciphertext p.ratchetKey p.msgNo = out ∧
      Session S (K.extend (e r + 2) fresh) (Function.update e r (e r + 2)) (net.put r i p out) ∧
      Outcome S (K.extend (e r + 2) fresh) (e r + 1) p
        ((net.party r).dhRatchetStep S fresh p.ratchetKey) out := by
  have hnone : (net.party r).skippedKeys.lookup (p.ratchetKey, p.msgNo) = none := by
    rw [hp.ratchetKey]
    exact h.lookup_none (by omega) (by omega) (by omega)
  have hneed : (net.party r).needDhRatchet p.ratchetKey = true := by
    rw [hp.ratchetKey]
    exact h.needDhRatchet_next hr
  have hnet := h.ratchet hdh hr hfresh
  rw [← hp.ratchetKey] at hnet
  have hp' := hp.extend (show e r + 1 < e r + 2 by omega) fresh
  have hepoch := hnet.epoch r
  have hstored := hnet.stored r
  simp only [Function.update_self] at hepoch hstored
  have hreceive :=
    hepoch.outcome haead (by omega) hp' (by simp [RatchetState.dhRatchetStep]) hu32
  refine ⟨_, rfl, ?_⟩
  unfold RatchetState.decrypt
  simp only [hnone, hneed, if_true]
  generalize ((net.party r).dhRatchetStep S fresh p.ratchetKey).receive S p.ciphertext
    p.ratchetKey p.msgNo = out at hreceive ⊢
  obtain ⟨hepoch', hout⟩ := hreceive
  have hstored' : Stored S (K.extend (e r + 2) fresh) (e r + 2) out.1 := by
    rcases hout with ⟨-, -, hr'⟩ | ⟨-, hst, -⟩
    · exact hstored.received hr' (by simp [RatchetState.dhRatchetStep])
    · rw [hst]
      exact hstored
  have hput := hnet.put (r := r) (i := i) (p := p) (by rw [Function.update_self]; exact hepoch')
    (by simpa only [Function.update_self] using hout.sendCount.1)
    (by rw [Function.update_self]; exact hstored')
  -- the sampled key is the one the new state sends under
  have hkey : out.1.sendRatchetKey = S.publicKey fresh := hout.sendCount.2
  have hkeys := hput.withKeys (out.1.sendRatchetKey :: net.ratchetKeys) (by
    simp only [Net.put, hkey]
    exact List.cons_subset.mpr ⟨List.mem_cons_self, fun _ hk => hk⟩)
  simp only [Net.put, Function.update_idem] at hkeys
  exact ⟨hkeys, hout⟩

end Session

end Cypher.Crypto.Verify
