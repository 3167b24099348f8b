import Cypher.Crypto.Verify.Session

/-!
# Messages that arrive after a DH ratchet step

`decrypt` makes its DH ratchet step without storing the rest of the chain it leaves, since no header
says how long that chain is. A message of the old chain that was not passed over before has no key
afterwards, and its header looks like that of a new ratchet key. So late messages are opened if the
chain had nothing left to skip when it was left: `LeavesNothing`. `Live` is the invariant of such
runs, in which deliveries are otherwise in any order and may hit the limits of `skip_messages`.
-/

namespace Cypher.Crypto.Verify

variable {Key Secret Ct : Type} {S : Suite Key Secret Ct} {K : Schedule Key Secret}
  {e : Role → Nat} {net net' : Net Key Secret Ct} {r : Role} {i : Nat} {p : Packet Key Ct}

/-- When a delivery makes the receiver leave its chain, every message of that chain still under way
is one the receiver has passed over. -/
def Net.LeavesNothing (net : Net Key Secret Ct) : Action Secret → Prop
  | .send _ _ => True
  | .deliver r i _ => ∀ p ∈ (net.inFlight r)[i]?, (net.party r).Ratchets p.ratchetKey p.msgNo →
      ∀ q ∈ net.inFlight r, (net.party r).recvRatchetKey = some q.ratchetKey →
        q.msgNo < (net.party r).recvCount

instance [DecidableEq Key] (net : Net Key Secret Ct) (a : Action Secret) :
    Decidable (net.LeavesNothing a) :=
  match a with
  | .send _ _ => inferInstanceAs (Decidable True)
  | .deliver r i _ => inferInstanceAs (Decidable (∀ p ∈ (net.inFlight r)[i]?,
      (net.party r).Ratchets p.ratchetKey p.msgNo → ∀ q ∈ net.inFlight r,
        (net.party r).recvRatchetKey = some q.ratchetKey → q.msgNo < (net.party r).recvCount))

/-- The message belongs to a chain its receiver has left: neither the one it receives on nor the one
its peer now sends on. -/
def Net.Late (net : Net Key Secret Ct) (r : Role) (p : Packet Key Ct) : Prop :=
  (net.party r).recvRatchetKey ≠ some p.ratchetKey ∧
    (net.party r.other).sendRatchetKey ≠ p.ratchetKey

instance (net : Net Key Secret Ct) (r : Role) (p : Packet Key Ct) : Decidable (net.Late r p) :=
  inferInstanceAs (Decidable (_ ∧ _))

/-- Message `n` of chain `j` lies behind a party in epoch `d`. -/
def Passed (d recvCount j n : Nat) : Prop :=
  j + 1 < d ∨ (j + 1 = d ∧ n < recvCount)

structure Live (S : Suite Key Secret Ct) (K : Schedule Key Secret) (e : Role → Nat)
    (net : Net Key Secret Ct) : Prop extends Session S K e net where
  kept : ∀ {r q j}, q ∈ net.inFlight r → OnChain S K j q →
    Passed (e r) (net.party r).recvCount j q.msgNo →
      (net.party r).skippedKeys.lookup (q.ratchetKey, q.msgNo) ≠ none
  bounded : ∀ r, e r = e r.other + 1 → (net.party r).recvCount ≤ (net.party r.other).sendCount

namespace Live

theorem start (hdh : S.DhCommutes) (shared : Key) {spk first : Secret}
    (hne : S.publicKey spk ≠ S.publicKey first) :
    Live S (startSchedule shared spk first) startEpoch (Net.start S shared spk first) := by
  refine ⟨Session.start hdh shared hne, ?_, ?_⟩
  · intro r q j hq
    cases hq
  · intro r _
    cases r <;> exact Nat.zero_le _

theorem send (h : Live S K e net) {plaintext : Bytes} (hok : net.Regular S (.send r plaintext))
    (hstep : net.step S (.send r plaintext) = some net') : Live S K e net' := by
  obtain ⟨hsession, p, st, -, hon, hn, hsend, hrecv, hskip, -, hparty, hflight, -⟩ :=
    h.toSession.send hok hstep
  refine ⟨hsession, ?_, ?_⟩
  · intro r' q j hq hj hpassed
    rw [hflight] at hq
    rw [hparty] at hpassed ⊢
    rcases Role.eq_or_eq_other r r' with rfl | rfl
    · rw [Function.update_of_ne r'.other_ne.symm] at hq
      rw [Function.update_self] at hpassed ⊢
      rw [hrecv] at hpassed
      rw [hskip]
      exact h.kept hq hj hpassed
    · rw [Function.update_self] at hq
      rw [Function.update_of_ne r.other_ne] at hpassed ⊢
      rcases List.mem_append.mp hq with hq | hq
      · exact h.kept hq hj hpassed
      · -- the new message lies ahead of its receiver
        rw [List.mem_singleton] at hq
        subst hq
        exfalso
        have hje : j = e r := h.distinct r.other r
          (by rcases hpassed with hp | hp <;> omega) (Nat.le_refl _)
          (by rw [← hj.ratchetKey, hon.ratchetKey])
        subst hje
        rcases hpassed with hlt | ⟨heq, hlt⟩
        · have := h.near r
          omega
        · have := h.bounded r.other (by rw [Role.other_other]; omega)
          rw [Role.other_other] at this
          omega
  · intro r' he
    have hle := h.bounded r' he
    rw [hparty]
    rcases Role.eq_or_eq_other r r' with rfl | rfl
    · rw [Function.update_self, Function.update_of_ne r'.other_ne, hrecv]
      exact hle
    · rw [Role.other_other] at hle ⊢
      rw [Function.update_self, Function.update_of_ne r.other_ne, hsend]
      omega

theorem put (h : Live S K e net) {K' : Schedule Key Secret} {e' : Role → Nat}
    {out : RatchetState Key Secret × Result Bytes} (hp : (net.inFlight r)[i]? = some p)
    (hsession : Session S K' e' (net.put r i p out)) (hother : e' r.other = e r.other)
    (hchain : ∀ {j q}, j + 1 ≤ e r.other → OnChain S K' j q → OnChain S K j q)
    (hkept : ∀ {q j}, q ∈ net.inFlight r →
      ¬ (q.ratchetKey = p.ratchetKey ∧ q.msgNo = p.msgNo) → OnChain S K' j q →
      Passed (e' r) out.1.recvCount j q.msgNo →
        out.1.skippedKeys.lookup (q.ratchetKey, q.msgNo) ≠ none)
    (hbounded : e' r = e r.other + 1 → out.1.recvCount ≤ (net.party r.other).sendCount)
    (hahead : e' r + 1 = e r.other →
      e r = e' r ∧ out.1.sendCount = (net.party r).sendCount) :
    Live S K' e' (net.put r i p out) := by
  refine ⟨hsession, ?_, ?_⟩
  · intro r' q j hq hj hpassed
    rcases Role.eq_or_eq_other r r' with rfl | rfl
    · simp only [Net.put, Function.update_self] at hq hpassed ⊢
      obtain ⟨hq, hne⟩ := (h.mem_eraseIdx hp).mp hq
      exact hkept hq hne hj hpassed
    · simp only [Net.put, Function.update_of_ne r.other_ne, hother] at hq hpassed ⊢
      refine h.kept hq (hchain ?_ hj) hpassed
      rcases hpassed with hlt | ⟨heq, -⟩ <;> omega
  · intro r' he
    rcases Role.eq_or_eq_other r r' with rfl | rfl
    · simp only [Net.put, Function.update_self, Function.update_of_ne r'.other_ne]
      exact hbounded (hother ▸ he)
    · simp only [Role.other_other, hother] at he
      simp only [Net.put, Role.other_other, Function.update_self,
        Function.update_of_ne r.other_ne]
      obtain ⟨her, hcount⟩ := hahead he.symm
      have hle := h.bounded r.other (by rw [Role.other_other, her]; exact he)
      rw [Role.other_other] at hle
      rw [hcount]
      exact hle

theorem outcome_kept {d j : Nat} {st : RatchetState Key Secret}
    {out : RatchetState Key Secret × Result Bytes} (hout : Outcome S K j p st out)
    (hd : j + 1 = d) (hpj : OnChain S K j p) {q : Packet Key Ct} {i : Nat} (hq : OnChain S K i q)
    (hne : ¬ (q.ratchetKey = p.ratchetKey ∧ q.msgNo = p.msgNo))
    (hold : Passed d st.recvCount i q.msgNo →
      st.skippedKeys.lookup (q.ratchetKey, q.msgNo) ≠ none)
    (hpassed : Passed d out.1.recvCount i q.msgNo) :
    out.1.skippedKeys.lookup (q.ratchetKey, q.msgNo) ≠ none := by
  rcases hout with ⟨-, -, hr⟩ | ⟨-, hst, -⟩
  · rw [hr.lookup]
    split
    · exact Option.some_ne_none _
    · next hout =>
      refine hold ?_
      rcases hpassed with hlt | ⟨heq, hlt⟩
      · exact Or.inl hlt
      · -- a number of the current chain between the old and the new position was stored
        have hij : i = j := by omega
        subst hij
        rw [hr.recvCount] at hlt
        have hsame : q.ratchetKey = K.ratchetKey S i := hq.ratchetKey
        have hnp : q.msgNo ≠ p.msgNo :=
          fun heq => hne ⟨by rw [hsame, hpj.ratchetKey], heq⟩
        exact Or.inr ⟨heq, by by_contra hge; exact hout ⟨hsame, by omega, by omega⟩⟩
  · rw [hst] at hpassed ⊢
    exact hold hpassed

/-- The three ways in which a genuine message arrives. -/
theorem arrival (h : Live S K e net) (hp : p ∈ net.inFlight r) :
    ∃ j, OnChain S K j p ∧ 1 ≤ j ∧ j ≤ e r.other ∧ p.msgNo + 1 < u32Size ∧
      (j = e r.other → p.msgNo < (net.party r.other).sendCount) ∧
      ((net.party r).skippedKeys.lookup (p.ratchetKey, p.msgNo) ≠ none ∨
        (j + 1 = e r ∧ (net.party r).recvCount ≤ p.msgNo) ∨
        (j = e r + 1 ∧ e r.other = e r + 1)) := by
  obtain ⟨j, hj, h1, hle, hpar, hu32, hlast⟩ := h.packet hp
  refine ⟨j, hj, h1, hle, hu32, hlast, ?_⟩
  rcases h.chain_cases hle hpar with hnext | hcur | hold
  · exact Or.inr (Or.inr ⟨hnext, by have := h.near r; omega⟩)
  · by_cases hn : p.msgNo < (net.party r).recvCount
    · exact Or.inl (h.kept hp hj (Or.inr ⟨hcur, hn⟩))
    · exact Or.inr (Or.inl ⟨hcur, by omega⟩)
  · exact Or.inl (h.kept hp hj (Or.inl hold))

theorem deliver (hdh : S.DhCommutes) (haead : S.AeadInverts) (h : Live S K e net) {fresh : Secret}
    (hok : net.Regular S (.deliver r i fresh)) (hleaves : net.LeavesNothing (.deliver r i fresh))
    (hstep : net.step S (.deliver r i fresh) = some net') : ∃ K' e', Live S K' e' net' := by
  obtain ⟨p, hp, rfl⟩ := Option.map_eq_some_iff.mp hstep
  have hmem : p ∈ net.inFlight r := List.mem_of_getElem? hp
  obtain ⟨j, hj, h1, hle, hu32, hlast, hstored | ⟨hcur, hn⟩ | ⟨hnext, he⟩⟩ := h.arrival hmem
  · obtain ⟨out, heq, hsession, -, hst⟩ := h.deliver_stored (i := i) haead hj hle fresh hstored
    rw [heq]
    refine ⟨K, e, h.put hp hsession rfl (fun _ hq => hq) ?_ ?_ ?_⟩
    · intro q k hq hne hk hpassed
      simp only [hst] at hpassed ⊢
      rw [Finmap.lookup_erase_ne fun heq => hne (Prod.mk.inj heq)]
      exact h.kept hq hk hpassed
    · intro her
      rw [hst]
      exact h.bounded r her
    · exact fun _ => ⟨rfl, by rw [hst]⟩
  · obtain ⟨out, heq, hsession, hout⟩ :=
      h.deliver_current (i := i) haead hj hcur h1 hle fresh hn hu32
    rw [heq]
    refine ⟨K, e, h.put hp hsession rfl (fun _ hq => hq) ?_ ?_ ?_⟩
    · intro q k hq hne hk hpassed
      exact outcome_kept hout hcur hj hk hne (h.kept hq hk) hpassed
    · intro her
      rcases hout with ⟨-, -, hr⟩ | ⟨-, hst, -⟩
      · have := hlast (by omega)
        rw [hr.recvCount]
        omega
      · rw [hst]
        exact h.bounded r her
    · exact fun _ => ⟨rfl, hout.sendCount.1⟩
  · subst hnext
    have hratchets : (net.party r).Ratchets p.ratchetKey p.msgNo := by
      rw [RatchetState.Ratchets, hj.ratchetKey]
      exact ⟨h.lookup_none hle (by omega) (by omega), h.needDhRatchet_next he⟩
    obtain ⟨out, heq, hsession, hout⟩ :=
      h.deliver_next (i := i) hdh haead hj he (hok p hp hratchets) hu32
    have hself : Function.update e r (e r + 2) r = e r + 2 := Function.update_self ..
    rw [heq]
    refine ⟨_, _, h.put hp hsession (Function.update_of_ne r.other_ne ..)
      (fun hk hon => hon.of_extend (by omega)) ?_ ?_ ?_⟩
    · intro q k hq hne hk hpassed
      rw [hself] at hpassed
      refine outcome_kept hout rfl (hj.extend (by omega) fresh) hk hne ?_ hpassed
      -- the chain that was left has nothing under way but what was passed over
      intro hbehind
      have hkK := hk.of_extend (by rcases hbehind with hb | hb <;> omega)
      rcases hbehind with hlt | ⟨-, hlt⟩
      · refine h.kept hq hkK ?_
        by_cases hleft : k + 1 = e r
        · refine Or.inr ⟨hleft, hleaves p hp hratchets q hq ?_⟩
          rw [(h.epoch r).recvKey, if_neg (by omega), hkK.ratchetKey, ← hleft]
          rfl
        · obtain ⟨k', hk', -, hle', hpar', -⟩ := h.packet hq
          have hkk : k = k' := h.distinct r.other r.other (by omega) hle'
            (by rw [← hkK.ratchetKey, hk'.ratchetKey])
          subst hkk
          exact Or.inl (by omega)
      · exact absurd hlt (Nat.not_lt_zero _)
    · intro _
      rcases hout with ⟨-, -, hr⟩ | ⟨-, hst, -⟩
      · have := hlast he.symm
        rw [hr.recvCount]
        omega
      · rw [hst]
        exact Nat.zero_le _
    · intro her
      rw [hself] at her
      omega

end Live

theorem Live.decrypts (hdh : S.DhCommutes) (haead : S.AeadInverts) (h : Live S K e net)
    (hp : (net.inFlight r)[i]? = some p) {fresh : Secret}
    (hok : net.Regular S (.deliver r i fresh))
    (hready : net.Late r p ∨ WithinLimits (net.party r) p.ratchetKey p.msgNo) :
    ((net.party r).decrypt S fresh p.ciphertext p.ratchetKey p.msgNo).2 = .ok p.plaintext := by
  obtain ⟨j, hj, h1, hle, hu32, -, hstored | ⟨hcur, hn⟩ | ⟨hnext, he⟩⟩ :=
    h.arrival (List.mem_of_getElem? hp)
  · obtain ⟨out, heq, -, hres, -⟩ := h.deliver_stored (i := i) haead hj hle fresh hstored
    rw [heq, hres]
  · have hneed := h.needDhRatchet_current hcur
    rw [← hj.ratchetKey] at hneed
    have hlimits : WithinLimits (net.party r) p.ratchetKey p.msgNo := by
      refine hready.resolve_left fun hlate => hlate.1 ?_
      rw [(h.epoch r).recvKey, if_neg (by omega), hj.ratchetKey, ← hcur]
      rfl
    obtain ⟨out, heq, -, ⟨-, hres, -⟩ | ⟨hunfit, -⟩⟩ :=
      h.deliver_current (i := i) haead hj hcur h1 hle fresh hn hu32
    · rw [heq, hres]
    · exact absurd (hlimits.fits hneed) hunfit
  · subst hnext
    have hneed := h.needDhRatchet_next he
    rw [← hj.ratchetKey] at hneed
    have hlimits : WithinLimits (net.party r) p.ratchetKey p.msgNo := by
      refine hready.resolve_left fun hlate => hlate.2 ?_
      rw [(h.epoch r.other).ratchetKey, hj.ratchetKey, he]
    have hnone : (net.party r).skippedKeys.lookup (p.ratchetKey, p.msgNo) = none := by
      rw [hj.ratchetKey]
      exact h.lookup_none hle (by omega) (by omega)
    obtain ⟨out, heq, -, ⟨-, hres, -⟩ | ⟨hunfit, -⟩⟩ :=
      h.deliver_next (i := i) hdh haead hj he (hok p hp ⟨hnone, hneed⟩) hu32
    · rw [heq, hres]
    · exact absurd (hlimits.fits_dhRatchetStep hneed fresh) hunfit

/-- **Late messages.** In every run of genuine messages in which no DH ratchet step leaves behind a
message that was not passed over, a message of a chain the receiver has left decrypts to its
plaintext whenever it arrives, and so does every other message within the limits. -/
theorem late_messages_decrypt (P : Primitives) (hdh : P.X25519Commutes) (hgcm : P.AesGcmInverts)
    {shared spk first : Array32} (hne : P.x25519Public spk ≠ P.x25519Public first)
    {net : Net Array32 Array32 Bytes}
    (hrun : Lib.Run (Net.step P.suite) (fun net a => net.Regular P.suite a ∧ net.LeavesNothing a)
      (Net.start P.suite shared spk first) net)
    {p : Packet Array32 Bytes} (hp : (net.inFlight r)[i]? = some p) {fresh : Array32}
    (hok : net.Regular P.suite (.deliver r i fresh)) :
    (net.Late r p →
      ((net.party r).decrypt P.suite fresh p.ciphertext p.ratchetKey p.msgNo).2 =
        .ok p.plaintext) ∧
    (WithinLimits (net.party r) p.ratchetKey p.msgNo →
      ((net.party r).decrypt P.suite fresh p.ciphertext p.ratchetKey p.msgNo).2 =
        .ok p.plaintext) := by
  obtain ⟨K, e, h⟩ := hrun.invariant (I := fun net => ∃ K e, Live P.suite K e net)
    ⟨_, _, Live.start hdh.suite shared hne⟩ (by
      rintro v w a ⟨K, e, h⟩ ⟨hreg, hleaves⟩ hstep
      cases a with
      | send r plaintext => exact ⟨K, e, h.send hreg hstep⟩
      | deliver r i fresh => exact h.deliver hdh.suite hgcm.suite hreg hleaves hstep)
  exact ⟨fun hlate => h.decrypts hdh.suite hgcm.suite hp hok (Or.inl hlate),
    fun hlimits => h.decrypts hdh.suite hgcm.suite hp hok (Or.inr hlimits)⟩

/-- Two messages are passed over before the chain is left, and one of them arrives afterwards. -/
def passedOver : List (Action Array32) :=
  [.send .sender (ascii "m0"), .send .sender (ascii "m1"), .send .sender (ascii "m2"),
    .deliver .receiver 2 (.ofNat 4), .send .receiver (ascii "r0"), .deliver .sender 0 (.ofNat 5),
    .send .sender (ascii "m3"), .deliver .receiver 2 (.ofNat 6)]

theorem late_messages_decrypt_passedOver :
    ∃ net p, Lib.exec (Net.step Primitives.additive.suite)
        (fun net a => net.Regular Primitives.additive.suite a ∧ net.LeavesNothing a)
        (Net.start Primitives.additive.suite (.ofNat 1) (.ofNat 2) (.ofNat 3)) passedOver =
          some net ∧
      (net.inFlight .receiver)[0]? = some p ∧ net.Late .receiver p ∧
      ((net.party .receiver).decrypt Primitives.additive.suite (.ofNat 7) p.ciphertext
        p.ratchetKey p.msgNo).2 = .ok p.plaintext := by
  have hrun : ((Lib.exec (Net.step Primitives.additive.suite)
      (fun net a => net.Regular Primitives.additive.suite a ∧ net.LeavesNothing a)
      (Net.start Primitives.additive.suite (.ofNat 1) (.ofNat 2) (.ofNat 3)) passedOver).bind
      fun net => (net.inFlight .receiver)[0]?.map fun p =>
        ((net.Late .receiver p : Bool),
          (net.Regular Primitives.additive.suite (.deliver .receiver 0 (.ofNat 7)) : Bool))) =
      some (true, true) := by decide +kernel
  obtain ⟨net, hexec, hrun⟩ := Option.bind_eq_some_iff.mp hrun
  obtain ⟨p, hp, hflags⟩ := Option.map_eq_some_iff.mp hrun
  simp only [Prod.mk.injEq, decide_eq_true_eq] at hflags
  refine ⟨net, p, hexec, hp, hflags.1, ?_⟩
  exact (late_messages_decrypt Primitives.additive Primitives.additive_commutes
    Primitives.additive_inverts (by decide +kernel) (Lib.Run.of_exec hexec) hp hflags.2).1 hflags.1

/-- `m1` is still under way when `m2` makes the receiver leave its chain. -/
def overtaken : List (Action Array32) :=
  [.send .sender (ascii "m0"), .send .sender (ascii "m1"), .deliver .receiver 0 (.ofNat 4),
    .send .receiver (ascii "r0"), .deliver .sender 0 (.ofNat 5), .send .sender (ascii "m2"),
    .send .sender (ascii "m3"), .deliver .receiver 1 (.ofNat 6), .deliver .receiver 0 (.ofNat 7),
    .deliver .receiver 0 (.ofNat 8)]

/-- `m1` is then taken for a message under a new ratchet key: it is lost, and so is `m3`, which
follows it on the current chain. -/
theorem overtaken_lost :
    (Lib.exec (Net.step Primitives.additive.suite) (Net.Regular Primitives.additive.suite)
      (Net.start Primitives.additive.suite (.ofNat 1) (.ofNat 2) (.ofNat 3)) overtaken).map
      (fun net => net.delivered.map fun d => (d.1.plaintext, d.2)) =
    some [(ascii "m0", .ok (ascii "m0")), (ascii "r0", .ok (ascii "r0")),
      (ascii "m2", .ok (ascii "m2")),
      (ascii "m1", .error (.crypto "AES-GCM decryption failed: aead::Error")),
      (ascii "m3", .error (.crypto "AES-GCM decryption failed: aead::Error"))] := by
  decide +kernel

end Cypher.Crypto.Verify
