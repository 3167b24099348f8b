import Cypher.Crypto.Verify.Fifo

/-!
# Deliveries of one chain in any order

After in-order deliveries, the messages of one chain may arrive in any order as long as both limits
of `skip_messages` are respected: each of them is opened, and after each delivery the stored keys
are those of the messages of the chain that were passed over and are still under way.
-/

namespace Cypher.Crypto.Verify

variable {Key Secret Ct : Type} {S : Suite Key Secret Ct} {K : Schedule Key Secret}
  {e : Role → Nat} {net net' : Net Key Secret Ct} {r : Role} {pk : PublicKey}

/-- Anyone may encrypt; delivered are only messages to `r` of the chain with ratchet key `pk`, in
any order, within both limits. -/
def Net.InBatch (S : Suite Key Secret Ct) (r : Role) (pk : PublicKey) (net : Net Key Secret Ct)
    (a : Action Secret) : Prop :=
  net.Regular S a ∧ match a with
    | .send _ _ => True
    | .deliver r' i _ => r' = r ∧ ∀ p ∈ (net.inFlight r')[i]?, p.ratchetKey = pk ∧
        WithinLimits (net.party r') p.ratchetKey p.msgNo

instance [DecidableEq Key] (net : Net Key Secret Ct) (a : Action Secret) :
    Decidable (net.InBatch S r pk a) :=
  match a with
  | .send _ _ => inferInstanceAs (Decidable (_ ∧ True))
  | .deliver r' i _ => inferInstanceAs (Decidable (_ ∧ r' = r ∧ ∀ p ∈ (net.inFlight r')[i]?, _))

/-- The stored keys of `st` are those of the messages of chain `pk` still in `queue` that `st` has
passed over. -/
def StoresExactly (pk : PublicKey) (st : RatchetState Key Secret) (queue : List (Packet Key Ct)) :
    Prop :=
  ∀ k n mk, st.skippedKeys.lookup (k, n) = some mk ↔
    k = pk ∧ n < st.recvCount ∧
      ∃ q ∈ queue, q.ratchetKey = pk ∧ q.msgNo = n ∧ q.messageKey = mk

/-- A party in epoch `own` that receives on chain `pk`: it stores exactly the keys it passed over,
and every number from `recv_count` up to the newest message of the chain is in `queue`. -/
structure Tracks (S : Suite Key Secret Ct) (K : Schedule Key Secret) (own peer : Nat)
    (pk : PublicKey) (st : RatchetState Key Secret) (peerSent : Nat)
    (queue : List (Packet Key Ct)) : Prop where
  chain : pk = K.ratchetKey S (own - 1)
  pos : 2 ≤ own
  exact : StoresExactly pk st queue
  dense : ∃ top, st.recvCount ≤ top ∧ (∀ q ∈ queue, q.ratchetKey = pk → q.msgNo < top) ∧
    (∀ m, st.recvCount ≤ m → m < top → ∃ q ∈ queue, q.ratchetKey = pk ∧ q.msgNo = m) ∧
    (peer + 1 = own → top = peerSent)

namespace Tracks

variable {own peer peerSent i : Nat} {st st' : RatchetState Key Secret}
  {queue rest : List (Packet Key Ct)} {p : Packet Key Ct}

theorem erase (h : Tracks S K own peer pk st peerSent queue) (hpk : p.ratchetKey = pk)
    (hn : p.msgNo < st.recvCount)
    (hrest : ∀ {q}, q ∈ rest ↔
      q ∈ queue ∧ ¬ (q.ratchetKey = p.ratchetKey ∧ q.msgNo = p.msgNo)) :
    Tracks S K own peer pk
      { st with skippedKeys := st.skippedKeys.erase (p.ratchetKey, p.msgNo) } peerSent rest := by
  obtain ⟨top, hle, hlt, hall, htop⟩ := h.dense
  refine ⟨h.chain, h.pos, ?_, top, hle, fun q hq => hlt q (hrest.mp hq).1, ?_, htop⟩
  · intro k n mk
    by_cases hx : (k, n) = (p.ratchetKey, p.msgNo)
    · rw [hx, Finmap.lookup_erase]
      obtain ⟨rfl, rfl⟩ := Prod.mk.inj hx
      refine iff_of_false (by simp) ?_
      rintro ⟨-, -, q, hq, hqpk, hqn, -⟩
      exact (hrest.mp hq).2 ⟨hqpk.trans hpk.symm, hqn⟩
    · rw [Finmap.lookup_erase_ne hx, h.exact]
      refine and_congr_right fun hk => and_congr_right fun _ => exists_congr fun q => ?_
      rw [hrest]
      refine ⟨fun ⟨hq, hqpk, hqn, hmk⟩ => ⟨⟨hq, ?_⟩, hqpk, hqn, hmk⟩,
        fun ⟨hq, hrest⟩ => ⟨hq.1, hrest⟩⟩
      rintro ⟨h1, h2⟩
      exact hx (by rw [hk, ← hqpk, h1, ← hqn, h2])
  · intro m hm hmt
    have hm' : st.recvCount ≤ m := hm
    obtain ⟨q, hq, hqpk, hqm⟩ := hall m hm' hmt
    exact ⟨q, hrest.mpr ⟨hq, by omega⟩, hqpk, hqm⟩

theorem received (h : Tracks S K own peer pk st peerSent queue)
    (hon : ∀ q ∈ queue, q.ratchetKey = pk → OnChain S K (own - 1) q) (hp : p ∈ queue)
    (hpk : p.ratchetKey = pk) (hn : st.recvCount ≤ p.msgNo)
    (hr : Received S K (own - 1) p.msgNo st st')
    (hrest : ∀ {q}, q ∈ rest ↔
      q ∈ queue ∧ ¬ (q.ratchetKey = p.ratchetKey ∧ q.msgNo = p.msgNo)) :
    Tracks S K own peer pk st' peerSent rest := by
  obtain ⟨top, -, hlt, hall, htop⟩ := h.dense
  refine ⟨h.chain, h.pos, ?_, top, ?_, fun q hq => hlt q (hrest.mp hq).1, ?_, htop⟩
  · intro k m mk
    rw [hr.lookup, hr.recvCount, ← h.chain]
    split
    · next hin =>
      obtain ⟨rfl, hm, hmn⟩ := hin
      simp only [Option.some.injEq]
      constructor
      · rintro rfl
        obtain ⟨q, hq, hqpk, hqm⟩ := hall m hm (by have := hlt p hp hpk; omega)
        exact ⟨trivial, by omega, q, hrest.mpr ⟨hq, by omega⟩, hqpk, hqm,
          by rw [(hon q hq hqpk).messageKey, hqm]⟩
      · rintro ⟨-, -, q, hq, hqpk, rfl, rfl⟩
        exact ((hon q (hrest.mp hq).1 hqpk).messageKey).symm
    · next hout =>
      rw [h.exact]
      constructor
      · rintro ⟨hk, hm, q, hq, hqpk, hqm, hmk⟩
        exact ⟨hk, by omega, q, hrest.mpr ⟨hq, by omega⟩, hqpk, hqm, hmk⟩
      · rintro ⟨hk, hm, q, hq, hqpk, hqm, hmk⟩
        obtain ⟨hq, hne⟩ := hrest.mp hq
        have hmn : m ≠ p.msgNo := fun heq => hne ⟨hqpk.trans hpk.symm, hqm.trans heq⟩
        exact ⟨hk, by by_contra hge; exact hout ⟨hk, by omega, by omega⟩, q, hq, hqpk, hqm, hmk⟩
  · rw [hr.recvCount]
    exact hlt p hp hpk
  · intro m hm hmt
    rw [hr.recvCount] at hm
    obtain ⟨q, hq, hqpk, hqm⟩ := hall m (by omega) hmt
    exact ⟨q, hrest.mpr ⟨hq, by omega⟩, hqpk, hqm⟩

theorem append (h : Tracks S K own peer pk st peerSent queue) (hpk : p.ratchetKey = pk)
    (hpeer : peer + 1 = own) (hn : p.msgNo = peerSent) :
    Tracks S K own peer pk st (peerSent + 1) (queue ++ [p]) := by
  obtain ⟨top, hle, hlt, hall, htop⟩ := h.dense
  obtain rfl := htop hpeer
  refine ⟨h.chain, h.pos, ?_, top + 1, by omega, ?_, ?_, fun _ => rfl⟩
  · intro k n mk
    rw [h.exact]
    refine and_congr_right fun _ => and_congr_right fun hlt => exists_congr fun q => ?_
    rw [List.mem_append, List.mem_singleton]
    refine ⟨fun ⟨hq, hrest⟩ => ⟨Or.inl hq, hrest⟩, ?_⟩
    rintro ⟨hq | rfl, hqpk, hqn, hmk⟩
    · exact ⟨hq, hqpk, hqn, hmk⟩
    · omega
  · intro q hq hqpk
    rcases List.mem_append.mp hq with hq | hq
    · have := hlt q hq hqpk
      omega
    · rw [List.mem_singleton.mp hq, hn]
      omega
  · intro m hm hmt
    by_cases hmtop : m = top
    · exact ⟨p, by simp, hpk, by omega⟩
    · obtain ⟨q, hq, hqpk, hqm⟩ := hall m hm (by omega)
      exact ⟨q, List.mem_append_left _ hq, hqpk, hqm⟩

theorem append_other (h : Tracks S K own peer pk st peerSent queue) (hpk : p.ratchetKey ≠ pk)
    (hpeer : peer + 1 ≠ own) (sent : Nat) :
    Tracks S K own peer pk st sent (queue ++ [p]) := by
  obtain ⟨top, hle, hlt, hall, -⟩ := h.dense
  have hmem : ∀ q, q ∈ queue ++ [p] → q.ratchetKey = pk → q ∈ queue := by
    intro q hq hqpk
    rcases List.mem_append.mp hq with hq | hq
    · exact hq
    · rw [List.mem_singleton.mp hq] at hqpk
      exact absurd hqpk hpk
  refine ⟨h.chain, h.pos, ?_, top, hle, fun q hq hqpk => hlt q (hmem q hq hqpk) hqpk, ?_,
    fun heq => absurd heq hpeer⟩
  · intro k n mk
    rw [h.exact]
    refine and_congr_right fun _ => and_congr_right fun _ => exists_congr fun q => ?_
    exact ⟨fun ⟨hq, hrest⟩ => ⟨List.mem_append_left _ hq, hrest⟩,
      fun ⟨hq, hqpk, hrest⟩ => ⟨hmem q hq hqpk, hqpk, hrest⟩⟩
  · intro m hm hmt
    obtain ⟨q, hq, hqpk, hqm⟩ := hall m hm hmt
    exact ⟨q, List.mem_append_left _ hq, hqpk, hqm⟩

theorem congr (h : Tracks S K own peer pk st peerSent queue)
    (hskip : st'.skippedKeys = st.skippedKeys) (hrecv : st'.recvCount = st.recvCount) :
    Tracks S K own peer pk st' peerSent queue := by
  obtain ⟨hchain, hpos, hexact, hdense⟩ := h
  refine ⟨hchain, hpos, ?_, by rw [hrecv]; exact hdense⟩
  unfold StoresExactly at hexact ⊢
  rw [hskip, hrecv]
  exact hexact

end Tracks

/-! ## Nets in the middle of a batch -/

structure Batch (S : Suite Key Secret Ct) (K : Schedule Key Secret) (e : Role → Nat) (r : Role)
    (pk : PublicKey) (net : Net Key Secret Ct) : Prop extends Session S K e net where
  tracks : Tracks S K (e r) (e r.other) pk (net.party r) (net.party r.other).sendCount
    (net.inFlight r)
  agreed : net.Agreed

namespace Batch

theorem onChain (hs : Session S K e net) (hpk : pk = K.ratchetKey S (e r - 1))
    {q : Packet Key Ct} (hq : q ∈ net.inFlight r) (hqpk : q.ratchetKey = pk) :
    OnChain S K (e r - 1) q := by
  obtain ⟨i, hi, -, hle, -⟩ := hs.packet hq
  have heq : i = e r - 1 := hs.distinct r.other r hle (by omega)
    (by rw [← hi.ratchetKey, hqpk, hpk])
  exact heq ▸ hi

theorem send (h : Batch S K e r pk net) {r' : Role} {plaintext : Bytes}
    (hok : net.Regular S (.send r' plaintext))
    (hstep : net.step S (.send r' plaintext) = some net') : Batch S K e r pk net' := by
  obtain ⟨hsession, p, st, -, hon, hn, hsend, hrecv, hskip, -, hparty, hflight, hdelivered⟩ :=
    h.toSession.send hok hstep
  refine ⟨hsession, ?_, fun d hd => h.agreed d (hdelivered ▸ hd)⟩
  rw [hparty, hflight]
  rcases Role.eq_or_eq_other r r' with rfl | rfl
  · simp only [Function.update_self, Function.update_of_ne r'.other_ne,
      Function.update_of_ne r'.other_ne.symm]
    exact h.tracks.congr hskip hrecv
  · simp only [Role.other_other, Function.update_self, Function.update_of_ne r.other_ne.symm,
      hsend]
    rcases h.near r with he | he
    · refine h.tracks.append_other ?_ (by omega) _
      rw [hon.ratchetKey, h.tracks.chain]
      intro heq
      have := h.distinct r.other r (Nat.le_refl _) (by omega) heq
      omega
    · refine h.tracks.append ?_ he.symm hn
      rw [hon.ratchetKey, h.tracks.chain, he]
      rfl

theorem deliver (haead : S.AeadInverts) (h : Batch S K e r pk net) {i : Nat} {fresh : Secret}
    {p : Packet Key Ct} (hp : (net.inFlight r)[i]? = some p) (hpk : p.ratchetKey = pk)
    (hfits : Fits (net.party r) p.msgNo) :
    Batch S K e r pk (net.put r i p
      ((net.party r).decrypt S fresh p.ciphertext p.ratchetKey p.msgNo)) := by
  have hmem : p ∈ net.inFlight r := List.mem_of_getElem? hp
  obtain ⟨j, hj, h1, hle, -, hu32, -⟩ := h.packet hmem
  have hon := onChain h.toSession h.tracks.chain hmem hpk
  have hpos := h.tracks.pos
  have hle' : e r - 1 ≤ e r.other := by rcases h.near r with he | he <;> omega
  by_cases hlook : (net.party r).skippedKeys.lookup (p.ratchetKey, p.msgNo) = none
  · -- a message that has been passed over and is under way has its key stored
    have hn : (net.party r).recvCount ≤ p.msgNo := by
      by_contra hlt
      have hstored := (h.tracks.exact p.ratchetKey p.msgNo p.messageKey).mpr
        ⟨hpk, by omega, p, hmem, hpk, rfl, rfl⟩
      rw [hlook] at hstored
      cases hstored
    obtain ⟨out, heq, hsession, hout⟩ := h.deliver_current (i := i) haead hon (by omega) (by omega)
      hle' fresh hn hu32
    rw [heq]
    rcases hout with ⟨-, hres, hr⟩ | ⟨hunfit, -⟩
    · refine ⟨hsession, ?_, h.agreed.put hres⟩
      simp only [Net.put, Function.update_self, Function.update_of_ne r.other_ne]
      exact h.tracks.received (fun q hq => onChain h.toSession h.tracks.chain hq) hmem hpk hn hr
        (h.mem_eraseIdx hp)
    · exact absurd hfits hunfit
  · obtain ⟨out, heq, hsession, hres, hst⟩ :=
      h.deliver_stored (i := i) haead hon hle' fresh hlook
    rw [heq]
    refine ⟨hsession, ?_, h.agreed.put hres⟩
    obtain ⟨mk, hmk⟩ := Option.ne_none_iff_exists'.mp hlook
    simp only [Net.put, Function.update_self, Function.update_of_ne r.other_ne, hst]
    exact h.tracks.erase hpk ((h.tracks.exact _ _ _).mp hmk).2.1 (h.mem_eraseIdx hp)

end Batch

/-! ## The first delivery after an in-order run -/

namespace Fifo

theorem batch_current (h : Fifo S K e net) {p : Packet Key Ct} (hp : p ∈ net.inFlight r)
    (hon : OnChain S K (e r - 1) p) : Batch S K e r p.ratchetKey net := by
  obtain ⟨j, hj, h1, hle, -, -, -⟩ := h.packet hp
  have hje : j = e r - 1 := h.distinct r.other r hle (by omega)
    (by rw [← hj.ratchetKey, hon.ratchetKey])
  obtain ⟨cur, next, hl, hcur, hnext, hbehind, -⟩ := h.queue r
  have hin : ∀ q ∈ net.inFlight r, q.ratchetKey = p.ratchetKey → q ∈ cur := by
    intro q hq hqp
    rw [hl] at hq
    rcases List.mem_append.mp hq with hq | hq
    · exact hq
    · have hr : e r + 1 ≤ e r.other := by
        rcases h.near r with he | he
        · omega
        · rw [(hbehind (by omega)).1] at hq
          cases hq
      have := h.distinct r.other r hr (by omega : e r - 1 ≤ e r)
        (by rw [← (hnext.onChain hq).1.ratchetKey, hqp, hon.ratchetKey])
      omega
  refine ⟨h.toSession, ⟨hon.ratchetKey, by omega, ?_, ?_⟩, h.agreed⟩
  · intro k n mk
    rw [h.empty r, Finmap.lookup_empty]
    refine iff_of_false (by simp) ?_
    rintro ⟨-, hlt, q, hq, hqp, rfl, -⟩
    have := (hcur.onChain (hin q hq hqp)).2.1
    omega
  · refine ⟨(net.party r).recvCount + cur.length, by omega,
      fun q hq hqp => (hcur.onChain (hin q hq hqp)).2.2, ?_, fun he => (hbehind (by omega)).2⟩
    intro m hm hmt
    obtain ⟨q, hq, hqm⟩ := hcur.exists_msgNo hm hmt
    refine ⟨q, by rw [hl]; exact List.mem_append_left _ hq, ?_, hqm⟩
    rw [(hcur.onChain hq).1.ratchetKey, hon.ratchetKey]

theorem tracks_next (h : Fifo S K e net) {p : Packet Key Ct} (hon : OnChain S K (e r + 1) p)
    (hr : e r.other = e r + 1) (fresh : Secret) :
    Tracks S (K.extend (e r + 2) fresh) (e r + 2) (e r.other) p.ratchetKey
      ((net.party r).dhRatchetStep S fresh p.ratchetKey) (net.party r.other).sendCount
      (net.inFlight r) := by
  obtain ⟨cur, next, hl, hcur, hnext, -, hahead⟩ := h.queue r
  have hin : ∀ q ∈ net.inFlight r, q.ratchetKey = p.ratchetKey → q ∈ next := by
    intro q hq hqp
    rw [hl] at hq
    rcases List.mem_append.mp hq with hq | hq
    · have := h.distinct r r.other (by omega : e r - 1 ≤ e r)
        (Nat.le_of_eq hr.symm) (by rw [← (hcur.onChain hq).1.ratchetKey, hqp, hon.ratchetKey])
      omega
    · exact hq
  refine ⟨?_, by omega, ?_, next.length, Nat.zero_le _, ?_, ?_, fun _ => hahead (by omega)⟩
  · rw [hon.ratchetKey]
    exact (Schedule.ratchetKey_extend (by omega) fresh).symm
  · intro k n mk
    simp only [RatchetState.dhRatchetStep, h.empty r, Finmap.lookup_empty]
    refine iff_of_false (by simp) ?_
    rintro ⟨-, hlt, -⟩
    omega
  · intro q hq hqp
    simpa using (hnext.onChain (hin q hq hqp)).2.2
  · intro m _ hmt
    obtain ⟨q, hq, hqm⟩ := hnext.exists_msgNo (Nat.zero_le m) (by omega)
    refine ⟨q, by rw [hl]; exact List.mem_append_right _ hq, ?_, hqm⟩
    rw [(hnext.onChain hq).1.ratchetKey, hon.ratchetKey]

theorem batch_deliver (hdh : S.DhCommutes) (haead : S.AeadInverts) (h : Fifo S K e net) {i : Nat}
    {fresh : Secret} {p : Packet Key Ct} (hp : (net.inFlight r)[i]? = some p)
    (hok : net.InBatch S r pk (.deliver r i fresh)) :
    ∃ K' e', Batch S K' e' r pk (net.put r i p
      ((net.party r).decrypt S fresh p.ciphertext p.ratchetKey p.msgNo)) := by
  have hmem : p ∈ net.inFlight r := List.mem_of_getElem? hp
  obtain ⟨hreg, -, hbatch⟩ := hok
  obtain ⟨rfl, hlimits⟩ := hbatch p hp
  obtain ⟨cur, next, hl, hcur, hnext, hbehind, -⟩ := h.queue r
  rw [hl] at hmem
  rcases List.mem_append.mp hmem with hin | hin
  · have hcurrent := h.batch_current (hl ▸ hmem) (hcur.onChain hin).1
    have hneed := h.needDhRatchet_current (r := r) (i := e r - 1)
      (by have := hcurrent.tracks.pos; omega)
    rw [← (hcur.onChain hin).1.ratchetKey] at hneed
    exact ⟨K, e, hcurrent.deliver haead hp rfl (hlimits.fits hneed)⟩
  · have hon := (hnext.onChain hin).1
    have he : e r.other = e r + 1 := by
      rcases h.near r with he | he
      · exact he
      · rw [(hbehind (by omega)).1] at hin
        cases hin
    have hneed := h.needDhRatchet_next he
    rw [← hon.ratchetKey] at hneed
    have hfresh : S.publicKey fresh ∉ net.ratchetKeys :=
      hreg p hp ⟨by rw [h.empty r, Finmap.lookup_empty], hneed⟩
    obtain ⟨-, -, -, -, -, hu32, -⟩ := h.packet (hl ▸ hmem)
    obtain ⟨out, heq, hsession, hout⟩ := h.deliver_next (i := i) hdh haead hon he hfresh hu32
    rw [heq]
    rcases hout with ⟨-, hres, hr⟩ | ⟨hunfit, -⟩
    · refine ⟨_, _, hsession, ?_, h.agreed.put hres⟩
      simp only [Net.put, Function.update_self, Function.update_of_ne r.other_ne]
      refine (h.tracks_next hon he fresh).received ?_ (hl ▸ hmem) rfl (Nat.zero_le _) hr
        (h.mem_eraseIdx hp)
      intro q hq hqp
      obtain ⟨j, hj, -, hle, -⟩ := h.packet hq
      have hje : j = e r + 1 := h.distinct _ _ hle (Nat.le_of_eq he.symm)
        (by rw [← hj.ratchetKey, hqp, hon.ratchetKey])
      exact (hje ▸ hj).extend (by omega) fresh
    · exact absurd (hlimits.fits_dhRatchetStep hneed fresh) hunfit

end Fifo

theorem inBatch_step (hdh : S.DhCommutes) (haead : S.AeadInverts) {a : Action Secret}
    (h : ∃ K e, Fifo S K e net ∨ Batch S K e r pk net) (hok : net.InBatch S r pk a)
    (hstep : net.step S a = some net') :
    ∃ K e, (Fifo S K e net' ∧ ∃ r' plaintext, a = .send r' plaintext) ∨ Batch S K e r pk net' := by
  obtain ⟨K, e, h⟩ := h
  cases a with
  | send r' plaintext =>
    rcases h with h | h
    · exact ⟨K, e, Or.inl ⟨h.send hok.1 hstep, r', plaintext, rfl⟩⟩
    · exact ⟨K, e, Or.inr (h.send hok.1 hstep)⟩
  | deliver r' i fresh =>
    obtain ⟨p, hp, rfl⟩ := Option.map_eq_some_iff.mp hstep
    obtain rfl := hok.2.1
    rcases h with h | h
    · obtain ⟨K', e', hbatch⟩ := h.batch_deliver hdh haead hp hok
      exact ⟨K', e', Or.inr hbatch⟩
    · obtain ⟨hpk, hlimits⟩ := hok.2.2 p hp
      have hneed := h.needDhRatchet_current (r := r') (i := e r' - 1)
        (by have := h.tracks.pos; omega)
      rw [← h.tracks.chain, ← hpk] at hneed
      exact ⟨K, e, Or.inr (h.deliver haead hp hpk (hlimits.fits hneed))⟩

/-- **Any order within a chain.** From a net reached by in-order deliveries, deliver messages of one
chain to `r` in any order within the limits: each delivery returns its plaintext, and after it `r`
stores exactly the keys of the undelivered messages of the chain that it has passed over. -/
theorem decrypts_out_of_order (P : Primitives) (hdh : P.X25519Commutes) (hgcm : P.AesGcmInverts)
    {shared spk first : Array32} (hne : P.x25519Public spk ≠ P.x25519Public first)
    {net₀ net net' : Net Array32 Array32 Bytes}
    (hfifo : Lib.Run (Net.step P.suite) (Net.InOrder P.suite)
      (Net.start P.suite shared spk first) net₀)
    (hbatch : Lib.Run (Net.step P.suite) (Net.InBatch P.suite r pk) net₀ net)
    {i : Nat} {fresh : Array32} (hok : net.InBatch P.suite r pk (.deliver r i fresh))
    (hstep : net.step P.suite (.deliver r i fresh) = some net') :
    net'.Agreed ∧ StoresExactly pk (net'.party r) (net'.inFlight r) := by
  obtain ⟨K₀, e₀, hstart⟩ := Fifo.run hdh.suite hgcm.suite hne hfifo
  have hmid := hbatch.invariant
    (I := fun net => ∃ K e, Fifo P.suite K e net ∨ Batch P.suite K e r pk net)
    ⟨K₀, e₀, Or.inl hstart⟩ fun h hok hstep => by
      obtain ⟨K, e, h⟩ := inBatch_step hdh.suite hgcm.suite h hok hstep
      exact ⟨K, e, h.imp_left And.left⟩
  obtain ⟨K, e, ⟨-, r', plaintext, ha⟩ | h⟩ := inBatch_step hdh.suite hgcm.suite hmid hok hstep
  · cases ha
  · exact ⟨h.agreed, h.tracks.exact⟩

/-- The first message in order, then three more: the last of them overtakes the other two, and the
older of these two follows. -/
theorem decrypts_out_of_order_overtaken :
    ∃ net₀ net net', Lib.exec (Net.step Primitives.additive.suite)
        (Net.InOrder Primitives.additive.suite)
        (Net.start Primitives.additive.suite (.ofNat 1) (.ofNat 2) (.ofNat 3))
        [.send .sender (ascii "m0"), .deliver .receiver 0 (.ofNat 4), .send .sender (ascii "m1"),
          .send .sender (ascii "m2"), .send .sender (ascii "m3")] = some net₀ ∧
      Lib.exec (Net.step Primitives.additive.suite)
        (Net.InBatch Primitives.additive.suite .receiver (.ofNat 3)) net₀
        [.deliver .receiver 2 (.ofNat 0)] = some net ∧
      net.step Primitives.additive.suite (.deliver .receiver 0 (.ofNat 0)) = some net' ∧
      net'.delivered.length = 3 ∧ (net'.party .receiver).skippedKeys.keys.card = 1 ∧
      net'.Agreed ∧ StoresExactly (.ofNat 3) (net'.party .receiver) (net'.inFlight .receiver) := by
  have hrun : ((Lib.exec (Net.step Primitives.additive.suite)
      (Net.InOrder Primitives.additive.suite)
      (Net.start Primitives.additive.suite (.ofNat 1) (.ofNat 2) (.ofNat 3))
      [.send .sender (ascii "m0"), .deliver .receiver 0 (.ofNat 4), .send .sender (ascii "m1"),
        .send .sender (ascii "m2"), .send .sender (ascii "m3")]).bind fun net₀ =>
      (Lib.exec (Net.step Primitives.additive.suite)
        (Net.InBatch Primitives.additive.suite .receiver (.ofNat 3)) net₀
        [.deliver .receiver 2 (.ofNat 0)]).bind fun net =>
      if net.InBatch Primitives.additive.suite .receiver (.ofNat 3)
          (.deliver .receiver 0 (.ofNat 0)) then
        (net.step Primitives.additive.suite (.deliver .receiver 0 (.ofNat 0))).map fun net' =>
          (net'.delivered.length, (net'.party .receiver).skippedKeys.keys.card)
      else none) = some (3, 1) := by decide +kernel
  obtain ⟨net₀, hfifo, hrun⟩ := Option.bind_eq_some_iff.mp hrun
  obtain ⟨net, hbatch, hrun⟩ := Option.bind_eq_some_iff.mp hrun
  split at hrun
  · next hok =>
    obtain ⟨net', hstep, hcounts⟩ := Option.map_eq_some_iff.mp hrun
    obtain ⟨hlen, hcard⟩ := Prod.mk.inj hcounts
    refine ⟨net₀, net, net', hfifo, hbatch, hstep, hlen, hcard, ?_⟩
    exact decrypts_out_of_order Primitives.additive Primitives.additive_commutes
      Primitives.additive_inverts (by decide +kernel) (Lib.Run.of_exec hfifo)
      (Lib.Run.of_exec hbatch) hok hstep
  · cases hrun

end Cypher.Crypto.Verify
