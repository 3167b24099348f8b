import Cypher.Crypto.Verify.Session

/-!
# In-order delivery

With channels that deliver in order, nothing is ever skipped: what is on its way to a party is the
rest of the chain it receives on, followed by a beginning of its peer's next chain. `Fifo` adds this
to `Session`, and every delivery of such a net hands over the plaintext that was encrypted.
-/

namespace Cypher.Crypto.Verify

variable {Key Secret Ct : Type} {S : Suite Key Secret Ct} {K : Schedule Key Secret}
  {e : Role → Nat} {net net' : Net Key Secret Ct}

/-- The packets are messages `n`, `n + 1`, … of chain `i`. -/
def Consecutive (S : Suite Key Secret Ct) (K : Schedule Key Secret) (i : Nat) :
    Nat → List (Packet Key Ct) → Prop
  | _, [] => True
  | n, p :: rest => OnChain S K i p ∧ p.msgNo = n ∧ Consecutive S K i (n + 1) rest

namespace Consecutive

variable {i n : Nat} {l : List (Packet Key Ct)}

theorem append_singleton {p : Packet Key Ct} (h : Consecutive S K i n l) (hp : OnChain S K i p)
    (hn : p.msgNo = n + l.length) : Consecutive S K i n (l ++ [p]) := by
  induction l generalizing n with
  | nil => exact ⟨hp, hn, trivial⟩
  | cons q rest ih =>
    obtain ⟨hq, hqn, hrest⟩ := h
    exact ⟨hq, hqn, ih hrest (by simp only [List.length_cons] at hn; omega)⟩

theorem extend (h : Consecutive S K i n l) {j : Nat} (hij : i < j) (s : Secret) :
    Consecutive S (K.extend j s) i n l := by
  induction l generalizing n with
  | nil => trivial
  | cons q rest ih => exact ⟨h.1.extend hij s, h.2.1, ih h.2.2⟩

theorem onChain (h : Consecutive S K i n l) {p : Packet Key Ct} (hp : p ∈ l) :
    OnChain S K i p ∧ n ≤ p.msgNo ∧ p.msgNo < n + l.length := by
  induction l generalizing n with
  | nil => cases hp
  | cons q rest ih =>
    rcases List.mem_cons.mp hp with rfl | hp
    · exact ⟨h.1, by rw [h.2.1], by rw [h.2.1, List.length_cons]; omega⟩
    · obtain ⟨hon, hle, hlt⟩ := ih h.2.2 hp
      exact ⟨hon, by omega, by rw [List.length_cons]; omega⟩

theorem exists_msgNo (h : Consecutive S K i n l) {m : Nat} (hn : n ≤ m)
    (hm : m < n + l.length) : ∃ p ∈ l, p.msgNo = m := by
  induction l generalizing n with
  | nil => simp only [List.length_nil] at hm; omega
  | cons q rest ih =>
    by_cases hmn : m = n
    · exact ⟨q, List.mem_cons_self, by rw [h.2.1, hmn]⟩
    · obtain ⟨p, hp, hpm⟩ := ih h.2.2 (by omega) (by simp only [List.length_cons] at hm; omega)
      exact ⟨p, List.mem_cons_of_mem _ hp, hpm⟩

end Consecutive

/-- What is on its way to a party in epoch `own` from one in epoch `peer`. -/
def Queue (S : Suite Key Secret Ct) (K : Schedule Key Secret) (own peer recvCount sendCount : Nat)
    (l : List (Packet Key Ct)) : Prop :=
  ∃ cur next, l = cur ++ next ∧ Consecutive S K (own - 1) recvCount cur ∧
    Consecutive S K (own + 1) 0 next ∧
    (peer < own → next = [] ∧ recvCount + cur.length = sendCount) ∧
    (own < peer → next.length = sendCount)

structure Fifo (S : Suite Key Secret Ct) (K : Schedule Key Secret) (e : Role → Nat)
    (net : Net Key Secret Ct) : Prop extends Session S K e net where
  empty : ∀ r, (net.party r).skippedKeys = ∅
  queue : ∀ r, Queue S K (e r) (e r.other) (net.party r).recvCount (net.party r.other).sendCount
    (net.inFlight r)
  agreed : net.Agreed

/-- Both channels deliver their oldest message first. -/
def Net.InOrder (S : Suite Key Secret Ct) (net : Net Key Secret Ct) (a : Action Secret) : Prop :=
  net.Regular S a ∧ match a with
    | .send _ _ => True
    | .deliver _ i _ => i = 0

instance [DecidableEq Key] (net : Net Key Secret Ct) (a : Action Secret) :
    Decidable (net.InOrder S a) :=
  match a with
  | .send _ _ => inferInstanceAs (Decidable (_ ∧ True))
  | .deliver _ i _ => inferInstanceAs (Decidable (_ ∧ i = 0))

namespace Fifo

theorem start (hdh : S.DhCommutes) (shared : Key) {spk first : Secret}
    (hne : S.publicKey spk ≠ S.publicKey first) :
    Fifo S (startSchedule shared spk first) startEpoch (Net.start S shared spk first) := by
  refine ⟨Session.start hdh shared hne, ?_, ?_, ?_⟩
  · intro r
    cases r <;> rfl
  · intro r
    refine ⟨[], [], rfl, trivial, trivial, fun _ => ⟨rfl, ?_⟩, fun _ => ?_⟩ <;> cases r <;> rfl
  · intro d hd
    cases hd

theorem send (h : Fifo S K e net) {r : Role} {plaintext : Bytes}
    (hok : net.Regular S (.send r plaintext))
    (hstep : net.step S (.send r plaintext) = some net') : Fifo S K e net' := by
  obtain ⟨hsession, p, st, -, hon, hn, hsend, hrecv, hskip, -, hparty, hflight, hdelivered⟩ :=
    h.toSession.send hok hstep
  refine ⟨hsession, ?_, ?_, fun d hd => h.agreed d (hdelivered ▸ hd)⟩
  · rw [hparty]
    exact (Function.forall_update_iff net.party fun _ st => st.skippedKeys = ∅).mpr
      ⟨hskip.trans (h.empty r), fun r' _ => h.empty r'⟩
  · intro r'
    rcases Role.eq_or_eq_other r r' with rfl | rfl
    · simpa only [hparty, hflight, Function.update_self, Function.update_of_ne r'.other_ne,
        Function.update_of_ne r'.other_ne.symm, hrecv] using h.queue r'
    · obtain ⟨cur, next, hl, hcur, hnext, hbehind, hahead⟩ := h.queue r.other
      simp only [hparty, hflight, Role.other_other, Function.update_self,
        Function.update_of_ne r.other_ne] at hl hcur hnext hbehind hahead ⊢
      rcases h.near r with he | he
      · -- the party that encrypts is behind: its chain is the one its peer receives on
        obtain ⟨rfl, hlen⟩ := hbehind (by omega)
        have hcur' : Consecutive S K (e r.other - 1) (net.party r.other).recvCount (cur ++ [p]) :=
          hcur.append_singleton (by rw [he]; exact hon) (by omega)
        refine ⟨cur ++ [p], [], by rw [hl]; simp, hcur', trivial, fun _ => ⟨rfl, ?_⟩, by omega⟩
        rw [hsend, List.length_append, List.length_singleton]
        omega
      · have hlen := hahead (by omega)
        have hnext' : Consecutive S K (e r.other + 1) 0 (next ++ [p]) :=
          hnext.append_singleton (by rw [← he]; exact hon) (by omega)
        refine ⟨cur, next ++ [p], by rw [hl, List.append_assoc], hcur, hnext', by omega, fun _ => ?_⟩
        rw [hsend, List.length_append, List.length_singleton, hlen]

theorem outcome_inOrder {j : Nat} {p : Packet Key Ct} {st : RatchetState Key Secret}
    {out : RatchetState Key Secret × Result Bytes} (hempty : st.skippedKeys = ∅)
    (hn : p.msgNo = st.recvCount) (hout : Outcome S K j p st out) :
    out.2 = .ok p.plaintext ∧ Received S K j p.msgNo st out.1 ∧ out.1.skippedKeys = ∅ := by
  have hfits : Fits st p.msgNo := by
    rw [Fits, hempty, hn]
    simp
  rcases hout with ⟨-, hok, hr⟩ | ⟨hunfit, -⟩
  · refine ⟨hok, hr, Finmap.ext_lookup fun x => ?_⟩
    rw [hr.lookup x.1 x.2, if_neg (by omega), hempty]
  · exact absurd hfits hunfit

theorem deliver (hdh : S.DhCommutes) (haead : S.AeadInverts) (h : Fifo S K e net) {r : Role}
    {fresh : Secret} (hok : net.Regular S (.deliver r 0 fresh))
    (hstep : net.step S (.deliver r 0 fresh) = some net') :
    ∃ K' e', Fifo S K' e' net' := by
  obtain ⟨p, hp, rfl⟩ := Option.map_eq_some_iff.mp hstep
  have hmem : p ∈ net.inFlight r := List.mem_of_getElem? hp
  obtain ⟨j, hj, h1, hle, -, hu32, -⟩ := h.packet hmem
  obtain ⟨cur, next, hl, hcur, hnext, hbehind, hahead⟩ := h.queue r
  rw [hl] at hp
  cases cur with
  | cons q rest =>
    simp only [List.cons_append, List.getElem?_cons_zero, Option.some.injEq] at hp
    subst hp
    obtain ⟨hon, hn, hrest⟩ := hcur
    -- the head belongs to the chain the party receives on, so that chain exists
    have hje : j = e r - 1 := h.distinct r.other r hle (by omega)
      (by rw [← hj.ratchetKey, hon.ratchetKey])
    subst hje
    obtain ⟨out, heq, hsession, hout⟩ := h.deliver_current (i := 0) haead hj (by omega) h1 hle
      fresh (by omega) hu32
    rw [heq]
    obtain ⟨hres, hr, hskip⟩ := outcome_inOrder (h.empty r) hn hout
    refine ⟨K, e, hsession, ?_, ?_, h.agreed.put hres⟩
    · exact (Function.forall_update_iff net.party fun _ st => st.skippedKeys = ∅).mpr
        ⟨hskip, fun r' _ => h.empty r'⟩
    · intro r'
      rcases Role.eq_or_eq_other r r' with rfl | rfl
      · simp only [Net.put, Function.update_self, Function.update_of_ne r'.other_ne]
        refine ⟨rest, next, by rw [hl]; rfl, by rw [hr.recvCount, hn]; exact hrest, hnext,
          fun he => ?_, hahead⟩
        obtain ⟨hnil, hlen⟩ := hbehind he
        refine ⟨hnil, ?_⟩
        rw [hr.recvCount, hn, ← hlen, List.length_cons]
        omega
      · simpa only [Net.put, Role.other_other, Function.update_self,
          Function.update_of_ne r.other_ne, hr.sendCount] using h.queue r.other
  | nil =>
    rw [List.nil_append] at hp hl
    cases next with
    | nil => cases hp
    | cons q rest =>
      simp only [List.getElem?_cons_zero, Option.some.injEq] at hp
      subst hp
      obtain ⟨hon, hn, hrest⟩ := hnext
      have he : e r.other = e r + 1 := by
        rcases h.near r with he | he
        · exact he
        · cases (hbehind (by omega)).1
      have hfresh : S.publicKey fresh ∉ net.ratchetKeys := by
        refine hok q (by rw [hl]; rfl) ⟨?_, ?_⟩
        · rw [h.empty r, Finmap.lookup_empty]
        · rw [hon.ratchetKey]
          exact h.needDhRatchet_next he
      obtain ⟨out, heq, hsession, hout⟩ := h.deliver_next (i := 0) hdh haead hon he hfresh hu32
      rw [heq]
      have hempty : ((net.party r).dhRatchetStep S fresh q.ratchetKey).skippedKeys = ∅ := h.empty r
      obtain ⟨hres, hr, hskip⟩ := outcome_inOrder hempty hn hout
      refine ⟨_, _, hsession, ?_, ?_, h.agreed.put hres⟩
      · exact (Function.forall_update_iff net.party fun _ st => st.skippedKeys = ∅).mpr
          ⟨hskip, fun r' _ => h.empty r'⟩
      · intro r'
        rcases Role.eq_or_eq_other r r' with rfl | rfl
        · simp only [Net.put, Function.update_self, Function.update_of_ne r'.other_ne]
          refine ⟨rest, [], by rw [hl]; simp, ?_, trivial, fun _ => ⟨rfl, ?_⟩, by omega⟩
          · rw [hr.recvCount, hn]
            exact hrest.extend (by omega) fresh
          · rw [hr.recvCount, hn, ← hahead (by omega), List.length_cons]
            omega
        · obtain ⟨cur, next, hl', hcur', -, hbehind', -⟩ := h.queue r.other
          rw [Role.other_other] at hbehind'
          obtain ⟨rfl, -⟩ := hbehind' (by omega)
          simp only [Net.put, Role.other_other, Function.update_self,
            Function.update_of_ne r.other_ne]
          refine ⟨cur, [], hl', hcur'.extend (by omega) fresh, trivial, by omega, fun _ => ?_⟩
          rw [hr.sendCount]
          rfl

theorem step (hdh : S.DhCommutes) (haead : S.AeadInverts) (h : Fifo S K e net)
    {a : Action Secret} (hok : net.InOrder S a) (hstep : net.step S a = some net') :
    ∃ K' e', Fifo S K' e' net' := by
  cases a with
  | send r plaintext => exact ⟨K, e, h.send hok.1 hstep⟩
  | deliver r i fresh =>
    obtain ⟨hreg, rfl⟩ := hok
    exact h.deliver hdh haead hreg hstep

theorem run (hdh : S.DhCommutes) (haead : S.AeadInverts) {shared : Key} {spk first : Secret}
    (hne : S.publicKey spk ≠ S.publicKey first)
    (hrun : Lib.Run (Net.step S) (Net.InOrder S) (Net.start S shared spk first) net) :
    ∃ K e, Fifo S K e net :=
  hrun.invariant (I := fun net => ∃ K e, Fifo S K e net) ⟨_, _, start hdh shared hne⟩
    fun ⟨_, _, h⟩ hok hstep => h.step hdh haead hok hstep

end Fifo

end Cypher.Crypto.Verify
