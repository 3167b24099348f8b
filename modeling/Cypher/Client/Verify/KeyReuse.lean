import Cypher.Client.Restart
import Cypher.Crypto.Symbolic
import Cypher.Lib.Run

/-!
# Message keys across restarts

A restart brings back the sending chain of the stored state. If that chain was used after the state
was copied, the next `encrypt_for_peer` derives a message key for the second time. If every restart
finds an unused chain (`RestartsUnused`), no message key is ever used twice: each sending chain
starts from a DH output with a fresh public key of ours, and every state that was ever in memory,
copied or stored has used all earlier keys of its chain.
-/

namespace Cypher.Client.Verify

open Crypto

variable {Secret : Type} {A : Alphabet Secret}

/-- The chain starts from a DH output between public keys that have occurred. -/
def Started (seen : List PublicKey) (ck : SymKey) : Prop :=
  ∃ rootKey a b, ck.origin = .chain rootKey (.dh s(a, b)) ∧ a ∈ seen ∧ b ∈ seen

/-- The sending chain of a state that was in memory at some time. -/
def Reached (used : List SymKey) (seen : List PublicKey) (st : RatchetState SymKey Secret) : Prop :=
  ∀ ck, st.sendChainKey = some ck → Started seen ck ∧ ∀ x, SymKey.next x = ck → x ∈ used

def used (c : PeerSession SymKey Secret) : List SymKey :=
  c.calls.map (·.chainKey)

structure Sound (c : PeerSession SymKey Secret) : Prop where
  nodup : (used c).Nodup
  closed : Lib.Closed SymKey.next (used c)
  started : ∀ ck ∈ used c, Started c.seen ck
  derived : ∀ call ∈ c.calls, call.messageKey = .message call.chainKey
  ratchet : ∀ st, c.ratchet = some st → Reached (used c) c.seen st ∧
    ∀ ck, st.sendChainKey = some ck → Lib.Ahead SymKey.next (used c) ck
  stored : ∀ st, c.stored = some st → Reached (used c) c.seen st
  snapshots : ∀ st ∈ c.snapshots, Reached (used c) c.seen st

theorem Started.mono {seen seen' : List PublicKey} {ck : SymKey} (h : Started seen ck)
    (hsub : seen ⊆ seen') : Started seen' ck := by
  obtain ⟨rootKey, a, b, ho, ha, hb⟩ := h
  exact ⟨rootKey, a, b, ho, hsub ha, hsub hb⟩

theorem Reached.mono {u u' : List SymKey} {seen seen' : List PublicKey}
    {st : RatchetState SymKey Secret} (h : Reached u seen st) (hu : u ⊆ u')
    (hseen : seen ⊆ seen') : Reached u' seen' st := by
  intro ck hck
  obtain ⟨hstarted, hprev⟩ := h ck hck
  exact ⟨hstarted.mono hseen, fun x hx => hu (hprev x hx)⟩

/-- A chain whose DH output has a new end is ahead of everything used so far. -/
theorem ahead_of_fresh {u : List SymKey} {seen : List PublicKey} {rootKey : SymKey}
    {f pk : PublicKey} (hstarted : ∀ ck ∈ u, Started seen ck) (hf : f ∉ seen) :
    Lib.Ahead SymKey.next u (.chain rootKey (.dh s(f, pk))) := by
  intro j hmem
  obtain ⟨rootKey', a, b, ho, ha, hb⟩ := hstarted _ hmem
  rw [SymKey.origin_iterate_next] at ho
  simp only [SymKey.origin, SymKey.chain.injEq, SymKey.dh.injEq] at ho
  have hmem : f ∈ s(a, b) := ho.2 ▸ Sym2.mem_mk_left f pk
  rcases Sym2.mem_iff.mp hmem with rfl | rfl
  · exact hf ha
  · exact hf hb

theorem decrypt_sendChainKey (st : RatchetState SymKey Secret) (fresh : Secret) (ct : SymCt)
    (pk : PublicKey) (n : Nat) :
    (st.Ratchets pk n ∧
      (st.decrypt A.suite fresh ct pk n).1.sendRatchetKey = A.publicKey fresh ∧
      ∃ rootKey, (st.decrypt A.suite fresh ct pk n).1.sendChainKey =
        some (.chain rootKey (.dh s(A.publicKey fresh, pk)))) ∨
    (st.decrypt A.suite fresh ct pk n).1.sendChainKey = st.sendChainKey := by
  unfold RatchetState.decrypt
  cases hlook : st.skippedKeys.lookup (pk, n) with
  | some mk => exact Or.inr rfl
  | none =>
    dsimp only
    by_cases hneed : st.needDhRatchet pk = true
    · rw [if_pos hneed]
      have hsame := RatchetState.receive_sameSender A.suite
        (st.dhRatchetStep A.suite fresh pk) ct pk n
      refine Or.inl ⟨⟨hlook, hneed⟩, hsame.sendRatchetKey, _, hsame.sendChainKey⟩
    · rw [if_neg hneed]
      exact Or.inr (RatchetState.receive_sameSender A.suite st ct pk n).sendChainKey

namespace Sound

variable {c c' : PeerSession SymKey Secret}

theorem start {st : RatchetState SymKey Secret}
    (hst : ∀ ck, st.sendChainKey = some ck →
      ∃ rootKey pk, ck = .chain rootKey (.dh s(st.sendRatchetKey, pk)) ∧
        st.recvRatchetKey = some pk) : Sound (PeerSession.start st) := by
  refine ⟨List.nodup_nil, fun _ => by simp [used, PeerSession.start], by simp [used, PeerSession.start],
    by simp [PeerSession.start], ?_, by simp [PeerSession.start], by simp [PeerSession.start]⟩
  intro st' hst'
  obtain rfl : st = st' := Option.some.inj hst'
  refine ⟨fun ck hck => ?_, fun ck _ => Lib.Ahead.nil⟩
  obtain ⟨rootKey, pk, rfl, hpk⟩ := hst ck hck
  refine ⟨⟨rootKey, st.sendRatchetKey, pk, rfl, ?_, ?_⟩, fun x hx => by cases hx⟩
  · exact List.mem_cons_self
  · simp [PeerSession.start, hpk]

theorem decrypted (h : Sound c) {st : RatchetState SymKey Secret} (hst : c.ratchet = some st)
    {fresh : Secret} (ct : SymCt) {pk : PublicKey} {n : Nat}
    (hfresh : st.Ratchets pk n → A.publicKey fresh ∉ pk :: c.seen) :
    Sound (c.decrypted pk (st.decrypt A.suite fresh ct pk n).1) := by
  have hseen : c.seen ⊆ (c.decrypted pk (st.decrypt A.suite fresh ct pk n).1).seen :=
    fun _ hx => List.mem_cons_of_mem _ (List.mem_cons_of_mem _ hx)
  refine ⟨h.nodup, h.closed, fun ck hck => (h.started ck hck).mono hseen, h.derived, ?_,
    fun st' hst' => (h.stored st' hst').mono (fun _ hx => hx) hseen,
    fun st' hst' => (h.snapshots st' hst').mono (fun _ hx => hx) hseen⟩
  intro st' hst'
  obtain rfl := Option.some.inj hst'
  rcases decrypt_sendChainKey (A := A) st fresh ct pk n with ⟨hratchets, hkey, rootKey, hck⟩ | hsame
  · have hnew := hfresh hratchets
    refine ⟨fun ck hck' => ?_, fun ck hck' => ?_⟩ <;> rw [hck, Option.some.injEq] at hck' <;>
      subst hck'
    · refine ⟨⟨rootKey, A.publicKey fresh, pk, rfl, ?_, ?_⟩, fun x hx => by cases hx⟩
      · exact hkey ▸ List.mem_cons_self
      · exact List.mem_cons_of_mem _ List.mem_cons_self
    · exact ahead_of_fresh h.started fun hmem => hnew (List.mem_cons_of_mem _ hmem)
  · obtain ⟨hreached, hahead⟩ := h.ratchet st hst
    refine ⟨fun ck hck => ?_, fun ck hck => hahead ck (hsame ▸ hck)⟩
    exact (hreached.mono (fun _ hx => hx) hseen) ck (hsame ▸ hck)

theorem encrypted (h : Sound c) {st : RatchetState SymKey Secret} (hst : c.ratchet = some st)
    {ck : SymKey} (hck : st.sendChainKey = some ck) (plaintext : Bytes) :
    Sound { c with
      ratchet := some (st.encrypt A.suite plaintext).1
      calls := ⟨ck, .message ck, A.suite.nonceMaterial (.message ck) st.sendCount, plaintext⟩ ::
        c.calls } := by
  obtain ⟨hreached, hahead⟩ := h.ratchet st hst
  obtain ⟨hstarted, hprev⟩ := hreached ck hck
  have hsub : used c ⊆ ck :: used c := fun _ hx => List.mem_cons_of_mem _ hx
  have hnext : (st.encrypt A.suite plaintext).1.sendChainKey = some (.next ck) := by
    unfold RatchetState.encrypt
    rw [hck]
    dsimp only
    split <;> rfl
  refine ⟨List.nodup_cons.mpr ⟨(hahead ck hck).not_mem, h.nodup⟩, h.closed.cons hprev, ?_, ?_, ?_,
    fun st' hst' => (h.stored st' hst').mono hsub fun _ hx => hx,
    fun st' hst' => (h.snapshots st' hst').mono hsub fun _ hx => hx⟩
  · intro x hx
    rcases List.mem_cons.mp hx with rfl | hx
    · exact hstarted
    · exact h.started x hx
  · intro call hcall
    rcases List.mem_cons.mp hcall with rfl | hcall
    · rfl
    · exact h.derived call hcall
  · intro st' hst'
    obtain rfl := Option.some.inj hst'
    refine ⟨fun ck' hck' => ?_, fun ck' hck' => ?_⟩ <;>
      rw [hnext, Option.some.injEq] at hck' <;> subst hck'
    · obtain ⟨rootKey, a, b, ho, ha, hb⟩ := hstarted
      refine ⟨⟨rootKey, a, b, ho, ha, hb⟩, fun x hx => ?_⟩
      rw [SymKey.next.inj hx]
      exact List.mem_cons_self
    · exact (hahead ck hck).step SymKey.noReturn_next

/-- Only the ratchet, the stored state, the copies and the two records matter. -/
theorem congr (h : Sound c) (hcalls : c'.calls = c.calls) (hseen : c'.seen = c.seen)
    (hratchet : c'.ratchet = c.ratchet)
    (hstored : ∀ st, c'.stored = some st → Reached (used c) c.seen st)
    (hsnap : ∀ st ∈ c'.snapshots, Reached (used c) c.seen st) : Sound c' := by
  have hused : used c' = used c := by rw [used, hcalls, used]
  refine ⟨?_, ?_, ?_, ?_, ?_, ?_, ?_⟩
  · rw [hused]; exact h.nodup
  · rw [hused]; exact h.closed
  · rw [hused, hseen]; exact h.started
  · rw [hcalls]; exact h.derived
  · rw [hused, hseen, hratchet]; exact h.ratchet
  · rw [hused, hseen]; exact hstored
  · rw [hused, hseen]; exact hsnap

theorem step (h : Sound c) {a : SessionAction Secret SymCt} (hfresh : c.Fresh A.suite a)
    (hunused : c.RestartsUnused a) (hstep : c.step A.suite a = some c') : Sound c' := by
  cases a with
  | encrypt via plaintext =>
    obtain ⟨st, hst, hstep⟩ := Option.bind_eq_some_iff.mp hstep
    obtain ⟨ck, hck, hstep⟩ := Option.bind_eq_some_iff.mp hstep
    have henc := h.encrypted (A := A) hst hck plaintext
    dsimp only at hstep
    split at hstep <;> obtain rfl := Option.some.inj hstep
    · exact henc
    · exact henc
    · exact henc.congr rfl rfl rfl henc.stored henc.snapshots
  | sent =>
    simp only [PeerSession.step] at hstep
    split at hstep
    · obtain rfl := Option.some.inj hstep
      exact h.congr rfl rfl rfl h.stored h.snapshots
    · cases hstep
  | sendFailed =>
    simp only [PeerSession.step] at hstep
    split at hstep
    · obtain rfl := Option.some.inj hstep
      exact h.congr rfl rfl rfl h.stored h.snapshots
    · cases hstep
  | capture =>
    simp only [PeerSession.step] at hstep
    split at hstep
    · obtain rfl := Option.some.inj hstep
      refine h.congr rfl rfl rfl h.stored ?_
      intro st hst
      rcases List.mem_append.mp hst with hst | hst
      · exact (h.ratchet st (Option.mem_toList.mp hst)).1
      · exact h.snapshots st hst
    · cases hstep
  | save i =>
    obtain ⟨st, hst, hstep⟩ := Option.bind_eq_some_iff.mp hstep
    obtain rfl := Option.some.inj hstep
    refine h.congr rfl rfl rfl ?_ fun st' hst' => h.snapshots st' (List.mem_of_mem_eraseIdx hst')
    intro st' hst'
    obtain rfl := Option.some.inj hst'
    exact h.snapshots _ (List.mem_of_getElem? hst)
  | saveFailed i =>
    obtain rfl := Option.some.inj hstep
    exact h.congr rfl rfl rfl h.stored fun st' hst' =>
      h.snapshots st' (List.mem_of_mem_eraseIdx hst')
  | receiveChat fresh ct pk n =>
    obtain ⟨st, hst, hstep⟩ := Option.bind_eq_some_iff.mp hstep
    have hdec := h.decrypted hst ct (hfresh st hst)
    dsimp only at hstep
    split at hstep <;> obtain rfl := Option.some.inj hstep
    · exact hdec.congr rfl rfl rfl hdec.stored hdec.snapshots
    · exact hdec
  | receiveChunk fresh ct pk n =>
    obtain ⟨st, hst, hstep⟩ := Option.bind_eq_some_iff.mp hstep
    obtain rfl := Option.some.inj hstep
    exact h.decrypted hst ct (hfresh st hst)
  | restart =>
    obtain rfl := Option.some.inj hstep
    refine ⟨h.nodup, h.closed, h.started, h.derived, ?_, h.stored, by simp⟩
    intro st hst
    refine ⟨h.stored st hst, fun ck hck => h.closed.ahead fun hmem => ?_⟩
    obtain ⟨call, hcall, hcallck⟩ := List.mem_map.mp hmem
    exact hunused st hst ck hck call hcall hcallck

end Sound

/-- **No message key is used twice** by the `encrypt_for_peer` calls of a session whose restarts all
find a stored state with an unused sending chain. -/
theorem message_keys_unique (A : Alphabet Secret) {st : RatchetState SymKey Secret}
    (hst : (∃ shared peerPub first, st = .initSender A.suite shared peerPub first) ∨
      ∃ shared spk, st = .initReceiver A.suite shared spk)
    {c : PeerSession SymKey Secret}
    (hrun : Lib.Run (PeerSession.step A.suite)
      (fun c a => c.Fresh A.suite a ∧ c.RestartsUnused a) (PeerSession.start st) c) :
    c.calls.Pairwise fun call call' =>
      (call.messageKey, call.nonceMaterial) ≠ (call'.messageKey, call'.nonceMaterial) := by
  have hstart : Sound (PeerSession.start st) := by
    apply Sound.start
    rcases hst with ⟨shared, peerPub, first, rfl⟩ | ⟨shared, spk, rfl⟩
    · intro ck hck
      exact ⟨shared, peerPub, (Option.some.inj hck).symm, rfl⟩
    · intro ck hck
      cases hck
  have h := hrun.invariant hstart fun h hok hstep => h.step hok.1 hok.2 hstep
  refine (List.pairwise_map.mp h.nodup).imp_of_mem ?_
  intro call call' hcall hcall' hne heq
  have hmk := (Prod.mk.inj heq).1
  rw [h.derived call hcall, h.derived call' hcall', SymKey.message.injEq] at hmk
  exact hne hmk

theorem message_keys_unique_saved :
    ∃ c, Lib.exec (PeerSession.step Alphabet.plain.suite)
        (fun c a => c.Fresh Alphabet.plain.suite a ∧ c.RestartsUnused a)
        (PeerSession.start (.initSender Alphabet.plain.suite (.atom 0) (.ofNat 1) (.ofNat 2)))
        [.encrypt .message (ascii "m0"), .sent, .capture, .save 0, .restart,
          .encrypt .chunk (ascii "c1")] = some c ∧
      c.calls.length = 2 ∧ c.calls.Pairwise fun call call' =>
        (call.messageKey, call.nonceMaterial) ≠ (call'.messageKey, call'.nonceMaterial) := by
  have hlen : (Lib.exec (PeerSession.step Alphabet.plain.suite)
      (fun c a => c.Fresh Alphabet.plain.suite a ∧ c.RestartsUnused a)
      (PeerSession.start (.initSender Alphabet.plain.suite (.atom 0) (.ofNat 1) (.ofNat 2)))
      [.encrypt .message (ascii "m0"), .sent, .capture, .save 0, .restart,
        .encrypt .chunk (ascii "c1")]).map (·.calls.length) = some 2 := by decide +kernel
  obtain ⟨c, hexec, hlen⟩ := Option.map_eq_some_iff.mp hlen
  refine ⟨c, hexec, hlen, ?_⟩
  exact message_keys_unique Alphabet.plain (Or.inl ⟨_, _, _, rfl⟩) (Lib.Run.of_exec hexec)

/-- A chunk is encrypted after the ratchet was stored and before a restart; the next message is
encrypted under the same message key and nonce material. -/
theorem chunk_key_reused :
    (Lib.exec (PeerSession.step Alphabet.plain.suite) (PeerSession.Fresh Alphabet.plain.suite)
      (PeerSession.start (.initSender Alphabet.plain.suite (.atom 0) (.ofNat 1) (.ofNat 2)))
      [.encrypt .message (ascii "m0"), .sent, .capture, .save 0, .encrypt .chunk (ascii "c1"),
        .restart, .encrypt .message (ascii "m1")]).map
      (fun c => c.calls.map fun call => (call.plaintext, call.messageKey, call.nonceMaterial)) =
    some [
      (ascii "m1", .message (.next (.chain (.atom 0) (.dh s(.ofNat 2, .ofNat 1)))), [0, 0, 0, 1]),
      (ascii "c1", .message (.next (.chain (.atom 0) (.dh s(.ofNat 2, .ofNat 1)))), [0, 0, 0, 1]),
      (ascii "m0", .message (.chain (.atom 0) (.dh s(.ofNat 2, .ofNat 1))), [0, 0, 0, 0])] := by
  decide +kernel

end Cypher.Client.Verify
