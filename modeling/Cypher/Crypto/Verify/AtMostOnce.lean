import Cypher.Crypto.Symbolic
import Cypher.Lib.Run

/-!
# A ciphertext is accepted at most once

One ratchet faces an arbitrary network: any ciphertext with any header, in any order and any number
of times. Headers can set `recv_count` back and overwrite stored keys, so message numbers prove
nothing. What carries the argument is where message keys come from. The receiving chain only moves
forward, and every DH ratchet step starts a chain under a root key deeper than all before it; so each
message key is derived at most once, lies in `skipped_keys` at most once, and is gone when it has
been used.
-/

namespace Cypher.Crypto.Verify

variable {Secret : Type} {A : Alphabet Secret}

/-- A ratchet and the ciphertexts it has accepted with the plaintexts it returned, newest first. -/
structure Receiver (Secret : Type) where
  state : RatchetState SymKey Secret
  accepted : List (SymCt × Bytes)

inductive ReceiverAction (Secret : Type) where
  | encrypt (plaintext : Bytes)
  | decrypt (fresh : Secret) (ciphertext : SymCt) (ratchetKey : PublicKey) (msgNo : Nat)

def record (ct : SymCt) (res : Result Bytes) (accepted : List (SymCt × Bytes)) :
    List (SymCt × Bytes) :=
  match res with
  | .ok plaintext => (ct, plaintext) :: accepted
  | .error _ => accepted

def Receiver.step (A : Alphabet Secret) (rc : Receiver Secret) :
    ReceiverAction Secret → Option (Receiver Secret)
  | .encrypt plaintext => some { rc with state := (rc.state.encrypt A.suite plaintext).1 }
  | .decrypt fresh ct pk n =>
    let out := rc.state.decrypt A.suite fresh ct pk n
    some ⟨out.1, record ct out.2 rc.accepted⟩

/-! ## Derived, stored and used message keys -/

/-- `derived` are the chain keys from which message keys were derived so far. -/
structure Keys (derived : List SymKey) (skipped : SkippedKeys SymKey)
    (accepted : List (SymCt × Bytes)) : Prop where
  stored : ∀ {a mk}, skipped.lookup a = some mk → ∃ x ∈ derived, mk = .message x
  inj : ∀ {a b mk}, skipped.lookup a = some mk → skipped.lookup b = some mk → a = b
  used : ∀ d ∈ accepted, ∃ x ∈ derived, ∃ nonce aad, d.1 = .sealed (.message x) nonce d.2 aad ∧
    ∀ a, skipped.lookup a ≠ some (.message x)
  once : (accepted.map Prod.fst).Nodup

namespace Keys

variable {derived : List SymKey} {skipped : SkippedKeys SymKey} {accepted : List (SymCt × Bytes)}
  {x mk : SymKey} {a : PublicKey × Nat}

theorem derive (h : Keys derived skipped accepted) (x : SymKey) :
    Keys (x :: derived) skipped accepted := by
  refine ⟨fun hlook => ?_, h.inj, fun d hd => ?_, h.once⟩
  · obtain ⟨y, hy, hmk⟩ := h.stored hlook
    exact ⟨y, List.mem_cons_of_mem _ hy, hmk⟩
  · obtain ⟨y, hy, hrest⟩ := h.used d hd
    exact ⟨y, List.mem_cons_of_mem _ hy, hrest⟩

theorem lookup_ne (h : Keys derived skipped accepted) (hx : x ∉ derived) (a : PublicKey × Nat) :
    skipped.lookup a ≠ some (.message x) := by
  intro hlook
  obtain ⟨y, hy, hmk⟩ := h.stored hlook
  exact hx (SymKey.message.inj hmk ▸ hy)

theorem insert (h : Keys derived skipped accepted) (hx : x ∉ derived) :
    Keys (x :: derived) (skipped.insert a (.message x)) accepted := by
  have hcases : ∀ {b mk}, (skipped.insert a (.message x)).lookup b = some mk →
      (b = a ∧ mk = .message x) ∨ skipped.lookup b = some mk := by
    intro b mk hlook
    by_cases hb : b = a
    · subst hb
      rw [Finmap.lookup_insert, Option.some.injEq] at hlook
      exact Or.inl ⟨rfl, hlook.symm⟩
    · rw [Finmap.lookup_insert_of_ne _ hb] at hlook
      exact Or.inr hlook
  refine ⟨fun hlook => ?_, fun hb hc => ?_, fun d hd => ?_, h.once⟩
  · rcases hcases hlook with ⟨-, rfl⟩ | hlook
    · exact ⟨x, List.mem_cons_self, rfl⟩
    · obtain ⟨y, hy, hmk⟩ := h.stored hlook
      exact ⟨y, List.mem_cons_of_mem _ hy, hmk⟩
  · rcases hcases hb with ⟨rfl, rfl⟩ | hb' <;> rcases hcases hc with ⟨rfl, hmk⟩ | hc'
    · rfl
    · -- the new key was not derived before, so it is stored nowhere else
      exact absurd hc' (h.lookup_ne hx _)
    · exact absurd (hmk ▸ hb') (h.lookup_ne hx _)
    · exact h.inj hb' hc'
  · obtain ⟨y, hy, nonce, aad, hd', hfree⟩ := h.used d hd
    refine ⟨y, List.mem_cons_of_mem _ hy, nonce, aad, hd', fun b hlook => ?_⟩
    rcases hcases hlook with ⟨-, hmk⟩ | hlook
    · exact hx (SymKey.message.inj hmk ▸ hy)
    · exact hfree b hlook

theorem erase (h : Keys derived skipped accepted) (a : PublicKey × Nat) :
    Keys derived (skipped.erase a) accepted := by
  have hsub : ∀ {b mk}, (skipped.erase a).lookup b = some mk → skipped.lookup b = some mk := by
    intro b mk hlook
    by_cases hb : b = a
    · subst hb
      rw [Finmap.lookup_erase] at hlook
      cases hlook
    · rwa [Finmap.lookup_erase_ne hb] at hlook
  refine ⟨fun hlook => h.stored (hsub hlook), fun hb hc => h.inj (hsub hb) (hsub hc), ?_, h.once⟩
  intro d hd
  obtain ⟨y, hy, nonce, aad, hd', hfree⟩ := h.used d hd
  exact ⟨y, hy, nonce, aad, hd', fun b hlook => hfree b (hsub hlook)⟩

theorem accept (h : Keys derived skipped accepted) (hx : x ∈ derived)
    (hfree : ∀ a, skipped.lookup a ≠ some (.message x))
    (hnew : ∀ d ∈ accepted, ∀ nonce aad plaintext,
      d.1 ≠ .sealed (.message x) nonce plaintext aad)
    {nonce aad : Bytes} {ct : SymCt} {res : Result Bytes}
    (hres : A.suite.aeadDecrypt (.message x) nonce ct aad = res) :
    Keys derived skipped (record ct res accepted) := by
  cases res with
  | error err => exact h
  | ok plaintext =>
    have hct := Alphabet.aeadDecrypt_ok hres
    refine ⟨h.stored, h.inj, ?_, List.nodup_cons.mpr ⟨?_, h.once⟩⟩
    · intro d hd
      rcases List.mem_cons.mp hd with rfl | hd
      · exact ⟨x, hx, nonce, aad, hct, hfree⟩
      · exact h.used d hd
    · intro hmem
      obtain ⟨d, hd, heq⟩ := List.mem_map.mp hmem
      exact hnew d hd nonce aad plaintext (by rw [heq, hct])

theorem skipLoop (pk : PublicKey) (fuel i : Nat) {ck : SymKey}
    (h : Keys derived skipped accepted) (hck : Lib.Ahead SymKey.next derived ck) :
    ∃ derived', Keys derived' (RatchetState.skipLoop A.suite pk fuel i ck skipped).2 accepted ∧
      Lib.Ahead SymKey.next derived' (RatchetState.skipLoop A.suite pk fuel i ck skipped).1 ∧
      (RatchetState.skipLoop A.suite pk fuel i ck skipped).1.generation = ck.generation ∧
      ∀ y ∈ derived', y ∈ derived ∨ y.generation = ck.generation := by
  induction fuel generalizing i ck derived skipped with
  | zero => exact ⟨derived, h, hck, rfl, fun y hy => Or.inl hy⟩
  | succ fuel ih =>
    obtain ⟨derived', hkeys, hahead, hgen, hall⟩ :=
      ih (i + 1) (h.insert (a := (pk, i)) hck.not_mem) (hck.step SymKey.noReturn_next)
    refine ⟨derived', hkeys, hahead, hgen, fun y hy => ?_⟩
    rcases hall y hy with hy | hy
    · rcases List.mem_cons.mp hy with rfl | hy
      · exact Or.inr rfl
      · exact Or.inl hy
    · exact Or.inr hy

end Keys

/-! ## One call of `decrypt` -/

/-- Everything derived so far, and the receiving chain, lie under root keys shallower than the
current one. -/
structure Once (derived : List SymKey) (st : RatchetState SymKey Secret)
    (accepted : List (SymCt × Bytes)) : Prop where
  keys : Keys derived st.skippedKeys accepted
  below : ∀ x ∈ derived, x.generation < st.rootKey.depth
  chain : ∀ ck, st.recvChainKey = some ck →
    Lib.Ahead SymKey.next derived ck ∧ ck.generation < st.rootKey.depth

namespace Once

variable {derived : List SymKey} {st : RatchetState SymKey Secret}
  {accepted : List (SymCt × Bytes)}

theorem start (hskipped : st.skippedKeys = ∅) (hchain : st.recvChainKey = none) :
    Once [] st [] := by
  refine ⟨⟨fun hlook => ?_, fun hlook => ?_, by simp, List.nodup_nil⟩, by simp, fun ck hck => ?_⟩
  · rw [hskipped, Finmap.lookup_empty] at hlook
    cases hlook
  · rw [hskipped, Finmap.lookup_empty] at hlook
    cases hlook
  · rw [hchain] at hck
    cases hck

theorem skipMessages (h : Once derived st accepted) (til : Nat) :
    ∃ derived', Once derived' (st.skipMessages A.suite til).1 accepted := by
  obtain hsame | ⟨ck, pk, hck, -, -, hskip⟩ := RatchetState.skipMessages_cases A.suite st til
  · rw [hsame]
    exact ⟨derived, h⟩
  · rw [hskip]
    obtain ⟨hahead, hgen⟩ := h.chain ck hck
    obtain ⟨derived', hkeys, hahead', hgen', hall⟩ :=
      h.keys.skipLoop (A := A) pk (til - st.recvCount) st.recvCount hahead
    refine ⟨derived', hkeys, fun x hx => ?_, fun ck' hck' => ?_⟩
    · rcases hall x hx with hx | hx
      · exact h.below x hx
      · exact hx ▸ hgen
    · obtain rfl := Option.some.inj hck'
      exact ⟨hahead', hgen' ▸ hgen⟩

theorem receive (h : Once derived st accepted) (ct : SymCt) (pk : PublicKey) (n : Nat) :
    ∃ derived', Once derived' (st.receive A.suite ct pk n).1
      (record ct (st.receive A.suite ct pk n).2 accepted) := by
  obtain ⟨derived', hskip⟩ := h.skipMessages (A := A) n
  obtain ⟨err, heq⟩ | ⟨ck, hck, heq⟩ := RatchetState.receive_cases A.suite st ct pk n
  · rw [heq]
    exact ⟨derived', hskip⟩
  · rw [heq]
    obtain ⟨hahead, hgen⟩ := hskip.chain ck hck
    refine ⟨ck :: derived', ?_, ?_, ?_⟩
    · refine (hskip.keys.derive ck).accept (A := A) List.mem_cons_self
        (hskip.keys.lookup_ne hahead.not_mem) ?_ rfl
      intro d hd nonce aad plaintext heq
      obtain ⟨y, hy, _, _, hd', -⟩ := hskip.keys.used d hd
      rw [hd'] at heq
      exact hahead.not_mem (SymKey.message.inj (SymCt.sealed.inj heq).1 ▸ hy)
    · intro x hx
      rcases List.mem_cons.mp hx with rfl | hx
      · exact hgen
      · exact hskip.below x hx
    · intro ck' hck'
      obtain rfl := Option.some.inj hck'
      exact ⟨hahead.step SymKey.noReturn_next, hgen⟩

theorem dhRatchetStep (h : Once derived st accepted) (fresh : Secret) (pk : PublicKey) :
    Once derived (st.dhRatchetStep A.suite fresh pk) accepted := by
  have hdepth : (st.dhRatchetStep A.suite fresh pk).rootKey.depth = st.rootKey.depth + 2 := rfl
  refine ⟨h.keys, fun x hx => ?_, fun ck hck => ?_⟩
  · have := h.below x hx
    omega
  · obtain rfl := Option.some.inj hck
    refine ⟨fun j hmem => ?_, ?_⟩
    · -- the chain hangs below the current root, all that was derived below shallower ones
      have hlt := h.below _ hmem
      simp only [SymKey.generation, SymKey.origin_iterate_next] at hlt
      exact Nat.lt_irrefl _ hlt
    · rw [hdepth]
      exact Nat.lt_add_of_pos_right (by decide)

theorem decrypt (h : Once derived st accepted) (fresh : Secret) (ct : SymCt) (pk : PublicKey)
    (n : Nat) : ∃ derived', Once derived' (st.decrypt A.suite fresh ct pk n).1
      (record ct (st.decrypt A.suite fresh ct pk n).2 accepted) := by
  unfold RatchetState.decrypt
  cases hlook : st.skippedKeys.lookup (pk, n) with
  | some mk =>
    obtain ⟨x, hx, rfl⟩ := h.keys.stored hlook
    refine ⟨derived, (h.keys.erase (pk, n)).accept (A := A) hx ?_ ?_ rfl, h.below, h.chain⟩
    · intro a ha
      by_cases hpk : a = (pk, n)
      · subst hpk
        rw [Finmap.lookup_erase] at ha
        cases ha
      · rw [Finmap.lookup_erase_ne hpk] at ha
        exact hpk (h.keys.inj ha hlook)
    · -- a key that is still stored has opened nothing
      intro d hd nonce aad plaintext heq
      obtain ⟨y, -, _, _, hd', hfree⟩ := h.keys.used d hd
      rw [hd'] at heq
      exact hfree (pk, n) ((SymCt.sealed.inj heq).1 ▸ hlook)
  | none =>
    dsimp only
    by_cases hneed : st.needDhRatchet pk = true
    · rw [if_pos hneed]
      exact (h.dhRatchetStep fresh pk).receive ct pk n
    · rw [if_neg hneed]
      exact h.receive ct pk n

theorem encrypt (h : Once derived st accepted) (plaintext : Bytes) :
    Once derived (st.encrypt A.suite plaintext).1 accepted := by
  obtain hsame | ⟨ck, -, hmoved⟩ := RatchetState.encrypt_cases A.suite st plaintext
  · rwa [hsame]
  · rw [hmoved]
    exact ⟨h.keys, h.below, h.chain⟩

end Once

theorem encrypt_sealed {peer peer' : RatchetState SymKey Secret} {plaintext : Bytes} {ct : SymCt}
    {pk : PublicKey} {n : Nat} (henc : peer.encrypt A.suite plaintext = (peer', .ok (ct, pk, n))) :
    ∃ key nonce aad, ct = .sealed key nonce plaintext aad := by
  unfold RatchetState.encrypt at henc
  cases hck : peer.sendChainKey with
  | none => rw [hck] at henc; simp at henc
  | some ck =>
    rw [hck] at henc
    simp only [Alphabet.suite] at henc
    split at henc
    · simp at henc
    · next ct' heq =>
      split at heq
      · simp only [Prod.mk.injEq, Except.ok.injEq] at henc heq
        exact ⟨_, _, _, by rw [← henc.2.1, ← heq]⟩
      · cases heq

/-- **At most once.** Against any network, no ciphertext is accepted twice, and what is returned for
a ciphertext that some `encrypt` call produced is the plaintext of that call. -/
theorem accepted_at_most_once (A : Alphabet Secret) {st : RatchetState SymKey Secret}
    (hst : (∃ shared peerPub first, st = .initSender A.suite shared peerPub first) ∨
      ∃ shared spk, st = .initReceiver A.suite shared spk)
    {rc : Receiver Secret}
    (hrun : Lib.Run (Receiver.step A) (fun _ _ => True) ⟨st, []⟩ rc) :
    (rc.accepted.map Prod.fst).Nodup ∧
      ∀ {peer peer' : RatchetState SymKey Secret} {plaintext : Bytes} {ct : SymCt}
        {pk : PublicKey} {n : Nat}, peer.encrypt A.suite plaintext = (peer', .ok (ct, pk, n)) →
        ∀ d ∈ rc.accepted, d.1 = ct → d.2 = plaintext := by
  have hempty : st.skippedKeys = ∅ ∧ st.recvChainKey = none := by
    rcases hst with ⟨_, _, _, rfl⟩ | ⟨_, _, rfl⟩ <;> exact ⟨rfl, rfl⟩
  have hstart : Once [] st [] := Once.start hempty.1 hempty.2
  obtain ⟨derived, h⟩ := hrun.invariant
    (I := fun rc => ∃ derived, Once derived rc.state rc.accepted) ⟨[], hstart⟩ (by
      rintro v w a ⟨derived, h⟩ - hstep
      cases a with
      | encrypt plaintext =>
        obtain rfl := Option.some.inj hstep
        exact ⟨derived, h.encrypt plaintext⟩
      | decrypt fresh ct pk n =>
        obtain rfl := Option.some.inj hstep
        exact h.decrypt fresh ct pk n)
  refine ⟨h.keys.once, fun {peer peer' plaintext ct pk n} henc d hd hdct => ?_⟩
  obtain ⟨x, -, nonce, aad, hd', -⟩ := h.keys.used d hd
  obtain ⟨key, nonce', aad', hct⟩ := encrypt_sealed henc
  rw [hdct, hct] at hd'
  exact (SymCt.sealed.inj hd').2.2.1.symm

/-- What the peer with ratchet secret 2 sends first to the receiver with signed pre-key 1. -/
def firstCiphertext : SymCt :=
  .sealed (.message (.chain (.atom 0) (.dh s(.ofNat 2, .ofNat 1)))) [0, 0, 0, 0] (ascii "hi")
    (Array32.ofNat 2).val

/-- A message that arrives twice, the second time under a header that sets the counter back. -/
theorem accepted_at_most_once_replayed :
    ∃ rc, Lib.exec (Receiver.step Alphabet.plain) (fun _ _ => True)
        ⟨.initReceiver Alphabet.plain.suite (.atom 0) (.ofNat 1), []⟩
        [.decrypt (.ofNat 3) firstCiphertext (.ofNat 2) 0,
          .decrypt (.ofNat 4) firstCiphertext (.ofNat 2) 0] = some rc ∧
      rc.accepted = [(firstCiphertext, ascii "hi")] ∧ (rc.accepted.map Prod.fst).Nodup := by
  have hacc : (Lib.exec (Receiver.step Alphabet.plain) (fun _ _ => True)
      ⟨.initReceiver Alphabet.plain.suite (.atom 0) (.ofNat 1), []⟩
      [.decrypt (.ofNat 3) firstCiphertext (.ofNat 2) 0,
        .decrypt (.ofNat 4) firstCiphertext (.ofNat 2) 0]).map (·.accepted) =
      some [(firstCiphertext, ascii "hi")] := by decide +kernel
  obtain ⟨rc, hexec, hacc⟩ := Option.map_eq_some_iff.mp hacc
  refine ⟨rc, hexec, hacc, ?_⟩
  exact (accepted_at_most_once Alphabet.plain (Or.inr ⟨_, _, rfl⟩) (Lib.Run.of_exec hexec)).1

end Cypher.Crypto.Verify
