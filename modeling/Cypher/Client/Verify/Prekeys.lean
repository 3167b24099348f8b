import Cypher.Client.Initiate
import Cypher.Client.Verify.Replies

/-!
# Whose prekeys a session is set up with

All prekey requests share one slot of `pending`, and a reply does not say for whom it is. A call that
puts its channel into the slot takes over whatever is still to come for the calls before it
(`session_with_foreign_prekeys`). If a call only does so when everything outstanding is for the peer
it is for itself, every session is set up with prekeys that signaling returned for its peer
(`keyed_with_own_prekeys`).
-/

namespace Cypher.Client.Initiator

open Crypto Lib Signaling

variable {Key Secret Ct : Type} {S : Suite Key Secret Ct}
variable {client client' : Initiator Key Secret}

/-- The peers whose prekeys are still to come: a reply or a request is under way, or a call is about
to send its request. -/
def outstanding (client : Initiator Key Secret) : List PeerId :=
  client.requests ++ client.replies.map Prod.fst ++
    (client.calls.filter fun call => call.phase = .inserted).map InitiateCall.peer

/-- A call puts its channel into the slot only if everything outstanding is for its own peer. -/
def Alone (client : Initiator Key Secret) : InitiateAction Secret → Prop
  | .insert c => ∀ call ∈ client.calls[c]?, ∀ peer ∈ client.outstanding, peer = call.peer
  | _ => True

instance (client : Initiator Key Secret) (a : InitiateAction Secret) :
    Decidable (client.Alone a) := by
  cases a <;> unfold Alone <;> infer_instance

/-- The call in the slot, if any, is for the peer. -/
def SlotFor (client : Initiator Key Secret) (peer : PeerId) : Prop :=
  ∀ c, client.pending .getPrekeys = some c →
    ∃ call, client.calls[c]? = some call ∧ call.peer = peer

/-- Signaling has returned the prekeys in the object for the peer. -/
def Returned (served : List (PeerId × Option PrekeyBundle)) (peer : PeerId) (json : Json) : Prop :=
  ∃ bundle, (peer, some bundle) ∈ served ∧ json = prekeysFound bundle

structure Matched (client : Initiator Key Secret) : Prop where
  slot : ∀ peer ∈ client.outstanding, client.SlotFor peer
  replies : ∀ reply ∈ client.replies,
    Returned client.served reply.1 reply.2 ∨ reply.2 = prekeysNotFound
  values : ∀ call ∈ client.calls, ∀ json, call.value = some json →
    Returned client.served call.peer json
  keyed : ∀ k ∈ client.keyed, ∃ bundle, (k.peer, some bundle) ∈ client.served ∧
    k.identityKey = bundle.identityKey ∧ k.signedPrekey = bundle.signedPrekey

/-! ## Calls -/

theorem mem_outstanding {peer : PeerId} :
    peer ∈ client.outstanding ↔
      peer ∈ client.requests ∨ (∃ json, (peer, json) ∈ client.replies) ∨
        ∃ call ∈ client.calls, call.phase = .inserted ∧ call.peer = peer := by
  simp [outstanding, and_assoc]

theorem getElem?_modifyCall (client : Initiator Key Secret) (c j : Nat)
    (f : InitiateCall → InitiateCall) :
    (client.modifyCall c f).calls[j]? =
      client.calls[j]?.map fun call => if c = j then f call else call := by
  simp only [modifyCall, List.getElem?_modify]
  rfl

theorem mem_modifyCall {c : Nat} {f : InitiateCall → InitiateCall} {call : InitiateCall}
    (h : call ∈ (client.modifyCall c f).calls) :
    call ∈ client.calls ∨ ∃ old, client.calls[c]? = some old ∧ call = f old := by
  obtain ⟨j, hj⟩ := List.mem_iff_getElem?.mp h
  rw [getElem?_modifyCall, Option.map_eq_some_iff] at hj
  obtain ⟨old, hold, rfl⟩ := hj
  by_cases hc : c = j
  · subst hc
    exact .inr ⟨old, hold, if_pos rfl⟩
  · rw [if_neg hc]
    exact .inl (List.mem_of_getElem? hold)

/-! ## What every step but an insertion leaves alone -/

/-- Calls keep their peers, the slot is not refilled, nothing new is outstanding and nothing served
is forgotten. -/
structure Later (client client' : Initiator Key Secret) : Prop where
  calls : ∀ (c : Nat) (call : InitiateCall), client.calls[c]? = some call →
    ∃ call' : InitiateCall, client'.calls[c]? = some call' ∧ call'.peer = call.peer
  slot : ∀ c, client'.pending .getPrekeys = some c → client.pending .getPrekeys = some c
  outstanding : ∀ peer ∈ client'.outstanding, peer ∈ client.outstanding
  served : ∀ entry ∈ client.served, entry ∈ client'.served

theorem Later.slotFor (hlater : Later client client') {peer : PeerId} (h : client.SlotFor peer) :
    client'.SlotFor peer := by
  intro c hc
  obtain ⟨call, hcall, hpeer⟩ := h c (hlater.slot c hc)
  obtain ⟨call', hcall', hpeer'⟩ := hlater.calls c call hcall
  exact ⟨call', hcall', hpeer'.trans hpeer⟩

theorem Returned.mono {served served' : List (PeerId × Option PrekeyBundle)} {peer : PeerId}
    {json : Json} (h : Returned served peer json) (hsub : ∀ entry ∈ served, entry ∈ served') :
    Returned served' peer json := by
  obtain ⟨bundle, hmem, hjson⟩ := h
  exact ⟨bundle, hsub _ hmem, hjson⟩

theorem Matched.later (h : Matched client) (hlater : Later client client')
    (hreplies : ∀ reply ∈ client'.replies, reply ∈ client.replies ∨
      Returned client'.served reply.1 reply.2 ∨ reply.2 = prekeysNotFound)
    (hvalues : ∀ call ∈ client'.calls, ∀ json, call.value = some json →
      Returned client.served call.peer json)
    (hkeyed : ∀ k ∈ client'.keyed, k ∈ client.keyed ∨
      ∃ bundle, (k.peer, some bundle) ∈ client.served ∧ k.identityKey = bundle.identityKey ∧
        k.signedPrekey = bundle.signedPrekey) :
    Matched client' where
  slot peer hpeer := hlater.slotFor (h.slot peer (hlater.outstanding peer hpeer))
  replies reply hreply := by
    rcases hreplies reply hreply with hold | hnew
    · exact (h.replies reply hold).imp_left fun hret => hret.mono hlater.served
    · exact hnew
  values call hcall json hjson := (hvalues call hcall json hjson).mono hlater.served
  keyed k hk := by
    obtain ⟨bundle, hmem, hkeys⟩ := (hkeyed k hk).elim (h.keyed k) id
    exact ⟨bundle, hlater.served _ hmem, hkeys⟩

theorem later_setPhase (client : Initiator Key Secret) (c : Nat) (phase : CallPhase)
    (hphase : phase ≠ .inserted) :
    Later client (client.setPhase c phase) where
  calls j call hcall := by
    refine ⟨_, by rw [setPhase, getElem?_modifyCall, hcall]; rfl, ?_⟩
    split <;> rfl
  slot _ h := h
  outstanding peer hpeer := by
    rw [mem_outstanding] at hpeer ⊢
    rcases hpeer with hreq | hrep | ⟨call, hcall, hins, rfl⟩
    · exact .inl hreq
    · exact .inr (.inl hrep)
    · rcases mem_modifyCall hcall with hold | ⟨old, hold, rfl⟩
      · exact .inr (.inr ⟨call, hold, hins, rfl⟩)
      · exact absurd hins hphase
  served _ h := h

theorem values_setPhase (h : Matched client) (c : Nat) (phase : CallPhase) :
    ∀ call ∈ (client.setPhase c phase).calls, ∀ json, call.value = some json →
      Returned client.served call.peer json := by
  intro call hcall json hjson
  rcases mem_modifyCall hcall with hold | ⟨old, hold, rfl⟩
  · exact h.values call hold json hjson
  · exact h.values old (List.mem_of_getElem? hold) json hjson

theorem Matched.withPhase (h : Matched client) (c : Nat) (phase : CallPhase)
    (hphase : phase ≠ .inserted) : Matched (client.setPhase c phase) :=
  h.later (later_setPhase client c phase hphase) (fun _ hr => .inl hr) (values_setPhase h c phase)
    (fun _ hk => .inl hk)

/-! ## The steps -/

theorem Matched.call (h : Matched client) (peer : PeerId) (phase : CallPhase)
    (hphase : phase ≠ .inserted) :
    Matched { client with calls := client.calls ++ [⟨peer, phase, none⟩] } := by
  refine h.later ⟨?_, fun _ hc => hc, ?_, fun _ hs => hs⟩ (fun _ hr => .inl hr) ?_
    (fun _ hk => .inl hk)
  · intro c call hcall
    exact ⟨call, List.getElem?_append_left (List.getElem?_eq_some_iff.mp hcall).1 ▸ hcall, rfl⟩
  · intro p hp
    rw [mem_outstanding] at hp ⊢
    rcases hp with hreq | hrep | ⟨call, hcall, hins, rfl⟩
    · exact .inl hreq
    · exact .inr (.inl hrep)
    · rcases List.mem_append.mp hcall with hold | hnew
      · exact .inr (.inr ⟨call, hold, hins, rfl⟩)
      · rw [List.mem_singleton.mp hnew] at hins
        exact absurd hins hphase
  · intro call hcall json hjson
    rcases List.mem_append.mp hcall with hold | hnew
    · exact h.values call hold json hjson
    · rw [List.mem_singleton.mp hnew] at hjson
      cases hjson

/-- The slot changes hands, to a call for the one peer that is outstanding. -/
theorem Matched.insert (h : Matched client) {c : Nat} {call : InitiateCall}
    (hcall : client.calls[c]? = some call) (halone : ∀ peer ∈ client.outstanding, peer = call.peer) :
    Matched ({ client with
      pending := Function.update client.pending .getPrekeys (some c) }.setPhase c .inserted) := by
  refine ⟨?_, h.replies, values_setPhase h c .inserted, h.keyed⟩
  intro peer hpeer j hj
  change Function.update client.pending .getPrekeys (some c) .getPrekeys = some j at hj
  rw [Function.update_self] at hj
  obtain rfl := Option.some.inj hj
  refine ⟨{ call with phase := .inserted }, ?_, ?_⟩
  · rw [setPhase, getElem?_modifyCall, hcall]
    simp
  · -- a peer newly outstanding is the peer of the call
    rw [mem_outstanding] at hpeer
    rcases hpeer with hreq | hrep | ⟨other, hother, hins, rfl⟩
    · exact (halone peer (mem_outstanding.mpr (.inl hreq))).symm
    · exact (halone peer (mem_outstanding.mpr (.inr (.inl hrep)))).symm
    · rcases mem_modifyCall hother with hold | ⟨old, hold, rfl⟩
      · exact (halone _ (mem_outstanding.mpr (.inr (.inr ⟨other, hold, hins, rfl⟩)))).symm
      · rw [show client.calls[c]? = some old from hold] at hcall
        rw [Option.some.inj hcall]

theorem Matched.send (h : Matched client) {c : Nat} {call : InitiateCall}
    (hcall : client.calls[c]? = some call) (hins : call.phase = .inserted) :
    Matched ({ client with requests := client.requests ++ [call.peer] }.setPhase c .waiting) := by
  have hsent : call.peer ∈ client.outstanding :=
    mem_outstanding.mpr (.inr (.inr ⟨call, List.mem_of_getElem? hcall, hins, rfl⟩))
  have hlater := later_setPhase client c .waiting (by simp)
  refine h.later ⟨hlater.calls, hlater.slot, ?_, hlater.served⟩ (fun _ hr => .inl hr)
    (values_setPhase h c .waiting) (fun _ hk => .inl hk)
  intro peer hpeer
  rw [mem_outstanding] at hpeer
  rcases hpeer with hreq | hrest
  · rcases List.mem_append.mp hreq with hold | hnew
    · exact mem_outstanding.mpr (.inl hold)
    · rw [List.mem_singleton.mp hnew]
      exact hsent
  · exact hlater.outstanding peer (mem_outstanding.mpr (.inr hrest))

theorem answerGetPrekeys_reply (d : Directory) (s : SessionId) (peer : PeerId) {reply : Publication}
    (h : reply ∈ d.answerGetPrekeys s peer.val) :
    (∃ bundle, d.getPrekeys (hexEncode peer.val) = some bundle ∧
        reply.json = prekeysFound bundle) ∨
      reply.json = prekeysNotFound := by
  unfold Directory.answerGetPrekeys at h
  split at h
  · next bundle hbundle =>
    rw [List.mem_singleton.mp h]
    exact .inl ⟨bundle, hbundle, rfl⟩
  · rw [List.mem_singleton.mp h]
    exact .inr rfl

theorem Matched.serve (h : Matched client) {i : Nat} {peer : PeerId}
    (hpeer : client.requests[i]? = some peer) (d : Directory) :
    Matched { client with
      requests := client.requests.eraseIdx i
      replies := client.replies ++
        (d.answerGetPrekeys client.session peer.val).map fun reply => (peer, reply.json)
      served := client.served ++ [(peer, d.getPrekeys (hexEncode peer.val))] } := by
  refine h.later ⟨fun _ call hcall => ⟨call, hcall, rfl⟩, fun _ hc => hc, ?_,
    fun _ hs => List.mem_append_left _ hs⟩ ?_ h.values (fun _ hk => .inl hk)
  · intro p hp
    rw [mem_outstanding] at hp ⊢
    rcases hp with hreq | ⟨json, hrep⟩ | hins
    · exact .inl (List.mem_of_mem_eraseIdx hreq)
    · rcases List.mem_append.mp hrep with hold | hnew
      · exact .inr (.inl ⟨json, hold⟩)
      · obtain ⟨reply, -, heq⟩ := List.mem_map.mp hnew
        obtain rfl : peer = p := congrArg Prod.fst heq
        exact .inl (List.mem_of_getElem? hpeer)
    · exact .inr (.inr hins)
  · intro reply hreply
    rcases List.mem_append.mp hreply with hold | hnew
    · exact .inl hold
    · obtain ⟨publication, hpub, rfl⟩ := List.mem_map.mp hnew
      rcases answerGetPrekeys_reply d client.session peer hpub with ⟨bundle, hbundle, hjson⟩ | hjson
      · refine .inr (.inl ⟨bundle, ?_, hjson⟩)
        rw [← hbundle]
        exact List.mem_append_right _ (List.mem_singleton.mpr rfl)
      · exact .inr (.inr hjson)

theorem Matched.eraseReply (h : Matched client) (i : Nat) :
    Matched { client with replies := client.replies.eraseIdx i } := by
  refine h.later ⟨fun _ call hcall => ⟨call, hcall, rfl⟩, fun _ hc => hc, ?_, fun _ hs => hs⟩
    (fun _ hr => .inl (List.mem_of_mem_eraseIdx hr)) h.values (fun _ hk => .inl hk)
  intro p hp
  rw [mem_outstanding] at hp ⊢
  exact hp.imp_right (Or.imp_left fun ⟨json, hrep⟩ => ⟨json, List.mem_of_mem_eraseIdx hrep⟩)

theorem Matched.complete (h : Matched client) {channel : Nat} {call : InitiateCall}
    (hcall : client.calls[channel]? = some call) {json : Json}
    (hret : Returned client.served call.peer json) :
    Matched ({ client with pending := Function.update client.pending .getPrekeys none }.modifyCall
      channel fun call => { call with value := some json }) := by
  refine h.later ⟨?_, ?_, ?_, fun _ hs => hs⟩ (fun _ hr => .inl hr) ?_ (fun _ hk => .inl hk)
  · intro j old hold
    refine ⟨_, by rw [getElem?_modifyCall, hold]; rfl, ?_⟩
    split <;> rfl
  · intro c hc
    simp [modifyCall] at hc
  · intro p hp
    rw [mem_outstanding] at hp ⊢
    rcases hp with hreq | hrep | ⟨other, hother, hins, rfl⟩
    · exact .inl hreq
    · exact .inr (.inl hrep)
    · rcases mem_modifyCall hother with hold | ⟨old, hold, rfl⟩
      · exact .inr (.inr ⟨other, hold, hins, rfl⟩)
      · exact .inr (.inr ⟨old, List.mem_of_getElem? hold, hins, rfl⟩)
  · intro other hother json' hjson'
    rcases mem_modifyCall hother with hold | ⟨old, hold, rfl⟩
    · exact h.values other hold json' hjson'
    · rw [show client.calls[channel]? = some old from hold] at hcall
      rw [Option.some.inj hcall, ← Option.some.inj hjson']
      exact hret

theorem Matched.deliver (h : Matched client) {i : Nat} {a : InitiateAction Secret}
    (ha : a = .deliver i) (hstep : client.step S a = some client') : Matched client' := by
  subst ha
  simp only [step, bind, Option.bind_eq_some_iff] at hstep
  obtain ⟨reply, hreply, hstep⟩ := hstep
  have hmem := List.mem_of_getElem? hreply
  rcases h.replies reply hmem with ⟨bundle, hserved, hjson⟩ | hjson
  · -- the prekeys complete the channel in the slot, if there is one
    rw [hjson] at hstep
    cases hslot : client.pending .getPrekeys with
    | none =>
      simp only [dispatchJson, replyKind_prekeysFound, hslot] at hstep
      obtain rfl := Option.some.inj hstep
      exact h.eraseReply i
    | some channel =>
      rw [dispatchJson_of_kind rfl (replyKind_prekeysFound bundle) hslot] at hstep
      obtain rfl := Option.some.inj hstep
      obtain ⟨call, hcall, hpeer⟩ :=
        h.slot reply.1 (mem_outstanding.mpr (.inr (.inl ⟨reply.2, hmem⟩))) channel hslot
      refine (h.eraseReply i).complete hcall ⟨bundle, ?_, rfl⟩
      rw [hpeer]
      exact hserved
  · rw [hjson, dispatchJson_of_unrecognised rfl replyKind_prekeysNotFound] at hstep
    obtain rfl := Option.some.inj hstep
    exact h.eraseReply i

/-! ## Setting up the session -/

theorem Matched.finish (h : Matched client) (c : Nat) {peer : PeerId} {resp : Json}
    (hret : Returned client.served peer resp) (first : Secret) :
    Matched (client.finish S c peer resp first) := by
  obtain ⟨bundle, hserved, rfl⟩ := hret
  unfold Initiator.finish
  rw [prekeysResult_found]
  dsimp only
  split
  · exact h.withPhase c _ (by simp)
  · have hlater := later_setPhase client c (.returned (.ok ())) (by simp)
    refine h.later ⟨hlater.calls, hlater.slot, hlater.outstanding, hlater.served⟩
      (fun _ hr => .inl hr) (values_setPhase h c _) ?_
    intro k hk
    rcases List.mem_append.mp hk with hold | hnew
    · exact .inl hold
    · rw [List.mem_singleton.mp hnew]
      exact .inr ⟨bundle, hserved, rfl, rfl⟩

theorem Matched.step (h : Matched client) {a : InitiateAction Secret} (halone : client.Alone a)
    (hstep : client.step S a = some client') : Matched client' := by
  cases a with
  | call peer =>
    obtain rfl := Option.some.inj hstep
    refine h.call peer _ ?_
    split <;> simp
  | insert c =>
    simp only [Initiator.step, bind, Option.bind_eq_some_iff] at hstep
    obtain ⟨call, hcall, hstep⟩ := hstep
    split at hstep
    · obtain rfl := Option.some.inj hstep
      exact h.insert hcall (halone call hcall)
    · cases hstep
  | send c outcome =>
    simp only [Initiator.step, bind, Option.bind_eq_some_iff] at hstep
    obtain ⟨call, hcall, hstep⟩ := hstep
    split at hstep
    · next hins =>
      cases outcome with
      | error err =>
        obtain rfl := Option.some.inj hstep
        exact h.withPhase c _ (by simp)
      | ok =>
        obtain rfl := Option.some.inj hstep
        exact h.send hcall hins
    · cases hstep
  | serve i d =>
    simp only [Initiator.step, bind, Option.bind_eq_some_iff] at hstep
    obtain ⟨peer, hpeer, hstep⟩ := hstep
    obtain rfl := Option.some.inj hstep
    exact h.serve hpeer d
  | deliver i => exact h.deliver rfl hstep
  | resume c first =>
    simp only [Initiator.step, bind, Option.bind_eq_some_iff] at hstep
    obtain ⟨call, hcall, hstep⟩ := hstep
    split at hstep
    · split at hstep
      · next resp hresp =>
        obtain rfl := Option.some.inj hstep
        exact h.finish c (h.values call (List.mem_of_getElem? hcall) resp hresp) first
      · split at hstep
        · cases hstep
        · obtain rfl := Option.some.inj hstep
          exact h.withPhase c _ (by simp)
    · cases hstep
  | drop c =>
    obtain rfl := Option.some.inj hstep
    exact h.withPhase c _ (by simp)

theorem matched_start (ourId : PeerId) (session : SessionId) (keys : KeyManager Key Secret) :
    Matched (start ourId session keys) where
  slot _ h := by simp [outstanding, start] at h
  replies _ h := by cases h
  values _ h := by cases h
  keyed _ h := by cases h

/-- **Sessions have their own peer's prekeys.** In every run in which a call puts its channel into
`pending` only when everything outstanding is for its own peer, each session is set up with prekeys
that signaling returned for its peer. -/
theorem keyed_with_own_prekeys (S : Suite Key Secret Ct) (ourId : PeerId) (session : SessionId)
    (keys : KeyManager Key Secret) {client : Initiator Key Secret}
    (hrun : Lib.Run (step S) Alone (start ourId session keys) client) {k : Keyed}
    (hk : k ∈ client.keyed) :
    ∃ bundle, (k.peer, some bundle) ∈ client.served ∧ k.identityKey = bundle.identityKey ∧
      k.signedPrekey = bundle.signedPrekey :=
  (hrun.invariant (I := Matched) (matched_start ourId session keys)
    fun h halone hstep => h.step halone hstep).keyed k hk

def twoUploaded : Directory where
  toRegistry :=
    { Registry.empty with
      prekeys := (Expiring.empty.set (hexEncode (Array32.ofNat 2).val)
          ⟨(Array32.ofNat 22).val, (Array32.ofNat 23).val, none⟩ 1000).set
        (hexEncode (Array32.ofNat 3).val)
          ⟨(Array32.ofNat 32).val, (Array32.ofNat 33).val, none⟩ 1000 }
  links := Expiring.empty

def newClient : Initiator Array32 Array32 :=
  start (.ofNat 1) 7 ⟨.ofNat 11, .ofNat 12, ∅⟩

theorem keyed_with_own_prekeys_in_turn :
    ∃ client, Lib.exec (step Primitives.additive.suite) Alone newClient
        [.call (.ofNat 2), .call (.ofNat 3), .insert 0, .send 0 (.ok ()), .serve 0 twoUploaded,
          .deliver 0, .insert 1, .resume 0 (.ofNat 13), .send 1 (.ok ()), .serve 0 twoUploaded,
          .deliver 0, .resume 1 (.ofNat 14)] = some client ∧
      client.keyed.length = 2 ∧ ∀ k ∈ client.keyed, ∃ bundle,
        (k.peer, some bundle) ∈ client.served ∧ k.identityKey = bundle.identityKey ∧
          k.signedPrekey = bundle.signedPrekey := by
  have hlen : (Lib.exec (step Primitives.additive.suite) Alone newClient
      [.call (.ofNat 2), .call (.ofNat 3), .insert 0, .send 0 (.ok ()), .serve 0 twoUploaded,
        .deliver 0, .insert 1, .resume 0 (.ofNat 13), .send 1 (.ok ()), .serve 0 twoUploaded,
        .deliver 0, .resume 1 (.ofNat 14)]).map (·.keyed.length) = some 2 := by decide +kernel
  obtain ⟨client, hexec, hlen⟩ := Option.map_eq_some_iff.mp hlen
  refine ⟨client, hexec, hlen, fun k hk => ?_⟩
  exact keyed_with_own_prekeys _ (.ofNat 1) 7 ⟨.ofNat 11, .ofNat 12, ∅⟩ (Lib.Run.of_exec hexec) hk

/-- Calls for peers 2 and 3 at the same time. The reply about peer 2 completes the channel of the
later call, which sets up the session with peer 3 from the prekeys of peer 2. -/
theorem session_with_foreign_prekeys :
    (Lib.exec (step Primitives.additive.suite) (fun _ _ => True) newClient
      [.call (.ofNat 2), .call (.ofNat 3), .insert 0, .insert 1, .send 0 (.ok ()), .send 1 (.ok ()),
        .serve 0 twoUploaded, .deliver 0, .resume 1 (.ofNat 14)]).map
      (fun client => (client.keyed, client.served)) =
    some ([⟨.ofNat 3, (Array32.ofNat 22).val, (Array32.ofNat 23).val⟩],
      [(.ofNat 2, some ⟨(Array32.ofNat 22).val, (Array32.ofNat 23).val, none⟩)]) := by
  decide +kernel

end Cypher.Client.Initiator
