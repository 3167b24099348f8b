import Cypher.Lib.Run
import Cypher.Signaling.Inbox

/-!
# Conservation of stored messages

A claim token depends on nothing but inbox id and second. A second fetch of an inbox within one
second therefore overwrites the record of the first, and what only that record held is gone. As
long as no fetch finds a record under its own token, every stored message stays in its inbox, in a
claim record or in a reply that was acknowledged.
-/

namespace Cypher.Signaling.Verify

/-! ## What the scripts do to lists and claims -/

section Scripts

variable {redis : Redis} {inboxId id token other : Bytes} {item : Item} {claim : Claim}

/-- The item is in the list of its inbox or in a claim record of that inbox. -/
def Held (redis : Redis) (inboxId : Bytes) (item : Item) : Prop :=
  item ∈ redis.inbox inboxId ∨
    ∃ token claim, redis.claim token = some claim ∧ claim.inboxId = inboxId ∧
      item ∈ claim.messages

theorem inbox_setInbox (items : List Item) :
    (redis.setInbox inboxId items).inbox id = if id = inboxId then items else redis.inbox id := by
  simp only [Redis.setInbox, Function.update_apply]

theorem claim_setClaim (c : Option Claim) :
    (redis.setClaim token c).claim other = if other = token then c else redis.claim other := by
  simp only [Redis.setClaim, Function.update_apply]

theorem claim_dropClaim :
    (redis.dropClaim token).claim other = if other = token then none else redis.claim other :=
  claim_setClaim none

theorem claim_of_dropClaim (h : (redis.dropClaim token).claim other = some claim) :
    redis.claim other = some claim := by
  rw [claim_dropClaim] at h
  split at h
  · cases h
  · exact h

theorem inbox_claimInbox (redis : Redis) (inboxId id token : Bytes) (deadline : Nat) :
    (redis.claimInbox inboxId token deadline).1.inbox id =
      if id = inboxId then [] else redis.inbox id := by
  simp only [Redis.claimInbox]
  rw [inbox_setInbox]
  split
  · rfl
  · split <;> rfl

theorem claim_claimInbox (redis : Redis) (inboxId token other : Bytes) (deadline : Nat) :
    (redis.claimInbox inboxId token deadline).1.claim other =
      if redis.inbox inboxId ≠ [] ∧ other = token then some ⟨inboxId, redis.inbox inboxId⟩
      else redis.claim other := by
  simp only [Redis.claimInbox, gt_iff_lt, List.length_pos_iff]
  by_cases hmsgs : redis.inbox inboxId = []
  · simp only [hmsgs, ne_eq, not_true_eq_false, if_false, false_and]
    rfl
  · simp only [hmsgs, ne_eq, not_false_eq_true, if_true, true_and]
    exact claim_setClaim _

theorem inbox_restoreClaim_take (id : Bytes) (hclaim : redis.claim token = some claim) :
    (redis.restoreClaim token).inbox id =
      if id = claim.inboxId then
        (claim.messages ++ redis.inbox claim.inboxId).take inboxMaxMessages
      else redis.inbox id := by
  have hpush : ∀ items list : List Item,
      items.reverse.foldl (fun list item => item :: list) list = items ++ list := by
    intro items list
    rw [List.foldl_reverse]
    induction items with
    | nil => rfl
    | cons item items ih => rw [List.foldr_cons, ih, List.cons_append]
  rw [Redis.restoreClaim, hclaim]
  dsimp only
  rw [hpush]
  exact inbox_setInbox _

theorem inbox_restoreClaim (id : Bytes) (hclaim : redis.claim token = some claim)
    (hfits : claim.messages.length + (redis.inbox claim.inboxId).length ≤ inboxMaxMessages) :
    (redis.restoreClaim token).inbox id =
      if id = claim.inboxId then claim.messages ++ redis.inbox claim.inboxId
      else redis.inbox id := by
  rw [inbox_restoreClaim_take id hclaim,
    List.take_of_length_le (by rw [List.length_append]; exact hfits)]

theorem claim_restoreClaim :
    (redis.restoreClaim token).claim other = if other = token then none else redis.claim other := by
  rw [Redis.restoreClaim]
  split
  · next hnone =>
    split
    · next heq =>
      subst heq
      exact hnone
    · rfl
  · exact claim_setClaim none

theorem claim_of_restoreClaim (h : (redis.restoreClaim token).claim other = some claim) :
    redis.claim other = some claim := by
  rw [claim_restoreClaim] at h
  split at h
  · cases h
  · exact h

theorem inbox_restoreClaim_none (hclaim : redis.claim token = none) :
    (redis.restoreClaim token).inbox = redis.inbox := by
  rw [Redis.restoreClaim, hclaim]
  rfl

/-- The claim found under a token, if any, fits into its inbox. -/
def Fits (redis : Redis) (token : Bytes) : Prop :=
  ∀ claim ∈ redis.claim token,
    claim.messages.length + (redis.inbox claim.inboxId).length ≤ inboxMaxMessages

theorem Held.restoreClaim (h : Held redis inboxId item) (hfits : Fits redis token) :
    Held (redis.restoreClaim token) inboxId item := by
  rcases h with hlist | ⟨other, claim, hother, hid, hitem⟩
  · cases hclaim : redis.claim token with
    | none => exact Or.inl (inbox_restoreClaim_none hclaim ▸ hlist)
    | some restored =>
      refine Or.inl ?_
      rw [inbox_restoreClaim inboxId hclaim (hfits restored hclaim)]
      split
      · next heq => exact List.mem_append_right _ (heq ▸ hlist)
      · exact hlist
  · by_cases heq : other = token
    · subst heq
      refine Or.inl ?_
      rw [inbox_restoreClaim inboxId hother (hfits claim hother), if_pos hid.symm]
      exact List.mem_append_left _ hitem
    · exact Or.inr ⟨other, claim, claim_restoreClaim.trans ((if_neg heq).trans hother), hid, hitem⟩

theorem mem_inbox_restoreClaim (hfits : Fits redis token)
    (h : item ∈ (redis.restoreClaim token).inbox id) :
    item ∈ redis.inbox id ∨ ∃ claim, redis.claim token = some claim ∧ item ∈ claim.messages := by
  cases hclaim : redis.claim token with
  | none => exact Or.inl (inbox_restoreClaim_none hclaim ▸ h)
  | some restored =>
    rw [inbox_restoreClaim id hclaim (hfits restored hclaim)] at h
    split at h
    · next heq =>
      rcases List.mem_append.mp h with hitem | hitem
      · exact Or.inr ⟨restored, rfl, hitem⟩
      · exact Or.inl (heq ▸ hitem)
    · exact Or.inl h

end Scripts

/-! ## Capacity and the condition on fetches -/

def RestoresWithin : Redis → List Bytes → Prop
  | _, [] => True
  | redis, token :: rest =>
    (∀ claim ∈ redis.claim token,
      claim.messages.length + (redis.inbox claim.inboxId).length ≤ inboxMaxMessages) ∧
      RestoresWithin (redis.restoreClaim token) rest

instance decidableRestoresWithin :
    (redis : Redis) → (tokens : List Bytes) → Decidable (RestoresWithin redis tokens)
  | _, [] => .isTrue trivial
  | redis, token :: rest =>
    have := decidableRestoresWithin (redis.restoreClaim token) rest
    inferInstanceAs (Decidable (_ ∧ _))

/-- The action makes no inbox hold more than `INBOX_MAX_MESSAGES`. -/
def WithinCapacity (server : Server) : InboxAction → Prop
  | .store inboxId _ => (server.redis.inbox inboxId).length + 1 ≤ inboxMaxMessages
  | .recover now => RestoresWithin server.redis (server.redis.zrangeByScore now)
  | _ => True

/-- Stored payloads are not empty, and a fetch that finds messages finds no claim record under its
own token. -/
def ClaimsApart (hmac : HmacSha256) (signer : ServerSigner) (server : Server) :
    InboxAction → Prop
  | .store _ payload => payload ≠ []
  | .fetch inboxId timestamp =>
    server.redis.inbox inboxId = [] ∨
      server.redis.claim (signer.generateClaimToken hmac inboxId timestamp) = none
  | _ => True

instance (server : Server) : (a : InboxAction) → Decidable (WithinCapacity server a)
  | .store _ _ => inferInstanceAs (Decidable (_ ≤ _))
  | .fetch _ _ => .isTrue trivial
  | .ack _ _ _ => .isTrue trivial
  | .recover _ => inferInstanceAs (Decidable (RestoresWithin _ _))

instance (hmac : HmacSha256) (signer : ServerSigner) (server : Server) :
    (a : InboxAction) → Decidable (ClaimsApart hmac signer server a)
  | .store _ payload => inferInstanceAs (Decidable (payload ≠ []))
  | .fetch _ _ => inferInstanceAs (Decidable (_ ∨ _))
  | .ack _ _ _ => .isTrue trivial
  | .recover _ => .isTrue trivial

/-! ## The invariant -/

/-- The item is still held, or a reply that was acknowledged contained it. -/
def Conserved (server : Server) (inboxId : Bytes) (item : Item) : Prop :=
  Held server.redis inboxId item ∨ ∃ r ∈ server.responses, r.acked = true ∧ r.Contains item

/-- Every claimed item was sent in a reply with the claim's token, so that acknowledging the token
accounts for all that dropping the record takes away. -/
structure Accounted (server : Server) : Prop where
  kept : ∀ entry ∈ server.stored, Conserved server entry.1 entry.2
  answered : ∀ token claim, server.redis.claim token = some claim → ∀ item ∈ claim.messages,
    ∃ r ∈ server.responses, r.token = token ∧ r.Contains item
  nonempty : ∀ id, ∀ item ∈ server.redis.inbox id, hexDecodeBytes item.encoded ≠ []

theorem contains_of_nonempty {r : Response} {item : Item} (hmem : item ∈ r.messages)
    (hne : hexDecodeBytes item.encoded ≠ []) : r.Contains item := by
  refine ⟨hmem, List.mem_filter.mpr ⟨List.mem_map.mpr ⟨item, hmem, rfl⟩, ?_⟩⟩
  simpa using hne

theorem nonempty_of_contains {r : Response} {item : Item} (h : r.Contains item) :
    hexDecodeBytes item.encoded ≠ [] := by
  have hraw := (List.mem_filter.mp h.2).2
  simpa using hraw

theorem step_ack {E : Ed25519} {hmac : HmacSha256} {signer : ServerSigner}
    {server server' : Server} {inboxId token : Bytes} {now : Nat}
    (hstep : server.step E hmac signer (.ack inboxId token now) = some server') :
    server' = server ∨ server' =
      { server with
        redis := server.redis.dropClaim token
        responses := server.responses.map (Response.ack token) } := by
  simp only [Server.step, handleInboxAck] at hstep
  by_cases hvalid : signer.verifyClaimToken hmac inboxId token inboxClaimTtlSecs now
  · rw [if_pos hvalid] at hstep
    exact .inr (Option.some.inj hstep).symm
  · rw [if_neg hvalid] at hstep
    exact .inl (Option.some.inj hstep).symm

namespace Accounted

variable {E : Ed25519} {hmac : HmacSha256} {signer : ServerSigner} {server : Server}

theorem start : Accounted Server.start := by
  refine ⟨?_, ?_, ?_⟩
  · intro entry hentry
    cases hentry
  · intro token claim hclaim
    cases hclaim
  · intro id item hitem
    cases hitem

theorem store (h : Accounted server) {inboxId payload : Bytes}
    (hcap : (server.redis.inbox inboxId).length + 1 ≤ inboxMaxMessages) (hne : payload ≠ []) :
    Accounted
      { server with
        redis := server.redis.storeInboxPayload inboxId ⟨server.stored.length, hexEncode payload⟩
        stored := (inboxId, ⟨server.stored.length, hexEncode payload⟩) :: server.stored } := by
  generalize hnew : (⟨server.stored.length, hexEncode payload⟩ : Item) = new
  have hinbox : ∀ id, (server.redis.storeInboxPayload inboxId new).inbox id =
      if id = inboxId then new :: server.redis.inbox inboxId else server.redis.inbox id := by
    intro id
    rw [Redis.storeInboxPayload, inbox_setInbox, List.take_of_length_le (by simpa using hcap)]
  refine ⟨?_, h.answered, ?_⟩
  · rintro ⟨id, item⟩ hentry
    rcases List.mem_cons.mp hentry with heq | hentry
    · cases heq
      refine Or.inl (Or.inl ?_)
      rw [hinbox, if_pos rfl]
      exact List.mem_cons_self
    · rcases h.kept _ hentry with (hlist | hclaim) | hacked
      · refine Or.inl (Or.inl ?_)
        rw [hinbox]
        split
        · next heq =>
          subst heq
          exact List.mem_cons_of_mem _ hlist
        · exact hlist
      · exact Or.inl (Or.inr hclaim)
      · exact Or.inr hacked
  · intro id item hitem
    rw [hinbox] at hitem
    split at hitem
    · rcases List.mem_cons.mp hitem with rfl | hitem
      · rw [← hnew, hexDecodeBytes_hexEncode]
        exact hne
      · exact h.nonempty _ _ hitem
    · exact h.nonempty _ _ hitem

theorem fetch (h : Accounted server) {inboxId token : Bytes} {deadline : Nat} {new : Response}
    (htoken : new.token = token) (hmessages : new.messages = server.redis.inbox inboxId)
    (hapart : server.redis.inbox inboxId = [] ∨ server.redis.claim token = none) :
    Accounted
      { server with
        redis := (server.redis.claimInbox inboxId token deadline).1
        responses := new :: server.responses } := by
  have hinbox := fun id => inbox_claimInbox server.redis inboxId id token deadline
  have hclaim := fun other => claim_claimInbox server.redis inboxId token other deadline
  have hresponses : ∀ {P : Response → Prop}, (∃ r ∈ server.responses, P r) →
      ∃ r ∈ new :: server.responses, P r :=
    fun ⟨r, hr, hP⟩ => ⟨r, List.mem_cons_of_mem _ hr, hP⟩
  refine ⟨?_, ?_, ?_⟩
  · rintro ⟨id, item⟩ hentry
    rcases h.kept _ hentry with (hlist | ⟨other, claim, hother, hid, hitem⟩) | hacked
    · by_cases heq : id = inboxId
      · subst heq
        refine Or.inl (Or.inr ⟨token, ⟨id, server.redis.inbox id⟩, ?_, rfl, hlist⟩)
        exact (hclaim token).trans (if_pos ⟨List.ne_nil_of_mem hlist, rfl⟩)
      · refine Or.inl (Or.inl ?_)
        rw [hinbox, if_neg heq]
        exact hlist
    · refine Or.inl (Or.inr ⟨other, claim, ?_, hid, hitem⟩)
      -- the record of another fetch stays, as this fetch found none under its token
      refine (hclaim other).trans ((if_neg ?_).trans hother)
      rintro ⟨hmsgs, rfl⟩
      rw [hapart.resolve_left hmsgs] at hother
      cases hother
    · exact Or.inr (hresponses hacked)
  · intro other claim hother item hitem
    have hother' := (hclaim other).symm.trans hother
    split at hother'
    · next hnew =>
      simp only [Option.some.injEq] at hother'
      subst hother'
      refine ⟨new, List.mem_cons_self, htoken.trans hnew.2.symm, ?_⟩
      exact contains_of_nonempty (hmessages ▸ hitem) (h.nonempty _ _ hitem)
    · exact hresponses (h.answered _ _ hother' _ hitem)
  · intro id item hitem
    rw [hinbox] at hitem
    split at hitem
    · cases hitem
    · exact h.nonempty _ _ hitem

theorem ack (h : Accounted server) (token : Bytes) :
    Accounted
      { server with
        redis := server.redis.dropClaim token
        responses := server.responses.map (Response.ack token) } := by
  refine ⟨?_, ?_, h.nonempty⟩
  · rintro ⟨id, item⟩ hentry
    rcases h.kept _ hentry with (hlist | ⟨other, claim, hother, hid, hitem⟩) | ⟨r, hr, hacked, hin⟩
    · exact Or.inl (Or.inl hlist)
    · by_cases heq : other = token
      · subst heq
        obtain ⟨r, hr, htoken, hin⟩ := h.answered _ _ hother _ hitem
        refine Or.inr ⟨r.ack other, List.mem_map_of_mem hr, ?_, hin⟩
        simp [Response.ack, htoken]
      · refine Or.inl (Or.inr ⟨other, claim, ?_, hid, hitem⟩)
        exact claim_dropClaim.trans ((if_neg heq).trans hother)
    · refine Or.inr ⟨r.ack token, List.mem_map_of_mem hr, ?_, hin⟩
      simp [Response.ack, hacked]
  · intro other claim hother item hitem
    obtain ⟨r, hr, htoken, hin⟩ := h.answered _ _ (claim_of_dropClaim hother) _ hitem
    exact ⟨r.ack token, List.mem_map_of_mem hr, htoken, hin⟩

theorem restoreClaim (h : Accounted server) {token : Bytes} (hfits : Fits server.redis token) :
    Accounted { server with redis := server.redis.restoreClaim token } := by
  refine ⟨?_, ?_, ?_⟩
  · intro entry hentry
    exact (h.kept entry hentry).imp_left fun hheld => hheld.restoreClaim hfits
  · intro other claim hother
    exact h.answered other claim (claim_of_restoreClaim hother)
  · intro id item hitem
    rcases mem_inbox_restoreClaim hfits hitem with hitem | ⟨claim, hclaim, hitem⟩
    · exact h.nonempty id item hitem
    · obtain ⟨r, -, -, hin⟩ := h.answered token claim hclaim item hitem
      exact nonempty_of_contains hin

theorem recover (h : Accounted server) {tokens : List Bytes}
    (hfits : RestoresWithin server.redis tokens) :
    Accounted { server with redis := tokens.foldl Redis.restoreClaim server.redis } := by
  induction tokens generalizing server with
  | nil => exact h
  | cons token rest ih => exact ih (h.restoreClaim hfits.1) hfits.2

theorem step (h : Accounted server) {a : InboxAction} {server' : Server}
    (hcap : WithinCapacity server a) (hapart : ClaimsApart hmac signer server a)
    (hstep : server.step E hmac signer a = some server') : Accounted server' := by
  cases a with
  | store inboxId payload =>
    cases hstep
    exact h.store hcap hapart
  | fetch inboxId timestamp =>
    cases hstep
    exact h.fetch rfl rfl hapart
  | ack inboxId token now =>
    rcases step_ack hstep with rfl | rfl
    · exact h
    · exact h.ack token
  | recover now =>
    cases hstep
    exact h.recover hcap

end Accounted

/-- **Conservation.** In every run within capacity in which no fetch finds a claim record under its
own token and no stored payload is empty, every item stored is in its inbox list, in a claim record
of its inbox, or was contained in a reply whose token was acknowledged after it. -/
theorem inbox_conserves (E : Ed25519) (hmac : HmacSha256) (signer : ServerSigner) {server : Server}
    (hrun : Lib.Run (Server.step E hmac signer)
      (fun server a => WithinCapacity server a ∧ ClaimsApart hmac signer server a)
      Server.start server)
    {inboxId : Bytes} {item : Item} (hstored : (inboxId, item) ∈ server.stored) :
    Conserved server inboxId item :=
  (hrun.invariant Accounted.start
    (fun h hok hstep => h.step hok.1 hok.2 hstep)).kept _ hstored

/-- Two claims of one inbox, the first acknowledged and the second restored. -/
def claimedTwice (hmac : HmacSha256) (signer : ServerSigner) : List InboxAction :=
  [.store (ascii "inbox") (ascii "m0"), .fetch (ascii "inbox") 1000,
    .store (ascii "inbox") (ascii "m1"), .fetch (ascii "inbox") 1001,
    .ack (ascii "inbox") (signer.generateClaimToken hmac (ascii "inbox") 1000) 1002,
    .store (ascii "inbox") (ascii "m2"), .recover 1301]

theorem inbox_conserves_claimedTwice :
    ∃ server, Lib.exec (Server.step .digest .digest ⟨.ofNat 1, .ofNat 2⟩)
        (fun server a =>
          WithinCapacity server a ∧ ClaimsApart .digest ⟨.ofNat 1, .ofNat 2⟩ server a)
        Server.start (claimedTwice .digest ⟨.ofNat 1, .ofNat 2⟩) = some server ∧
      server.stored.length = 3 ∧
      ∀ entry ∈ server.stored, Conserved server entry.1 entry.2 := by
  have hrun : (Lib.exec (Server.step .digest .digest ⟨.ofNat 1, .ofNat 2⟩)
      (fun server a =>
        WithinCapacity server a ∧ ClaimsApart .digest ⟨.ofNat 1, .ofNat 2⟩ server a)
      Server.start (claimedTwice .digest ⟨.ofNat 1, .ofNat 2⟩)).map
        (fun server => server.stored.length) = some 3 := by decide +kernel
  obtain ⟨server, hexec, hlength⟩ := Option.map_eq_some_iff.mp hrun
  exact ⟨server, hexec, hlength, fun entry hentry =>
    inbox_conserves .digest .digest ⟨.ofNat 1, .ofNat 2⟩ (Lib.Run.of_exec hexec) hentry⟩

/-- Whatever the keys are, two fetches of an inbox in the same second lose what the first of them
claimed. -/
theorem refetch_loses (E : Ed25519) (hmac : HmacSha256) (signer : ServerSigner) :
    ∃ server, Lib.Run (Server.step E hmac signer) WithinCapacity Server.start server ∧
      (ascii "inbox", ⟨0, hexEncode (ascii "m0")⟩) ∈ server.stored ∧
      ¬ Conserved server (ascii "inbox") ⟨0, hexEncode (ascii "m0")⟩ := by
  -- the two stores and the two fetches, one state after the other
  have hstored : Lib.Run (Server.step E hmac signer) WithinCapacity Server.start _ :=
    Lib.Run.refl.tail (a := .store (ascii "inbox") (ascii "m0")) (by decide) rfl
  have hclaimed := hstored.tail (a := .fetch (ascii "inbox") 1000)
    (show WithinCapacity _ (.fetch _ _) from trivial) rfl
  have hagain := hclaimed.tail (a := .store (ascii "inbox") (ascii "m1"))
    (by simp [WithinCapacity, handleInboxFetch, inbox_claimInbox, inboxMaxMessages]) rfl
  have hrun := hagain.tail (a := .fetch (ascii "inbox") 1000)
    (show WithinCapacity _ (.fetch _ _) from trivial) rfl
  refine ⟨_, hrun, by simp [Server.start], ?_⟩
  rintro ((hlist | ⟨token, claim, hclaim, -, hitem⟩) | ⟨r, hr, hacked, -⟩)
  · simp [handleInboxFetch, inbox_claimInbox] at hlist
  · simp only [handleInboxFetch, claim_claimInbox, Redis.storeInboxPayload, inbox_setInbox,
      inbox_claimInbox, if_true] at hclaim
    split at hclaim
    · cases hclaim
      simp [inboxMaxMessages, Server.start] at hitem
    · next hother =>
      have hne : token ≠ signer.generateClaimToken hmac (ascii "inbox") 1000 := by
        simpa [inboxMaxMessages] using hother
      simp [Redis.setInbox, claim_claimInbox, hne, Server.start, Redis.empty] at hclaim
  · simp [Server.start] at hr
    rcases hr with rfl | rfl <;> cases hacked

theorem refetched_lost :
    ∃ server, Lib.Run (Server.step .digest .digest ⟨.ofNat 1, .ofNat 2⟩) WithinCapacity
        Server.start server ∧
      (ascii "inbox", ⟨0, hexEncode (ascii "m0")⟩) ∈ server.stored ∧
      ¬ Conserved server (ascii "inbox") ⟨0, hexEncode (ascii "m0")⟩ :=
  refetch_loses .digest .digest ⟨.ofNat 1, .ofNat 2⟩

end Cypher.Signaling.Verify
