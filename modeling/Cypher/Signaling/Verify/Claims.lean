import Mathlib.Data.Set.Function
import Cypher.Signaling.Verify.Conservation

/-!
# Whose claim an ack removes

A claim record is kept under the token that `handle_inbox_fetch` made for it, and an ack removes what
is kept under the token it brings, if that is the token of the inbox it names. In every run the record
and the index entry under a token belong to an inbox for which the token was made (`Issued`), and one
token is not made for two inboxes unless the HMAC has the same value for two inputs.
-/

namespace Cypher.Signaling.Verify

/-! ## Tokens -/

theorem foldl_diff_eq_zero (pairs : List (UInt8 × UInt8)) (diff : UInt8) :
    pairs.foldl (fun (diff : UInt8) xy => diff ||| (xy.1 ^^^ xy.2)) diff = 0 ↔
      diff = 0 ∧ ∀ xy ∈ pairs, xy.1 = xy.2 := by
  induction pairs generalizing diff with
  | nil => simp
  | cons xy pairs ih =>
    rw [List.foldl_cons, ih, UInt8.or_eq_zero_iff, UInt8.xor_eq_zero_iff, List.forall_mem_cons,
      and_assoc]

theorem eq_of_forall_zip {a b : Bytes} (hlength : a.length = b.length)
    (h : ∀ xy ∈ a.zip b, xy.1 = xy.2) : a = b := by
  have hmap : (a.zip b).map Prod.fst = (a.zip b).map Prod.snd := List.map_congr_left h
  rwa [List.map_fst_zip hlength.le, List.map_snd_zip hlength.ge] at hmap

theorem constantTimeEq_iff (a b : Bytes) : ServerSigner.constantTimeEq a b = true ↔ a = b := by
  by_cases hlength : a.length = b.length
  · rw [ServerSigner.constantTimeEq, if_neg (not_not_intro hlength), beq_iff_eq,
      foldl_diff_eq_zero]
    constructor
    · rintro ⟨-, hall⟩
      exact eq_of_forall_zip hlength hall
    · rintro rfl
      refine ⟨rfl, fun xy hxy => ?_⟩
      rw [List.zip, List.zipWith_self, List.mem_map] at hxy
      obtain ⟨x, -, rfl⟩ := hxy
      rfl
  · rw [ServerSigner.constantTimeEq, if_pos hlength]
    refine iff_of_false (by decide) fun heq => hlength ?_
    rw [heq]

section

variable {hmac : HmacSha256} {signer : ServerSigner}

theorem take_generateClaimToken (inboxId : Bytes) (t : UInt64) :
    (signer.generateClaimToken hmac inboxId t).take 8 = Lib.leBytes 8 t.toNat :=
  List.take_left' (Lib.leBytes_length 8 _)

/-- A token is accepted exactly if it was made for the inbox at a time within the window. -/
theorem verifyClaimToken_iff (inboxId token : Bytes) (maxAgeSecs now : Nat) :
    signer.verifyClaimToken hmac inboxId token maxAgeSecs now = true ↔
      ∃ t : UInt64, token = signer.generateClaimToken hmac inboxId t ∧
        now - maxAgeSecs ≤ t.toNat ∧ t.toNat ≤ now + 60 := by
  constructor
  · intro h
    unfold ServerSigner.verifyClaimToken at h
    split at h
    · cases h
    dsimp only at h
    split at h
    · cases h
    · next hold =>
      split at h
      · cases h
      · next hlength hfuture =>
        have hlt : Lib.leNat (token.take 8) < 2 ^ 64 := by
          refine (Lib.leNat_lt _).trans_le ?_
          rw [List.length_take, not_not.mp hlength]
          decide
        refine ⟨UInt64.ofNat (Lib.leNat (token.take 8)), ((constantTimeEq_iff _ _).mp h).symm, ?_⟩
        rw [UInt64.toNat_ofNat_of_lt' hlt]
        omega
  · rintro ⟨t, rfl, hage, hfuture⟩
    have htime : Lib.leNat ((signer.generateClaimToken hmac inboxId t).take 8) = t.toNat := by
      rw [take_generateClaimToken, Lib.leNat_leBytes t.toNat_lt]
    rw [ServerSigner.verifyClaimToken,
      if_neg (not_not_intro (ServerSigner.generateClaimToken_length hmac signer inboxId t)), htime]
    dsimp only
    rw [if_neg (by omega), if_neg (by omega), UInt64.ofNat_toNat, constantTimeEq_iff]

/-- The bytes under the HMAC of a token. -/
def tokenInput (inboxId : Bytes) (timestamp : UInt64) : Bytes :=
  inboxId ++ Lib.leBytes 8 timestamp.toNat

/-- The timestamp has a fixed width, so nothing moves between it and the inbox id. -/
theorem tokenInput_inj {a b : Bytes} {s t : UInt64} (h : tokenInput a s = tokenInput b t) :
    a = b :=
  (List.append_inj' h (by rw [Lib.leBytes_length, Lib.leBytes_length])).1

theorem hmac_of_generateClaimToken {a b : Bytes} {s t : UInt64}
    (h : signer.generateClaimToken hmac a s = signer.generateClaimToken hmac b t) :
    hmac signer.hmacSecret.val (tokenInput a s) = hmac signer.hmacSecret.val (tokenInput b t) :=
  Subtype.ext (List.append_inj h (by rw [Lib.leBytes_length, Lib.leBytes_length])).2

end

/-! ## The names of keys -/

/-- `inbox:{hex}`, the list of an inbox. -/
def inboxKey (inboxId : Bytes) : List Char :=
  "inbox:".toList ++ hexEncode inboxId

/-- `inbox:claim:{hex}`, a claim record and the member of the index for it. -/
def claimKey (token : Bytes) : List Char :=
  "inbox:claim:".toList ++ hexEncode token

/-- `INBOX_CLAIM_INDEX_KEY`. -/
def claimIndexKey : List Char :=
  "inbox:claims".toList

theorem hexEncode_injective : Function.Injective hexEncode :=
  Function.LeftInverse.injective hexDecodeBytes_hexEncode

theorem not_mem_hexEncode {c : Char} (hc : ∀ n < 16, Nat.digitChar n ≠ c) (data : Bytes) :
    c ∉ hexEncode data := by
  intro hmem
  obtain ⟨byte, -, hbyte⟩ := List.mem_flatMap.mp hmem
  have hlt := byte.toNat_lt
  rcases List.mem_cons.mp hbyte with rfl | hbyte
  · exact hc (byte.toNat / 16) (by omega) rfl
  · exact hc (byte.toNat % 16) (by omega) (List.mem_singleton.mp hbyte).symm

/-- Inboxes and tokens of any length have keys of their own: `Redis` may keep lists, records and the
index apart and name them by inbox id and token. -/
theorem keys_apart :
    Function.Injective inboxKey ∧ Function.Injective claimKey ∧
      (∀ inboxId token, inboxKey inboxId ≠ claimKey token) ∧
      (∀ inboxId, inboxKey inboxId ≠ claimIndexKey) ∧ ∀ token, claimKey token ≠ claimIndexKey := by
  have hl : ∀ n < 16, Nat.digitChar n ≠ 'l' := by decide
  refine ⟨fun a b h => hexEncode_injective (List.append_cancel_left h),
    fun a b h => hexEncode_injective (List.append_cancel_left h), ?_, ?_, ?_⟩
  · intro inboxId token h
    have hhex : hexEncode inboxId = "claim:".toList ++ hexEncode token :=
      (List.append_right_inj "inbox:".toList).mp h
    refine not_mem_hexEncode hl inboxId ?_
    rw [hhex]
    exact List.mem_append_left _ (by decide)
  · intro inboxId h
    have hhex : hexEncode inboxId = "claims".toList :=
      (List.append_right_inj "inbox:".toList).mp h
    refine not_mem_hexEncode hl inboxId ?_
    rw [hhex]
    decide
  · intro token h
    have hhead : ':' :: hexEncode token = "s".toList :=
      (List.append_right_inj "inbox:claim".toList).mp h
    cases hhead

/-! ## Claims and the fetches that made them -/

def TokenOf (server : Server) (inboxId token : Bytes) : Prop :=
  ∃ r ∈ server.responses, r.inboxId = inboxId ∧ r.token = token

/-- Every token under which something is kept was made by a fetch, a record's for its inbox. -/
structure Issued (hmac : HmacSha256) (signer : ServerSigner) (server : Server) : Prop where
  made : ∀ r ∈ server.responses, r.token = signer.generateClaimToken hmac r.inboxId r.timestamp
  claim : ∀ token claim, server.redis.claim token = some claim →
    TokenOf server claim.inboxId token
  index : ∀ entry ∈ server.redis.claimIndex, ∃ inboxId, TokenOf server inboxId entry.2

theorem mem_index_of_zrem {redis : Redis} {token : Bytes} {entry : Nat × Bytes} :
    entry ∈ (redis.zrem token).claimIndex ↔ entry ∈ redis.claimIndex ∧ entry.2 ≠ token := by
  rw [Redis.zrem, List.mem_filter, decide_eq_true_iff]

theorem mem_index_of_claimInbox {redis : Redis} {inboxId token : Bytes} {deadline : Nat}
    {entry : Nat × Bytes}
    (h : entry ∈ (redis.claimInbox inboxId token deadline).1.claimIndex) :
    entry.2 = token ∨ entry ∈ redis.claimIndex := by
  have hindex : (redis.claimInbox inboxId token deadline).1.claimIndex =
      (if (redis.inbox inboxId).length > 0 then
        (redis.setClaim token (some ⟨inboxId, redis.inbox inboxId⟩)).zadd deadline token
      else redis).claimIndex := rfl
  rw [hindex] at h
  split at h
  · rw [Redis.zadd, List.mem_orderedInsert, mem_index_of_zrem] at h
    rcases h with rfl | ⟨h, -⟩
    · exact .inl rfl
    · exact .inr h
  · exact .inr h

theorem mem_index_of_restoreClaim {redis : Redis} {token : Bytes} {entry : Nat × Bytes}
    (h : entry ∈ (redis.restoreClaim token).claimIndex) : entry ∈ redis.claimIndex := by
  unfold Redis.restoreClaim at h
  split at h
  · exact (mem_index_of_zrem.mp h).1
  · exact (mem_index_of_zrem.mp h).1

namespace Issued

variable {E : Ed25519} {hmac : HmacSha256} {signer : ServerSigner} {server server' : Server}

theorem start : Issued hmac signer Server.start where
  made _ hr := absurd hr List.not_mem_nil
  claim _ _ hclaim := nomatch hclaim
  index _ hentry := absurd hentry List.not_mem_nil

theorem mono (h : Issued hmac signer server) {redis : Redis}
    (hclaim : ∀ token claim, redis.claim token = some claim →
      server.redis.claim token = some claim)
    (hindex : ∀ entry ∈ redis.claimIndex, entry ∈ server.redis.claimIndex) :
    Issued hmac signer { server with redis } where
  made := h.made
  claim token claim htoken := h.claim token claim (hclaim token claim htoken)
  index entry hentry := h.index entry (hindex entry hentry)

theorem restoreClaim (h : Issued hmac signer server) (token : Bytes) :
    Issued hmac signer { server with redis := server.redis.restoreClaim token } :=
  h.mono (fun _ _ hclaim => claim_of_restoreClaim hclaim)
    fun _ hentry => mem_index_of_restoreClaim hentry

theorem recover (h : Issued hmac signer server) (tokens : List Bytes) :
    Issued hmac signer { server with redis := tokens.foldl Redis.restoreClaim server.redis } := by
  induction tokens generalizing server with
  | nil => exact h
  | cons token rest ih => exact ih (h.restoreClaim token)

theorem fetch (h : Issued hmac signer server) {inboxId : Bytes}
    {token : Bytes} {deadline : Nat} {new : Response} (hid : new.inboxId = inboxId)
    (htoken : new.token = token)
    (hmade : token = signer.generateClaimToken hmac new.inboxId new.timestamp) :
    Issued hmac signer
      { server with
        redis := (server.redis.claimInbox inboxId token deadline).1
        responses := new :: server.responses } := by
  have hnew : ∀ {id other}, TokenOf server id other → TokenOf
      { server with
        redis := (server.redis.claimInbox inboxId token deadline).1
        responses := new :: server.responses } id other := by
    rintro id other ⟨r, hr, hr'⟩
    exact ⟨r, List.mem_cons_of_mem _ hr, hr'⟩
  refine ⟨?_, ?_, ?_⟩
  · exact List.forall_mem_cons.mpr ⟨htoken.trans hmade, h.made⟩
  · intro other claim hclaim
    dsimp only at hclaim
    rw [claim_claimInbox] at hclaim
    split at hclaim
    · next heq =>
      cases hclaim
      exact ⟨new, List.mem_cons_self, hid, htoken.trans heq.2.symm⟩
    · exact hnew (h.claim other claim hclaim)
  · intro entry hentry
    rcases mem_index_of_claimInbox hentry with heq | hold
    · exact ⟨inboxId, new, List.mem_cons_self, hid, htoken.trans heq.symm⟩
    · obtain ⟨id, hof⟩ := h.index entry hold
      exact ⟨id, hnew hof⟩

theorem ack (h : Issued hmac signer server) (token : Bytes) :
    Issued hmac signer
      { server with
        redis := server.redis.dropClaim token
        responses := server.responses.map (Response.ack token) } := by
  have hmarked : ∀ {id other}, TokenOf server id other → TokenOf
      { server with
        redis := server.redis.dropClaim token
        responses := server.responses.map (Response.ack token) } id other := by
    rintro id other ⟨r, hr, hr'⟩
    exact ⟨r.ack token, List.mem_map_of_mem hr, hr'⟩
  refine ⟨?_, ?_, ?_⟩
  · intro r hr
    obtain ⟨r₀, hr₀, rfl⟩ := List.mem_map.mp hr
    exact h.made r₀ hr₀
  · intro other claim hclaim
    exact hmarked (h.claim other claim (claim_of_dropClaim hclaim))
  · intro entry hentry
    obtain ⟨id, hof⟩ := h.index entry (mem_index_of_zrem.mp hentry).1
    exact ⟨id, hmarked hof⟩

theorem step (h : Issued hmac signer server) {a : InboxAction}
    (hstep : server.step E hmac signer a = some server') : Issued hmac signer server' := by
  cases a with
  | store inboxId payload =>
    cases hstep
    exact ⟨h.made, h.claim, h.index⟩
  | fetch inboxId timestamp =>
    cases hstep
    exact h.fetch rfl rfl rfl
  | ack inboxId token now =>
    rcases step_ack hstep with rfl | rfl
    · exact h
    · exact h.ack token
  | recover now =>
    cases hstep
    exact h.recover _

end Issued

/-! ## The frame of an ack -/

/-- What the HMAC is applied to: for the tokens made so far, and for one that is checked. -/
def hmacInputs (server : Server) (inboxId token : Bytes) : Set Bytes :=
  {data | (∃ r ∈ server.responses, data = tokenInput r.inboxId r.timestamp) ∨
    data = inboxId ++ token.take 8}

section

variable {hmac : HmacSha256} {signer : ServerSigner} {server : Server} {inboxId token : Bytes}

theorem inboxId_of_tokenOf (h : Issued hmac signer server)
    (hinj : Set.InjOn (hmac signer.hmacSecret.val) (hmacInputs server inboxId token))
    {t : UInt64} (htoken : token = signer.generateClaimToken hmac inboxId t) {id : Bytes}
    (hof : TokenOf server id token) : id = inboxId := by
  obtain ⟨r, hr, rfl, hrtoken⟩ := hof
  have hsame : signer.generateClaimToken hmac r.inboxId r.timestamp =
      signer.generateClaimToken hmac inboxId t := by
    rw [← h.made r hr, hrtoken, htoken]
  have hchecked : tokenInput inboxId t ∈ hmacInputs server inboxId token := by
    right
    rw [htoken, take_generateClaimToken, tokenInput]
  exact tokenInput_inj (hinj (.inl ⟨r, hr, rfl⟩) hchecked (hmac_of_generateClaimToken hsame))

theorem claim_dropClaim_of_ne {redis : Redis} {other : Bytes} {claim : Claim}
    (h : redis.claim other = some claim → other ≠ token) :
    (redis.dropClaim token).claim other = some claim ↔ redis.claim other = some claim := by
  refine ⟨claim_of_dropClaim, fun hclaim => ?_⟩
  rw [claim_dropClaim, if_neg (h hclaim)]
  exact hclaim

end

/-- **An ack removes only its own inbox's claim.** A token is accepted exactly if it is the one made
for the inbox at its own timestamp, within the window; and if the HMAC has different values for the
inputs that occur, an ack leaves every record and every index entry of another inbox alone. -/
theorem ack_removes_own_claim (E : Ed25519) (hmac : HmacSha256) (signer : ServerSigner) :
    (∀ inboxId token maxAgeSecs now,
      signer.verifyClaimToken hmac inboxId token maxAgeSecs now = true ↔
        ∃ t : UInt64, token.take 8 = Lib.leBytes 8 t.toNat ∧
          token = signer.generateClaimToken hmac inboxId t ∧
          now - maxAgeSecs ≤ t.toNat ∧ t.toNat ≤ now + 60) ∧
    ∀ server, Lib.Run (Server.step E hmac signer) (fun _ _ => True) Server.start server →
      ∀ inboxId token now,
      Set.InjOn (hmac signer.hmacSecret.val) (hmacInputs server inboxId token) →
      (∀ other claim, claim.inboxId ≠ inboxId →
        ((handleInboxAck hmac signer server.redis inboxId token now).1.claim other = some claim ↔
          server.redis.claim other = some claim)) ∧
      (∀ entry id, TokenOf server id entry.2 → id ≠ inboxId →
        (entry ∈ (handleInboxAck hmac signer server.redis inboxId token now).1.claimIndex ↔
          entry ∈ server.redis.claimIndex)) ∧
      ∀ entry ∈ server.redis.claimIndex, ∃ id, TokenOf server id entry.2 := by
  refine ⟨?_, ?_⟩
  · intro inboxId token maxAgeSecs now
    rw [verifyClaimToken_iff]
    refine exists_congr fun t => ⟨?_, fun h => h.2⟩
    rintro ⟨rfl, hwindow⟩
    exact ⟨take_generateClaimToken inboxId t, rfl, hwindow⟩
  · intro server run inboxId token now hinj
    have hissued : Issued hmac signer server :=
      run.invariant (I := Issued hmac signer) .start fun h _ hstep => h.step hstep
    refine ⟨?_, ?_, hissued.index⟩
    · intro other claim hne
      rw [handleInboxAck]
      split
      · next hvalid =>
        obtain ⟨t, htoken, -⟩ := (verifyClaimToken_iff ..).mp hvalid
        refine claim_dropClaim_of_ne ?_
        rintro hclaim rfl
        exact hne (inboxId_of_tokenOf hissued hinj htoken (hissued.claim _ claim hclaim))
      · rfl
    · intro entry id hof hne
      rw [handleInboxAck]
      split
      · next hvalid =>
        obtain ⟨t, htoken, -⟩ := (verifyClaimToken_iff ..).mp hvalid
        refine mem_index_of_zrem.trans (and_iff_left ?_)
        rintro rfl
        exact hne (inboxId_of_tokenOf hissued hinj htoken hof)
      · rfl

/-- Two inboxes with one message each are fetched in the same second. -/
def twoClaims : List InboxAction :=
  [.store (ascii "a") (ascii "m"), .store (ascii "b") (ascii "n"), .fetch (ascii "a") 1000,
    .fetch (ascii "b") 1000]

/-- The token that a fetch of the inbox in that second returns. -/
def tokenAt1000 (inboxId : String) : Bytes :=
  ServerSigner.generateClaimToken .digest ⟨.ofNat 1, .ofNat 2⟩ (ascii inboxId) 1000

/-- The claim of one is acknowledged, that of the other stays. -/
theorem ack_removes_own_claim_two :
    ∃ server claim, Lib.Run (Server.step .digest .digest ⟨.ofNat 1, .ofNat 2⟩) (fun _ _ => True)
        Server.start server ∧
      ServerSigner.verifyClaimToken .digest ⟨.ofNat 1, .ofNat 2⟩ (ascii "a") (tokenAt1000 "a")
        inboxClaimTtlSecs 1200 = true ∧
      (handleInboxAck .digest ⟨.ofNat 1, .ofNat 2⟩ server.redis (ascii "a") (tokenAt1000 "a")
        1200).1.claim (tokenAt1000 "a") = none ∧
      (handleInboxAck .digest ⟨.ofNat 1, .ofNat 2⟩ server.redis (ascii "a") (tokenAt1000 "a")
        1200).1.claim (tokenAt1000 "b") = some claim := by
  have hexec : (Lib.exec (Server.step .digest .digest ⟨.ofNat 1, .ofNat 2⟩) (fun _ _ => True)
      Server.start twoClaims).map (fun server =>
        (server.responses.map fun r => tokenInput r.inboxId r.timestamp,
          server.redis.claim (tokenAt1000 "b"))) =
      some ([tokenInput (ascii "b") 1000, tokenInput (ascii "a") 1000],
        some ⟨ascii "b", [⟨1, hexEncode (ascii "n")⟩]⟩) := by decide +kernel
  obtain ⟨server, hs, hvalues⟩ := Option.map_eq_some_iff.mp hexec
  obtain ⟨hinputs, hclaim⟩ := Prod.mk.inj hvalues
  obtain ⟨hverify, hframe⟩ := ack_removes_own_claim .digest .digest ⟨.ofNat 1, .ofNat 2⟩
  have hvalid := (hverify (ascii "a") (tokenAt1000 "a") inboxClaimTtlSecs 1200).mpr
    ⟨1000, take_generateClaimToken _ _, rfl, by decide, by decide⟩
  have hinj : Set.InjOn (HmacSha256.digest (Array32.ofNat 2).val)
      (hmacInputs server (ascii "a") (tokenAt1000 "a")) := by
    have hsub : ∀ x ∈ hmacInputs server (ascii "a") (tokenAt1000 "a"),
        x ∈ [tokenInput (ascii "b") 1000, tokenInput (ascii "a") 1000] := by
      rintro x (⟨r, hr, rfl⟩ | rfl)
      · rw [← hinputs]
        exact List.mem_map_of_mem hr
      · rw [tokenAt1000, take_generateClaimToken]
        exact List.mem_cons_of_mem _ List.mem_cons_self
    have hpair : ∀ x ∈ [tokenInput (ascii "b") 1000, tokenInput (ascii "a") 1000],
        ∀ y ∈ [tokenInput (ascii "b") 1000, tokenInput (ascii "a") 1000],
        HmacSha256.digest (Array32.ofNat 2).val x = HmacSha256.digest (Array32.ofNat 2).val y →
          x = y := by decide +kernel
    exact fun x hx y hy heq => hpair x (hsub x hx) y (hsub y hy) heq
  refine ⟨server, ⟨ascii "b", [⟨1, hexEncode (ascii "n")⟩]⟩, .of_exec hs, hvalid, ?_, ?_⟩
  · rw [handleInboxAck, if_pos hvalid, claim_dropClaim, if_pos rfl]
  · exact ((hframe server (.of_exec hs) (ascii "a") _ 1200 hinj).1 _ _ (by decide)).mpr hclaim

end Cypher.Signaling.Verify
