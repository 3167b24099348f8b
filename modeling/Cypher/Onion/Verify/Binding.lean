import Cypher.Lib.Run
import Cypher.Onion.Verify.SignedResponse

/-!
# What an inbox signature binds

The signed bytes are `messages || count || inbox_id || timestamp` with no length between the two
parts of variable size. Whoever fetches a longer inbox id therefore gets a signature that is also
one of other messages for another inbox. The bytes determine their parts among ids of one length.
-/

namespace Cypher.Onion.Verify

open Proto Signaling

/-- What `handle_inbox_fetch` signs. -/
structure SignedFetch where
  messages : Bytes
  count : UInt32
  inboxId : Bytes
  timestamp : UInt64
  deriving DecidableEq

def SignedFetch.data (f : SignedFetch) : Bytes :=
  signedData f.messages f.count f.inboxId f.timestamp

def signedFetch (r : Response) : SignedFetch :=
  ⟨responseBlob r.messages, responseCount r.messages, r.inboxId, r.timestamp⟩

/-- The signature a client is presented with is not forged: if it verifies under the server's key on
the bytes that `verify` checks, the server signed these bytes. Nothing is said of other bytes or
signatures. -/
def Unforged (E : Ed25519) (signer : ServerSigner) (server : Server)
    (response : SignedInboxResponse) (inboxId : Bytes) : Prop :=
  ∀ token sig timestamp inbox, response.claimToken = some token → response.serverSig = some sig →
    claimTokenTimestamp token = .ok timestamp →
    dispatchInbox response.protoPayload = some inbox →
    E.verify (E.verifyingKey signer.signingSeed)
      (signedData inbox.messages inbox.count inboxId timestamp) sig = .ok () →
    ∃ r ∈ server.responses,
      (signedFetch r).data = signedData inbox.messages inbox.count inboxId timestamp

theorem SignedFetch.data_inj {f g : SignedFetch} (hlength : f.inboxId.length = g.inboxId.length)
    (h : f.data = g.data) : f = g := by
  obtain ⟨hfront, htime⟩ := List.append_inj' h (by simp)
  obtain ⟨hfront, hid⟩ := List.append_inj' hfront hlength
  obtain ⟨hmessages, hcount⟩ := List.append_inj' hfront (by simp)
  have htime : f.timestamp.toNat = g.timestamp.toNat :=
    Lib.leBytes_inj f.timestamp.toNat_lt g.timestamp.toNat_lt htime
  have hcount : f.count.toNat = g.count.toNat :=
    Lib.leBytes_inj f.count.toNat_lt g.count.toNat_lt hcount
  cases f
  cases g
  simp only [SignedFetch.mk.injEq]
  exact ⟨hmessages, UInt32.toNat_inj.mp hcount, hid, UInt64.toNat_inj.mp htime⟩

/-- **Binding.** If its signature is not forged, a response accepted with a claim token is one the
server signed, for this inbox and timestamp, exactly when the server signed its bytes for an inbox
id of the same length. -/
theorem accepted_signed_iff (E : Ed25519) (signer : ServerSigner) (server : Server)
    {response : SignedInboxResponse} {inboxId token : Bytes}
    (hunforged : Unforged E signer server response inboxId)
    (htoken : response.claimToken = some token)
    (hverify : response.verify E (E.verifyingKey signer.signingSeed) inboxId = .ok ()) :
    ∃ inbox timestamp, dispatchInbox response.protoPayload = some inbox ∧
      claimTokenTimestamp token = .ok timestamp ∧
      (∃ r ∈ server.responses,
        (signedFetch r).data = signedData inbox.messages inbox.count inboxId timestamp) ∧
      ((∃ r ∈ server.responses,
          signedFetch r = ⟨inbox.messages, inbox.count, inboxId, timestamp⟩) ↔
        ∃ r ∈ server.responses,
          (signedFetch r).data = signedData inbox.messages inbox.count inboxId timestamp ∧
          r.inboxId.length = inboxId.length) := by
  obtain ⟨sig, inbox, timestamp, hsig, htime, hinbox, hvalid⟩ := verify_signed htoken hverify
  have hsigned := hunforged token sig timestamp inbox htoken hsig htime hinbox hvalid
  refine ⟨inbox, timestamp, hinbox, htime, hsigned, ?_, ?_⟩
  · rintro ⟨r, hr, hsigned⟩
    refine ⟨r, hr, by rw [hsigned]; rfl, ?_⟩
    exact congrArg (fun f : SignedFetch => f.inboxId.length) hsigned
  · rintro ⟨r, hr, hdata, hlength⟩
    exact ⟨r, hr, SignedFetch.data_inj hlength hdata⟩

/-! ## One reply, and another one with its signature -/

def onlySigner : ServerSigner :=
  ⟨.ofNat 1, .ofNat 2⟩

def storedAndFetched (inboxId : Bytes) : List InboxAction :=
  [.store inboxId (ascii "x"), .fetch inboxId 1000]

def victimInbox : Bytes :=
  (Array32.ofNat 7).val

/-- The message `y`, the count 2 and the client's inbox id, as an inbox id. -/
def attackerInbox : Bytes :=
  ascii "y" ++ Lib.leBytes 4 2 ++ victimInbox

def splicedMessages : InboxMessages :=
  ⟨Lib.leBytes 4 1 ++ ascii "x" ++ Lib.leBytes 4 1 ++ ascii "y", 2⟩

/-- The reply to `storedAndFetched`, as the server signs it. -/
def fetchedReply : SignedInboxResponse :=
  ⟨InboxMessages.serialize ⟨Lib.leBytes 4 1 ++ ascii "x", 1⟩,
    some (onlySigner.generateClaimToken .digest victimInbox 1000),
    some (onlySigner.signInboxResponse .digest (Lib.leBytes 4 1 ++ ascii "x") 1 victimInbox 1000)⟩

theorem accepted_signed_iff_stored :
    ∃ server, Lib.exec (Server.step .digest .digest onlySigner) (fun _ _ => True) Server.start
        (storedAndFetched victimInbox) = some server ∧
      ∃ r ∈ server.responses,
        signedFetch r = ⟨Lib.leBytes 4 1 ++ ascii "x", 1, victimInbox, 1000⟩ := by
  have hrun : (Lib.exec (Server.step .digest .digest onlySigner) (fun _ _ => True) Server.start
      (storedAndFetched victimInbox)).map (fun server => server.responses.map signedFetch) =
      some [⟨Lib.leBytes 4 1 ++ ascii "x", 1, victimInbox, 1000⟩] := by decide +kernel
  obtain ⟨server, hexec, hlog⟩ := Option.map_eq_some_iff.mp hrun
  obtain ⟨r, hr, hsigned⟩ : ∃ r ∈ server.responses,
      signedFetch r = ⟨Lib.leBytes 4 1 ++ ascii "x", 1, victimInbox, 1000⟩ :=
    List.mem_map.mp (hlog ▸ List.mem_cons_self)
  have hread : dispatchInbox fetchedReply.protoPayload =
      some ⟨Lib.leBytes 4 1 ++ ascii "x", 1⟩ := by decide +kernel
  have hunforged : Unforged .digest onlySigner server fetchedReply victimInbox := by
    intro token sig timestamp inbox htoken _ htime hinbox _
    rw [← Option.some.inj htoken, claimTokenTimestamp_generateClaimToken, Except.ok.injEq] at htime
    rw [hread, Option.some.injEq] at hinbox
    subst hinbox
    subst htime
    exact ⟨r, hr, by rw [hsigned]; rfl⟩
  have hverify : SignedInboxResponse.verify .digest fetchedReply (.ofNat 1) victimInbox =
      .ok () := by decide +kernel
  obtain ⟨inbox, timestamp, hinbox, htime, -, hiff⟩ :=
    accepted_signed_iff .digest onlySigner server hunforged rfl hverify
  rw [hread, Option.some.injEq] at hinbox
  rw [claimTokenTimestamp_generateClaimToken, Except.ok.injEq] at htime
  subst hinbox
  subst htime
  refine ⟨server, hexec, hiff.mpr ⟨r, hr, ?_, ?_⟩⟩
  · rw [hsigned]
    rfl
  · exact congrArg (fun f : SignedFetch => f.inboxId.length) hsigned

/-- The signature the server made for the attacker's inbox makes the client accept two messages for
its own inbox, which the server never signed. -/
theorem spliced_accepted :
    ∃ server, Lib.exec (Server.step .digest .digest onlySigner) (fun _ _ => True) Server.start
        (storedAndFetched attackerInbox) = some server ∧
      (∃ r ∈ server.responses, SignedInboxResponse.verify .digest
        ⟨splicedMessages.serialize, some r.token,
          some (onlySigner.signInboxResponse .digest (responseBlob r.messages)
            (responseCount r.messages) r.inboxId r.timestamp)⟩ (.ofNat 1) victimInbox = .ok ()) ∧
      ∀ r ∈ server.responses,
        signedFetch r ≠ ⟨splicedMessages.messages, splicedMessages.count, victimInbox, 1000⟩ := by
  have hrun : (Lib.exec (Server.step .digest .digest onlySigner) (fun _ _ => True) Server.start
      (storedAndFetched attackerInbox)).map (fun server => server.responses) =
      some [⟨attackerInbox, 1000, onlySigner.generateClaimToken .digest attackerInbox 1000,
        [⟨0, hexEncode (ascii "x")⟩], false⟩] := by decide +kernel
  obtain ⟨server, hexec, hresponses⟩ := Option.map_eq_some_iff.mp hrun
  refine ⟨server, hexec, ?_, ?_⟩
  · rw [hresponses]
    exact ⟨_, List.mem_cons_self, by decide +kernel⟩
  · rw [hresponses]
    decide +kernel

end Cypher.Onion.Verify
