import Cypher.Onion.Fetcher
import Cypher.Signaling.Inbox

/-!
# Acknowledged responses and returned responses

A response that does not parse or verify ends the loop of its chunk with an error, and the results
collected before it are dropped although their claims were acknowledged. That is the only way in
which an acknowledged response is not returned.
-/

namespace Cypher.Onion.Verify

open Signaling

section Chunk

variable (E : Ed25519) (key : Array32) (net : Network)

/-- The job's response is malformed or its signature is bad. -/
def rejected (slot : Slot) : Bool :=
  match net.fetchOne slot.index with
  | .error _ => false
  | .ok response =>
    match checkResponse E key response slot.job.inboxId with
    | .error _ => true
    | .ok _ => false

/-- The job's response, if one arrives and is good. -/
def accepted? (slot : Slot) : Option SignedInboxResponse :=
  match net.fetchOne slot.index with
  | .error _ => none
  | .ok response => (checkResponse E key response slot.job.inboxId).toOption

/-- The job is real and has a good response with a claim token. -/
def Claims (slot : Slot) : Prop :=
  slot.job.isDummy = false ∧
    ∃ signed, accepted? E key net slot = some signed ∧ signed.claimToken.isSome = true

/-- A real job with a good signed response stands before the first rejected one. -/
def Spoiled (slots : List Slot) : Prop :=
  ∃ before slot after, slots = before ++ slot :: after ∧ rejected E key net slot = true ∧
    (∀ s ∈ before, rejected E key net s = false) ∧ ∃ s ∈ before, Claims E key net s

def ackOf (slot : Slot) : Option Delivery :=
  (accepted? E key net slot).bind fun signed =>
    if signed.claimToken.isSome then some ⟨slot, signed.protoPayload⟩ else none

def resultOf (slot : Slot) : Option Delivery :=
  (accepted? E key net slot).bind fun signed =>
    if slot.job.isDummy then none else some ⟨slot, signed.protoPayload⟩

variable {E key net}

theorem pipelineLoop_append {before : List Slot}
    (hbefore : ∀ s ∈ before, rejected E key net s = false) (rest : List Slot)
    (acked results : List Delivery) :
    pipelineLoop E key net (before ++ rest) acked results =
      pipelineLoop E key net rest (acked ++ before.filterMap (ackOf E key net))
        (results ++ before.filterMap (resultOf E key net)) := by
  induction before generalizing acked results with
  | nil => simp
  | cons slot before ih =>
    have hslot := hbefore slot List.mem_cons_self
    have hrest := fun s hs => hbefore s (List.mem_cons_of_mem _ hs)
    rw [List.cons_append, pipelineLoop]
    cases hfetch : net.fetchOne slot.index with
    | error err =>
      have hnone : accepted? E key net slot = none := by rw [accepted?, hfetch]
      dsimp only
      rw [ih hrest, List.filterMap_cons_none (by rw [ackOf, hnone]; rfl),
        List.filterMap_cons_none (by rw [resultOf, hnone]; rfl)]
    | ok response =>
      cases hcheck : checkResponse E key response slot.job.inboxId with
      | error err => simp [rejected, hfetch, hcheck] at hslot
      | ok signed =>
        have hsome : accepted? E key net slot = some signed := by
          rw [accepted?, hfetch]
          dsimp only
          rw [hcheck]
          rfl
        simp only [hcheck]
        rw [ih hrest]
        simp only [List.filterMap_cons, ackOf, resultOf, hsome, Option.bind_some]
        congr 1
        · split <;> simp
        · split <;> simp

theorem pipelineLoop_rejected {slot : Slot} (hslot : rejected E key net slot = true)
    (rest : List Slot) (acked results : List Delivery) :
    ∃ err, pipelineLoop E key net (slot :: rest) acked results = (acked, .error err) := by
  cases hfetch : net.fetchOne slot.index with
  | error err => simp [rejected, hfetch] at hslot
  | ok response =>
    cases hcheck : checkResponse E key response slot.job.inboxId with
    | error err => exact ⟨err, by simp only [pipelineLoop, hfetch, hcheck]⟩
    | ok signed => simp [rejected, hfetch, hcheck] at hslot

theorem pipelineLoop_first_rejected {before : List Slot} {slot : Slot} (after : List Slot)
    (hbefore : ∀ s ∈ before, rejected E key net s = false)
    (hslot : rejected E key net slot = true) :
    ∃ err, pipelineLoop E key net (before ++ slot :: after) [] [] =
      (before.filterMap (ackOf E key net), .error err) := by
  rw [pipelineLoop_append hbefore]
  exact pipelineLoop_rejected hslot after _ _

/-- A chunk without a rejected response returns all its results; otherwise it fails, with what was
acknowledged before the first one. -/
theorem pipelineLoop_cases (E : Ed25519) (key : Array32) (net : Network) (slots : List Slot) :
    (pipelineLoop E key net slots [] [] =
      (slots.filterMap (ackOf E key net), .ok (slots.filterMap (resultOf E key net)))) ∨
    ∃ before slot after err, slots = before ++ slot :: after ∧ rejected E key net slot = true ∧
      (∀ s ∈ before, rejected E key net s = false) ∧
      pipelineLoop E key net slots [] [] = (before.filterMap (ackOf E key net), .error err) := by
  cases hfind : slots.find? (rejected E key net) with
  | none =>
    left
    have hnone : ∀ s ∈ slots, rejected E key net s = false := by
      simpa using List.find?_eq_none.mp hfind
    simpa [pipelineLoop] using pipelineLoop_append hnone [] [] []
  | some slot =>
    right
    obtain ⟨hslot, before, after, hsplit, hbefore⟩ := List.find?_eq_some_iff_append.mp hfind
    have hbefore : ∀ s ∈ before, rejected E key net s = false := by simpa using hbefore
    obtain ⟨err, herr⟩ := pipelineLoop_first_rejected after hbefore hslot
    exact ⟨before, slot, after, err, hsplit, hslot, hbefore, hsplit ▸ herr⟩

theorem ackOf_eq_some {slot : Slot} {d : Delivery} (h : ackOf E key net slot = some d) :
    d.slot = slot ∧ ∃ signed, accepted? E key net slot = some signed ∧
      signed.claimToken.isSome = true ∧ d.protoPayload = signed.protoPayload := by
  obtain ⟨signed, haccepted, h⟩ := Option.bind_eq_some_iff.mp h
  split at h
  · next htoken =>
    cases h
    exact ⟨rfl, signed, haccepted, htoken, rfl⟩
  · cases h

theorem slot_of_resultOf {slot : Slot} {d : Delivery} (h : resultOf E key net slot = some d) :
    d.slot = slot := by
  obtain ⟨signed, -, h⟩ := Option.bind_eq_some_iff.mp h
  split at h
  · cases h
  · cases h
    rfl

theorem resultOf_of_ackOf {slot : Slot} {d : Delivery} (h : ackOf E key net slot = some d)
    (hreal : slot.job.isDummy = false) : resultOf E key net slot = some d := by
  obtain ⟨hslot, signed, haccepted, -, hpayload⟩ := ackOf_eq_some h
  rw [resultOf, haccepted, Option.bind_some, if_neg (by simp [hreal]), ← hslot, ← hpayload]

end Chunk

/-! ## Distribution -/

theorem mem_modify {l : List (List Slot)} {i k : Nat} {new : Slot} {chunk : List Slot}
    (h : (l.modify i (· ++ [new]))[k]? = some chunk) {s : Slot} (hs : s ∈ chunk) :
    (∃ old, l[k]? = some old ∧ s ∈ old) ∨ (s = new ∧ k = i) := by
  rw [List.getElem?_modify] at h
  obtain ⟨old, hold, hchunk⟩ := Option.map_eq_some_iff.mp h
  split at hchunk
  · next heq =>
    subst hchunk
    rcases List.mem_append.mp hs with hs | hs
    · exact Or.inl ⟨old, hold, hs⟩
    · exact Or.inr ⟨List.mem_singleton.mp hs, heq.symm⟩
  · subst hchunk
    exact Or.inl ⟨old, hold, hs⟩

theorem distributeJobs_index {jobs : List FetchJob} {n k : Nat} {chunk : List Slot}
    (hchunk : (distributeJobs jobs n)[k]? = some chunk) {s : Slot} (hs : s ∈ chunk) :
    s.index % n = k := by
  have hfold : ∀ (jis : List (FetchJob × Nat)) (chunks : List (List Slot)),
      (∀ k chunk, chunks[k]? = some chunk → ∀ s ∈ chunk, s.index % n = k) →
      ∀ k chunk, (jis.foldl (fun chunks ji => chunks.modify (ji.2 % n) (· ++ [⟨ji.2, ji.1⟩]))
        chunks)[k]? = some chunk → ∀ s ∈ chunk, s.index % n = k := by
    intro jis
    induction jis with
    | nil => exact fun chunks h => h
    | cons ji jis ih =>
      intro chunks h
      refine ih _ fun k chunk hchunk s hs => ?_
      rcases mem_modify hchunk hs with ⟨old, hold, hs⟩ | ⟨rfl, rfl⟩
      · exact h k old hold s hs
      · rfl
  refine hfold jobs.zipIdx (List.replicate n []) (fun k chunk hchunk s hs => ?_) k chunk hchunk s hs
  rw [List.getElem?_replicate] at hchunk
  split at hchunk
  · cases hchunk
    cases hs
  · cases hchunk

/-! ## The whole fetch -/

section Fetch

variable {E : Ed25519} {key : Array32} {net : Network} {inboxIds : List Bytes} {d : Delivery}

theorem mem_acked (hids : inboxIds ≠ []) :
    d ∈ (fetchAll E key net inboxIds).acked ↔
      ∃ k chunk, (fetchChunks net inboxIds)[k]? = some chunk ∧
        d ∈ (pipelineChunk E key net k chunk).1 := by
  rw [fetchAll, if_neg (by simpa using hids)]
  simp only [List.mem_flatMap, List.mem_map, Prod.exists, List.mem_zipIdx_iff_getElem?]
  constructor
  · rintro ⟨acked, result, ⟨chunk, k, hchunk, heq⟩, hd⟩
    exact ⟨k, chunk, hchunk, by rw [heq]; exact hd⟩
  · rintro ⟨k, chunk, hchunk, hd⟩
    exact ⟨_, _, ⟨chunk, k, hchunk, rfl⟩, hd⟩

theorem mem_results (hids : inboxIds ≠ []) :
    d ∈ (fetchAll E key net inboxIds).results ↔
      ∃ k chunk results, (fetchChunks net inboxIds)[k]? = some chunk ∧
        (pipelineChunk E key net k chunk).2 = .ok results ∧ d ∈ results := by
  rw [fetchAll, if_neg (by simpa using hids)]
  simp only [List.mem_flatMap, List.mem_map, Prod.exists, List.mem_zipIdx_iff_getElem?]
  constructor
  · rintro ⟨acked, result, ⟨chunk, k, hchunk, heq⟩, hd⟩
    cases result with
    | error err => cases hd
    | ok results => exact ⟨k, chunk, results, hchunk, by rw [heq], hd⟩
  · rintro ⟨k, chunk, results, hchunk, hresult, hd⟩
    exact ⟨_, .ok results, ⟨chunk, k, hchunk, Prod.ext rfl hresult⟩, hd⟩

theorem slot_mem_of_result {k : Nat} {chunk : List Slot} {results : List Delivery}
    (hresult : (pipelineChunk E key net k chunk).2 = .ok results) (hd : d ∈ results) :
    d.slot ∈ chunk := by
  rw [pipelineChunk] at hresult
  split at hresult
  · cases hresult
  · rcases pipelineLoop_cases E key net chunk with hloop | ⟨_, _, _, _, _, _, _, hloop⟩
    · rw [hloop] at hresult
      cases hresult
      obtain ⟨slot, hslot, hd⟩ := List.mem_filterMap.mp hd
      rw [slot_of_resultOf hd]
      exact hslot
    · rw [hloop] at hresult
      cases hresult

theorem fetchChunks_nil {k : Nat} {chunk : List Slot}
    (hchunk : (fetchChunks net [])[k]? = some chunk) : chunk = [] := by
  have hjobs : net.shuffle (fetchJobs net []) = [] := (net.shuffle_perm _).eq_nil
  rw [fetchChunks, hjobs, distributeJobs, List.zipIdx_nil, List.foldl_nil,
    List.getElem?_replicate] at hchunk
  split at hchunk
  · cases hchunk
    rfl
  · cases hchunk

end Fetch

/-- **Acknowledged and returned.** Every acknowledged response of a real job is returned exactly
when no chunk that got a transport has a real job with a good signed response before its first
rejected response. -/
theorem acked_returned_iff (E : Ed25519) (key : Array32) (net : Network) (inboxIds : List Bytes) :
    (∀ d ∈ (fetchAll E key net inboxIds).acked, d.slot.job.isDummy = false →
      d ∈ (fetchAll E key net inboxIds).results) ↔
    ∀ k chunk, (fetchChunks net inboxIds)[k]? = some chunk → net.acquire k = .ok () →
      ¬ Spoiled E key net chunk := by
  by_cases hids : inboxIds = []
  · subst hids
    refine ⟨fun _ k chunk hchunk _ => ?_, fun _ d hd => by cases hd⟩
    rw [fetchChunks_nil hchunk]
    rintro ⟨before, slot, after, hsplit, -⟩
    cases before <;> cases hsplit
  constructor
  · rintro h k chunk hchunk hacquire ⟨before, slot, after, hsplit, hslot, hbefore, s, hs, hreal,
      signed, haccepted, htoken⟩
    obtain ⟨err, herr⟩ := pipelineLoop_first_rejected after hbefore hslot
    have hloop : pipelineChunk E key net k chunk =
        (before.filterMap (ackOf E key net), .error err) := by
      rw [pipelineChunk, hacquire, hsplit]
      exact herr
    have hack : ackOf E key net s = some ⟨s, signed.protoPayload⟩ := by
      rw [ackOf, haccepted, Option.bind_some, if_pos htoken]
    have hacked : (⟨s, signed.protoPayload⟩ : Delivery) ∈ (fetchAll E key net inboxIds).acked :=
      (mem_acked hids).mpr ⟨k, chunk, hchunk, by
        rw [hloop]
        exact List.mem_filterMap.mpr ⟨s, hs, hack⟩⟩
    obtain ⟨k', chunk', results, hchunk', hresult, hd⟩ := (mem_results hids).mp (h _ hacked hreal)
    -- the same job cannot be in another chunk, and its own chunk failed
    have hk : k = k' := by
      rw [← distributeJobs_index hchunk (s := s) (by rw [hsplit]; exact List.mem_append_left _ hs)]
      exact distributeJobs_index hchunk' (slot_mem_of_result hresult hd)
    subst hk
    rw [hchunk, Option.some.injEq] at hchunk'
    subst hchunk'
    rw [hloop] at hresult
    cases hresult
  · intro h d hd hreal
    obtain ⟨k, chunk, hchunk, hd⟩ := (mem_acked hids).mp hd
    cases hacquire : net.acquire k with
    | error err =>
      rw [pipelineChunk, hacquire] at hd
      cases hd
    | ok _ =>
      have hloop : pipelineChunk E key net k chunk = pipelineLoop E key net chunk [] [] := by
        rw [pipelineChunk, hacquire]
      rw [hloop] at hd
      rcases pipelineLoop_cases E key net chunk with
        hall | ⟨before, slot, after, err, hsplit, hslot, hbefore, hfailed⟩
      · rw [hall] at hd
        obtain ⟨s, hs, hack⟩ := List.mem_filterMap.mp hd
        have hreal : s.job.isDummy = false := (ackOf_eq_some hack).1 ▸ hreal
        refine (mem_results hids).mpr ⟨k, chunk, _, hchunk, by rw [hloop, hall], ?_⟩
        exact List.mem_filterMap.mpr ⟨s, hs, resultOf_of_ackOf hack hreal⟩
      · rw [hfailed] at hd
        obtain ⟨s, hs, hack⟩ := List.mem_filterMap.mp hd
        obtain ⟨rfl, signed, haccepted, htoken, -⟩ := ackOf_eq_some hack
        exact absurd ⟨before, slot, after, hsplit, hslot, hbefore, d.slot, hs, hreal, signed,
          haccepted, htoken⟩ (h k chunk hchunk hacquire)

/-- One inbox with one message, and a dummy whose response is empty. -/
def dummyFails : Network where
  shuffle := id
  shuffle_perm := fun _ => .refl _
  dummyId := .ofNat
  relayReadyCount := 1
  acquire := fun _ => .ok ()
  fetchOne := fun
    | 0 => .ok (inboxReply .digest .digest ⟨.ofNat 1, .ofNat 2⟩ (Lib.leBytes 4 1 ++ ascii "x") 1
        (ascii "inbox") 1000)
    | _ => .ok []

/-- The message is acknowledged, and `fetch_all` returns nothing. -/
theorem acked_not_returned :
    (fetchAll .digest (.ofNat 1) dummyFails [ascii "inbox"]).acked =
        [⟨⟨0, ⟨ascii "inbox", false⟩⟩,
          Proto.InboxMessages.serialize ⟨Lib.leBytes 4 1 ++ ascii "x", 1⟩⟩] ∧
      (fetchAll .digest (.ofNat 1) dummyFails [ascii "inbox"]).returned = [] := by
  decide +kernel

end Cypher.Onion.Verify
