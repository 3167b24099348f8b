import Cypher.Onion.Bootstrap

/-!
# The pipelined fetcher (`onion/fetcher.rs`)

`Network` is what one call of `fetch_all` meets: the shuffle, the dummy ids, the number of ready
relays, and what each transport and each request return. A `Slot` is a job with its position in the
shuffled list, by which the jobs are distributed. `send_ack` is called for every verified response
with a claim token, and its outcome is only logged. Jitter is left out.
-/

namespace Cypher.Onion

open Signaling

structure FetchJob where
  inboxId : Bytes
  isDummy : Bool
  deriving DecidableEq

structure Slot where
  index : Nat
  job : FetchJob
  deriving DecidableEq

structure Delivery where
  slot : Slot
  protoPayload : Bytes
  deriving DecidableEq

structure Network where
  shuffle : List FetchJob → List FetchJob
  shuffle_perm : ∀ jobs, (shuffle jobs).Perm jobs
  dummyId : Nat → Array32
  relayReadyCount : Nat
  /-- `pool.acquire()` for a chunk. -/
  acquire : Nat → Result Unit
  /-- `fetch_one` for the job at a position. -/
  fetchOne : Nat → Result Bytes

def distributeJobs (jobs : List FetchJob) (n : Nat) : List (List Slot) :=
  jobs.zipIdx.foldl (fun chunks ji => chunks.modify (ji.2 % n) (· ++ [⟨ji.2, ji.1⟩]))
    (List.replicate n [])

/-- `SignedInboxResponse::parse(&response)?` and `signed.verify(..)?`. -/
def checkResponse (E : Ed25519) (verifyingKey : Array32) (response inboxId : Bytes) :
    Result SignedInboxResponse :=
  match SignedInboxResponse.parse response with
  | .error err => .error err
  | .ok signed =>
    match signed.verify E verifyingKey inboxId with
    | .error err => .error err
    | .ok () => .ok signed

/-- The loop of `pipeline_chunk`, with the responses acknowledged so far. -/
def pipelineLoop (E : Ed25519) (verifyingKey : Array32) (net : Network) :
    List Slot → List Delivery → List Delivery → List Delivery × Result (List Delivery)
  | [], acked, results => (acked, .ok results)
  | slot :: rest, acked, results =>
    match net.fetchOne slot.index with
    | .error _ => pipelineLoop E verifyingKey net rest acked results
    | .ok response =>
      match checkResponse E verifyingKey response slot.job.inboxId with
      | .error err => (acked, .error err)
      | .ok signed =>
        let delivery : Delivery := ⟨slot, signed.protoPayload⟩
        pipelineLoop E verifyingKey net rest
          (if signed.claimToken.isSome then acked ++ [delivery] else acked)
          (if slot.job.isDummy then results else results ++ [delivery])

def pipelineChunk (E : Ed25519) (verifyingKey : Array32) (net : Network) (chunk : Nat)
    (slots : List Slot) : List Delivery × Result (List Delivery) :=
  match net.acquire chunk with
  | .error err => ([], .error err)
  | .ok () => pipelineLoop E verifyingKey net slots [] []

/-- The real jobs, then the dummies. -/
def fetchJobs (net : Network) (inboxIds : List Bytes) : List FetchJob :=
  inboxIds.map (⟨·, false⟩) ++
    (List.range (min 2 inboxIds.length)).map fun i => ⟨(net.dummyId i).val, true⟩

def fetchChunks (net : Network) (inboxIds : List Bytes) : List (List Slot) :=
  distributeJobs (net.shuffle (fetchJobs net inboxIds)) (max 1 (min net.relayReadyCount 3))

/-- What `fetch_all` acknowledged and what it collected. -/
structure Fetched where
  acked : List Delivery
  results : List Delivery

/-- A failed chunk is logged, and its results are dropped. -/
def fetchAll (E : Ed25519) (verifyingKey : Array32) (net : Network) (inboxIds : List Bytes) :
    Fetched :=
  if inboxIds.isEmpty then ⟨[], []⟩
  else
    let outcomes := (fetchChunks net inboxIds).zipIdx.map fun ck =>
      pipelineChunk E verifyingKey net ck.2 ck.1
    { acked := outcomes.flatMap Prod.fst
      results := outcomes.flatMap fun outcome =>
        match outcome.2 with
        | .ok results => results
        | .error _ => [] }

def Fetched.returned (fetched : Fetched) : List (Bytes × Bytes) :=
  fetched.results.map fun d => (d.slot.job.inboxId, d.protoPayload)

end Cypher.Onion
