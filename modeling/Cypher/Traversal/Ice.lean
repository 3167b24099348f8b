import Mathlib.Data.List.Sort
import Cypher.Common
import Cypher.Lib.Run

/-!
# Connectivity checks (`candidate.rs`, `ice.rs`, `hole_punch.rs`, `api/network.rs`)

`gather_candidates` of a client makes an `IceAgent` with a socket of its own and stores it when its
candidates are sent; `handle_ice_candidate` adds what the other side sends to the agent that is stored
then. `check_connectivity` tries the remote candidates one after the other with `punch`, and
`try_p2p_connect` holds the lock of the agent meanwhile, so that gathering and incoming candidates wait.

Time is in milliseconds. The interval of `punch` is tokio's with `MissedTickBehavior::Skip`. The system
runs any number of clients; which datagrams arrive, and under which source address, is decided by the
action. How a text is read as a socket address is a parameter.
-/

namespace Cypher.Traversal

/-! ## Candidates -/

inductive CandidateType where
  | host
  | serverReflexive
  | relay
  deriving DecidableEq

structure Candidate (Addr : Type) where
  candidateType : CandidateType
  addr : Addr
  priority : Nat
  deriving DecidableEq

variable {Addr Socket Peer : Type}

namespace Candidate

def host (addr : Addr) : Candidate Addr := ⟨.host, addr, 300⟩

def serverReflexive (addr : Addr) : Candidate Addr := ⟨.serverReflexive, addr, 200⟩

def relay (addr : Addr) : Candidate Addr := ⟨.relay, addr, 100⟩

end Candidate

/-- `sort_by_key(Reverse(priority))`, which is stable. -/
def sortCandidates (candidates : List (Candidate Addr)) : List (Candidate Addr) :=
  candidates.insertionSort fun a b => b.priority ≤ a.priority

structure IceAgent (Addr Socket : Type) where
  socket : Socket
  localAddr : Addr
  localCandidates : List (Candidate Addr)
  remoteCandidates : List (Candidate Addr)

namespace IceAgent

def new (socket : Socket) (localAddr : Addr) : IceAgent Addr Socket :=
  ⟨socket, localAddr, [], []⟩

/-- `srflx` is the answer to the STUN request. -/
def gatherCandidates (agent : IceAgent Addr Socket) (srflx : Result Addr) :
    IceAgent Addr Socket :=
  let host := Candidate.host agent.localAddr
  let gathered :=
    match srflx with
    | .ok addr => [host, Candidate.serverReflexive addr]
    | .error _ => [host]
  { agent with localCandidates := sortCandidates gathered }

def addRemoteCandidate (agent : IceAgent Addr Socket) (candidate : Candidate Addr) :
    IceAgent Addr Socket :=
  { agent with remoteCandidates := agent.remoteCandidates ++ [candidate] }

end IceAgent

/-! ## One punch -/

def punchMagic : Bytes := ascii "PUNCH"
def punchAckMagic : Bytes := ascii "PUNCH_ACK"
def punchInterval : Nat := 200
def punchTimeout : Nat := 5 * 1000
def bufLen : Nat := 64

/-- A call of `punch` that has not returned. -/
structure Punch (Addr : Type) where
  remoteAddr : Addr
  deadline : Nat
  nextTick : Nat

/-- The first tick of an interval is at once. -/
def Punch.start (remoteAddr : Addr) (now : Nat) : Punch Addr :=
  ⟨remoteAddr, now + punchTimeout, now⟩

/-- The next tick is at the first multiple of the interval that is not missed. -/
def Punch.ticked (punch : Punch Addr) (now : Nat) : Punch Addr :=
  { punch with nextTick := now + punchInterval - (now - punch.nextTick) % punchInterval }

/-! ## One check -/

/-- A call of `check_connectivity` that has not returned, with the addresses that failed. -/
structure Check (Addr : Type) where
  startedAt : Nat
  failed : List (Addr × Error)
  punch : Punch Addr
  rest : List (Candidate Addr)

/-- A call of `check_connectivity` that has returned, with the remote candidates of its agent. -/
structure Outcome (Addr Socket : Type) where
  socket : Socket
  candidates : List (Candidate Addr)
  startedAt : Nat
  endedAt : Nat
  failed : List (Addr × Error)
  result : Result (Addr × Addr)

structure Client (Addr Socket : Type) where
  agent : Option (IceAgent Addr Socket)
  check : Option (Check Addr)
  outcomes : List (Outcome Addr Socket)

def Client.empty : Client Addr Socket := ⟨none, none, []⟩

namespace Client

def allFailed : Error := .nat "all connectivity checks failed"

def finish (client : Client Addr Socket) (agent : IceAgent Addr Socket) (startedAt endedAt : Nat)
    (failed : List (Addr × Error)) (result : Result (Addr × Addr)) : Client Addr Socket :=
  { client with
    check := none
    outcomes := client.outcomes ++
      [⟨agent.socket, agent.remoteCandidates, startedAt, endedAt, failed, result⟩] }

/-- The loop of `check_connectivity` goes on with `rest`. -/
def proceed (client : Client Addr Socket) (agent : IceAgent Addr Socket) (startedAt now : Nat)
    (failed : List (Addr × Error)) : List (Candidate Addr) → Client Addr Socket
  | [] => client.finish agent startedAt now failed (.error allFailed)
  | candidate :: rest =>
    { client with check := some ⟨startedAt, failed, Punch.start candidate.addr now, rest⟩ }

/-- `punch` returns an error. -/
def punchFailed (client : Client Addr Socket) (agent : IceAgent Addr Socket) (check : Check Addr)
    (now : Nat) (err : Error) : Client Addr Socket :=
  client.proceed agent check.startedAt now (check.failed ++ [(check.punch.remoteAddr, err)])
    check.rest

end Client

/-! ## Clients at work -/

structure Peers (Addr Socket Peer : Type) where
  clients : Peer → Client Addr Socket
  now : Nat
  /-- Every socket is bound once. -/
  bound : List Socket
  /-- Every datagram that was sent: by which socket, to which address. -/
  sent : List (Socket × Addr × Bytes)

inductive IceAction (Addr Socket Peer : Type) where
  /-- `gather_candidates` stores its agent. -/
  | gather (p : Peer) (socket : Socket) (localAddr : Addr) (srflx : Result Addr)
  /-- `ClientApi::add_remote_candidate`. -/
  | addRemote (p : Peer) (candidate : Candidate Addr)
  /-- `handle_ice_candidate`. -/
  | signal (p : Peer) (text : Bytes)
  | tryP2pConnect (p : Peer)
  /-- The three branches of the `select!` in `punch`; `sent` and `answered` say whether `send_to`
  succeeds. -/
  | tick (p : Peer) (sent : Bool)
  | receive (p : Peer) (source : Addr) (data : Bytes) (answered : Bool)
  | receiveFailed (p : Peer) (msg : String)
  | deadline (p : Peer)
  /-- The timeout of `connect_p2p_or_relay` drops the call. -/
  | cancel (p : Peer)
  | elapse (ms : Nat)

namespace Peers

def start : Peers Addr Socket Peer := ⟨fun _ => Client.empty, 0, [], []⟩

variable [DecidableEq Addr] [DecidableEq Socket] [DecidableEq Peer]

def set (s : Peers Addr Socket Peer) (p : Peer) (client : Client Addr Socket) :
    Peers Addr Socket Peer :=
  { s with clients := Function.update s.clients p client }

def addRemoteCandidate (s : Peers Addr Socket Peer) (p : Peer) (candidate : Candidate Addr) :
    Option (Peers Addr Socket Peer) :=
  let client := s.clients p
  match client.check with
  | some _ => none
  | none =>
    some (s.set p { client with agent := client.agent.map (·.addRemoteCandidate candidate) })

/-- What a received datagram does to a punch. -/
def receive (s : Peers Addr Socket Peer) (p : Peer) (agent : IceAgent Addr Socket)
    (check : Check Addr) (source : Addr) (data : Bytes) (answered : Bool) :
    Peers Addr Socket Peer :=
  let remoteAddr := check.punch.remoteAddr
  let data := data.take bufLen
  if source ≠ remoteAddr then s
  else if data = punchAckMagic then
    s.set p ((s.clients p).finish agent check.startedAt s.now check.failed
      (.ok (agent.localAddr, remoteAddr)))
  else if data = punchMagic then
    if answered then { s with sent := s.sent ++ [(agent.socket, remoteAddr, punchAckMagic)] } else s
  else s

/-- A tick of the interval before the deadline. -/
def probe (s : Peers Addr Socket Peer) (p : Peer) (agent : IceAgent Addr Socket)
    (check : Check Addr) (sent : Bool) : Peers Addr Socket Peer :=
  let s := s.set p { s.clients p with
    check := some { check with punch := check.punch.ticked s.now } }
  if sent then
    { s with sent := s.sent ++ [(agent.socket, check.punch.remoteAddr, punchMagic)] }
  else s

/-- The agent and the check of a client that is in `check_connectivity`. -/
def running (s : Peers Addr Socket Peer) (p : Peer) :
    Option (IceAgent Addr Socket × Check Addr) :=
  match (s.clients p).agent, (s.clients p).check with
  | some agent, some check => some (agent, check)
  | _, _ => none

variable (parse : Bytes → Option Addr)

def step (s : Peers Addr Socket Peer) : IceAction Addr Socket Peer → Option (Peers Addr Socket Peer)
  | .gather p socket localAddr srflx =>
    match (s.clients p).check with
    | some _ => none
    | none =>
      if socket ∈ s.bound then none
      else
        let agent := (IceAgent.new socket localAddr).gatherCandidates srflx
        some { s.set p { s.clients p with agent := some agent } with bound := s.bound ++ [socket] }
  | .addRemote p candidate => s.addRemoteCandidate p candidate
  | .signal p text =>
    match parse text with
    | some addr => s.addRemoteCandidate p (Candidate.serverReflexive addr)
    | none => some s
  | .tryP2pConnect p =>
    match (s.clients p).check, (s.clients p).agent with
    | some _, _ => none
    -- "no ICE agent; call gather_candidates first"
    | none, none => some s
    | none, some agent =>
      some (s.set p ((s.clients p).proceed agent s.now s.now []
        (sortCandidates agent.remoteCandidates)))
  | .tick p sent => do
    let (agent, check) ← s.running p
    if s.now < check.punch.nextTick then none
    else if check.punch.deadline ≤ s.now then
      some (s.set p ((s.clients p).punchFailed agent check s.now .timeout))
    else some (s.probe p agent check sent)
  | .receive p source data answered => do
    let (agent, check) ← s.running p
    some (s.receive p agent check source data answered)
  | .receiveFailed p msg => do
    let (agent, check) ← s.running p
    some (s.set p ((s.clients p).punchFailed agent check s.now (.io msg)))
  | .deadline p => do
    let (agent, check) ← s.running p
    if check.punch.deadline ≤ s.now then
      some (s.set p ((s.clients p).punchFailed agent check s.now .timeout))
    else none
  | .cancel p => do
    let _ ← s.running p
    some (s.set p { s.clients p with check := none })
  | .elapse ms => some { s with now := s.now + ms }

end Peers

end Cypher.Traversal
