import Cypher.Lib.Run
import Cypher.Relay.Forward

/-!
# Relay sessions (`RelayService` of `services/relay/src/main.rs`)

A connection is paired with the one that waits under its key. A session lives in three places: the
entry of `sessions`, and two tasks, each of which removes what is under the session's key when its
loop ends. The cleanup removes entries by key as well, after it has gone through the map. What is
between two accesses to a map, or before a send, is a state of its own, so that other tasks may come
in between.

Times are in seconds. Which sessions have lost their entry, and which frames were passed on, is
recorded beside the state.
-/

namespace Cypher.Relay

open Transport

def maxSessionLifetimeSecs : Nat := 60 * 60
def cleanupIntervalSecs : Nat := 30

/-- The key of onion connections, which are not paired. -/
def onionKey : String := "ONION"

inductive Task where
  /-- The loop waits for a frame. -/
  | reading
  /-- The frame was read and something is sent for it: after a delay, or when there is room in the
  channel. -/
  | sending (frame : Frame)
  /-- The loop is over, the entry not yet removed. -/
  | leaving
  | ended
  deriving DecidableEq

structure RelaySession where
  key : String
  /-- The connections of the peers. -/
  peers : Peer → Nat
  createdAt : Nat
  bytesRelayed : Nat
  /-- By the peer that the task reads. -/
  tasks : Peer → Task
  /-- The rounds of each loop so far. -/
  rounds : Peer → List Round
  /-- What each loop has sent. -/
  sent : Peer → List Frame

/-- A connection whose key is known: alone, or with the partner that it took from `pending`. -/
structure Meeting where
  key : String
  connection : Nat
  partner : Option Nat
  deriving DecidableEq

/-- A frame of `reader` that the other peer's writer has taken. -/
structure Delivery where
  session : Nat
  reader : Peer
  frame : Frame
  /-- The session had lost its entry. -/
  late : Bool
  deriving DecidableEq

structure RelayService where
  sessions : String → Option Nat
  pending : String → Option Nat
  meetings : List Meeting
  connected : List Nat
  /-- The connections whose writer task has ended. -/
  closed : List Nat
  relays : Nat → Option RelaySession
  count : Nat
  now : Nat
  /-- When the cleanup last woke up, and the keys that it has yet to remove. -/
  wokeAt : Nat
  expiredKeys : List String
  removed : List Nat
  delivered : List Delivery

inductive RelayAction where
  /-- The first frame of a connection, with its payload as a trimmed string. -/
  | connect (c : Nat) (key : String)
  /-- `handle_connection` goes on. -/
  | settle (meeting : Meeting)
  | read (s : Nat) (reader : Peer) (item : Option (Except String Frame))
  | send (s : Nat) (reader : Peer)
  | tearDown (s : Nat) (reader : Peer)
  /-- The socket reports an error to the writer task. -/
  | writerFails (c : Nat)
  | elapse (seconds : Nat)
  | wake
  | collect (key : String)
  | expire (key : String)

namespace RelaySession

def start (key : String) (peerA peerB createdAt : Nat) : RelaySession where
  key
  peers
    | .a => peerA
    | .b => peerB
  createdAt
  bytesRelayed := 0
  tasks _ := .reading
  rounds _ := []
  sent _ := []

def setTask (session : RelaySession) (reader : Peer) (task : Task) : RelaySession :=
  { session with tasks := Function.update session.tasks reader task }

/-- A round is over: what it has sent, and whether the loop goes on. -/
def finishRound (session : RelaySession) (reader : Peer) (round : Round) : RelaySession :=
  { session with
    tasks := Function.update session.tasks reader
      (if (forwardRound round).2 then .reading else .leaving)
    rounds := Function.update session.rounds reader (session.rounds reader ++ [round])
    sent := Function.update session.sent reader (session.sent reader ++ (forwardRound round).1) }

/-- A round up to the point where something is sent. -/
def readItem (session : RelaySession) (reader : Peer) (item : Option (Except String Frame)) :
    RelaySession :=
  match item with
  | some (.ok frame) =>
    match handle frame with
    | .pong _ => session.setTask reader (.sending frame)
    | .data =>
      { session.setTask reader (.sending frame) with
        bytesRelayed := (session.bytesRelayed + frame.payload.length) % u64Size }
    | _ => session.finishRound reader ⟨item, true⟩
  | _ => session.finishRound reader ⟨item, true⟩

end RelaySession

namespace RelayService

def start : RelayService where
  sessions _ := none
  pending _ := none
  meetings := []
  connected := []
  closed := []
  relays _ := none
  count := 0
  now := 0
  wokeAt := 0
  expiredKeys := []
  removed := []
  delivered := []

def removeEntry (svc : RelayService) (key : String) : RelayService :=
  { svc with
    sessions := Function.update svc.sessions key none
    removed := (svc.sessions key).toList ++ svc.removed }

def setRelay (svc : RelayService) (s : Nat) (session : RelaySession) : RelayService :=
  { svc with relays := Function.update svc.relays s (some session) }

def addMeeting (svc : RelayService) (meeting : Meeting) : RelayService :=
  { svc with meetings := meeting :: svc.meetings }

/-- The entry under a key that is there already is replaced. -/
def establish (svc : RelayService) (key : String) (peerA peerB : Nat) : RelayService :=
  { svc.setRelay svc.count (.start key peerA peerB svc.now) with
    sessions := Function.update svc.sessions key (some svc.count)
    count := svc.count + 1 }

def connect (svc : RelayService) (c : Nat) (key : String) : RelayService :=
  let svc := { svc with connected := c :: svc.connected }
  if key = "" ∨ key = onionKey then svc
  else
    match svc.pending key with
    | some partner =>
      { svc with pending := Function.update svc.pending key none }.addMeeting ⟨key, c, some partner⟩
    | none => svc.addMeeting ⟨key, c, none⟩

def settle (svc : RelayService) (meeting : Meeting) : RelayService :=
  let svc := { svc with meetings := svc.meetings.erase meeting }
  match meeting.partner with
  | some partner => svc.establish meeting.key partner meeting.connection
  | none => { svc with pending := Function.update svc.pending meeting.key (some meeting.connection) }

def sendFrame (svc : RelayService) (s : Nat) (session : RelaySession) (reader : Peer)
    (frame : Frame) : RelayService :=
  let writerOpen := !svc.closed.contains (session.peers (writerOf reader))
  let svc' := svc.setRelay s (session.finishRound reader ⟨some (.ok frame), writerOpen⟩)
  if writerOpen ∧ handle frame = .data then
    { svc' with delivered := ⟨s, reader, frame, svc.removed.contains s⟩ :: svc.delivered }
  else svc'

/-- The session has expired when the cleanup wakes up. -/
def expired (svc : RelayService) (session : RelaySession) : Bool :=
  maxSessionLifetimeSecs < svc.wokeAt - session.createdAt

def step (svc : RelayService) : RelayAction → Option RelayService
  | .connect c key => if c ∈ svc.connected then none else some (svc.connect c key)
  | .settle meeting => if meeting ∈ svc.meetings then some (svc.settle meeting) else none
  | .read s reader item =>
    match svc.relays s with
    | some session =>
      match session.tasks reader with
      | .reading => some (svc.setRelay s (session.readItem reader item))
      | _ => none
    | none => none
  | .send s reader =>
    match svc.relays s with
    | some session =>
      match session.tasks reader with
      | .sending frame => some (svc.sendFrame s session reader frame)
      | _ => none
    | none => none
  | .tearDown s reader =>
    match svc.relays s with
    | some session =>
      match session.tasks reader with
      | .leaving => some ((svc.setRelay s (session.setTask reader .ended)).removeEntry session.key)
      | _ => none
    | none => none
  | .writerFails c => some { svc with closed := c :: svc.closed }
  | .elapse seconds => some { svc with now := svc.now + seconds }
  | .wake =>
    if svc.expiredKeys = [] ∧ svc.wokeAt + cleanupIntervalSecs ≤ svc.now then
      some { svc with wokeAt := svc.now }
    else none
  | .collect key =>
    match (svc.sessions key).bind svc.relays with
    | some session =>
      if svc.expired session then some { svc with expiredKeys := key :: svc.expiredKeys } else none
    | none => none
  | .expire key =>
    if key ∈ svc.expiredKeys then
      some ({ svc with expiredKeys := svc.expiredKeys.erase key }.removeEntry key)
    else none

end RelayService

end Cypher.Relay
