import Cypher.Transport.Codec

/-!
# Forwarding between two peers (`forward_loop` of `services/relay/src/main.rs`)

A session has two tasks. Each reads one peer's connection and has the writer of the other's, which
is the only one it sends to. The delay by which the loop keeps to its bandwidth changes no frame; it
is left open how long a frame takes.
-/

namespace Cypher.Relay

open Transport

/-- `peer_a` is the peer that waited for the other. -/
inductive Peer where
  | a
  | b
  deriving DecidableEq, Repr

def Peer.other : Peer → Peer
  | a => b
  | b => a

/-- What the loop does with a frame. -/
inductive Handling where
  | pong (reply : Frame)
  | skip
  | close
  | data
  deriving DecidableEq

def pongFor (frame : Frame) : Frame :=
  ⟨0, frame.seqNo, FrameFlags.pong, []⟩

def handle (frame : Frame) : Handling :=
  if FrameFlags.contains frame.flags FrameFlags.ping then .pong (pongFor frame)
  else if FrameFlags.contains frame.flags FrameFlags.pong then .skip
  else if FrameFlags.contains frame.flags FrameFlags.sessionClose then .close
  else .data

/-- A round of the loop: what `reader.next()` yields, `none` at the end of the stream, and whether
the writer takes what the round sends. -/
structure Round where
  read : Option (Except String Frame)
  writerOpen : Bool
  deriving DecidableEq

/-- What a round sends, and whether there is another one. -/
def forwardRound (round : Round) : List Frame × Bool :=
  match round.read with
  | none => ([], false)
  | some (.error _) => ([], false)
  | some (.ok frame) =>
    match handle frame with
    | .pong reply => if round.writerOpen then ([reply], true) else ([], false)
    | .skip => ([], true)
    | .close => ([], false)
    | .data => if round.writerOpen then ([frame], true) else ([], false)

/-- The frames that the loop sends to its writer. -/
def forwardLoop : List Round → List Frame
  | [] => []
  | round :: rest =>
    (forwardRound round).1 ++ if (forwardRound round).2 then forwardLoop rest else []

/-- The connection of which `handle_connection` gives the writer to the task that reads `reader`. -/
def writerOf (reader : Peer) : Peer :=
  reader.other

/-- What the task that reads `reader` puts on a connection of the session, for the frames that
`reader` sends while the other peer is connected. -/
def putOn (reader connection : Peer) (frames : List Frame) : List Frame :=
  if connection = writerOf reader then forwardLoop (frames.map fun frame => ⟨some (.ok frame), true⟩)
  else []

end Cypher.Relay
