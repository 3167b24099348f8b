import Cypher.Lib.Run
import Cypher.Relay.Onion
import Cypher.Transport.Codec

/-!
# The relay's onion connections (`handle_onion_connection`)

Each connection reads frames in its own task, with its own cache of circuits, and reads no further
while it waits for signaling. The requests that were decrypted and the responses that were encrypted,
over all connections, are recorded beside the state.
-/

namespace Cypher.Relay

open Crypto Onion Transport

structure OnionConnection where
  circuits : CircuitCache
  /-- The request for which signaling is asked. -/
  pending : Option OpenedRequest

structure OnionResponse where
  request : OpenedRequest
  payload : Bytes
  deriving DecidableEq

structure OnionRelay where
  connections : Nat → Option OnionConnection
  accepted : List OpenedRequest
  responses : List OnionResponse

inductive OnionAction where
  | connect (c : Nat)
  | frame (c : Nat) (frame : Frame)
  | reply (c : Nat) (nats : NatsReply)
  /-- The client disconnects, or the writer is closed. -/
  | close (c : Nat)

namespace OnionConnection

variable (P : Primitives) (relaySecret : Array32)

/-- The connection after a frame, `none` if it ends, and the request that was decrypted. -/
def readFrame (conn : OnionConnection) (frame : Frame) :
    Option OnionConnection × Option OpenedRequest :=
  if FrameFlags.contains frame.flags FrameFlags.ping then (some conn, none)
  else if FrameFlags.contains frame.flags FrameFlags.sessionClose then (none, none)
  else if frame.payload.head? ≠ some onionPrefix then (some conn, none)
  else
    match decryptRequest P relaySecret frame.payload conn.circuits with
    | (circuits, .error _) => (some ⟨circuits, none⟩, none)
    | (circuits, .ok request) =>
      match forwardRequest request.inner with
      | .error _ => (some ⟨circuits, none⟩, some request)
      | .ok _ => (some ⟨circuits, some request⟩, some request)

/-- The response that is encrypted when signaling has replied, or failed to. -/
def responseTo (request : OpenedRequest) (nats : NatsReply) : Option OnionResponse :=
  match nats, answerRequest P request nats with
  | .reply payload, .ok _ => some ⟨request, payload⟩
  | _, _ => none

end OnionConnection

namespace OnionRelay

def start : OnionRelay :=
  ⟨fun _ => none, [], []⟩

variable (P : Primitives) (relaySecret : Array32)

def step (s : OnionRelay) : OnionAction → Option OnionRelay
  | .connect c =>
    match s.connections c with
    | none => some { s with connections := Function.update s.connections c (some ⟨∅, none⟩) }
    | some _ => none
  | .frame c frame =>
    match s.connections c with
    | some ⟨circuits, none⟩ =>
      let out := OnionConnection.readFrame P relaySecret ⟨circuits, none⟩ frame
      some { s with
        connections := Function.update s.connections c out.1
        accepted := s.accepted ++ out.2.toList }
    | _ => none
  | .reply c nats =>
    match s.connections c with
    | some ⟨circuits, some request⟩ =>
      some { s with
        connections := Function.update s.connections c (some ⟨circuits, none⟩)
        responses := s.responses ++ (OnionConnection.responseTo P request nats).toList }
    | _ => none
  | .close c =>
    match s.connections c with
    | some _ => some { s with connections := Function.update s.connections c none }
    | none => none

end OnionRelay

end Cypher.Relay
