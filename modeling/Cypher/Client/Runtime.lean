import Cypher.Client.Files
import Cypher.Client.Messaging
import Cypher.Client.Requests
import Cypher.Lib.Channel
import Cypher.Lib.Run
import Cypher.Proto.Fields
import Cypher.Transport.Codec

/-!
# The I/O loop and the event loop (`api/runtime.rs`, `api.rs`, the desktop's `lib.rs`)

`do_connect` starts an I/O loop on each connection; an earlier loop goes on beside it. A loop waits for
the next command of its channel or the next frame, and handles a frame before it looks at either again.
The handlers put events into one channel for all loops, and the one of a file chunk puts the
acknowledgement into the channel that its own loop empties; both channels have 256 places, and who
finds one full waits. `send_raw` waits while it holds the lock of `outbound_tx`, which `do_connect` needs
to put another sender there. The desktop takes the events one after the other, and for a peer that has
joined it calls `initiate_session`, which waits for the reply, before it takes the next.

What a handler does depends on keys, sessions and files: the action says what it is, among what
`handle_proto_message` may do for the message. Connections, frames, the other tasks that send commands
and events, and whether a write succeeds, are up to the environment. The handshake of `do_connect` is
left out, and so is what the desktop shows. How a payload is read as JSON is a parameter.
-/

namespace Cypher.Client

open Lib Proto Transport

def ackOnly : UInt8 := 0x01

/-- Both channels are made with this capacity. -/
def channelCapacity : Nat := 256

/-- `ClientEvent`; those of chats and files are as their handlers have them. -/
inductive RuntimeEvent where
  | connected (peer : PeerId)
  | disconnected
  | chat (event : ClientEvent)
  | file (event : FileEvent)
  | peerConnected (peer : PeerId)
  /-- With the text of the address. -/
  | iceCandidateReceived (sender : Bytes) (candidate : Utf8)
  | anonymityLevelChanged (level : UInt8)
  deriving DecidableEq

inductive OutboundCmd where
  | send (payload : Bytes) (flags : UInt8)
  /-- Nothing sends it. -/
  | close
  deriving DecidableEq

/-- What a handler waits for. -/
inductive Effect where
  /-- `send_chunk_ack`: room in the channel of commands. -/
  | sendChunkAck (peer : PeerId) (fileId : Bytes) (index : UInt32)
  /-- Room in the channel of events. -/
  | emit (event : RuntimeEvent)
  /-- A lock or a channel of another task. -/
  | wait
  deriving DecidableEq

def chunkAck (peer : PeerId) (fileId : Bytes) (index : UInt32) : OutboundCmd :=
  .send (Message.serialize ⟨fileChunkAck, (peer.val, fileId, index, ())⟩) 0

/-! ## What the handlers may do -/

/-- `handle_chat_message`. -/
def mayHandleChat : List Effect → Bool
  | [] => true
  | [.emit (.chat _)] => true
  | _ => false

/-- `handle_file_offer`. -/
def mayHandleOffer : List Effect → Bool
  | [] => true
  | [.emit (.file (.fileOffered _ _))] => true
  | _ => false

/-- `handle_file_chunk`: without a receiver, with an error, or with an acknowledgement, the progress and,
for the last chunk, what `finalize_received_file` reports. -/
def mayHandleChunk (fileId : Bytes) (index : UInt32) : List Effect → Bool
  | [] => true
  | [.emit (.file (.error _))] => true
  | .sendChunkAck _ file i :: .emit (.file (.fileProgress file' _)) :: rest =>
    file = fileId && i = index && file' = fileId &&
      match rest with
      | [] => true
      | [.emit (.file (.fileComplete file'))] => file' = fileId
      | [.emit (.file (.error _))] => true
      | _ => false
  | _ => false

/-- `handle_file_chunk_ack`: the channel of the send task. -/
def mayHandleChunkAck : List Effect → Bool
  | [] => true
  | [.wait] => true
  | _ => false

/-- `handle_ice_candidate`: the lock of the agent, then the event. -/
def mayHandleIce (candidate : Utf8) (sender : Bytes) : List Effect → Bool
  | [] => true
  | [.wait, .emit (.iceCandidateReceived sender' candidate')] =>
    sender' = sender && candidate' = candidate
  | _ => false

/-- `handle_inbox_messages`: an event for each message that is decrypted. -/
def mayHandleInbox (effects : List Effect) : Bool :=
  effects.all fun
    | .emit (.chat (.messageReceived _ _)) => true
    | _ => false

/-- `handle_proto_message`; an accepted or resumed file starts a task. -/
def handleProtoMessage (m : Message) (effects : List Effect) : Bool :=
  if m.ctor = chatSend then mayHandleChat effects
  else if m.ctor = fileOffer then mayHandleOffer effects
  else if m.ctor = fileChunkAck then mayHandleChunkAck effects
  else if m.ctor = inboxMessages then mayHandleInbox effects
  else
    match m.as? fileChunk with
    | some (_, fileId, index, _) => mayHandleChunk fileId index effects
    | none =>
      match m.as? fileComplete with
      | some (_, fileId, _) => effects = [.emit (.file (.fileComplete fileId))]
      | none =>
        match m.as? signalIceCandidate with
        | some (candidate, peerId, _) => mayHandleIce candidate peerId effects
        | none => effects = []

/-! ## The loop of one connection -/

inductive Turn where
  /-- What is left to do for the last frame; with nothing left the loop is at its `select!`. -/
  | running (todo : List Effect)
  /-- Behind the loop, before `Disconnected` is sent. -/
  | leaving
  | ended
  | panicked
  deriving DecidableEq

def Turn.todo : Turn → List Effect
  | running todo => todo
  | _ => []

/-- Something written to the connection. -/
inductive Written where
  | command (cmd : OutboundCmd)
  | pong
  deriving DecidableEq

structure IoLoop where
  /-- The frames that have arrived and are not read. -/
  inbound : List Frame
  outbound : Channel OutboundCmd channelCapacity
  turn : Turn
  /-- All frames that arrived, and those that were read. -/
  arrived : List Frame
  taken : List Frame
  /-- All commands that were put into the channel. -/
  accepted : List OutboundCmd
  written : List Written
  /-- The payloads that were dispatched, each with what was to do for it. -/
  dispatched : List (Bytes × List Effect)
  /-- What was done of it. -/
  performed : List Effect

namespace IoLoop

def start : IoLoop :=
  ⟨[], .empty, .running [], [], [], [], [], [], []⟩

/-- The task is over and its end of the channel is dropped. -/
def closed (l : IoLoop) : Bool :=
  l.turn = .ended || l.turn = .panicked

/-- `outbound_tx.send(cmd)`, when it succeeds. -/
def push (l : IoLoop) (cmd : OutboundCmd) : Option IoLoop :=
  if l.closed then none
  else (l.outbound.send cmd).map fun outbound =>
    { l with outbound, accepted := l.accepted ++ [cmd] }

/-- The branch of `select!` for a command; `ok` says whether the frame is written. -/
def write (l : IoLoop) (ok : Bool) : Option IoLoop :=
  if l.turn = .running [] then
    match l.outbound.recv with
    | none => none
    | some (cmd, outbound) =>
      let l := { l with outbound }
      let l := if ok then { l with written := l.written ++ [.command cmd] } else l
      match cmd with
      | .send _ _ => if ok then some l else some { l with turn := .leaving }
      | .close => some { l with turn := .leaving }
  else none

end IoLoop

/-! ## The client -/

abbrev ConnId := Nat

/-- A call of `send_raw` that holds the lock. -/
structure SendCall where
  conn : ConnId
  cmd : OutboundCmd
  /-- The oneshot channel of the `initiate_session` that the event loop is in, if the call is its. -/
  channel : Option Nat

/-- `event_loop_wrapper`. -/
inductive EventLoop where
  | idle
  /-- In `initiate_session`, before `send_raw` has returned. -/
  | requesting (channel : Nat) (peer : PeerId)
  /-- In `initiate_session`, at `rx.await`. -/
  | waiting (channel : Nat)
  deriving DecidableEq

/-- An event and the connection whose loop sent it; `none` for other tasks. -/
abbrev Emission := Option ConnId × RuntimeEvent

structure Runtime where
  loops : ConnId → Option IoLoop
  nextConn : ConnId
  outboundTx : Option ConnId
  /-- Who holds the lock of `outbound_tx`. -/
  sending : Option SendCall
  events : Channel Emission channelCapacity
  pending : Pending
  nextChannel : Nat
  eventLoop : EventLoop
  /-- All events that were put into the channel, and those that the event loop took. -/
  emitted : List Emission
  handled : List Emission

inductive RuntimeAction where
  /-- `do_connect` after its handshake. -/
  | install
  | arrive (c : ConnId) (frame : Frame)
  /-- A send task of the connection. -/
  | enqueue (c : ConnId) (payload : Bytes) (flags : UInt8)
  /-- A call of the API takes the lock in `send_raw`. -/
  | sendRaw (payload : Bytes) (flags : UInt8)
  /-- The event loop takes it. -/
  | sendRequest
  /-- `send_raw` returns. -/
  | sent
  | write (c : ConnId) (ok : Bool)
  | read (c : ConnId) (effects : List Effect) (ok : Bool)
  /-- The connection is closed or fails. -/
  | readFailed (c : ConnId)
  /-- The loop goes on with what there is to do. -/
  | proceed (c : ConnId)
  /-- Another task sends an event. -/
  | emit (event : RuntimeEvent)
  /-- The event loop takes an event; `hasSession` is `has_session` of the peer. -/
  | handle (hasSession : Bool)
  /-- `rx.await` returns. -/
  | resume
  /-- Another call puts its sender into the slot. -/
  | request (kind : PendingKind)

namespace Runtime

def start : Runtime :=
  ⟨fun _ => none, 0, none, none, .empty, .empty, 0, .idle, [], []⟩

def set (s : Runtime) (c : ConnId) (l : IoLoop) : Runtime :=
  { s with loops := Function.update s.loops c (some l) }

/-- `event_tx.send(event)`. -/
def emit (s : Runtime) (source : Option ConnId) (event : RuntimeEvent) : Option Runtime :=
  (s.events.send (source, event)).map fun events =>
    { s with events, emitted := s.emitted ++ [(source, event)] }

/-- Put a new sender into the slot of a kind. -/
def insertPending (s : Runtime) (kind : PendingKind) : Runtime :=
  { s with
    pending := Function.update s.pending kind (some s.nextChannel)
    nextChannel := s.nextChannel + 1 }

def getPrekeys (peer : PeerId) : OutboundCmd :=
  .send (Message.serialize ⟨keysGetPrekeys, (peer.val, ())⟩) 0

/-- `send_raw` returns, with an error if the loop is over; so does `initiate_session` then. -/
def sent (s : Runtime) (call : SendCall) (l : IoLoop) : Option Runtime :=
  if l.closed then
    some { s with
      sending := none
      eventLoop := if call.channel.isSome then .idle else s.eventLoop }
  else
    (l.push call.cmd).map fun l =>
      { s.set call.conn l with
        sending := none
        eventLoop := call.channel.elim s.eventLoop .waiting }

/-- The loop goes on with what there is to do. -/
def proceed (s : Runtime) (c : ConnId) (l : IoLoop) : Option Runtime :=
  match l.turn with
  | .running (effect :: rest) =>
    let l := { l with turn := .running rest, performed := l.performed ++ [effect] }
    match effect with
    | .sendChunkAck peer fileId index => (l.push (chunkAck peer fileId index)).map (s.set c)
    | .emit event => (s.set c l).emit (some c) event
    | .wait => some (s.set c l)
  | .leaving => (s.set c { l with turn := .ended }).emit (some c) .disconnected
  | _ => none

variable (parseJson : Bytes → Option Json)

/-- `dispatch_inbound` up to the first wait: the slots, and how the loop goes on. -/
def dispatchInbound (pending : Pending) (payload : Bytes) (effects : List Effect) :
    Option (Pending × Turn) :=
  if payload.head? = some 0x7B then
    match parseJson payload with
    | none => some (pending, .running [])
    | some json =>
      let (pending, outcome) := dispatchJson pending json
      match outcome with
      | .peerConnected peer => some (pending, .running [.emit (.peerConnected peer)])
      | .panicked => some (pending, .panicked)
      | _ => some (pending, .running [])
  else
    match dispatch coreP2p payload with
    | .error _ => some (pending, .running [])
    | .ok m => if handleProtoMessage m effects then some (pending, .running effects) else none

/-- The branch of `select!` for a frame; `ok` says whether a PONG is written. -/
def read (s : Runtime) (c : ConnId) (l : IoLoop) (effects : List Effect) (ok : Bool) :
    Option Runtime :=
  match l.turn, l.inbound with
  | .running [], frame :: inbound =>
    let l := { l with inbound, taken := l.taken ++ [frame] }
    if FrameFlags.contains frame.flags FrameFlags.ping then
      if ok then some (s.set c { l with written := l.written ++ [.pong] })
      else some (s.set c { l with turn := .leaving })
    else if FrameFlags.contains frame.flags FrameFlags.pong ||
        FrameFlags.contains frame.flags ackOnly then
      some (s.set c l)
    else if FrameFlags.contains frame.flags FrameFlags.sessionClose then
      some (s.set c { l with turn := .leaving })
    else
      (dispatchInbound parseJson s.pending frame.payload effects).map fun (pending, turn) =>
        { s.set c { l with
            turn, dispatched := l.dispatched ++ [(frame.payload, turn.todo)] } with pending }
  | _, _ => none

def step (s : Runtime) : RuntimeAction → Option Runtime
  | .install =>
    match s.sending with
    | some _ => none
    | none =>
      some { s.set s.nextConn .start with
        nextConn := s.nextConn + 1, outboundTx := some s.nextConn }
  | .arrive c frame =>
    match s.loops c with
    | none => none
    | some l =>
      if l.closed then none
      else some (s.set c
        { l with inbound := l.inbound ++ [frame], arrived := l.arrived ++ [frame] })
  | .enqueue c payload flags =>
    match s.loops c with
    | none => none
    | some l => (l.push (.send payload flags)).map (s.set c)
  | .sendRaw payload flags =>
    match s.sending, s.outboundTx with
    | none, some c => some { s with sending := some ⟨c, .send payload flags, none⟩ }
    | _, _ => none
  | .sendRequest =>
    match s.sending, s.eventLoop with
    | none, .requesting channel peer =>
      match s.outboundTx with
      | some c => some { s with sending := some ⟨c, getPrekeys peer, some channel⟩ }
      | none => some { s with eventLoop := .idle }
    | _, _ => none
  | .sent =>
    match s.sending with
    | none => none
    | some call =>
      match s.loops call.conn with
      | none => none
      | some l => s.sent call l
  | .write c ok =>
    match s.loops c with
    | none => none
    | some l => (l.write ok).map (s.set c)
  | .read c effects ok =>
    match s.loops c with
    | none => none
    | some l => s.read parseJson c l effects ok
  | .readFailed c =>
    match s.loops c with
    | none => none
    | some l => if l.turn = .running [] then some (s.set c { l with turn := .leaving }) else none
  | .proceed c =>
    match s.loops c with
    | none => none
    | some l => s.proceed c l
  | .emit event => s.emit none event
  | .handle hasSession =>
    match s.eventLoop, s.events.recv with
    | .idle, some (emission, events) =>
      let s := { s with events, handled := s.handled ++ [emission] }
      match emission.2 with
      | .peerConnected peer =>
        if hasSession then some s
        else some { s.insertPending .getPrekeys with eventLoop := .requesting s.nextChannel peer }
      | _ => some s
    | _, _ => none
  | .resume =>
    match s.eventLoop with
    | .waiting channel =>
      if s.pending .getPrekeys = some channel then none else some { s with eventLoop := .idle }
    | _ => none
  | .request kind => some (s.insertPending kind)

end Runtime

end Cypher.Client
