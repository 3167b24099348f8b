import Cypher.Client.Files
import Cypher.Transfer.Sender

/-!
# The task that sends a file (`cypher-client-core/src/api/runtime.rs`)

`send_chunks`, from where it holds the chunker, together with `handle_file_chunk_ack`, which feeds
its channel. The handler looks the file up in `active_sends`, clones the sending half and waits for
room; neither the peer an ack comes from nor its index is looked at. The call is one of `run` or of
`run_selective`, as `step`.
-/

namespace Cypher.Client

open Transfer

def defaultWindowSize : Nat := 16

structure SendTask (Cursor : Type) where
  fileId : Bytes
  peer : PeerId
  /-- `active_sends` holds the sending half of this task's channel. -/
  listed : Bool
  /-- The acks of handlers that have cloned the sending half and wait for room. -/
  handlers : List Nat
  queue : List Nat
  call : SendCall Cursor
  ended : Option SendEnd
  outbound : List FileCommand
  /-- The acks that handlers have found this task for. -/
  delivered : List Nat

inductive TaskAction where
  /-- A `FileChunkAck` arrives. -/
  | fileChunkAck (fileId : Bytes) (index : Nat)
  /-- The `i`th waiting handler puts its ack into the channel. -/
  | ackSent (i : Nat)
  /-- Another task's entry takes the place of this one's, or another task removes it. -/
  | unlist
  | advance (io : ChunkIo)
  | recv
  /-- The call has returned. -/
  | finish

/-- How the task goes on from the result of the call. -/
def sendEnd : Result Unit → SendEnd
  | .ok () => .done
  | .error err => .failed err

/-- What the task sends at its end. -/
def completion (peer : PeerId) (fileId : Bytes) : SendEnd → List FileCommand
  | .done => [.complete peer fileId]
  | .failed _ => []
  | .chunkerShared => []

namespace SendTask

variable {Cursor : Type} (step : SendCall Cursor → SendAction → Option (SendCall Cursor))

/-- `handle_file_accept` has listed the channel and spawned the task. -/
def start (fileId : Bytes) (peer : PeerId) (call : SendCall Cursor) : SendTask Cursor where
  fileId
  peer
  listed := true
  handlers := []
  queue := []
  call
  ended := none
  outbound := []
  delivered := []

def handleFileChunkAck (task : SendTask Cursor) (fileId : Bytes) (index : Nat) : SendTask Cursor :=
  if task.listed = true ∧ fileId = task.fileId then
    { task with handlers := task.handlers ++ [index], delivered := task.delivered ++ [index] }
  else task

/-- The channel holds twice the window. -/
def ackSent (task : SendTask Cursor) (i : Nat) : Option (SendTask Cursor) := do
  let index ← task.handlers[i]?
  if task.queue.length < defaultWindowSize * 2 then
    some { task with handlers := task.handlers.eraseIdx i, queue := task.queue ++ [index] }
  else none

/-- The call takes the oldest ack; without one it waits while there is a sending half. -/
def recv (task : SendTask Cursor) : Option (SendTask Cursor) :=
  match task.queue with
  | ack :: rest => do
    let call ← step task.call (.recv (some ack))
    some { task with call, queue := rest }
  | [] =>
    if task.listed = true ∨ task.handlers ≠ [] then none
    else do
      let call ← step task.call (.recv none)
      some { task with call }

def finish (task : SendTask Cursor) : Option (SendTask Cursor) :=
  match task.call.phase, task.ended with
  | .returned result, none =>
    some { task with
      listed := false
      ended := some (sendEnd result)
      outbound := task.outbound ++ completion task.peer task.fileId (sendEnd result) }
  | _, _ => none

def next (task : SendTask Cursor) : TaskAction → Option (SendTask Cursor)
  | .fileChunkAck fileId index => some (task.handleFileChunkAck fileId index)
  | .ackSent i => task.ackSent i
  | .unlist => some { task with listed := false }
  | .advance io => do
    let call ← step task.call (.advance io)
    some { task with call }
  | .recv => task.recv step
  | .finish => task.finish

end SendTask

end Cypher.Client
