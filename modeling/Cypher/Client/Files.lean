import Cypher.Client.KeyManager
import Cypher.Lib.Run
import Cypher.Transfer.Assembler

/-!
# File transfers of a client (`api/runtime.rs`, `api/files.rs`)

The handlers of `FileOffer`, `FileChunk` and `FileComplete`, `accept_file`, and what a client that also
sends files reports. An I/O loop handles one message at a time, but a reconnect starts another loop and
`fetch_inbox` dispatches messages from the task of its caller, so any number of handlers may be under
way: `handle_file_chunk` and `accept_file` are cut where they wait. Receivers are named by numbers.

An event counts as emitted when it is put into the channel, which is taken to have room. Opening the
destination is one step. The rest of the client changes the sessions as it likes (`rekey`); how a send
task fares is up to the environment (`sendDone`), its acks and progress events are left out.
-/

namespace Cypher.Client

open Crypto Transfer

variable {Key Secret Ct : Type}

/-- `cypher_proto::FileOffer`; `chunks` is a `u32`. -/
structure FileOffer where
  peerId : Bytes
  fileId : Bytes
  name : Bytes
  size : Nat
  chunks : Nat
  hash : Bytes
  compressed : Nat
  chunks_lt : chunks < u32Size

/-- `cypher_proto::FileChunk`. The sender is known from the offer. -/
structure FileChunk (Ct : Type) where
  fileId : Bytes
  index : Nat
  data : Ct
  hash : Bytes
  ratchetKey : Bytes
  msgNo : Nat

/-- `FileId::from_bytes`. -/
def fileIdFromBytes (b : Bytes) : Option FileId :=
  if h : b.length = 16 then some ⟨b, h⟩ else none

inductive FileEvent where
  | fileOffered (sender : PeerId) (fileMeta : FileMeta)
  | fileProgress (fileId : Bytes) (progress : Rat)
  | fileComplete (fileId : Bytes)
  | error (msg : String)
  deriving DecidableEq

inductive FileCommand where
  | accept (peer : PeerId) (fileId : Bytes)
  | resume (peer : PeerId) (fileId missing : Bytes)
  | chunkAck (peer : PeerId) (fileId : Bytes) (index : Nat)
  | complete (peer : PeerId) (fileId : Bytes)
  deriving DecidableEq

/-- How far a handler of a chunk has come. -/
inductive ChunkPhase where
  /-- The receiver is found. -/
  | found
  | decrypted (plaintext : Bytes)
  | written (done : Bool)
  /-- The last chunk is acknowledged. -/
  | complete
  | verified (result : Result Bool)
  /-- The entry of `active_recvs` is removed. -/
  | closed (result : Result Bool)
  | ended
  deriving DecidableEq

structure ChunkTask (Ct : Type) where
  chunk : FileChunk Ct
  receiver : Nat
  peer : PeerId
  compressed : Bool
  phase : ChunkPhase

/-- How far a call of `accept_file` has come. -/
inductive AcceptPhase where
  /-- The offer is taken out of `pending_metas`. -/
  | taken (fileMeta : FileMeta) (sender : PeerId)
  /-- The receiver is in `active_recvs`; with the missing chunks of a transfer that is resumed. -/
  | opened (sender : PeerId) (missing : Option (List Nat))
  | returned (result : Result Unit)

structure AcceptCall where
  fileId : Bytes
  dest : Path
  phase : AcceptPhase

/-- How the operating system fares when a destination is opened. -/
inductive AcceptIo where
  | ok
  /-- The sidecar cannot be read or the destination cannot be opened. -/
  | notOpened (msg : String)
  /-- `set_len` fails, after `File::create` has truncated the destination. -/
  | lengthNotSet (msg : String)

inductive SendEnd where
  | chunkerShared
  | failed (err : Error)
  | done

structure Files (Key Secret Ct : Type) where
  keys : KeyManager Key Secret
  disk : Disk
  pendingMetas : Bytes → Option (FileMeta × PeerId)
  activeRecvs : Bytes → Option (Nat × PeerId × Bool)
  pendingSends : Bytes → Option PeerId
  receivers : List TransferReceiver
  calls : List AcceptCall
  tasks : List (ChunkTask Ct)
  /-- The send tasks under way. -/
  sends : List (Bytes × PeerId)
  events : List FileEvent
  outbound : List FileCommand
  /-- The accepted offers, each with its receiver. -/
  accepted : List (Bytes × Nat)
  /-- The receivers whose `verify` has returned `Ok(true)`. -/
  verified : List Nat

inductive FileAction (Key Secret Ct : Type) where
  /-- A `FileOffer` arrives; `generated` is what `FileId::generate` yields. -/
  | offer (o : FileOffer) (generated : FileId)
  | acceptFile (fileId : Bytes) (dest : Path)
  | openFile (c : Nat) (io : AcceptIo)
  | sendAccept (c : Nat) (sent : Result Unit)
  /-- A `FileChunk` arrives. -/
  | chunk (c : FileChunk Ct)
  | decrypt (t : Nat) (fresh : Secret)
  | write (t : Nat) (order : IterOrder)
  | progress (t : Nat)
  | verify (t : Nat) (shorts : Nat → Nat)
  | close (t : Nat)
  | report (t : Nat)
  /-- A `FileComplete` arrives. -/
  | fileComplete (fileId : Bytes)
  /-- `send_file` has sent its offer. -/
  | sendFile (fileId : FileId) (peer : PeerId)
  /-- A `FileAccept` or a `FileResume` arrives. -/
  | fileAccept (fileId : Bytes)
  | sendDone (t : Nat) (how : SendEnd)
  | rekey (keys : KeyManager Key Secret)

namespace Files

def start (keys : KeyManager Key Secret) (disk : Disk) : Files Key Secret Ct where
  keys
  disk
  pendingMetas _ := none
  activeRecvs _ := none
  pendingSends _ := none
  receivers := []
  calls := []
  tasks := []
  sends := []
  events := []
  outbound := []
  accepted := []
  verified := []

def emit (files : Files Key Secret Ct) (event : FileEvent) : Files Key Secret Ct :=
  { files with events := files.events ++ [event] }

def setTask (files : Files Key Secret Ct) (t : Nat) (task : ChunkTask Ct) (phase : ChunkPhase) :
    Files Key Secret Ct :=
  { files with tasks := files.tasks.set t { task with phase } }

def setCall (files : Files Key Secret Ct) (c : Nat) (call : AcceptCall) (phase : AcceptPhase) :
    Files Key Secret Ct :=
  { files with calls := files.calls.set c { call with phase } }

def offeredMeta (offer : FileOffer) (generated : FileId) : FileMeta where
  fileId := (fileIdFromBytes offer.fileId).getD generated
  name := offer.name
  size := offer.size
  chunkCount := offer.chunks
  hash := offer.hash
  compressed := decide (offer.compressed ≠ 0)

def handleFileOffer (files : Files Key Secret Ct) (offer : FileOffer) (generated : FileId) :
    Files Key Secret Ct :=
  match Array32.tryFrom offer.peerId with
  | none => files
  | some sender =>
    let fileMeta := offeredMeta offer generated
    emit { files with
      pendingMetas := Function.update files.pendingMetas offer.fileId (some (fileMeta, sender)) }
      (.fileOffered sender fileMeta)

/-! ## `accept_file` -/

def acceptFile (files : Files Key Secret Ct) (fileId : Bytes) (dest : Path) :
    Files Key Secret Ct :=
  match files.pendingMetas fileId with
  | none =>
    { files with calls := files.calls ++
        [⟨fileId, dest, .returned (.error (.protocol "no pending file offer for that id"))⟩] }
  | some (fileMeta, sender) =>
    { files with
      pendingMetas := Function.update files.pendingMetas fileId none
      calls := files.calls ++ [⟨fileId, dest, .taken fileMeta sender⟩] }

/-- `load_state`, or `new` if there is no sidecar. -/
def openDestination (disk : Disk) (dest : Path) (fileMeta : FileMeta) (io : AcceptIo) :
    Disk × Result (FileAssembler × Option (List Nat)) :=
  match io, FileAssembler.loadState disk dest fileMeta with
  | .notOpened msg, _ => (disk, .error (.io msg))
  | _, .error err => (disk, .error err)
  | _, .ok (some asm) => (disk, .ok (asm, some asm.missingChunks))
  | .lengthNotSet msg, .ok none => (Function.update disk dest (some []), .error (.io msg))
  | .ok, .ok none =>
    let out := FileAssembler.new disk dest fileMeta
    (out.1, .ok (out.2, none))

def openFile (files : Files Key Secret Ct) (c : Nat) (call : AcceptCall) (fileMeta : FileMeta)
    (sender : PeerId) (io : AcceptIo) : Files Key Secret Ct :=
  match openDestination files.disk call.dest fileMeta io with
  | (disk, .error err) => setCall { files with disk } c call (.returned (.error err))
  | (disk, .ok (asm, missing)) =>
    setCall { files with
      disk
      activeRecvs := Function.update files.activeRecvs call.fileId
        (some (files.receivers.length, sender, fileMeta.compressed))
      receivers := files.receivers ++ [asm]
      accepted := files.accepted ++ [(call.fileId, files.receivers.length)] } c call
      (.opened sender missing)

def acceptCommand (sender : PeerId) (fileId : Bytes) : Option (List Nat) → FileCommand
  | some missing => .resume sender fileId (packU32 missing)
  | none => .accept sender fileId

def sendAccept (files : Files Key Secret Ct) (c : Nat) (call : AcceptCall) (sender : PeerId)
    (missing : Option (List Nat)) (sent : Result Unit) : Files Key Secret Ct :=
  match sent with
  | .error err => files.setCall c call (.returned (.error err))
  | .ok () =>
    setCall { files with outbound := files.outbound ++ [acceptCommand sender call.fileId missing] }
      c call (.returned (.ok ()))

/-- `outbound_tx`. -/
inductive Outbound where
  | notConnected
  | closed
  | connected
  deriving DecidableEq

/-- The result of `send_raw`. -/
def sendRaw : Outbound → Result Unit
  | .notConnected => .error (.session "not connected to gateway")
  | .closed => .error (.session "outbound channel closed")
  | .connected => .ok ()

/-- A call of `accept_file` from beginning to end while no other handler is under way. -/
def acceptFileCall (files : Files Key Secret Ct) (fileId : Bytes) (dest : Path) (io : AcceptIo)
    (outbound : Outbound) : Files Key Secret Ct × Result Unit :=
  let c := files.calls.length
  let taken := files.acceptFile fileId dest
  match files.pendingMetas fileId with
  | none => (taken, .error (.protocol "no pending file offer for that id"))
  | some (fileMeta, sender) =>
    let opened := taken.openFile c ⟨fileId, dest, .taken fileMeta sender⟩ fileMeta sender io
    match (openDestination files.disk dest fileMeta io).2 with
    | .error err => (opened, .error err)
    | .ok (_, missing) =>
      (opened.sendAccept c ⟨fileId, dest, .opened sender missing⟩ sender missing
        (sendRaw outbound), sendRaw outbound)

/-! ## `handle_file_chunk` and `finalize_received_file` -/

def handleFileChunk (files : Files Key Secret Ct) (chunk : FileChunk Ct) : Files Key Secret Ct :=
  match files.activeRecvs chunk.fileId with
  | none => files
  | some (receiver, peer, compressed) =>
    { files with tasks := files.tasks ++ [⟨chunk, receiver, peer, compressed, .found⟩] }

variable (S : Suite Key Secret Ct) (sha256 : Bytes → Bytes) (z : Zstd)

def decryptChunk (files : Files Key Secret Ct) (t : Nat) (task : ChunkTask Ct) (fresh : Secret) :
    Files Key Secret Ct :=
  let (keys, decrypted) := files.keys.decryptFromPeer S fresh task.peer.val task.chunk.data
    task.chunk.ratchetKey task.chunk.msgNo
  let files := { files with keys }
  match decrypted with
  | .error err => (files.emit (.error ("chunk decrypt: " ++ err.text))).setTask t task .ended
  | .ok decrypted =>
    match if task.compressed then z.decompressChunk decrypted else .ok decrypted with
    | .error err => (files.emit (.error ("chunk decompress: " ++ err.text))).setTask t task .ended
    | .ok plaintext => files.setTask t task (.decrypted plaintext)

/-- An error of `handle_chunk` comes before it has changed anything. -/
def writeChunk (files : Files Key Secret Ct) (t : Nat) (task : ChunkTask Ct)
    (recv : TransferReceiver) (plaintext : Bytes) (order : IterOrder) : Files Key Secret Ct :=
  match TransferReceiver.handleChunk sha256 order files.disk recv task.chunk.index plaintext
      task.chunk.hash with
  | (_, .error err) => (files.emit (.error ("chunk error: " ++ err.text))).setTask t task .ended
  | ((disk, recv), .ok done) =>
    setTask { files with disk, receivers := files.receivers.set task.receiver recv } t task
      (.written done)

def reportProgress (files : Files Key Secret Ct) (t : Nat) (task : ChunkTask Ct)
    (recv : TransferReceiver) (done : Bool) : Files Key Secret Ct :=
  let ack : FileCommand := .chunkAck task.peer task.chunk.fileId task.chunk.index
  let files := { files with outbound := files.outbound ++ [ack] }
  (files.emit (.fileProgress task.chunk.fileId recv.progress)).setTask t task
    (if done then .complete else .ended)

def verifyFile (files : Files Key Secret Ct) (t : Nat) (task : ChunkTask Ct)
    (recv : TransferReceiver) (shorts : Nat → Nat) : Files Key Secret Ct :=
  let result := recv.verify sha256 files.disk shorts
  setTask { files with
    verified := if result = .ok true then task.receiver :: files.verified else files.verified } t task
    (.verified result)

def closeReceive (files : Files Key Secret Ct) (t : Nat) (task : ChunkTask Ct)
    (result : Result Bool) : Files Key Secret Ct :=
  setTask { files with activeRecvs := Function.update files.activeRecvs task.chunk.fileId none } t
    task (.closed result)

def reportResult (files : Files Key Secret Ct) (t : Nat) (task : ChunkTask Ct)
    (recv : TransferReceiver) (result : Result Bool) : Files Key Secret Ct :=
  let files := files.setTask t task .ended
  match result with
  | .ok true =>
    emit { files with disk := recv.cleanupState files.disk } (.fileComplete task.chunk.fileId)
  | .ok false => files.emit (.error "file integrity verification failed")
  | .error err => files.emit (.error ("file verification error: " ++ err.text))

/-! ## The other handlers -/

def handleFileComplete (files : Files Key Secret Ct) (fileId : Bytes) : Files Key Secret Ct :=
  emit { files with activeRecvs := Function.update files.activeRecvs fileId none }
    (.fileComplete fileId)

def handleFileAccept (files : Files Key Secret Ct) (fileId : Bytes) : Files Key Secret Ct :=
  match files.pendingSends fileId with
  | none => files
  | some peer =>
    { files with
      pendingSends := Function.update files.pendingSends fileId none
      sends := files.sends ++ [(fileId, peer)] }

/-- `send_chunks`, from where its result is known. -/
def finishSend (files : Files Key Secret Ct) (t : Nat) (send : Bytes × PeerId) (how : SendEnd) :
    Files Key Secret Ct :=
  let files := { files with sends := files.sends.eraseIdx t }
  match how with
  | .chunkerShared => files.emit (.error "file send failed: chunker still referenced")
  | .failed err => files.emit (.error ("transfer: " ++ err.text))
  | .done =>
    let complete : FileCommand := .complete send.2 send.1
    emit { files with outbound := files.outbound ++ [complete] } (.fileComplete send.1)

def step (files : Files Key Secret Ct) : FileAction Key Secret Ct → Option (Files Key Secret Ct)
  | .offer o generated => some (files.handleFileOffer o generated)
  | .acceptFile fileId dest => some (files.acceptFile fileId dest)
  | .openFile c io => do
    let call ← files.calls[c]?
    match call.phase with
    | .taken fileMeta sender => some (files.openFile c call fileMeta sender io)
    | _ => none
  | .sendAccept c sent => do
    let call ← files.calls[c]?
    match call.phase with
    | .opened sender missing => some (files.sendAccept c call sender missing sent)
    | _ => none
  | .chunk c => some (files.handleFileChunk c)
  | .decrypt t fresh => do
    let task ← files.tasks[t]?
    match task.phase with
    | .found => some (files.decryptChunk S z t task fresh)
    | _ => none
  | .write t order => do
    let task ← files.tasks[t]?
    let recv ← files.receivers[task.receiver]?
    match task.phase with
    | .decrypted plaintext => some (files.writeChunk sha256 t task recv plaintext order)
    | _ => none
  | .progress t => do
    let task ← files.tasks[t]?
    let recv ← files.receivers[task.receiver]?
    match task.phase with
    | .written done => some (files.reportProgress t task recv done)
    | _ => none
  | .verify t shorts => do
    let task ← files.tasks[t]?
    let recv ← files.receivers[task.receiver]?
    match task.phase with
    | .complete => some (files.verifyFile sha256 t task recv shorts)
    | _ => none
  | .close t => do
    let task ← files.tasks[t]?
    match task.phase with
    | .verified result => some (files.closeReceive t task result)
    | _ => none
  | .report t => do
    let task ← files.tasks[t]?
    let recv ← files.receivers[task.receiver]?
    match task.phase with
    | .closed result => some (files.reportResult t task recv result)
    | _ => none
  | .fileComplete fileId => some (files.handleFileComplete fileId)
  | .sendFile fileId peer =>
    some { files with pendingSends := Function.update files.pendingSends fileId.val (some peer) }
  | .fileAccept fileId => some (files.handleFileAccept fileId)
  | .sendDone t how => do
    let send ← files.sends[t]?
    some (files.finishSend t send how)
  | .rekey keys => some { files with keys }

end Files

end Cypher.Client
