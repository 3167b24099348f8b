import Cypher.Lib.Run
import Cypher.Pwa.Proto

/-!
# Files of the web client (`clients/pwa/src/api/index.ts`)

`sendFile` sends an offer, the chunks one after the other and a completion, without waiting for an
answer. `handleMessage` keeps a buffer for each file id, puts the chunks that arrive into it, and on
completion asks for the digest of what it has; when the promise resolves, the file is downloaded or an
error is emitted. A timer set at the offer deletes the buffer after five minutes.

The state of the client is a `FileState` per file id: the entry of `fileBuffers`, and the timers and
promises whose callbacks name the id. Callbacks run in any order; a timer's not before it is due.
SHA-256 is a parameter, and times are in milliseconds.
-/

namespace Cypher.Pwa

def fileTransferTimeoutMs : Nat := 5 * 60 * 1000

/-- `CHUNK_SIZE` of this client: 64 KB. -/
def chunkSize : Nat := 64 * 1024

/-- An entry of `fileBuffers`. The chunks are a `Map`. -/
structure FileBuffer where
  name : Bytes
  size : Nat
  totalChunks : Nat
  chunks : List (Nat × Bytes)
  hash : Bytes
  deriving DecidableEq

namespace FileBuffer

def setChunk (buf : FileBuffer) (index : Nat) (data : Bytes) : FileBuffer :=
  if (buf.chunks.lookup index).isSome then
    { buf with chunks := buf.chunks.map fun c => if c.1 = index then (index, data) else c }
  else { buf with chunks := buf.chunks ++ [(index, data)] }

/-- The chunks in order; one that is missing is passed over. -/
def assembled (buf : FileBuffer) : Bytes :=
  (List.range buf.totalChunks).flatMap fun i => (buf.chunks.lookup i).getD []

end FileBuffer

def sanitizeFilename (name : Bytes) : Bytes :=
  name.map fun b => if b ∈ ascii "/\\?%*:|\"<>" then 0x5F else b

inductive FileError where
  | timedOut (name : Bytes)
  | hashMismatch
  deriving DecidableEq

def FileError.text : FileError → Bytes
  | timedOut name => ascii "File transfer \"" ++ name ++ ascii "\" timed out"
  | hashMismatch =>
    ascii "File integrity check failed " ++ [0xE2, 0x80, 0x94] ++ ascii " hash mismatch"

inductive FileEvent where
  | offered (sender fileId name : Bytes) (size : Nat)
  | progress (fileId : Bytes) (received total : Nat)
  /-- `a.click()` on a link to the content. -/
  | download (fileId name content : Bytes)
  | complete (fileId : Bytes)
  | error (err : FileError)
  deriving DecidableEq

/-- What the callback of a digest holds. -/
structure Digest where
  name : Bytes
  hash : Bytes
  content : Bytes
  deriving DecidableEq

structure FileState where
  buffer : Option FileBuffer
  /-- When each timer is due, and the name in its message. -/
  timers : List (Nat × Bytes)
  digests : List Digest
  deriving DecidableEq

namespace FileState

def empty : FileState := ⟨none, [], []⟩

/-- `handleMessage` on the messages of a file; the last component is what is sent. -/
def handle (st : FileState) (now : Nat) : ProtoMessage → FileState × List FileEvent × List Bytes
  | .fileOffer peerId fileId name size chunks hash _ =>
    ({ st with
        buffer := some ⟨name, size, chunks, [], hash⟩
        timers := st.timers ++ [(now + fileTransferTimeoutMs, name)] },
      [.offered peerId fileId name size], [])
  | .fileChunk peerId fileId index data _ _ _ =>
    match st.buffer with
    | none => (st, [], [])
    | some buf =>
      let buf := buf.setChunk index data
      ({ st with buffer := some buf }, [.progress fileId buf.chunks.length buf.totalChunks],
        [encodeFileChunkAck peerId fileId index])
  | .fileComplete _ _ =>
    match st.buffer with
    | none => (st, [], [])
    | some buf => ({ st with digests := st.digests ++ [⟨buf.name, buf.hash, buf.assembled⟩] }, [], [])
  | _ => (st, [], [])

/-- A promise of `crypto.subtle.digest` resolves. -/
def resolve (sha256 : Bytes → Bytes) (fileId : Bytes) (st : FileState) (i : Nat) :
    Option (FileState × List FileEvent) :=
  match st.digests[i]? with
  | none => none
  | some d =>
    let st := { st with buffer := none, digests := st.digests.eraseIdx i }
    if d.hash.length > 0 ∧ sha256 d.content ≠ d.hash then some (st, [.error .hashMismatch])
    else some (st, [.download fileId (sanitizeFilename d.name) d.content, .complete fileId])

/-- A timer runs. -/
def expire (st : FileState) (now : Nat) (i : Nat) : Option (FileState × List FileEvent) :=
  match st.timers[i]? with
  | none => none
  | some (due, name) =>
    if due ≤ now then
      let timers := st.timers.eraseIdx i
      if st.buffer.isSome then some ({ st with buffer := none, timers }, [.error (.timedOut name)])
      else some ({ st with timers }, [])
    else none

end FileState

structure FileClient where
  now : Nat
  files : Bytes → FileState
  events : List FileEvent
  sent : List Bytes

inductive FileAction where
  /-- A message arrives; nothing is sent on a socket that is not open. -/
  | message (m : ProtoMessage) (isOpen : Bool)
  | digest (fileId : Bytes) (i : Nat)
  | timer (fileId : Bytes) (i : Nat)
  | elapse (ms : Nat)

/-- The file that a message is about. -/
def ProtoMessage.fileId? : ProtoMessage → Option Bytes
  | .fileOffer _ fileId _ _ _ _ _ => some fileId
  | .fileChunk _ fileId _ _ _ _ _ => some fileId
  | .fileComplete _ fileId => some fileId
  | _ => none

namespace FileClient

def start : FileClient := ⟨0, fun _ => .empty, [], []⟩

def set (s : FileClient) (fileId : Bytes) (st : FileState) (events : List FileEvent) :
    FileClient :=
  { s with files := Function.update s.files fileId st, events := s.events ++ events }

def step (sha256 : Bytes → Bytes) (s : FileClient) : FileAction → Option FileClient
  | .message m isOpen =>
    match m.fileId? with
    | none => some s
    | some fileId =>
      let (st, events, sent) := (s.files fileId).handle s.now m
      some { s.set fileId st events with sent := s.sent ++ if isOpen then sent else [] }
  | .digest fileId i =>
    match (s.files fileId).resolve sha256 fileId i with
    | none => none
    | some (st, events) => some (s.set fileId st events)
  | .timer fileId i =>
    match (s.files fileId).expire s.now i with
    | none => none
    | some (st, events) => some (s.set fileId st events)
  | .elapse ms => some { s with now := s.now + ms }

end FileClient

/-! ## The sender -/

def totalChunks (content : Bytes) : Nat :=
  max ((content.length + chunkSize - 1) / chunkSize) 1

def chunkAt (content : Bytes) (i : Nat) : Bytes :=
  Proto.slice content (i * chunkSize) (min (i * chunkSize + chunkSize) content.length)

def sendFile (sha256 : Bytes → Bytes) (targetPeerId fileId name content : Bytes) :
    List ProtoMessage :=
  .fileOffer targetPeerId fileId name content.length (totalChunks content) (sha256 content) 0 ::
    ((List.range (totalChunks content)).map fun i =>
      .fileChunk targetPeerId fileId i (chunkAt content i) (sha256 (chunkAt content i)) [] 0) ++
    [.fileComplete targetPeerId fileId]

end Cypher.Pwa
