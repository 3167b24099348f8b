import Cypher.Client.Files

/-!
# Attempts to receive files at one path

`accept_file` opens the destination, and `write_chunk` works on it step by step: check and seek, write,
flush, insert the index, save the state. An attempt ends where it is stopped or crashes. The bytes of a
write may be in the buffer of `tokio::fs::File` until the flush, so a crash in between leaves any number
of them in the file; a save that is cut off leaves any prefix of the sidecar.

The record of the chunks that reached the file since `FileAssembler::new` last created it is kept
beside the state.
-/

namespace Cypher.Client

open Transfer

/-- How far a call of `write_chunk` has come. -/
inductive WritePhase where
  | idle
  /-- The chunk is checked and the position sought. -/
  | seeked (index : Nat) (data : Bytes)
  /-- `write_all` has returned. -/
  | buffered (index : Nat) (data : Bytes)
  | flushed (index : Nat)
  /-- The index is inserted and the state is to be saved. -/
  | saving

/-- A chunk that was written, with the number of its bytes that reached the file. -/
structure LoggedChunk where
  index : Nat
  data : Bytes
  count : Nat
  deriving DecidableEq

def LoggedChunk.write (w : LoggedChunk) : Nat × Bytes :=
  (w.index * chunkSize, w.data.take w.count)

structure Attempts where
  path : Path
  disk : Disk
  current : Option (FileAssembler × WritePhase)
  /-- The length with which the destination was created. -/
  size : Nat
  /-- What was written to the destination since. -/
  log : List LoggedChunk

inductive AttemptAction where
  | accept (fileMeta : FileMeta) (chunks_lt : fileMeta.chunkCount < u32Size)
  | chunk (index : Nat) (data hash : Bytes)
  | write
  | flush
  | insert
  /-- `count` bytes of the sidecar are written. -/
  | save (order : IterOrder) (count : Nat)
  /-- The attempt ends; `count` bytes of a write that is not flushed are in the file. -/
  | crash (count : Nat)
  /-- `finalize_received_file` finds the file verified. -/
  | complete (shorts : Nat → Nat)

namespace Attempts

def start (path : Path) (disk : Disk) : Attempts :=
  ⟨path, disk, none, 0, []⟩

/-- `accept_file` opens the destination; without a sidecar it is created. -/
def accept (s : Attempts) (fileMeta : FileMeta) : Attempts :=
  match Files.openDestination s.disk s.path fileMeta .ok with
  | (disk, .error _) => { s with disk }
  | (disk, .ok (asm, some _)) => { s with disk, current := some (asm, .idle) }
  | (disk, .ok (asm, none)) =>
    { s with disk, current := some (asm, .idle), size := fileMeta.size, log := [] }

def put (s : Attempts) (asm : FileAssembler) (w : LoggedChunk) : Attempts :=
  { s with
    disk := Function.update s.disk asm.destPath
      (some (Lib.writeAt 0 (asm.content s.disk) w.write.1 w.write.2))
    log := s.log ++ [w] }

variable (sha256 : Bytes → Bytes)

def step (s : Attempts) (a : AttemptAction) : Option Attempts :=
  match a, s.current with
  | .accept fileMeta _, none => some (s.accept fileMeta)
  | .chunk index data hash, some (asm, .idle) =>
    if sha256 data ≠ hash ∨ index ≥ asm.expectedChunks then some s
    else some { s with current := some (asm, .seeked index data) }
  | .write, some (asm, .seeked index data) =>
    some { s with current := some (asm, .buffered index data) }
  | .flush, some (asm, .buffered index data) =>
    some { s.put asm ⟨index, data, data.length⟩ with current := some (asm, .flushed index) }
  | .insert, some (asm, .flushed index) =>
    let asm := { asm with received := insert index asm.received }
    let phase := if (asm.received.card % u32Size) % saveStateInterval = 0 then WritePhase.saving
      else .idle
    some { s with current := some (asm, phase) }
  | .save order count, some (asm, .saving) =>
    some { s with
      disk := Function.update s.disk (statePath asm.destPath)
        (some ((packU32 (order.toList asm.received)).take count))
      current := some (asm, .idle) }
  | .crash count, some (asm, .buffered index data) =>
    some { s.put asm ⟨index, data, count⟩ with current := none }
  | .crash _, some _ => some { s with current := none }
  | .complete shorts, some (asm, .idle) =>
    if asm.isComplete ∧ asm.verify sha256 s.disk shorts = .ok true then
      some { s with disk := asm.cleanupState s.disk, current := none }
    else none
  | _, _ => none

end Attempts

end Cypher.Client
