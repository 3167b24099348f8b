import Cypher.Transfer.Chunker
import Mathlib.Data.Finset.Sort

/-!
# Putting a file together (`cypher-transfer/src/assembler.rs`, `receiver.rs`)

A disk maps paths to the contents of files. A `FileAssembler` holds an open handle of its destination:
the path, and whether the handle was opened for reading. The sidecar with the indices received so far
is a file beside the destination. Operations take the disk and return the disk they leave behind; they
do not fail for reasons of the operating system, other than those of a missing file and of the access
mode of a handle. `HashSet` iterates in an order that is not specified (`IterOrder`), and a read may
return fewer bytes than were asked for (`shorts`).
-/

namespace Cypher.Transfer

abbrev Path := List Char

/-- The path of the `.cypher-state` sidecar file. -/
def statePath (dest : Path) : Path :=
  dest ++ ".cypher-state".toList

abbrev Disk := Path → Option Bytes

def saveStateInterval : Nat := 64

/-- An order in which the elements of a set come. -/
structure IterOrder where
  toList : Finset Nat → List Nat
  mem_toList : ∀ s i, i ∈ toList s ↔ i ∈ s

def IterOrder.increasing : IterOrder :=
  ⟨fun s => s.sort, fun s _ => s.mem_sort _⟩

structure FileAssembler where
  /-- The destination, with the access mode of the handle. -/
  destPath : Path
  readable : Bool
  expectedChunks : Nat
  received : Finset Nat
  expectedHash : Bytes
  fileSize : Nat
  deriving DecidableEq

def unpackU32 : Bytes → List Nat
  | a :: b :: c :: d :: rest => Lib.leNat [a, b, c, d] :: unpackU32 rest
  | _ => []

def packU32 (indices : List Nat) : Bytes :=
  indices.flatMap (Lib.leBytes 4)

namespace FileAssembler

/-- `File::create` opens for writing only and truncates; `set_len` fills with zeros. -/
def new (disk : Disk) (path : Path) (fileMeta : FileMeta) : Disk × FileAssembler :=
  (Function.update disk path (some (List.replicate fileMeta.size 0)), {
    destPath := path
    readable := false
    expectedChunks := fileMeta.chunkCount
    received := ∅
    expectedHash := fileMeta.hash
    fileSize := fileMeta.size })

def loadReceived (fileMeta : FileMeta) (data : Bytes) : Finset Nat :=
  ((unpackU32 data).filter (· < fileMeta.chunkCount)).toFinset

/-- The file is opened for reading and writing and keeps its length. -/
def loadState (disk : Disk) (path : Path) (fileMeta : FileMeta) : Result (Option FileAssembler) :=
  match disk (statePath path) with
  | none => .ok none
  | some data =>
    match disk path with
    | none => .error (.io "No such file or directory (os error 2)")
    | some _ => .ok (some {
        destPath := path
        readable := true
        expectedChunks := fileMeta.chunkCount
        received := loadReceived fileMeta data
        expectedHash := fileMeta.hash
        fileSize := fileMeta.size })

/-- The bytes behind the handle. -/
def content (asm : FileAssembler) (disk : Disk) : Bytes :=
  (disk asm.destPath).getD []

def saveState (order : IterOrder) (asm : FileAssembler) (disk : Disk) : Disk :=
  Function.update disk (statePath asm.destPath) (some (packU32 (order.toList asm.received)))

def cleanupState (asm : FileAssembler) (disk : Disk) : Disk :=
  Function.update disk (statePath asm.destPath) none

variable (sha256 : Bytes → Bytes)

/-- Seek, write and flush are one write at the offset of the chunk. A failure to save the state is
ignored by the code, and not modelled. -/
def writeChunk (order : IterOrder) (disk : Disk) (asm : FileAssembler) (index : Nat)
    (data hash : Bytes) : (Disk × FileAssembler) × Result Unit :=
  if sha256 data ≠ hash then
    ((disk, asm), .error (.transfer ("chunk " ++ toString index ++ " hash mismatch")))
  else if index ≥ asm.expectedChunks then
    ((disk, asm), .error (outOfRange index asm.expectedChunks))
  else
    let offset := index * chunkSize
    let disk := Function.update disk asm.destPath
      (some (Lib.writeAt 0 (asm.content disk) offset data))
    let asm := { asm with received := insert index asm.received }
    if (asm.received.card % u32Size) % saveStateInterval = 0 then
      ((asm.saveState order disk, asm), .ok ())
    else ((disk, asm), .ok ())

def isComplete (asm : FileAssembler) : Bool :=
  asm.received.card % u32Size = asm.expectedChunks

def missingChunks (asm : FileAssembler) : List Nat :=
  (List.range asm.expectedChunks).filter (· ∉ asm.received)

/-- The exact fraction; its rounding to an `f64` is left out. -/
def progress (asm : FileAssembler) : Rat :=
  if asm.expectedChunks = 0 then 1 else (asm.received.card : Rat) / asm.expectedChunks

/-- The loop of `verify`, with the bytes hashed so far. A read at `pos` yields at most `shorts pos`
bytes, but at least one before the end of the file. `fuel` bounds the number of reads. -/
def verifyLoop (readable : Bool) (file : Bytes) (shorts : Nat → Nat) :
    (fuel bytesLeft pos : Nat) → Bytes → Result Bytes
  | 0, _, _, hashed => .ok hashed
  | fuel + 1, bytesLeft, pos, hashed =>
    if bytesLeft = 0 then .ok hashed
    else if readable = false then .error (.io "Bad file descriptor (os error 9)")
    else
      let toRead := min bytesLeft chunkSize
      let n := min (min toRead (max 1 (shorts pos))) (file.length - pos)
      if n = 0 then .ok hashed
      else
        verifyLoop readable file shorts fuel (bytesLeft - n) (pos + n)
          (hashed ++ (file.drop pos).take n)

/-- The cloned handle has the access mode of the handle. -/
def verify (asm : FileAssembler) (disk : Disk) (shorts : Nat → Nat) : Result Bool :=
  (verifyLoop asm.readable (asm.content disk) shorts asm.fileSize asm.fileSize 0 []).map
    fun hashed => decide (sha256 hashed = asm.expectedHash)

end FileAssembler

/-! ## The receiving side of a transfer -/

/-- `TransferReceiver` wraps an assembler. -/
abbrev TransferReceiver := FileAssembler

/-- `true` when the transfer is complete. -/
def TransferReceiver.handleChunk (sha256 : Bytes → Bytes) (order : IterOrder) (disk : Disk)
    (recv : TransferReceiver) (index : Nat) (data hash : Bytes) :
    (Disk × TransferReceiver) × Result Bool :=
  let out := FileAssembler.writeChunk sha256 order disk recv index data hash
  (out.1, out.2.map fun _ => FileAssembler.isComplete out.1.2)

end Cypher.Transfer
