import Cypher.Common
import Cypher.Lib.File

/-!
# Cutting a file into chunks (`cypher-transfer/src/chunker.rs`, `compress.rs`)

SHA-256 and zstd are functions from outside the repository. The source file does not change while it
is sent, so a chunker holds its content. `read_exact` reads the whole slice.
-/

namespace Cypher.Transfer

/-- `CHUNK_SIZE`: 256 KB. -/
def chunkSize : Nat := 256 * 1024

abbrev FileId := {b : Bytes // b.length = 16}

/-- `size` is a `u64` and `chunkCount` a `u32`. -/
structure FileMeta where
  fileId : FileId
  name : Bytes
  size : Nat
  chunkCount : Nat
  hash : Bytes
  compressed : Bool
  deriving DecidableEq

/-- `index {} out of range (total {})`, as both ends report it. -/
def outOfRange (index total : Nat) : Error :=
  .transfer ("chunk index " ++ toString index ++ " out of range (total " ++ toString total ++ ")")

structure FileChunker where
  content : Bytes
  fileId : FileId
  fileSize : Nat
  chunkCount : Nat
  fileHash : Bytes

namespace FileChunker

variable (sha256 : Bytes → Bytes)

/-- `fileId` is what `FileId::generate` yields. The number of chunks is cut to a `u32`. -/
def new (content : Bytes) (fileId : FileId) : FileChunker where
  content
  fileId
  fileSize := content.length
  chunkCount :=
    if content.length = 0 then 0 else ((content.length + chunkSize - 1) / chunkSize) % u32Size
  fileHash := sha256 content

def fileMeta (chunker : FileChunker) (name : Bytes) (compressed : Bool) : FileMeta where
  fileId := chunker.fileId
  name
  size := chunker.fileSize
  chunkCount := chunker.chunkCount
  hash := chunker.fileHash
  compressed

/-- The data of a chunk and its hash. -/
def readChunk (chunker : FileChunker) (index : Nat) : Result (Bytes × Bytes) :=
  if index ≥ chunker.chunkCount then .error (outOfRange index chunker.chunkCount)
  else
    let offset := index * chunkSize
    let remaining := chunker.fileSize - offset
    let toRead := min remaining chunkSize
    let buf := (chunker.content.drop offset).take toRead
    .ok (buf, sha256 buf)

end FileChunker

/-- `zstd::encode_all` and `zstd::decode_all`; an error is its text. -/
structure Zstd where
  encodeAll : Bytes → Except String Bytes
  decodeAll : Bytes → Except String Bytes

namespace Zstd

variable (z : Zstd)

def compressChunk (data : Bytes) : Result Bytes :=
  (z.encodeAll data).mapError fun e => .transfer ("zstd compress: " ++ e)

def decompressChunk (data : Bytes) : Result Bytes :=
  (z.decodeAll data).mapError fun e => .transfer ("zstd decompress: " ++ e)

/-- Decoding inverts encoding. -/
def Inverts : Prop :=
  ∀ data encoded, z.encodeAll data = .ok encoded → z.decodeAll encoded = .ok data

end Zstd

end Cypher.Transfer
