import Cypher.Transfer.Verify.Reassembly

/-!
# What `verify` says about the destination

`verify` hashes the first `file_size` bytes behind a clone of the handle, however the reads are cut
(`verify_readable`). A handle from `FileAssembler::new` cannot be read, so `verify` fails unless there
is nothing to read; a handle from `load_state` can, but the chunks that the sidecar names are taken
from the disk as they are (`verified_iff`). And a file that is longer than `meta.size` passes
(`verified_exact_iff`).
-/

namespace Cypher.Transfer

namespace FileAssembler

variable {sha256 : Bytes → Bytes}

/-! ## The read loop -/

/-- Short reads make no difference. -/
theorem verifyLoop_readable (file : Bytes) (shorts : Nat → Nat) {fuel bytesLeft : Nat}
    (hfuel : bytesLeft ≤ fuel) (pos : Nat) (hashed : Bytes) :
    verifyLoop true file shorts fuel bytesLeft pos hashed =
      .ok (hashed ++ (file.drop pos).take bytesLeft) := by
  induction fuel generalizing bytesLeft pos hashed with
  | zero =>
    obtain rfl : bytesLeft = 0 := by omega
    simp [verifyLoop]
  | succ fuel ih =>
    unfold verifyLoop
    by_cases hleft : bytesLeft = 0
    · simp [hleft]
    · rw [if_neg hleft, if_neg (by simp)]
      dsimp only
      have hchunk := chunkSize_pos
      split
      · next hend =>
        have hempty : file.drop pos = [] := List.drop_eq_nil_of_le (by omega)
        simp [hempty]
      · next hread =>
        set n := min (min (min bytesLeft chunkSize) (max 1 (shorts pos))) (file.length - pos) with hn
        have hle : n ≤ bytesLeft := by omega
        rw [ih (by omega), List.append_assoc, ← List.drop_drop, ← List.take_add]
        rw [Nat.add_sub_of_le hle]

theorem verify_readable {asm : FileAssembler} (hreadable : asm.readable = true) (disk : Disk)
    (shorts : Nat → Nat) :
    asm.verify sha256 disk shorts =
      .ok (decide (sha256 ((asm.content disk).take asm.fileSize) = asm.expectedHash)) := by
  unfold verify
  rw [hreadable, verifyLoop_readable _ _ (Nat.le_refl _)]
  rfl

theorem verify_unreadable {asm : FileAssembler} (hreadable : asm.readable = false) (disk : Disk)
    (shorts : Nat → Nat) :
    asm.verify sha256 disk shorts =
      if asm.fileSize = 0 then .ok (decide (sha256 [] = asm.expectedHash))
      else .error (.io "Bad file descriptor (os error 9)") := by
  unfold verify
  rw [hreadable]
  cases hsize : asm.fileSize with
  | zero => rfl
  | succ n =>
    rw [if_neg (by omega)]
    rfl

/-! ## How an assembler comes about -/

/-- The assembler is what `FileAssembler::new` or `load_state` yields, on the disk they leave. -/
inductive Opened (disk : Disk) (path : Path) (fileMeta : FileMeta) : Disk → FileAssembler → Prop
  | created : Opened disk path fileMeta (new disk path fileMeta).1 (new disk path fileMeta).2
  | loaded {asm : FileAssembler} (h : loadState disk path fileMeta = .ok (some asm)) :
      Opened disk path fileMeta disk asm

namespace Opened

variable {disk disk₀ : Disk} {path : Path} {fileMeta : FileMeta} {asm : FileAssembler}

theorem loadState_ok (h : loadState disk path fileMeta = .ok (some asm)) :
    ∃ data file, disk (statePath path) = some data ∧ disk path = some file ∧
      asm = ⟨path, true, fileMeta.chunkCount, loadReceived fileMeta data, fileMeta.hash,
        fileMeta.size⟩ := by
  unfold loadState at h
  split at h
  · cases h
  · next data hdata =>
    split at h
    · cases h
    · next file hfile =>
      simp only [Except.ok.injEq, Option.some.injEq] at h
      exact ⟨data, file, hdata, hfile, h.symm⟩

theorem fields (h : Opened disk path fileMeta disk₀ asm) :
    asm.destPath = path ∧ asm.expectedChunks = fileMeta.chunkCount ∧
      asm.expectedHash = fileMeta.hash ∧ asm.fileSize = fileMeta.size ∧
      ∃ file, disk₀ path = some file := by
  cases h with
  | created => exact ⟨rfl, rfl, rfl, rfl, _, Function.update_self _ _ _⟩
  | loaded h =>
    obtain ⟨data, file, -, hfile, rfl⟩ := loadState_ok h
    exact ⟨rfl, rfl, rfl, rfl, file, hfile⟩

end Opened

/-- What a run of genuine chunks does, whatever the assembler started from. -/
theorem file_of_genuine {content : Bytes} {fileId : FileId} {disk : Disk} {asm : FileAssembler}
    {file : Bytes} (hfile : disk asm.destPath = some file) {calls : List WriteCall}
    (h : ∀ call ∈ calls, Genuine sha256 (.new sha256 content fileId) call)
    (hasm : asm.expectedChunks = (FileChunker.new sha256 content fileId).chunkCount) (i : Nat) :
    Lib.HoldsBlock chunkSize (asm.content (writeChunks sha256 (disk, asm) calls).1.1) content i ↔
      i ∈ calls.map WriteCall.index ∨ Lib.HoldsBlock chunkSize
        (Lib.extend 0 file (Lib.extent file.length (writes sha256 asm calls))) content i := by
  rw [FileAssembler.content, file_writeChunks calls hfile, writes_of_genuine h hasm]
  exact Lib.holdsBlock_writeAll chunkSize_pos file _

end FileAssembler

open FileAssembler

/-- **When a received file passes verification.** Whatever genuine chunks a new or loaded assembler
has received, `verify` returns `Ok(true)` exactly if the file is empty, or the handle can be read and
every block that did not arrive is on the disk already, where a gap before an arrived chunk counts as
zeros. The bytes assembled and the file do not collide under SHA-256. -/
theorem verified_iff (sha256 : Bytes → Bytes) (z : Zstd) (hz : z.Inverts) (content : Bytes)
    (fileId : FileId) (name : Bytes) (compressed : Bool) (disk : Disk) (path : Path) {disk₀ : Disk}
    {asm : FileAssembler}
    (hopened : Opened disk path ((FileChunker.new sha256 content fileId).fileMeta name compressed)
      disk₀ asm)
    (calls : List WriteCall)
    (harrive : ∀ call ∈ calls, Arrives sha256 z (.new sha256 content fileId) compressed call)
    {disk' : Disk} {asm' : FileAssembler} {results : List (Result Unit)}
    (hrun : writeChunks sha256 (disk₀, asm) calls = ((disk', asm'), results))
    (hcollision : sha256 ((asm'.content disk').take content.length) = sha256 content →
      (asm'.content disk').take content.length = content)
    (shorts : Nat → Nat) :
    asm'.verify sha256 disk' shorts = .ok true ↔
      content = [] ∨ (asm.readable = true ∧ ∀ i, i ∉ calls.map WriteCall.index →
        Lib.HoldsBlock chunkSize (Lib.extend 0 (asm.content disk₀)
          (Lib.extent (asm.content disk₀).length (writes sha256 asm calls))) content i) := by
  have hgenuine : ∀ call ∈ calls, Genuine sha256 (.new sha256 content fileId) call :=
    fun call hcall => genuine_of_arrives hz (harrive call hcall)
  obtain ⟨hpath, hchunks, hhash, hsize, file, hfile⟩ := hopened.fields
  have hasm' : asm' = { asm with received := asm.received ∪ (calls.map WriteCall.index).toFinset } := by
    rw [← received_of_genuine hgenuine hchunks disk₀, hrun]
  have hreadable : asm'.readable = asm.readable := by rw [hasm']
  have hsize' : asm'.fileSize = content.length := by
    rw [hasm']
    exact hsize
  have hhash' : asm'.expectedHash = sha256 content := by
    rw [hasm']
    exact hhash
  have hcontent : asm.content disk₀ = file := by
    rw [FileAssembler.content, hpath, hfile]
    rfl
  cases hread : asm.readable with
  | false =>
    rw [verify_unreadable (hreadable.trans hread), hsize', hhash']
    by_cases hempty : content = []
    · simp [hempty]
    · rw [if_neg (by simpa using hempty)]
      simp [hempty]
  | true =>
    have hcontent' : asm.content (writeChunks sha256 (disk₀, asm) calls).1.1 =
        asm'.content disk' := by
      rw [hrun, hasm']
      rfl
    have hholds := file_of_genuine (hpath ▸ hfile) hgenuine hchunks
    rw [hcontent'] at hholds
    rw [verify_readable (hreadable.trans hread), hsize', hhash', hcontent]
    have hsame : (sha256 ((asm'.content disk').take content.length) = sha256 content) ↔
        ∀ i, Lib.HoldsBlock chunkSize (asm'.content disk') content i := by
      rw [← Lib.take_eq_iff_holdsBlock]
      exact ⟨hcollision, congrArg sha256⟩
    simp only [Except.ok.injEq, decide_eq_true_eq, hsame, hholds, true_and]
    constructor
    · intro hall
      exact .inr fun i hi => (hall i).resolve_left hi
    · rintro (rfl | hall) i
      · exact .inr fun k hk => by cases hk
      · exact or_iff_not_imp_left.mpr (hall i)

/-- A file `a` of three bytes, and a sidecar without indices. -/
def preparedDisk : Disk :=
  fun p => if p = "a".toList then some [0, 0, 0] else some []

theorem verified_iff_loaded :
    ∃ asm, loadState preparedDisk "a".toList
        ((FileChunker.new id [1, 2, 3] ⟨List.replicate 16 0, rfl⟩).fileMeta (ascii "a") false) =
          .ok (some asm) ∧
      (writeChunks id (preparedDisk, asm)
          [⟨0, [1, 2, 3], [1, 2, 3], .increasing⟩]).1.2.verify id
        (writeChunks id (preparedDisk, asm)
          [⟨0, [1, 2, 3], [1, 2, 3], .increasing⟩]).1.1 (fun _ => 1) = .ok true := by
  refine ⟨_, rfl, ?_⟩
  refine (verified_iff id Zstd.stored ?_ [1, 2, 3] ⟨List.replicate 16 0, rfl⟩ (ascii "a") false
    preparedDisk "a".toList (.loaded rfl) _ ?_ rfl id _).mpr (.inr ⟨rfl, ?_⟩)
  · intro data encoded hencoded
    exact congrArg Except.ok (Except.ok.inj hencoded).symm
  · intro call hcall
    rw [List.mem_singleton.mp hcall]
    exact ⟨[1, 2, 3], by decide +kernel, rfl⟩
  · intro i hi k hk hdiv
    have hzero : k / chunkSize = 0 := Nat.div_eq_of_lt (Nat.lt_trans hk (by decide +kernel))
    rw [← hdiv, hzero] at hi
    exact absurd (List.mem_singleton.mpr rfl) hi

/-- The one chunk of a one-byte file has arrived, and `verify` cannot read the file it has written. -/
theorem new_file_unverified :
    (receive id (.new id [7] ⟨List.replicate 16 0, rfl⟩) (ascii "a") false (fun _ => none)
        "a".toList [⟨0, [7], [7], .increasing⟩]).1.2.isComplete = true ∧
      (receive id (.new id [7] ⟨List.replicate 16 0, rfl⟩) (ascii "a") false (fun _ => none)
        "a".toList [⟨0, [7], [7], .increasing⟩]).1.2.verify id
          (receive id (.new id [7] ⟨List.replicate 16 0, rfl⟩) (ascii "a") false (fun _ => none)
            "a".toList [⟨0, [7], [7], .increasing⟩]).1.1 (fun _ => 1) =
        .error (.io "Bad file descriptor (os error 9)") := by
  decide +kernel

/-- **When verification means the exact file.** After any calls of `write_chunk`, if `verify` returns
`Ok(true)`, the destination has `meta.size` bytes and the hash `meta.hash` exactly if the length it had
at first and the ends of the accepted writes come to `meta.size`. -/
theorem verified_exact_iff (sha256 : Bytes → Bytes) (disk : Disk) (path : Path)
    (fileMeta : FileMeta) {disk₀ : Disk} {asm : FileAssembler}
    (hopened : Opened disk path fileMeta disk₀ asm) (calls : List WriteCall) {disk' : Disk}
    {asm' : FileAssembler} {results : List (Result Unit)}
    (hrun : writeChunks sha256 (disk₀, asm) calls = ((disk', asm'), results))
    (shorts : Nat → Nat) (hverified : asm'.verify sha256 disk' shorts = .ok true) :
    ∃ file, disk' path = some file ∧
      ((file.length = fileMeta.size ∧ sha256 file = fileMeta.hash) ↔
        Lib.extent (asm.content disk₀).length (writes sha256 asm calls) = fileMeta.size) := by
  obtain ⟨hpath, hchunks, hhash, hsize, file, hfile⟩ := hopened.fields
  have hafter : (writeChunks sha256 (disk₀, asm) calls).1.1 asm.destPath = _ :=
    file_writeChunks calls (hpath ▸ hfile)
  have hasm' : asm' = { asm with received :=
      asm.received ∪ ((accepted sha256 asm calls).map WriteCall.index).toFinset } := by
    rw [← writeChunks_asm disk₀ asm calls, hrun]
  rw [hrun] at hafter
  dsimp only at hafter
  have hcontent : asm.content disk₀ = file := by
    rw [FileAssembler.content, hpath, hfile]
    rfl
  set file' := Lib.writeAll 0 file (writes sha256 asm calls) with hfile'
  have hlength : file'.length = Lib.extent file.length (writes sha256 asm calls) :=
    Lib.length_writeAll _ _
  have hcontent' : asm'.content disk' = file' := by
    rw [hasm', FileAssembler.content, hafter]
    rfl
  have hsize' : asm'.fileSize = fileMeta.size := by
    rw [hasm']
    exact hsize
  have hhash' : asm'.expectedHash = fileMeta.hash := by
    rw [hasm']
    exact hhash
  refine ⟨file', hpath ▸ hafter, ?_⟩
  rw [hcontent, ← hlength]
  refine ⟨And.left, fun hlen => ⟨hlen, ?_⟩⟩
  cases hread : asm'.readable with
  | true =>
    rw [verify_readable hread, hcontent', hsize', hhash',
      List.take_of_length_le (Nat.le_of_eq hlen)] at hverified
    exact of_decide_eq_true (Except.ok.inj hverified)
  | false =>
    rw [verify_unreadable hread, hsize', hhash'] at hverified
    split at hverified
    · next hzero =>
      obtain hempty : file' = [] := List.length_eq_zero_iff.mp (hlen.trans hzero)
      rw [hempty]
      exact of_decide_eq_true (Except.ok.inj hverified)
    · cases hverified

theorem verified_exact_iff_loaded :
    ∃ asm, loadState preparedDisk "a".toList
        ⟨⟨List.replicate 16 0, rfl⟩, ascii "a", 3, 1, [1, 2, 3], false⟩ = .ok (some asm) ∧
      ∃ file, (writeChunks id (preparedDisk, asm)
          [⟨0, [1, 2, 3], [1, 2, 3], .increasing⟩]).1.1 "a".toList = some file ∧
        file.length = 3 ∧ file = [1, 2, 3] := by
  refine ⟨_, rfl, ?_⟩
  obtain ⟨file, hfile, hexact⟩ := verified_exact_iff id preparedDisk "a".toList
    ⟨⟨List.replicate 16 0, rfl⟩, ascii "a", 3, 1, [1, 2, 3], false⟩ (.loaded rfl)
    [⟨0, [1, 2, 3], [1, 2, 3], .increasing⟩] rfl (fun _ => 1) (by decide +kernel)
  exact ⟨file, hfile, hexact.mpr (by decide +kernel)⟩

/-- The offer is of an empty file in one chunk: `verify` reads nothing, and the file has a byte. -/
theorem oversized_verified :
    (writeChunks id (FileAssembler.new (fun _ => none) "a".toList
          ⟨⟨List.replicate 16 0, rfl⟩, ascii "a", 0, 1, [], false⟩)
        [⟨0, [1], [1], .increasing⟩]).1.2.verify id
        (writeChunks id (FileAssembler.new (fun _ => none) "a".toList
          ⟨⟨List.replicate 16 0, rfl⟩, ascii "a", 0, 1, [], false⟩)
          [⟨0, [1], [1], .increasing⟩]).1.1 (fun _ => 1) = .ok true ∧
      (writeChunks id (FileAssembler.new (fun _ => none) "a".toList
          ⟨⟨List.replicate 16 0, rfl⟩, ascii "a", 0, 1, [], false⟩)
        [⟨0, [1], [1], .increasing⟩]).1.1 "a".toList = some [1] := by
  decide +kernel

end Cypher.Transfer
