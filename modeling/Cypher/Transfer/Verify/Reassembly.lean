import Cypher.Transfer.Assembler

/-!
# Chunks make up the file again

A run of `write_chunk` calls writes the data of the calls it accepts at the offsets of their indices
(`file_writeChunks`) and collects those indices (`writeChunks_asm`). The chunks of a file are its
blocks, so an assembler made by `FileAssembler::new` holds the file once it has received each of them,
in whatever order and however often (`transfer_reassembles`).
-/

namespace Cypher.Transfer

/-- A call of `write_chunk`, with the order in which the set of received indices is saved. -/
structure WriteCall where
  index : Nat
  data : Bytes
  hash : Bytes
  order : IterOrder

theorem statePath_ne (dest : Path) : statePath dest ≠ dest := by
  intro heq
  have hlength := congrArg List.length heq
  rw [statePath, List.length_append] at hlength
  simp at hlength

namespace FileAssembler

variable (sha256 : Bytes → Bytes)

def writeChunks : Disk × FileAssembler → List WriteCall → (Disk × FileAssembler) × List (Result Unit)
  | state, [] => (state, [])
  | state, call :: rest =>
    let out := writeChunk sha256 call.order state.1 state.2 call.index call.data call.hash
    let run := writeChunks out.1 rest
    (run.1, out.2 :: run.2)

def Accepts (asm : FileAssembler) (call : WriteCall) : Prop :=
  sha256 call.data = call.hash ∧ call.index < asm.expectedChunks

instance (asm : FileAssembler) (call : WriteCall) : Decidable (Accepts sha256 asm call) :=
  inferInstanceAs (Decidable (_ ∧ _))

def accepted (asm : FileAssembler) (calls : List WriteCall) : List WriteCall :=
  calls.filter fun call => Accepts sha256 asm call

def writes (asm : FileAssembler) (calls : List WriteCall) : List (Nat × Bytes) :=
  (accepted sha256 asm calls).map fun call => (call.index * chunkSize, call.data)

/-! ## One call -/

variable {sha256} {asm : FileAssembler} {call : WriteCall}

theorem writeChunk_of_accepts (disk : Disk) (h : Accepts sha256 asm call) :
    ∃ disk', writeChunk sha256 call.order disk asm call.index call.data call.hash =
        ((disk', { asm with received := insert call.index asm.received }), .ok ()) ∧
      disk' asm.destPath =
        some (Lib.writeAt 0 (asm.content disk) (call.index * chunkSize) call.data) := by
  unfold writeChunk
  rw [if_neg (not_not_intro h.1), if_neg (Nat.not_le.mpr h.2)]
  dsimp only
  split
  · refine ⟨_, rfl, ?_⟩
    rw [saveState, Function.update_of_ne (statePath_ne asm.destPath).symm, Function.update_self]
  · exact ⟨_, rfl, Function.update_self _ _ _⟩

theorem sidecar_writeChunk (disk : Disk) (h : Accepts sha256 asm call)
    (hsave : ((insert call.index asm.received).card % u32Size) % saveStateInterval = 0) :
    (writeChunk sha256 call.order disk asm call.index call.data call.hash).1.1
        (statePath asm.destPath) =
      some (packU32 (call.order.toList (insert call.index asm.received))) := by
  unfold writeChunk
  rw [if_neg (not_not_intro h.1), if_neg (Nat.not_le.mpr h.2)]
  dsimp only
  rw [if_pos hsave]
  exact Function.update_self _ _ _

theorem writeChunk_of_not_accepts (disk : Disk) (h : ¬ Accepts sha256 asm call) :
    ∃ err, writeChunk sha256 call.order disk asm call.index call.data call.hash =
      ((disk, asm), .error err) := by
  unfold writeChunk
  split
  · exact ⟨_, rfl⟩
  · next hhash =>
    rw [if_pos]
    · exact ⟨_, rfl⟩
    · by_contra hlt
      exact h ⟨not_not.mp hhash, Nat.not_le.mp hlt⟩

/-! ## A run of calls -/

theorem accepted_cons (calls : List WriteCall) :
    accepted sha256 asm (call :: calls) =
      if Accepts sha256 asm call then call :: accepted sha256 asm calls
      else accepted sha256 asm calls := by
  unfold accepted
  rw [List.filter_cons]
  simp

theorem writeChunks_asm (disk : Disk) (asm : FileAssembler) (calls : List WriteCall) :
    (writeChunks sha256 (disk, asm) calls).1.2 =
      { asm with received :=
          asm.received ∪ ((accepted sha256 asm calls).map WriteCall.index).toFinset } := by
  induction calls generalizing disk asm with
  | nil => simp [writeChunks, accepted]
  | cons call calls ih =>
    rw [writeChunks, accepted_cons]
    by_cases h : Accepts sha256 asm call
    · obtain ⟨disk', hcall, -⟩ := writeChunk_of_accepts disk h
      rw [hcall, if_pos h]
      dsimp only
      rw [ih]
      have hsame : accepted sha256 { asm with received := insert call.index asm.received } calls =
          accepted sha256 asm calls := rfl
      rw [hsame, List.map_cons, List.toFinset_cons, Finset.insert_union, Finset.union_insert]
    · obtain ⟨err, hcall⟩ := writeChunk_of_not_accepts disk h
      rw [hcall, if_neg h]
      exact ih disk asm

theorem file_writeChunks (calls : List WriteCall) {disk : Disk} {asm : FileAssembler} {file : Bytes}
    (h : disk asm.destPath = some file) :
    (writeChunks sha256 (disk, asm) calls).1.1 asm.destPath =
      some (Lib.writeAll 0 file (writes sha256 asm calls)) := by
  induction calls generalizing disk asm file with
  | nil => exact h
  | cons call calls ih =>
    rw [writeChunks, writes, accepted_cons]
    by_cases hcall : Accepts sha256 asm call
    · obtain ⟨disk', heq, hdisk⟩ := writeChunk_of_accepts disk hcall
      rw [content, h, Option.getD_some] at hdisk
      rw [heq, if_pos hcall]
      exact @ih disk' { asm with received := insert call.index asm.received } _ hdisk
    · obtain ⟨err, heq⟩ := writeChunk_of_not_accepts disk hcall
      rw [heq, if_neg hcall]
      exact ih h

theorem writeChunks_append (state : Disk × FileAssembler) (calls calls' : List WriteCall) :
    (writeChunks sha256 state (calls ++ calls')).1 =
      (writeChunks sha256 (writeChunks sha256 state calls).1 calls').1 := by
  induction calls generalizing state with
  | nil => rfl
  | cons call calls ih => exact ih _

theorem results_writeChunks {disk : Disk} {asm : FileAssembler} {calls : List WriteCall}
    (h : ∀ call ∈ calls, Accepts sha256 asm call) :
    ∀ r ∈ (writeChunks sha256 (disk, asm) calls).2, r = .ok () := by
  induction calls generalizing disk asm with
  | nil => simp [writeChunks]
  | cons call calls ih =>
    obtain ⟨disk', hcall, -⟩ := writeChunk_of_accepts disk (h call List.mem_cons_self)
    rw [writeChunks, hcall]
    intro r hr
    rcases List.mem_cons.mp hr with rfl | hr
    · rfl
    · exact @ih disk' { asm with received := insert call.index asm.received }
        (fun call' hcall' => h call' (List.mem_cons_of_mem _ hcall')) r hr

theorem accepted_of_all {calls : List WriteCall} (h : ∀ call ∈ calls, Accepts sha256 asm call) :
    accepted sha256 asm calls = calls := by
  unfold accepted
  rw [List.filter_eq_self]
  exact fun call hcall => decide_eq_true (h call hcall)

end FileAssembler

/-! ## The chunks of a file -/

theorem chunkSize_pos : 0 < chunkSize := by decide

section Chunks

variable (sha256 : Bytes → Bytes)

/-- The chunk that arrives is what `read_chunk` returns, compressed and decompressed again if the
transfer is compressed. -/
def Arrives (z : Zstd) (chunker : FileChunker) (compressed : Bool) (call : WriteCall) : Prop :=
  ∃ data, chunker.readChunk sha256 call.index = .ok (data, call.hash) ∧
    if compressed then
      ∃ packed, z.compressChunk data = .ok packed ∧ z.decompressChunk packed = .ok call.data
    else call.data = data

/-- A block of the file with its hash. -/
structure Genuine (chunker : FileChunker) (call : WriteCall) : Prop where
  index : call.index < chunker.chunkCount
  data : call.data = Lib.block chunkSize chunker.content call.index
  hash : sha256 call.data = call.hash

variable {sha256} {content : Bytes} {fileId : FileId} {call : WriteCall}

theorem Zstd.Inverts.chunk {z : Zstd} (hz : z.Inverts) {data packed plain : Bytes}
    (hpacked : z.compressChunk data = .ok packed) (hplain : z.decompressChunk packed = .ok plain) :
    plain = data := by
  have hencoded : z.encodeAll data = .ok packed := mapError_eq_ok_iff.mp hpacked
  have hdecoded : z.decodeAll packed = .ok plain := mapError_eq_ok_iff.mp hplain
  rw [hz data packed hencoded] at hdecoded
  exact (Except.ok.inj hdecoded).symm

theorem readChunk_ok {index : Nat} {data hash : Bytes}
    (h : (FileChunker.new sha256 content fileId).readChunk sha256 index = .ok (data, hash)) :
    index < (FileChunker.new sha256 content fileId).chunkCount ∧
      data = Lib.block chunkSize content index ∧ sha256 data = hash := by
  unfold FileChunker.readChunk at h
  split at h
  · cases h
  · next hindex =>
    simp only [Except.ok.injEq, Prod.mk.injEq] at h
    obtain ⟨rfl, rfl⟩ := h
    refine ⟨Nat.not_le.mp hindex, ?_, rfl⟩
    refine List.take_eq_take_iff.mpr ?_
    rw [List.length_drop]
    simp only [FileChunker.new]
    omega

theorem genuine_of_arrives {z : Zstd} (hz : z.Inverts) {compressed : Bool}
    (h : Arrives sha256 z (.new sha256 content fileId) compressed call) :
    Genuine sha256 (.new sha256 content fileId) call := by
  obtain ⟨data, hread, hsent⟩ := h
  obtain ⟨hindex, hblock, hhash⟩ := readChunk_ok hread
  have hdata : call.data = data := by
    cases compressed with
    | false => exact hsent
    | true =>
      obtain ⟨packed, hpacked, hplain⟩ := hsent
      exact hz.chunk hpacked hplain
  rw [← hdata] at hblock hhash
  exact ⟨hindex, hblock, hhash⟩

/-- Up to `(2^32 - 1) * CHUNK_SIZE` bytes, every position is in a chunk. -/
theorem div_lt_chunkCount (hsize : content.length ≤ (u32Size - 1) * chunkSize) {k : Nat}
    (hk : k < content.length) :
    k / chunkSize < (FileChunker.new sha256 content fileId).chunkCount := by
  have hcount : (content.length + chunkSize - 1) / chunkSize < u32Size := by
    rw [Nat.div_lt_iff_lt_mul chunkSize_pos]
    have : u32Size = (u32Size - 1) + 1 := by decide
    rw [this, Nat.add_mul]
    omega
  simp only [FileChunker.new]
  rw [if_neg (by omega), Nat.mod_eq_of_lt hcount, Nat.lt_div_iff_mul_lt chunkSize_pos]
  have hle := Nat.div_mul_le_self k chunkSize
  have hpos := chunkSize_pos
  omega

theorem chunkCount_lt : (FileChunker.new sha256 content fileId).chunkCount < u32Size := by
  simp only [FileChunker.new]
  split
  · decide
  · exact Nat.mod_lt _ (by decide)

end Chunks

/-! ## Genuine chunks -/

section Assembly

variable {sha256 : Bytes → Bytes} {content : Bytes} {fileId : FileId} {calls : List WriteCall}
variable {asm : FileAssembler}

theorem Genuine.accepts {call : WriteCall} (h : Genuine sha256 (.new sha256 content fileId) call)
    (hasm : asm.expectedChunks = (FileChunker.new sha256 content fileId).chunkCount) :
    FileAssembler.Accepts sha256 asm call :=
  ⟨h.hash, hasm ▸ h.index⟩

theorem writes_of_genuine (h : ∀ call ∈ calls, Genuine sha256 (.new sha256 content fileId) call)
    (hasm : asm.expectedChunks = (FileChunker.new sha256 content fileId).chunkCount) :
    FileAssembler.writes sha256 asm calls =
      (calls.map WriteCall.index).map fun i => (i * chunkSize, Lib.block chunkSize content i) := by
  unfold FileAssembler.writes
  rw [FileAssembler.accepted_of_all fun call hcall => (h call hcall).accepts hasm, List.map_map]
  refine List.map_congr_left fun call hcall => ?_
  rw [(h call hcall).data]
  rfl

theorem received_of_genuine (h : ∀ call ∈ calls, Genuine sha256 (.new sha256 content fileId) call)
    (hasm : asm.expectedChunks = (FileChunker.new sha256 content fileId).chunkCount) (disk : Disk) :
    (FileAssembler.writeChunks sha256 (disk, asm) calls).1.2 =
      { asm with received := asm.received ∪ (calls.map WriteCall.index).toFinset } := by
  rw [FileAssembler.writeChunks_asm,
    FileAssembler.accepted_of_all fun call hcall => (h call hcall).accepts hasm]

theorem extent_blocks (is : List Nat) (length : Nat) (hlength : content.length ≤ length) :
    Lib.extent length (is.map fun i => (i * chunkSize, Lib.block chunkSize content i)) = length := by
  refine Lib.extent_eq_self fun w hw => ?_
  obtain ⟨i, -, rfl⟩ := List.mem_map.mp hw
  dsimp only
  by_cases hempty : Lib.block chunkSize content i = []
  · exact .inl hempty
  · refine .inr ?_
    have hpos := List.length_pos_iff.mpr hempty
    rw [Lib.length_block] at hpos ⊢
    omega

theorem isComplete_iff (hlt : asm.expectedChunks < u32Size)
    (hreceived : asm.received ⊆ Finset.range asm.expectedChunks) :
    asm.isComplete = true ↔ asm.missingChunks = [] := by
  have hcard : asm.received.card ≤ asm.expectedChunks := by
    simpa using Finset.card_le_card hreceived
  unfold FileAssembler.isComplete FileAssembler.missingChunks
  rw [decide_eq_true_iff, Nat.mod_eq_of_lt (by omega), List.filter_eq_nil_iff]
  constructor
  · intro hfull i hi hmissing
    have heq : asm.received = Finset.range asm.expectedChunks :=
      Finset.eq_of_subset_of_card_le hreceived (by simp [hfull])
    rw [heq] at hmissing
    simp at hi hmissing
    omega
  · intro hnone
    have hsubset : Finset.range asm.expectedChunks ⊆ asm.received := by
      intro i hi
      have := hnone i (by simpa using hi)
      simpa using this
    have := Finset.card_le_card hsubset
    rw [Finset.card_range] at this
    omega

theorem file_of_missing {disk : Disk} {file : Bytes}
    (hsize : content.length ≤ (u32Size - 1) * chunkSize) (hfile : disk asm.destPath = some file)
    (hlength : file.length = content.length)
    (hasm : asm.expectedChunks = (FileChunker.new sha256 content fileId).chunkCount)
    (hreceived : ∀ i ∈ asm.received, Lib.HoldsBlock chunkSize file content i)
    (h : ∀ call ∈ calls, Genuine sha256 (.new sha256 content fileId) call)
    (hall : ∀ i ∈ asm.missingChunks, ∃ call ∈ calls, call.index = i) :
    (FileAssembler.writeChunks sha256 (disk, asm) calls).1.1 asm.destPath = some content := by
  rw [FileAssembler.file_writeChunks calls hfile, writes_of_genuine h hasm, Option.some.injEq]
  set written := Lib.writeAll 0 file
    ((calls.map WriteCall.index).map fun i => (i * chunkSize, Lib.block chunkSize content i))
    with hwritten
  have hextent : Lib.extent file.length ((calls.map WriteCall.index).map fun i =>
      (i * chunkSize, Lib.block chunkSize content i)) = file.length :=
    extent_blocks _ _ (Nat.le_of_eq hlength.symm)
  have hwlength : written.length = content.length := by
    rw [hwritten, Lib.length_writeAll, hextent, hlength]
  have hholds : ∀ i, Lib.HoldsBlock chunkSize written content i := by
    intro i
    rw [hwritten, Lib.holdsBlock_writeAll chunkSize_pos, hextent, Lib.extend, Nat.sub_self,
      List.replicate_zero, List.append_nil]
    by_cases hi : i < asm.expectedChunks
    · by_cases hmem : i ∈ asm.received
      · exact .inr (hreceived i hmem)
      · obtain ⟨call, hcall, rfl⟩ := hall i
          (List.mem_filter.mpr ⟨List.mem_range.mpr hi, decide_eq_true hmem⟩)
        exact .inl (List.mem_map_of_mem hcall)
    · -- there is no such block
      refine .inr fun k hk hdiv => ?_
      rw [← hdiv, hasm] at hi
      exact absurd (div_lt_chunkCount hsize hk) hi
  calc written = written.take content.length :=
        (List.take_of_length_le (Nat.le_of_eq hwlength)).symm
    _ = content := Lib.take_eq_iff_holdsBlock.mpr hholds

end Assembly

/-- What a new assembler for a file has made of the chunks so far, and the results of its calls. -/
def receive (sha256 : Bytes → Bytes) (chunker : FileChunker) (name : Bytes) (compressed : Bool)
    (disk : Disk) (path : Path) (calls : List WriteCall) :
    (Disk × FileAssembler) × List (Result Unit) :=
  FileAssembler.writeChunks sha256
    (FileAssembler.new disk path (chunker.fileMeta name compressed)) calls

section Receive

variable {sha256 : Bytes → Bytes} {content : Bytes} {fileId : FileId} {calls : List WriteCall}
variable (h : ∀ call ∈ calls, Genuine sha256 (.new sha256 content fileId) call)
variable (name : Bytes) (compressed : Bool) (disk : Disk) (path : Path)
include h

theorem receive_received :
    (receive sha256 (.new sha256 content fileId) name compressed disk path calls).1.2 =
      { (FileAssembler.new disk path
          ((FileChunker.new sha256 content fileId).fileMeta name compressed)).2 with
        received := (calls.map WriteCall.index).toFinset } := by
  refine (received_of_genuine h rfl _).trans ?_
  simp [FileAssembler.new]

theorem receive_results :
    ∀ r ∈ (receive sha256 (.new sha256 content fileId) name compressed disk path calls).2,
      r = .ok () :=
  FileAssembler.results_writeChunks fun call hcall => (h call hcall).accepts rfl

end Receive

/-- **A chunked transfer reassembles the file.** Whatever chunks of a file arrive, in whatever order
and however often, every `write_chunk` succeeds, `missing_chunks` lists the indices that have not
arrived, `is_complete` says whether there are none, and once all have arrived the destination is the
file. -/
theorem transfer_reassembles (sha256 : Bytes → Bytes) (z : Zstd) (hz : z.Inverts) (content : Bytes)
    (hsize : content.length ≤ (u32Size - 1) * chunkSize) (fileId : FileId) (name : Bytes)
    (compressed : Bool) (disk : Disk) (path : Path) (calls : List WriteCall)
    (harrive : ∀ call ∈ calls, Arrives sha256 z (.new sha256 content fileId) compressed call) :
    (∀ before after, calls = before ++ after →
      ∃ disk' asm results,
        receive sha256 (.new sha256 content fileId) name compressed disk path before =
          ((disk', asm), results) ∧
        (∀ r ∈ results, r = .ok ()) ∧
        asm.missingChunks = (List.range (FileChunker.new sha256 content fileId).chunkCount).filter
          (· ∉ before.map WriteCall.index) ∧
        (asm.isComplete = true ↔ asm.missingChunks = [])) ∧
      ((∀ i < (FileChunker.new sha256 content fileId).chunkCount,
          ∃ call ∈ calls, call.index = i) →
        (receive sha256 (.new sha256 content fileId) name compressed disk path calls).1.1 path =
          some content) := by
  have hgenuine : ∀ call ∈ calls, Genuine sha256 (.new sha256 content fileId) call :=
    fun call hcall => genuine_of_arrives hz (harrive call hcall)
  refine ⟨?_, ?_⟩
  · intro before after hcalls
    have hbefore : ∀ call ∈ before, Genuine sha256 (.new sha256 content fileId) call :=
      fun call hcall => hgenuine call (hcalls ▸ List.mem_append_left _ hcall)
    refine ⟨_, (receive sha256 _ name compressed disk path before).1.2, _, rfl,
      receive_results hbefore name compressed disk path, ?_, ?_⟩
    · rw [receive_received hbefore]
      simp [FileAssembler.missingChunks, FileAssembler.new, FileChunker.fileMeta]
    · rw [receive_received hbefore]
      have hlt : (FileChunker.new sha256 content fileId).chunkCount < u32Size := chunkCount_lt
      refine isComplete_iff hlt ?_
      intro i hi
      obtain ⟨call, hcall, rfl⟩ := List.mem_map.mp (List.mem_toFinset.mp hi)
      exact Finset.mem_range.mpr (hbefore call hcall).index
  · intro hall
    refine file_of_missing hsize (Function.update_self _ _ _) List.length_replicate rfl ?_ hgenuine ?_
    · exact fun i hi => absurd hi (Finset.notMem_empty i)
    · intro i hi
      exact hall i (List.mem_range.mp (List.mem_filter.mp hi).1)

/-- An encoding that leaves the data as it is. -/
def Zstd.stored : Zstd :=
  ⟨.ok, .ok⟩

/-- Chunk `index` of a file, compressed by `Zstd.stored` and hashed by the identity. -/
def storedCall (content : Bytes) (index : Nat) : WriteCall :=
  ⟨index, Lib.block chunkSize content index, Lib.block chunkSize content index, .increasing⟩

theorem arrives_storedCall {content : Bytes} {fileId : FileId} {index : Nat}
    (h : index < (FileChunker.new id content fileId).chunkCount) :
    Arrives id Zstd.stored (.new id content fileId) true (storedCall content index) := by
  obtain ⟨⟨data, hash⟩, hread⟩ : ∃ read,
      (FileChunker.new id content fileId).readChunk id index = .ok read :=
    ⟨_, if_neg (Nat.not_le.mpr h)⟩
  obtain ⟨-, rfl, rfl⟩ := readChunk_ok hread
  exact ⟨_, hread, _, rfl, rfl⟩

/-- A file of two chunks: the second one, which has one byte, arrives before the first and once more
after it. -/
theorem transfer_reassembles_twice :
    (receive id (.new id (List.replicate (chunkSize + 1) 7) ⟨List.replicate 16 0, rfl⟩) (ascii "a") true
      (fun _ => none) "a".toList
      ([1, 0, 1].map (storedCall (List.replicate (chunkSize + 1) 7)))).1.1 "a".toList =
        some (List.replicate (chunkSize + 1) 7) := by
  have hcount : (FileChunker.new id (List.replicate (chunkSize + 1) 7)
      ⟨List.replicate 16 0, rfl⟩).chunkCount = 2 := by
    simp only [FileChunker.new, List.length_replicate]
    decide +kernel
  refine (transfer_reassembles id Zstd.stored ?_ (List.replicate (chunkSize + 1) 7)
    (by rw [List.length_replicate]; decide) ⟨List.replicate 16 0, rfl⟩ (ascii "a") true
    (fun _ => none) "a".toList _ ?_).2 ?_
  · intro data encoded hencoded
    exact congrArg Except.ok (Except.ok.inj hencoded).symm
  · intro call hcall
    obtain ⟨i, hi, rfl⟩ := List.mem_map.mp hcall
    refine arrives_storedCall ?_
    rw [hcount]
    exact (by decide : ∀ i ∈ [1, 0, 1], i < 2) i hi
  · intro i hi
    rw [hcount] at hi
    refine ⟨_, List.mem_map_of_mem ?_, rfl⟩
    interval_cases i <;> decide

end Cypher.Transfer
