import Cypher.Client.Attempts
import Cypher.Lib.Run
import Cypher.Transfer.Verify.Reassembly

/-!
# What a resumed transfer starts from

The destination is what `FileAssembler::new` created with the logged chunks written over it, and an
index is in the sidecar or in the set of received indices only after its chunk was flushed
(`Tracked`). So what `load_state` adopts is right if the logged chunks are chunks of the offered file
(`resumes_of_log`). In attempts for one file they are; a sidecar that another transfer left at the
path is adopted just the same.
-/

namespace Cypher.Client.Attempts

open Transfer

def fileOf (size : Nat) (log : List LoggedChunk) : Bytes :=
  Lib.writeAll 0 (List.replicate size 0) (log.map LoggedChunk.write)

def Flushed (log : List LoggedChunk) (index : Nat) : Prop :=
  ∃ w ∈ log, w.index = index ∧ w.count = w.data.length

/-- The chunk in hand is one of the file, and one that is flushed is in the log. -/
def PhaseOk (log : List LoggedChunk) (chunks : Nat) : WritePhase → Prop
  | .seeked index _ | .buffered index _ => index < chunks
  | .flushed index => index < chunks ∧ Flushed log index
  | _ => True

/-- What is known of an assembler at work. -/
structure Opened (s : Attempts) (asm : FileAssembler) (phase : WritePhase) : Prop where
  destPath : asm.destPath = s.path
  chunks_lt : asm.expectedChunks < u32Size
  received : ∀ i ∈ asm.received, i < asm.expectedChunks ∧ Flushed s.log i
  phase : PhaseOk s.log asm.expectedChunks phase

structure Tracked (s : Attempts) : Prop where
  file : (s.disk (statePath s.path)).isSome ∨ s.current.isSome →
    s.disk s.path = some (fileOf s.size s.log)
  sidecar : ∀ data, s.disk (statePath s.path) = some data → ∀ i ∈ unpackU32 data, Flushed s.log i
  current : ∀ asm phase, s.current = some (asm, phase) → s.Opened asm phase

/-! ## The sidecar -/

theorem unpackU32_leBytes {index : Nat} (hlt : index < u32Size) (tail : Bytes) :
    unpackU32 (Lib.leBytes 4 index ++ tail) = index :: unpackU32 tail := by
  have hvalue : Lib.leNat (Lib.leBytes 4 index) = index :=
    Lib.leNat_leBytes (Nat.lt_of_lt_of_le hlt (by decide))
  exact congrArg (· :: unpackU32 tail) hvalue

theorem unpackU32_packU32 {indices : List Nat} (hlt : ∀ i ∈ indices, i < u32Size) :
    unpackU32 (packU32 indices) = indices := by
  induction indices with
  | nil => rfl
  | cons index rest ih =>
    have hpack : packU32 (index :: rest) = Lib.leBytes 4 index ++ packU32 rest := rfl
    rw [hpack, unpackU32_leBytes (hlt index List.mem_cons_self),
      ih fun j hj => hlt j (List.mem_cons_of_mem _ hj)]

/-- A sidecar that was cut off names indices that were saved. -/
theorem mem_of_mem_unpackU32 {indices : List Nat} (hlt : ∀ i ∈ indices, i < u32Size) (count : Nat)
    {i : Nat} (hi : i ∈ unpackU32 ((packU32 indices).take count)) : i ∈ indices := by
  induction indices generalizing count with
  | nil =>
    simp only [packU32, List.flatMap_nil, List.take_nil] at hi
    cases hi
  | cons index rest ih =>
    have hpack : packU32 (index :: rest) = Lib.leBytes 4 index ++ packU32 rest := rfl
    rw [hpack] at hi
    by_cases hcount : count < 4
    · -- fewer than four bytes are no index
      have hshort : ((Lib.leBytes 4 index ++ packU32 rest).take count).length < 4 :=
        Nat.lt_of_le_of_lt (List.length_take_le _ _) hcount
      have hnone : unpackU32 ((Lib.leBytes 4 index ++ packU32 rest).take count) = [] := by
        unfold unpackU32
        split
        · next heq =>
          rw [heq] at hshort
          simp at hshort
          omega
        · rfl
      rw [hnone] at hi
      cases hi
    · rw [List.take_append, Lib.leBytes_length,
        List.take_of_length_le (by rw [Lib.leBytes_length]; omega),
        unpackU32_leBytes (hlt index List.mem_cons_self)] at hi
      rcases List.mem_cons.mp hi with rfl | hrest
      · exact List.mem_cons_self
      · exact List.mem_cons_of_mem _
          (ih (fun j hj => hlt j (List.mem_cons_of_mem _ hj)) _ hrest)

/-! ## Opening the destination -/

def loaded (path : Path) (fileMeta : FileMeta) (data : Bytes) : FileAssembler where
  destPath := path
  readable := true
  expectedChunks := fileMeta.chunkCount
  received := FileAssembler.loadReceived fileMeta data
  expectedHash := fileMeta.hash
  fileSize := fileMeta.size

theorem openDestination_new {disk : Disk} {path : Path} (fileMeta : FileMeta)
    (hnone : disk (statePath path) = none) :
    Files.openDestination disk path fileMeta .ok =
      ((FileAssembler.new disk path fileMeta).1,
        .ok ((FileAssembler.new disk path fileMeta).2, none)) := by
  unfold Files.openDestination FileAssembler.loadState
  rw [hnone]

theorem openDestination_loaded {disk : Disk} {path : Path} (fileMeta : FileMeta) {data file : Bytes}
    (hdata : disk (statePath path) = some data) (hfile : disk path = some file) :
    Files.openDestination disk path fileMeta .ok =
      (disk, .ok (loaded path fileMeta data, some (loaded path fileMeta data).missingChunks)) := by
  unfold Files.openDestination FileAssembler.loadState
  rw [hdata, hfile]
  rfl

theorem mem_loadReceived {fileMeta : FileMeta} {data : Bytes} {i : Nat} :
    i ∈ FileAssembler.loadReceived fileMeta data ↔
      i ∈ unpackU32 data ∧ i < fileMeta.chunkCount := by
  simp [FileAssembler.loadReceived]

theorem received_loaded (path : Path) (fileMeta : FileMeta) (order : IterOrder) {indices : Finset Nat}
    (hlt : ∀ i ∈ indices, i < u32Size) :
    (loaded path fileMeta (packU32 (order.toList indices))).received =
      indices.filter (· < fileMeta.chunkCount) := by
  have hlist : ∀ i ∈ order.toList indices, i < u32Size :=
    fun i hi => hlt i ((order.mem_toList _ _).mp hi)
  ext i
  rw [loaded, mem_loadReceived, unpackU32_packU32 hlist, order.mem_toList, Finset.mem_filter]

/-! ## Inversion of a step -/

variable {sha256 : Bytes → Bytes} {s s' : Attempts}

variable (sha256) in
inductive Step (s : Attempts) : AttemptAction → Attempts → Prop
  | accept {fileMeta : FileMeta} (chunks_lt : fileMeta.chunkCount < u32Size)
      (hcurrent : s.current = none) : Step s (.accept fileMeta chunks_lt) (s.accept fileMeta)
  | rejected {index : Nat} {data hash : Bytes} : Step s (.chunk index data hash) s
  | seek {index : Nat} {data hash : Bytes} {asm : FileAssembler}
      (hcurrent : s.current = some (asm, .idle)) (hindex : index < asm.expectedChunks) :
      Step s (.chunk index data hash) { s with current := some (asm, .seeked index data) }
  | write {index : Nat} {data : Bytes} {asm : FileAssembler}
      (hcurrent : s.current = some (asm, .seeked index data)) :
      Step s .write { s with current := some (asm, .buffered index data) }
  | flush {index : Nat} {data : Bytes} {asm : FileAssembler}
      (hcurrent : s.current = some (asm, .buffered index data)) :
      Step s .flush
        { s.put asm ⟨index, data, data.length⟩ with current := some (asm, .flushed index) }
  | insert {index : Nat} {asm : FileAssembler} {phase : WritePhase}
      (hcurrent : s.current = some (asm, .flushed index)) (hphase : phase = .saving ∨ phase = .idle) :
      Step s .insert
        { s with current := some ({ asm with received := insert index asm.received }, phase) }
  | save {order : IterOrder} {count : Nat} {asm : FileAssembler}
      (hcurrent : s.current = some (asm, .saving)) :
      Step s (.save order count)
        { s with
          disk := Function.update s.disk (statePath asm.destPath)
            (some ((packU32 (order.toList asm.received)).take count))
          current := some (asm, .idle) }
  | torn {count index : Nat} {data : Bytes} {asm : FileAssembler}
      (hcurrent : s.current = some (asm, .buffered index data)) :
      Step s (.crash count) { s.put asm ⟨index, data, count⟩ with current := none }
  | crash {count : Nat} (hcurrent : s.current.isSome) :
      Step s (.crash count) { s with current := none }
  | complete {shorts : Nat → Nat} {asm : FileAssembler} (hcurrent : s.current = some (asm, .idle)) :
      Step s (.complete shorts) { s with disk := asm.cleanupState s.disk, current := none }

theorem step_cases {a : AttemptAction} (taken : s.step sha256 a = some s') : Step s a s' := by
  unfold step at taken
  split at taken
  · next chunks_lt hcurrent => cases taken; exact .accept chunks_lt hcurrent
  · next hcurrent =>
    split at taken
    · cases taken; exact .rejected
    · next hok =>
      cases taken
      exact .seek hcurrent (Nat.not_le.mp fun hle => hok (.inr hle))
  · next hcurrent => cases taken; exact .write hcurrent
  · next hcurrent => cases taken; exact .flush hcurrent
  · next hcurrent =>
    cases taken
    refine .insert hcurrent ?_
    split
    · exact .inl rfl
    · exact .inr rfl
  · next hcurrent => cases taken; exact .save hcurrent
  · next hcurrent => cases taken; exact .torn hcurrent
  · next hcurrent => cases taken; exact .crash (Option.isSome_of_mem hcurrent)
  · next hcurrent =>
    split at taken
    · cases taken; exact .complete hcurrent
    · cases taken
  · cases taken

/-! ## The invariant -/

theorem Flushed.mono {log : List LoggedChunk} {index : Nat} (h : Flushed log index)
    (w : LoggedChunk) : Flushed (log ++ [w]) index := by
  obtain ⟨v, hv, hindex⟩ := h
  exact ⟨v, List.mem_append_left _ hv, hindex⟩

theorem fileOf_append (size : Nat) (log : List LoggedChunk) (w : LoggedChunk) :
    fileOf size (log ++ [w]) = Lib.writeAt 0 (fileOf size log) w.write.1 w.write.2 := by
  rw [fileOf, List.map_append, Lib.writeAll, List.foldl_append]
  rfl

namespace Tracked

theorem start {path : Path} {disk : Disk} (hnone : disk (statePath path) = none) :
    Tracked (Attempts.start path disk) where
  file h := by
    rcases h with hsidecar | hcurrent
    · rw [show (Attempts.start path disk).disk (statePath (Attempts.start path disk).path) = none
        from hnone] at hsidecar
      cases hsidecar
    · cases hcurrent
  sidecar data hdata := by
    rw [show (Attempts.start path disk).disk (statePath (Attempts.start path disk).path) = none
      from hnone] at hdata
    cases hdata
  current _ _ hcurrent := by cases hcurrent

theorem setCurrent (h : Tracked s) (hopen : s.current.isSome)
    {current : Option (FileAssembler × WritePhase)}
    (hcurrent : ∀ asm phase, current = some (asm, phase) → s.Opened asm phase) :
    Tracked { s with current } where
  file _ := h.file (.inr hopen)
  sidecar := h.sidecar
  current asm phase heq := by
    have hopened := hcurrent asm phase heq
    exact ⟨hopened.destPath, hopened.chunks_lt, hopened.received, hopened.phase⟩

theorem setPhase (h : Tracked s) (hopen : s.current.isSome) {asm : FileAssembler}
    {phase : WritePhase} (hopened : s.Opened asm phase) :
    Tracked { s with current := some (asm, phase) } := by
  refine h.setCurrent hopen ?_
  intro asm' phase' heq
  cases heq
  exact hopened

theorem stop (h : Tracked s) (hopen : s.current.isSome) : Tracked { s with current := none } :=
  h.setCurrent hopen fun _ _ heq => nomatch heq

theorem put (h : Tracked s) {asm : FileAssembler} {phase : WritePhase}
    (hcurrent : s.current = some (asm, phase)) (w : LoggedChunk) (hphase : PhaseOk (s.log ++ [w])
      asm.expectedChunks phase) : Tracked (s.put asm w) := by
  have hopened := h.current asm phase hcurrent
  have hfile := h.file (.inr (Option.isSome_of_mem hcurrent))
  have hstate : (s.put asm w).disk (statePath s.path) = s.disk (statePath s.path) := by
    rw [Attempts.put, hopened.destPath]
    exact Function.update_of_ne (statePath_ne s.path) _ _
  refine ⟨fun _ => ?_, ?_, ?_⟩
  · change (s.put asm w).disk s.path = some (fileOf s.size (s.log ++ [w]))
    rw [fileOf_append, Attempts.put, hopened.destPath]
    dsimp only
    rw [Function.update_self, FileAssembler.content, hopened.destPath, hfile]
    rfl
  · intro data hdata i hi
    exact (h.sidecar data (hstate ▸ hdata) i hi).mono w
  · intro asm' phase' hcurrent'
    rw [show (s.put asm w).current = s.current from rfl, hcurrent] at hcurrent'
    cases hcurrent'
    refine ⟨hopened.destPath, hopened.chunks_lt, ?_, hphase⟩
    exact fun i hi => ⟨(hopened.received i hi).1, (hopened.received i hi).2.mono w⟩

theorem accept (h : Tracked s) {fileMeta : FileMeta}
    (hlt : fileMeta.chunkCount < u32Size) : Tracked (s.accept fileMeta) := by
  unfold Attempts.accept
  cases hdata : s.disk (statePath s.path) with
  | none =>
    rw [openDestination_new fileMeta hdata]
    have hstate : (FileAssembler.new s.disk s.path fileMeta).1 (statePath s.path) = none :=
      (Function.update_of_ne (statePath_ne s.path) _ _).trans hdata
    refine ⟨fun _ => Function.update_self _ _ _, ?_, ?_⟩
    · intro data hdata'
      rw [show (FileAssembler.new s.disk s.path fileMeta).1 (statePath s.path) = some data
        from hdata'] at hstate
      cases hstate
    · intro asm phase heq
      cases heq
      exact ⟨rfl, hlt, fun i hi => absurd hi (Finset.notMem_empty i), trivial⟩
  | some data =>
    have hfile := h.file (.inl (Option.isSome_of_mem hdata))
    rw [openDestination_loaded fileMeta hdata hfile]
    refine ⟨fun _ => hfile, h.sidecar, ?_⟩
    intro asm phase heq
    cases heq
    refine ⟨rfl, hlt, ?_, trivial⟩
    intro i hi
    obtain ⟨hmem, hindex⟩ := mem_loadReceived.mp hi
    exact ⟨hindex, h.sidecar data hdata i hmem⟩

theorem step (h : Tracked s) {a : AttemptAction} (taken : s.step sha256 a = some s') :
    Tracked s' := by
  cases step_cases taken with
  | accept chunks_lt => exact h.accept chunks_lt
  | rejected => exact h
  | seek hcurrent hindex =>
    have hopened := h.current _ _ hcurrent
    exact h.setPhase (Option.isSome_of_mem hcurrent)
      ⟨hopened.destPath, hopened.chunks_lt, hopened.received, hindex⟩
  | write hcurrent =>
    have hopened := h.current _ _ hcurrent
    exact h.setPhase (Option.isSome_of_mem hcurrent)
      ⟨hopened.destPath, hopened.chunks_lt, hopened.received, hopened.phase⟩
  | @flush index data asm hcurrent =>
    have hindex : index < asm.expectedChunks := (h.current _ _ hcurrent).phase
    have hput := h.put hcurrent ⟨index, data, data.length⟩ hindex
    have hopened := hput.current _ _ hcurrent
    refine hput.setPhase (Option.isSome_of_mem hcurrent) ?_
    refine ⟨hopened.destPath, hopened.chunks_lt, hopened.received, hindex, ?_⟩
    exact ⟨_, List.mem_append_right _ (List.mem_singleton.mpr rfl), rfl, rfl⟩
  | @insert index asm phase hcurrent hphase =>
    have hopened := h.current _ _ hcurrent
    refine h.setPhase (Option.isSome_of_mem hcurrent) ?_
    refine ⟨hopened.destPath, hopened.chunks_lt, ?_, ?_⟩
    · intro i hi
      rcases Finset.mem_insert.mp hi with rfl | hold
      · exact hopened.phase
      · exact hopened.received i hold
    · rcases hphase with rfl | rfl <;> trivial
  | @save order count asm hcurrent =>
    have hopened := h.current _ _ hcurrent
    have hfile := h.file (.inr (Option.isSome_of_mem hcurrent))
    rw [hopened.destPath]
    refine ⟨fun _ => ?_, ?_, ?_⟩
    · exact (Function.update_of_ne (statePath_ne s.path).symm _ _).trans hfile
    · intro data hdata i hi
      dsimp only at hdata
      rw [Function.update_self] at hdata
      have hsaved := Option.some.inj hdata
      have hsmall : ∀ j ∈ order.toList asm.received, j < u32Size := fun j hj =>
        Nat.lt_trans (hopened.received j ((order.mem_toList _ _).mp hj)).1 hopened.chunks_lt
      have hmem := mem_of_mem_unpackU32 hsmall count (hsaved ▸ hi)
      exact (hopened.received i ((order.mem_toList _ _).mp hmem)).2
    · intro asm' phase heq
      cases heq
      exact ⟨hopened.destPath, hopened.chunks_lt, hopened.received, trivial⟩
  | torn hcurrent =>
    have hindex := (h.current _ _ hcurrent).phase
    exact (h.put hcurrent _ hindex).stop (Option.isSome_of_mem hcurrent)
  | crash hcurrent => exact h.stop hcurrent
  | @complete _ asm hcurrent =>
    have hopened := h.current _ _ hcurrent
    have hnone : asm.cleanupState s.disk (statePath s.path) = none := by
      rw [FileAssembler.cleanupState, hopened.destPath, Function.update_self]
    refine ⟨?_, ?_, ?_⟩
    · rintro (hsidecar | hcurrent')
      · dsimp only at hsidecar
        rw [hnone] at hsidecar
        cases hsidecar
      · cases hcurrent'
    · intro data hdata
      dsimp only at hdata
      rw [hnone] at hdata
      cases hdata
    · intro asm phase heq
      cases heq

end Tracked

/-- The guard lets the steps of the call through. -/
def Allows (ok : Attempts → AttemptAction → Prop) (call : WriteCall) : Prop :=
  ∀ s, ok s (.chunk call.index call.data call.hash) ∧ ok s .write ∧ ok s .flush ∧ ok s .insert ∧
    ∀ count, ok s (.save call.order count)

theorem run_writeChunk {ok : Attempts → AttemptAction → Prop} {asm : FileAssembler}
    (hcurrent : s.current = some (asm, .idle)) {call : WriteCall} (hok : Allows ok call) :
    ∃ t, Lib.Run (step sha256) ok s t ∧ t.path = s.path ∧
      (t.disk, t.current) =
        ((FileAssembler.writeChunk sha256 call.order s.disk asm call.index call.data call.hash).1.1,
          some ((FileAssembler.writeChunk sha256 call.order s.disk asm call.index call.data
            call.hash).1.2, .idle)) := by
  have hchunk : s.step sha256 (.chunk call.index call.data call.hash) =
      if sha256 call.data ≠ call.hash ∨ call.index ≥ asm.expectedChunks then some s
      else some { s with current := some (asm, .seeked call.index call.data) } := by
    unfold step
    rw [hcurrent]
  by_cases haccepts : FileAssembler.Accepts sha256 asm call
  · have hpass : ¬ (sha256 call.data ≠ call.hash ∨ call.index ≥ asm.expectedChunks) := by
      rintro (hhash | hindex)
      · exact hhash haccepts.1
      · exact Nat.not_le.mpr haccepts.2 hindex
    rw [if_neg hpass] at hchunk
    have hseek : Lib.Run (step sha256) ok s _ := .tail .refl (hok _).1 hchunk
    have hflush := (hseek.tail (a := .write) (hok _).2.1 rfl).tail (a := .flush) (hok _).2.2.1 rfl
    rw [Attempts.put, LoggedChunk.write, List.take_length] at hflush
    unfold FileAssembler.writeChunk
    rw [if_neg (not_not_intro haccepts.1), if_neg (Nat.not_le.mpr haccepts.2)]
    dsimp only
    by_cases hsave : ((insert call.index asm.received).card % u32Size) % saveStateInterval = 0
    · rw [if_pos hsave]
      have hinsert := hflush.tail (a := .insert) (hok _).2.2.2.1 rfl
      dsimp only at hinsert
      rw [if_pos hsave] at hinsert
      have hsaved := hinsert.tail (a := .save call.order
        (packU32 (call.order.toList (insert call.index asm.received))).length) ((hok _).2.2.2.2 _) rfl
      dsimp only at hsaved
      rw [List.take_length] at hsaved
      exact ⟨_, hsaved, rfl, rfl⟩
    · rw [if_neg hsave]
      have hinsert := hflush.tail (a := .insert) (hok _).2.2.2.1 rfl
      dsimp only at hinsert
      rw [if_neg hsave] at hinsert
      exact ⟨_, hinsert, rfl, rfl⟩
  · have hfail : sha256 call.data ≠ call.hash ∨ call.index ≥ asm.expectedChunks := by
      by_contra hok
      rw [not_or, not_not, Nat.not_le] at hok
      exact haccepts hok
    rw [if_pos hfail] at hchunk
    obtain ⟨err, hcall⟩ := FileAssembler.writeChunk_of_not_accepts s.disk haccepts
    rw [hcall]
    exact ⟨s, Lib.Run.refl.tail (hok s).1 hchunk, rfl, by rw [hcurrent]⟩

theorem run_writeChunks {ok : Attempts → AttemptAction → Prop} {asm : FileAssembler}
    (hcurrent : s.current = some (asm, .idle)) {calls : List WriteCall}
    (hok : ∀ call ∈ calls, Allows ok call) :
    ∃ t, Lib.Run (step sha256) ok s t ∧ t.path = s.path ∧
      (t.disk, t.current) =
        ((FileAssembler.writeChunks sha256 (s.disk, asm) calls).1.1,
          some ((FileAssembler.writeChunks sha256 (s.disk, asm) calls).1.2, .idle)) := by
  induction calls generalizing s asm with
  | nil => exact ⟨s, .refl, rfl, by rw [hcurrent]; rfl⟩
  | cons call calls ih =>
    obtain ⟨hcall, hcalls⟩ := List.forall_mem_cons.mp hok
    obtain ⟨u, hfirst, hpath, hstate⟩ := @run_writeChunk sha256 s ok asm hcurrent call hcall
    obtain ⟨hdisk, hasm⟩ := Prod.mk.inj hstate
    obtain ⟨t, hrest, hpath', hstate'⟩ := ih hasm hcalls
    refine ⟨t, hfirst.trans hrest, hpath'.trans hpath, ?_⟩
    rw [hstate', hdisk]
    rfl

/-! ## Logs of one file -/

/-- The destination was created for a file of that size, and every chunk since is one of the file. -/
structure LogOf (s : Attempts) (content : Bytes) : Prop where
  size : s.size = content.length
  chunks : ∀ w ∈ s.log, w.data = Lib.block chunkSize content w.index

variable {content : Bytes}

theorem agrees_of_block {w : LoggedChunk} (hdata : w.data = Lib.block chunkSize content w.index)
    {k : Nat} (hcovers : Lib.Covers w.write k) : w.write.2[k - w.write.1]? = content[k]? := by
  obtain ⟨hle, hlt⟩ : w.index * chunkSize ≤ k ∧
    k < w.index * chunkSize + (w.data.take w.count).length := hcovers
  rw [List.length_take, hdata, Lib.length_block] at hlt
  change (w.data.take w.count)[k - w.index * chunkSize]? = content[k]?
  rw [List.getElem?_take_of_lt (by omega), hdata, Lib.getElem?_block (by omega)]
  congr 1
  omega

theorem LogOf.length (h : s.LogOf content) : (fileOf s.size s.log).length = content.length := by
  rw [fileOf, Lib.length_writeAll, List.length_replicate, h.size]
  refine Lib.extent_eq_self fun write hwrite => ?_
  obtain ⟨w, hw, rfl⟩ := List.mem_map.mp hwrite
  by_cases hempty : w.write.2 = []
  · exact .inl hempty
  · refine .inr ?_
    have hpos : 0 < (w.data.take w.count).length := List.length_pos_iff.mpr hempty
    change w.index * chunkSize + (w.data.take w.count).length ≤ content.length
    rw [List.length_take, h.chunks w hw, Lib.length_block] at hpos ⊢
    omega

theorem LogOf.holds (h : s.LogOf content) {i : Nat} (hflushed : Flushed s.log i) :
    Lib.HoldsBlock chunkSize (fileOf s.size s.log) content i := by
  obtain ⟨w, hw, rfl, hcount⟩ := hflushed
  intro k hk hdiv
  refine Lib.getElem?_writeAll_covered ?_ ⟨w.write, List.mem_map_of_mem hw, ?_⟩
  · intro write hwrite hcovers
    obtain ⟨v, hv, rfl⟩ := List.mem_map.mp hwrite
    exact agrees_of_block (h.chunks v hv) hcovers
  · have hwrite : w.write = (w.index * chunkSize, Lib.block chunkSize content w.index) := by
      rw [LoggedChunk.write, hcount, List.take_length, h.chunks w hw]
    rw [hwrite]
    exact (Lib.covers_block chunkSize_pos).mpr ⟨hk, hdiv⟩

theorem LogOf.append (h : s.LogOf content) {w : LoggedChunk}
    (hw : w.data = Lib.block chunkSize content w.index) (asm : FileAssembler) :
    (s.put asm w).LogOf content where
  size := h.size
  chunks := List.forall_mem_append.mpr ⟨h.chunks, List.forall_mem_singleton.mpr hw⟩

/-! ## What the next offer opens -/

variable (sha256) in
/-- An offer of the file opens the destination with an assembler and a disk of which `P` holds. -/
def Opens (s : Attempts) (content : Bytes) (fileId : FileId) (name : Bytes) (compressed : Bool)
    (P : Disk → FileAssembler → Prop) : Prop :=
  ∃ disk asm missing, Files.openDestination s.disk s.path
    ((FileChunker.new sha256 content fileId).fileMeta name compressed) .ok =
      (disk, .ok (asm, missing)) ∧ P disk asm

/-- Every index that counts as received has its bytes of the file on the disk. -/
def HoldsReceived (content : Bytes) (path : Path) (disk : Disk) (asm : FileAssembler) : Prop :=
  ∃ file, disk path = some file ∧ ∀ i ∈ asm.received, Lib.HoldsBlock chunkSize file content i

variable (sha256) in
/-- Any deliveries of chunks of the file among which the missing ones are succeed and leave the file. -/
def CompletesTo (content : Bytes) (fileId : FileId) (path : Path) (disk : Disk)
    (asm : FileAssembler) : Prop :=
  ∀ calls : List WriteCall, (∀ call ∈ calls, Genuine sha256 (.new sha256 content fileId) call) →
    (∀ i ∈ asm.missingChunks, ∃ call ∈ calls, call.index = i) →
    (∀ r ∈ (FileAssembler.writeChunks sha256 (disk, asm) calls).2, r = .ok ()) ∧
      (FileAssembler.writeChunks sha256 (disk, asm) calls).1.1 path = some content

/-- **What a resume starts from.** Without a sidecar the file is created anew; with one, the chunks
that were logged must be chunks of the file. -/
theorem resumes_of_log (h : Tracked s)
    (hlog : (s.disk (statePath s.path)).isSome → s.LogOf content)
    (fileId : FileId) (name : Bytes) (compressed : Bool) :
    s.Opens sha256 content fileId name compressed fun disk asm =>
      HoldsReceived content s.path disk asm ∧
      (content.length ≤ (u32Size - 1) * chunkSize →
        CompletesTo sha256 content fileId s.path disk asm) := by
  cases hdata : s.disk (statePath s.path) with
  | none =>
    have hfile : (FileAssembler.new s.disk s.path
        ((FileChunker.new sha256 content fileId).fileMeta name compressed)).1 s.path =
          some (List.replicate content.length 0) := Function.update_self _ _ _
    refine ⟨_, _, _, openDestination_new _ hdata, ⟨_, hfile, ?_⟩, fun hsize calls hgenuine hall => ?_⟩
    · exact fun i hi => absurd hi (Finset.notMem_empty i)
    · refine ⟨FileAssembler.results_writeChunks fun call hcall => (hgenuine call hcall).accepts rfl, ?_⟩
      exact file_of_missing hsize hfile List.length_replicate rfl
        (fun i hi => absurd hi (Finset.notMem_empty i)) hgenuine hall
  | some data =>
    have hsome : (s.disk (statePath s.path)).isSome := Option.isSome_of_mem hdata
    have hfile := h.file (.inl hsome)
    have hlogOf := hlog hsome
    have hholds : ∀ i ∈ (loaded s.path
        ((FileChunker.new sha256 content fileId).fileMeta name compressed) data).received,
          Lib.HoldsBlock chunkSize (fileOf s.size s.log) content i :=
      fun i hi => hlogOf.holds (h.sidecar data hdata i (mem_loadReceived.mp hi).1)
    refine ⟨_, _, _, openDestination_loaded _ hdata hfile, ⟨_, hfile, hholds⟩,
      fun hsize calls hgenuine hall => ?_⟩
    refine ⟨FileAssembler.results_writeChunks fun call hcall => (hgenuine call hcall).accepts rfl, ?_⟩
    exact file_of_missing hsize hfile hlogOf.length rfl hholds hgenuine hall

/-! ## Attempts for one file -/

variable (sha256) in
/-- Every offer is for the file and every chunk that arrives is one of it. -/
def ForFile (content : Bytes) (_ : Attempts) : AttemptAction → Prop
  | .accept fileMeta _ => ∃ fileId name compressed,
    fileMeta = (FileChunker.new sha256 content fileId).fileMeta name compressed
  | .chunk index data hash => ∃ fileId order,
    Genuine sha256 (.new sha256 content fileId) ⟨index, data, hash, order⟩
  | _ => True

/-- The chunk in hand is one of the file. -/
def PhaseOf (content : Bytes) : WritePhase → Prop
  | .seeked index data | .buffered index data => data = Lib.block chunkSize content index
  | _ => True

structure OneFile (content : Bytes) (s : Attempts) : Prop where
  log : (s.disk (statePath s.path)).isSome ∨ s.current.isSome → s.LogOf content
  phase : ∀ asm phase, s.current = some (asm, phase) → PhaseOf content phase

namespace OneFile

theorem setCurrent (h : OneFile content s) (hopen : s.current.isSome) {disk : Disk}
    {current : Option (FileAssembler × WritePhase)}
    (hphase : ∀ asm phase, current = some (asm, phase) → PhaseOf content phase) :
    OneFile content { s with disk, current } where
  log _ := ⟨(h.log (.inr hopen)).size, (h.log (.inr hopen)).chunks⟩
  phase := hphase

theorem setPhase (h : OneFile content s) (hopen : s.current.isSome) {disk : Disk}
    {asm : FileAssembler} {phase : WritePhase} (hphase : PhaseOf content phase) :
    OneFile content { s with disk, current := some (asm, phase) } := by
  refine h.setCurrent hopen ?_
  intro asm' phase' heq
  cases heq
  exact hphase

theorem stop (h : OneFile content s) (hopen : s.current.isSome) {disk : Disk} :
    OneFile content { s with disk, current := none } :=
  h.setCurrent hopen fun _ _ heq => nomatch heq

theorem put (h : OneFile content s) {asm : FileAssembler} {phase : WritePhase}
    (hcurrent : s.current = some (asm, phase)) {w : LoggedChunk}
    (hw : w.data = Lib.block chunkSize content w.index) : OneFile content (s.put asm w) where
  log _ := (h.log (.inr (Option.isSome_of_mem hcurrent))).append hw asm
  phase := h.phase

theorem accept (h : OneFile content s) {fileMeta : FileMeta} (hsize : fileMeta.size = content.length) :
    OneFile content (s.accept fileMeta) := by
  unfold Attempts.accept
  cases hdata : s.disk (statePath s.path) with
  | none =>
    rw [openDestination_new fileMeta hdata]
    refine ⟨fun _ => ⟨hsize, fun w hw => absurd hw List.not_mem_nil⟩, ?_⟩
    intro asm phase heq
    cases heq
    trivial
  | some data =>
    have hlog := h.log (.inl (Option.isSome_of_mem hdata))
    cases hfile : s.disk s.path with
    | none =>
      have herror : Files.openDestination s.disk s.path fileMeta .ok =
          (s.disk, .error (.io "No such file or directory (os error 2)")) := by
        unfold Files.openDestination FileAssembler.loadState
        rw [hdata, hfile]
      rw [herror]
      exact h
    | some file =>
      rw [openDestination_loaded fileMeta hdata hfile]
      refine ⟨fun _ => ⟨hlog.size, hlog.chunks⟩, ?_⟩
      intro asm phase heq
      cases heq
      trivial

theorem step (h : OneFile content s) {a : AttemptAction} (guard : ForFile sha256 content s a)
    (taken : s.step sha256 a = some s') : OneFile content s' := by
  cases step_cases taken with
  | accept chunks_lt =>
    obtain ⟨fileId, name, compressed, rfl⟩ := guard
    exact h.accept rfl
  | rejected => exact h
  | seek hcurrent =>
    obtain ⟨fileId, order, hgenuine⟩ := guard
    exact h.setPhase (Option.isSome_of_mem hcurrent) hgenuine.data
  | write hcurrent =>
    have hdata := h.phase _ _ hcurrent
    exact h.setPhase (Option.isSome_of_mem hcurrent) hdata
  | @flush index data asm hcurrent =>
    have hdata := h.phase _ _ hcurrent
    have hput := h.put hcurrent (w := ⟨index, data, data.length⟩) hdata
    exact hput.setPhase (Option.isSome_of_mem hcurrent) trivial
  | insert hcurrent hphase =>
    refine h.setPhase (Option.isSome_of_mem hcurrent) ?_
    rcases hphase with rfl | rfl <;> trivial
  | save hcurrent => exact h.setPhase (Option.isSome_of_mem hcurrent) trivial
  | @torn count index data asm hcurrent =>
    have hdata := h.phase _ _ hcurrent
    have hput := h.put hcurrent (w := ⟨index, data, count⟩) hdata
    exact hput.stop (Option.isSome_of_mem hcurrent)
  | crash hcurrent => exact h.stop hcurrent
  | complete hcurrent => exact h.stop (Option.isSome_of_mem hcurrent)

end OneFile

theorem step_path {a : AttemptAction} (taken : s.step sha256 a = some s') : s'.path = s.path := by
  cases step_cases taken with
  | accept =>
    unfold Attempts.accept
    split <;> rfl
  | _ => rfl

section Runs

variable {path : Path} {disk : Disk} {ok : Attempts → AttemptAction → Prop}

theorem path_of_run (run : Lib.Run (step sha256) ok (start path disk) s) : s.path = path :=
  run.invariant (I := fun t => t.path = path) rfl
    fun hpath _ taken => (step_path taken).trans hpath

theorem tracked_of_run (hfresh : disk (statePath path) = none)
    (run : Lib.Run (step sha256) ok (start path disk) s) : Tracked s :=
  run.invariant (Tracked.start hfresh) fun h _ taken => h.step taken

theorem oneFile_of_run (hfresh : disk (statePath path) = none)
    (run : Lib.Run (step sha256) (ForFile sha256 content) (start path disk) s) :
    OneFile content s := by
  refine run.invariant ⟨?_, fun asm phase heq => nomatch heq⟩ fun h guard taken => h.step guard taken
  rintro (hsidecar | hcurrent)
  · rw [show (start path disk).disk (statePath (start path disk).path) = none from hfresh] at hsidecar
    cases hsidecar
  · cases hcurrent

end Runs

variable (sha256) in
def firstCalls (content : Bytes) (order : IterOrder) (n : Nat) : List WriteCall :=
  (List.range n).map fun i =>
    ⟨i, Lib.block chunkSize content i, sha256 (Lib.block chunkSize content i), order⟩

section Saved

variable {fileId : FileId} {name : Bytes} {compressed : Bool} {path : Path} {disk : Disk}
variable {order : IterOrder}

theorem genuine_firstCalls {n : Nat} (hn : n ≤ (FileChunker.new sha256 content fileId).chunkCount) :
    ∀ call ∈ firstCalls sha256 content order n, Genuine sha256 (.new sha256 content fileId) call := by
  intro call hcall
  obtain ⟨i, hi, rfl⟩ := List.mem_map.mp hcall
  exact ⟨Nat.lt_of_lt_of_le (List.mem_range.mp hi) hn, rfl, rfl⟩

theorem index_firstCalls (n : Nat) :
    ((firstCalls sha256 content order n).map WriteCall.index).toFinset = Finset.range n := by
  rw [firstCalls, List.map_map]
  ext i
  simp

theorem sidecar_firstCalls
    (hcount : saveStateInterval ≤ (FileChunker.new sha256 content fileId).chunkCount) :
    (FileAssembler.writeChunks sha256 (FileAssembler.new disk path
        ((FileChunker.new sha256 content fileId).fileMeta name compressed))
        (firstCalls sha256 content order saveStateInterval)).1.1 (statePath path) =
      some (packU32 (order.toList (Finset.range saveStateInterval))) := by
  have hbefore : ∀ call ∈ firstCalls sha256 content order 63,
      Genuine sha256 (.new sha256 content fileId) call :=
    genuine_firstCalls (Nat.le_of_succ_le hcount)
  let last : WriteCall :=
    ⟨63, Lib.block chunkSize content 63, sha256 (Lib.block chunkSize content 63), order⟩
  have hlast : firstCalls sha256 content order saveStateInterval =
      firstCalls sha256 content order 63 ++ [last] := by
    rw [firstCalls, saveStateInterval, List.range_succ, List.map_append]
    rfl
  rw [hlast, FileAssembler.writeChunks_append]
  set state := (FileAssembler.writeChunks sha256 (FileAssembler.new disk path
    ((FileChunker.new sha256 content fileId).fileMeta name compressed))
    (firstCalls sha256 content order 63)).1 with hstate
  have hasm : state.2 = { (FileAssembler.new disk path
      ((FileChunker.new sha256 content fileId).fileMeta name compressed)).2 with
        received := Finset.range 63 } := by
    rw [hstate, received_of_genuine hbefore rfl, index_firstCalls]
    exact congrArg (fun received => { (FileAssembler.new disk path
      ((FileChunker.new sha256 content fileId).fileMeta name compressed)).2 with received })
      (Finset.empty_union _)
  have hinsert : insert last.index state.2.received = Finset.range saveStateInterval := by
    rw [hasm]
    exact Finset.range_add_one.symm
  have haccepts : FileAssembler.Accepts sha256 state.2 last := by
    refine ⟨rfl, ?_⟩
    rw [hasm]
    exact hcount
  have hdest : state.2.destPath = path := by rw [hasm]; rfl
  have hsaved := FileAssembler.sidecar_writeChunk state.1 haccepts
    (by rw [hinsert, Finset.card_range]; rfl)
  rw [hinsert, hdest] at hsaved
  exact hsaved

variable (path disk) in
/-- An attempt that has received the first 64 chunks of a file has a sidecar that names them, and the
whole file if that is all of it. -/
theorem exists_saving (hfresh : disk (statePath path) = none) (order : IterOrder)
    (hcount : saveStateInterval ≤ (FileChunker.new sha256 content fileId).chunkCount) :
    ∃ s asm, Lib.Run (step sha256) (ForFile sha256 content) (start path disk) s ∧ s.path = path ∧
      s.current = some (asm, .idle) ∧ asm.destPath = path ∧
      asm.expectedChunks = (FileChunker.new sha256 content fileId).chunkCount ∧
      s.disk (statePath path) = some (packU32 (order.toList (Finset.range saveStateInterval))) ∧
      ((FileChunker.new sha256 content fileId).chunkCount = saveStateInterval →
        content.length ≤ (u32Size - 1) * chunkSize → s.disk path = some content) := by
  let fileMeta := (FileChunker.new sha256 content fileId).fileMeta [] false
  let opened : Attempts := ⟨path, (FileAssembler.new disk path fileMeta).1,
    some ((FileAssembler.new disk path fileMeta).2, .idle), fileMeta.size, []⟩
  have hlt : fileMeta.chunkCount < u32Size :=
    (chunkCount_lt : (FileChunker.new sha256 content fileId).chunkCount < u32Size)
  have haccept : (start path disk).step sha256 (.accept fileMeta hlt) = some opened := by
    have hopen : Files.openDestination (start path disk).disk (start path disk).path fileMeta .ok = _ :=
      openDestination_new fileMeta hfresh
    change some ((start path disk).accept fileMeta) = some opened
    rw [Attempts.accept, hopen]
    rfl
  have hgenuine : ∀ call ∈ firstCalls sha256 content order saveStateInterval,
      Genuine sha256 (.new sha256 content fileId) call := genuine_firstCalls hcount
  have hallows : ∀ call ∈ firstCalls sha256 content order saveStateInterval,
      Allows (ForFile sha256 content) call := fun call hcall _ =>
    ⟨⟨fileId, call.order, hgenuine call hcall⟩, trivial, trivial, trivial, fun _ => trivial⟩
  have haccepted : Lib.Run (step sha256) (ForFile sha256 content) (start path disk) opened :=
    .tail .refl (a := .accept fileMeta hlt) ⟨fileId, [], false, rfl⟩ haccept
  obtain ⟨t, hrun, hpath, hstate⟩ := @run_writeChunks sha256 opened _ _ rfl _ hallows
  obtain ⟨hdisk, hcurrent⟩ := Prod.mk.inj hstate
  rw [received_of_genuine hgenuine rfl] at hcurrent
  refine ⟨t, _, haccepted.trans hrun, hpath, hcurrent, rfl, rfl, ?_, fun hall hsize => ?_⟩
  · rw [hdisk]
    exact sidecar_firstCalls hcount
  · rw [hdisk]
    refine file_of_missing hsize (Function.update_self _ _ _) List.length_replicate rfl
      (fun i hi => absurd hi (Finset.notMem_empty i)) hgenuine ?_
    intro i hi
    refine ⟨_, List.mem_map_of_mem (List.mem_range.mpr ?_), rfl⟩
    rw [← hall]
    exact List.mem_range.mp (List.mem_filter.mp hi).1

end Saved

/-- **A resume loses nothing.** Over any attempts for one file at one path that had no sidecar, with
chunks of the file in any order and a stop or crash at any step, every index that the next attempt
starts with has its bytes on the disk, and the missing chunks complete the file if it has at most
`(2^32 - 1) * CHUNK_SIZE` bytes. -/
theorem resume_loses_nothing (sha256 : Bytes → Bytes) (content : Bytes) (path : Path) (disk : Disk)
    (hfresh : disk (statePath path) = none) (s : Attempts)
    (run : Lib.Run (step sha256) (ForFile sha256 content) (start path disk) s)
    (fileId : FileId) (name : Bytes) (compressed : Bool) :
    s.path = path ∧
      s.Opens sha256 content fileId name compressed fun disk asm =>
        HoldsReceived content path disk asm ∧
        (content.length ≤ (u32Size - 1) * chunkSize →
          CompletesTo sha256 content fileId path disk asm) := by
  obtain rfl := path_of_run run
  refine ⟨rfl, ?_⟩
  exact resumes_of_log (tracked_of_run hfresh run)
    (fun hsidecar => (oneFile_of_run hfresh run).log (.inl hsidecar)) fileId name compressed

/-- 64 chunks and two bytes. -/
def longFile : Bytes :=
  List.replicate (64 * chunkSize + 2) 7

theorem chunkCount_longFile (fileId : FileId) :
    (FileChunker.new id longFile fileId).chunkCount = 65 := by
  simp only [FileChunker.new, longFile, List.length_replicate]
  decide +kernel

theorem block_longFile : Lib.block chunkSize longFile 64 = [7, 7] := by
  rw [Lib.block, longFile, List.drop_replicate, List.take_replicate]
  decide +kernel

/-- The first attempt has saved its state when it stops with one of the last two bytes written; the
next one completes the file. -/
theorem resume_loses_nothing_torn :
    ∃ s, Lib.Run (step id) (ForFile id longFile) (start "a".toList fun _ => none) s ∧
      s.disk (statePath "a".toList) =
        some (packU32 (IterOrder.increasing.toList (Finset.range 64))) ∧
      ⟨64, [7, 7], 1⟩ ∈ s.log ∧
      s.Opens id longFile ⟨List.replicate 16 0, rfl⟩ (ascii "a") false
        (CompletesTo id longFile ⟨List.replicate 16 0, rfl⟩ "a".toList) := by
  have hcount : saveStateInterval ≤
      (FileChunker.new id longFile ⟨List.replicate 16 0, rfl⟩).chunkCount := by
    rw [chunkCount_longFile]
    decide
  have hgenuine : Genuine id (.new id longFile ⟨List.replicate 16 0, rfl⟩)
      ⟨64, [7, 7], [7, 7], .increasing⟩ :=
    ⟨by rw [chunkCount_longFile]; decide, block_longFile.symm, rfl⟩
  obtain ⟨s, asm, hrun, -, hcurrent, hdest, hexpected, hsidecar, -⟩ :=
    exists_saving "a".toList (fun _ => none) rfl .increasing hcount
  have haccepted : s.step id (.chunk 64 [7, 7] [7, 7]) =
      some { s with current := some (asm, .seeked 64 [7, 7]) } := by
    unfold step
    rw [hcurrent]
    exact if_neg (not_or.mpr ⟨not_not_intro rfl, Nat.not_le.mpr (hexpected ▸ hgenuine.index)⟩)
  have hchunk := hrun.tail (a := AttemptAction.chunk 64 [7, 7] [7, 7]) ⟨_, _, hgenuine⟩ haccepted
  have hwrite := hchunk.tail (a := AttemptAction.write) trivial rfl
  have htorn := hwrite.tail (a := AttemptAction.crash 1) trivial rfl
  refine ⟨_, htorn, ?_, List.mem_append_right _ (List.mem_singleton_self _), ?_⟩
  · exact (Function.update_of_ne (by rw [hdest]; decide) _ _).trans hsidecar
  · obtain ⟨-, disk, asm, missing, hopen, -, hcompletes⟩ := resume_loses_nothing id longFile "a".toList
      (fun _ => none) rfl _ htorn ⟨List.replicate 16 0, rfl⟩ (ascii "a") false
    exact ⟨disk, asm, missing, hopen, hcompletes (by rw [longFile, List.length_replicate]; decide)⟩

/-- A file for which the number of chunks wraps to 0 is complete before anything has arrived. -/
theorem not_completesTo_of_no_chunks {fileId : FileId} {name : Bytes} {compressed : Bool}
    (hcount : (FileChunker.new sha256 content fileId).chunkCount = 0)
    (hne : content ≠ List.replicate content.length 0)
    (hnone : s.disk (statePath s.path) = none) :
    s.Opens sha256 content fileId name compressed fun disk asm =>
      ¬ CompletesTo sha256 content fileId s.path disk asm := by
  refine ⟨_, _, _, openDestination_new _ hnone, fun hcompletes => ?_⟩
  have hmissing : (FileAssembler.new s.disk s.path
      ((FileChunker.new sha256 content fileId).fileMeta name compressed)).2.missingChunks = [] := by
    unfold FileAssembler.missingChunks FileAssembler.new FileChunker.fileMeta
    rw [hcount]
    rfl
  obtain ⟨-, hfile⟩ := hcompletes [] (fun call hcall => absurd hcall List.not_mem_nil)
    (fun i hi => absurd (hmissing ▸ hi) List.not_mem_nil)
  have hzeros : (FileAssembler.new s.disk s.path
      ((FileChunker.new sha256 content fileId).fileMeta name compressed)).1 s.path =
        some (List.replicate content.length 0) := Function.update_self _ _ _
  exact hne (Option.some.inj (hfile.symm.trans hzeros))

/-- A file of `2^32` chunks of ones is left as zeros. -/
theorem resume_of_wrapped_count :
    (start "a".toList fun _ => none).Opens id (List.replicate (u32Size * chunkSize) 1)
      ⟨List.replicate 16 0, rfl⟩ (ascii "a") false fun disk asm =>
        ¬ CompletesTo id (List.replicate (u32Size * chunkSize) 1) ⟨List.replicate 16 0, rfl⟩
          "a".toList disk asm := by
  refine not_completesTo_of_no_chunks ?_ ?_ rfl
  · simp only [FileChunker.new, List.length_replicate]
    decide +kernel
  · rw [List.length_replicate]
    intro heq
    have hmem : (1 : UInt8) ∈ List.replicate (u32Size * chunkSize) (0 : UInt8) := by
      rw [← heq]
      exact List.mem_replicate.mpr ⟨by decide +kernel, rfl⟩
    exact absurd (List.mem_replicate.mp hmem).2 (by decide)

/-! ## Another file at the path -/

/-- **A resume adopts the progress of its own file.** Over any attempts at a path that had no sidecar,
for whatever offers and with whatever chunks: an offer starts with indices whose bytes are on the
disk, and its missing chunks complete the file, if there is no sidecar or every chunk written since
the destination was created is a chunk of the offered file and it was created with its size. -/
theorem resume_adopts_own_chunks (sha256 : Bytes → Bytes) (path : Path) (disk : Disk)
    (hfresh : disk (statePath path) = none) (s : Attempts)
    (run : Lib.Run (step sha256) (fun _ _ => True) (start path disk) s)
    (content : Bytes) (fileId : FileId) (name : Bytes) (compressed : Bool)
    (hsame : s.disk (statePath path) = none ∨ s.LogOf content)
    (hsize : content.length ≤ (u32Size - 1) * chunkSize) :
    s.path = path ∧
      s.Opens sha256 content fileId name compressed fun disk asm =>
        HoldsReceived content path disk asm ∧ CompletesTo sha256 content fileId path disk asm := by
  obtain rfl := path_of_run run
  have hlog : (s.disk (statePath s.path)).isSome → s.LogOf content := by
    intro hsome
    rcases hsame with hnone | hlog
    · rw [hnone] at hsome
      cases hsome
    · exact hlog
  obtain ⟨disk', asm, missing, hopen, hholds, hcompletes⟩ :=
    resumes_of_log (tracked_of_run hfresh run) hlog fileId name compressed
  exact ⟨rfl, disk', asm, missing, hopen, hholds, hcompletes hsize⟩

/-- A stopped attempt wrote the one chunk of the file; the file is offered again. -/
theorem resume_adopts_own_chunks_again :
    ∃ s, Lib.Run (step id) (fun _ _ => True) (start "a".toList fun _ => none) s ∧
      s.disk "a".toList = some [1, 2, 3] ∧ s.LogOf [1, 2, 3] ∧
      s.Opens id [1, 2, 3] ⟨List.replicate 16 0, rfl⟩ (ascii "a") false
        (CompletesTo id [1, 2, 3] ⟨List.replicate 16 0, rfl⟩ "a".toList) := by
  let fileMeta := (FileChunker.new id [1, 2, 3] ⟨List.replicate 16 0, rfl⟩).fileMeta (ascii "a") false
  have haccept : Lib.Run (step id) (fun _ _ => True) (start "a".toList fun _ => none) _ :=
    .tail .refl (a := .accept fileMeta (by decide +kernel)) trivial rfl
  have hchunk := haccept.tail (a := AttemptAction.chunk 0 [1, 2, 3] [1, 2, 3]) trivial rfl
  have hwrite := hchunk.tail (a := AttemptAction.write) trivial rfl
  have hflush := hwrite.tail (a := AttemptAction.flush) trivial rfl
  have hstop := hflush.tail (a := AttemptAction.crash 0) trivial rfl
  obtain ⟨s, hrun, hfile, hlog⟩ : ∃ s, Lib.Run (step id) (fun _ _ => True)
      (start "a".toList fun _ => none) s ∧ s.disk "a".toList = some [1, 2, 3] ∧ s.LogOf [1, 2, 3] :=
    ⟨_, hstop, by decide +kernel, rfl, List.forall_mem_singleton.mpr (by decide +kernel)⟩
  refine ⟨s, hrun, hfile, hlog, ?_⟩
  obtain ⟨-, disk, asm, missing, hopen, -, hcompletes⟩ := resume_adopts_own_chunks id "a".toList
    (fun _ => none) rfl s hrun [1, 2, 3] ⟨List.replicate 16 0, rfl⟩ (ascii "a") false (.inr hlog)
    (by decide +kernel)
  exact ⟨disk, asm, missing, hopen, hcompletes⟩

/-- A file of 64 chunks of zeros was received and not finalized; an offer of three bytes at the same
path is complete at once, with zeros on the disk. -/
theorem resume_adopts_another_file :
    ∃ s, Lib.Run (step id) (fun _ _ => True) (start "a".toList fun _ => none) s ∧ s.current = none ∧
      s.Opens id [1, 2, 3] ⟨List.replicate 16 0, rfl⟩ (ascii "a") false fun disk asm =>
        asm.received = {0} ∧ asm.missingChunks = [] ∧
        ¬ HoldsReceived [1, 2, 3] "a".toList disk asm ∧
        ¬ CompletesTo id [1, 2, 3] ⟨List.replicate 16 0, rfl⟩ "a".toList disk asm := by
  let zeros : Bytes := List.replicate (64 * chunkSize) 0
  have hcount : (FileChunker.new id zeros ⟨List.replicate 16 0, rfl⟩).chunkCount =
      saveStateInterval := by
    simp only [FileChunker.new, zeros, List.length_replicate]
    decide +kernel
  have hsize : zeros.length ≤ (u32Size - 1) * chunkSize := by
    simp only [zeros, List.length_replicate]
    decide +kernel
  obtain ⟨t, asm, hsaving, hpath, hbusy, -, -, hsidecar, hdisk⟩ :=
    exists_saving "a".toList (fun _ => none) rfl .increasing hcount.ge
  have hfile : t.disk "a".toList = some zeros := hdisk hcount hsize
  have hstop : t.step id (.crash 0) = some { t with current := none } := by
    unfold step
    rw [hbusy]
  have hopen := openDestination_loaded
    ((FileChunker.new id [1, 2, 3] ⟨List.replicate 16 0, rfl⟩).fileMeta (ascii "a") false)
    hsidecar hfile
  have hreceived : (loaded "a".toList ((FileChunker.new id [1, 2, 3]
      ⟨List.replicate 16 0, rfl⟩).fileMeta (ascii "a") false)
      (packU32 (IterOrder.increasing.toList (Finset.range saveStateInterval)))).received = {0} := by
    rw [received_loaded _ _ _ fun i hi => Nat.lt_trans (Finset.mem_range.mp hi) (by decide)]
    decide +kernel
  have hmissing : (loaded "a".toList ((FileChunker.new id [1, 2, 3]
      ⟨List.replicate 16 0, rfl⟩).fileMeta (ascii "a") false)
      (packU32 (IterOrder.increasing.toList (Finset.range saveStateInterval)))).missingChunks =
        [] := by
    rw [FileAssembler.missingChunks, hreceived]
    decide +kernel
  have hzero : zeros[0]? ≠ ([1, 2, 3] : Bytes)[0]? := by
    rw [List.getElem?_replicate]
    decide +kernel
  refine ⟨_, (hsaving.mono fun _ _ _ => trivial).tail trivial hstop, rfl, _, _, _,
    (congrArg (Files.openDestination t.disk · _ .ok) hpath).trans hopen, hreceived, hmissing, ?_, ?_⟩
  · rintro ⟨file, hfile', hholds⟩
    obtain rfl := Option.some.inj (hfile.symm.trans hfile')
    exact hzero (hholds 0 (by rw [hreceived]; exact Finset.mem_singleton_self 0) 0 (by decide) rfl)
  · intro hcompletes
    obtain ⟨-, hcontent⟩ := hcompletes [] (fun call hcall => absurd hcall List.not_mem_nil)
      (fun i hi => absurd (hmissing ▸ hi) List.not_mem_nil)
    exact hzero (congrArg (·[0]?) (Option.some.inj (hfile.symm.trans hcontent)))

end Cypher.Client.Attempts
