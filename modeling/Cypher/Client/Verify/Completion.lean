import Cypher.Client.Files
import Cypher.Client.Verify.Usable
import Cypher.Lib.Paired
import Cypher.Transfer.Verify.Reassembly

/-!
# Which files are reported complete

`finalize_received_file` reports a file after `verify` has returned `Ok(true)`; `handle_file_complete`
and the end of a send task report whatever id they are given. A receiver counts a chunk as written if
it has written it or found it in the sidecar of an earlier attempt.

* `Tracked` is the invariant of every run: a handler that has seen the last chunk, or the verdict of
  `verify`, works for a receiver of which this is still true. What it rests on only grows (`Grows`).
* `completes_iff` names the steps that report a file.
* `completion_verified_iff`: the file that a step reports is written and verified exactly if the step
  is not a message, or a finished send, that names an accepted offer still to be verified.
-/

namespace Cypher.Client

open Crypto Transfer Verify

variable {Key Secret Ct : Type}

namespace Files

def Written (files : Files Key Secret Ct) (r : Nat) : Prop :=
  ∃ recv, files.receivers[r]? = some recv ∧ ∀ i < recv.expectedChunks, i ∈ recv.received

/-- The receiver of the offer that was last accepted under an id. -/
def lastAccepted (files : Files Key Secret Ct) (fileId : Bytes) : Option Nat :=
  (files.accepted.reverse.find? (·.1 = fileId)).map (·.2)

/-- The step from `files` to `files'` emits `FileComplete`. -/
def Completes (files files' : Files Key Secret Ct) (fileId : Bytes) : Prop :=
  .fileComplete fileId ∈ files'.events.drop files.events.length

/-- The accepted offer that a `FileComplete` of a step is about, by its receiver: the one whose chunk
is handled, or the one last accepted under the id. -/
def subject (files : Files Key Secret Ct) (a : FileAction Key Secret Ct) (fileId : Bytes) :
    Option Nat :=
  match a with
  | .report t => files.tasks[t]?.map (·.receiver)
  | _ => files.lastAccepted fileId

/-- A `FileComplete` message or a finished send does not name an offer that is still to be verified. -/
def VerifiedFirst (files : Files Key Secret Ct) : FileAction Key Secret Ct → Prop
  | .fileComplete fileId => ∀ r ∈ files.lastAccepted fileId, r ∈ files.verified
  | .sendDone t .done => ∀ send ∈ files.sends[t]?, ∀ r ∈ files.lastAccepted send.1, r ∈ files.verified
  | _ => True

theorem mem_accepted_of_lastAccepted {files : Files Key Secret Ct} {fileId : Bytes} {r : Nat}
    (h : files.lastAccepted fileId = some r) : (fileId, r) ∈ files.accepted := by
  obtain ⟨⟨f, r'⟩, hfind, rfl⟩ := Option.map_eq_some_iff.mp h
  have hid : f = fileId := by simpa using List.find?_some hfind
  subst hid
  exact List.mem_reverse.mp (List.mem_of_find?_eq_some hfind)

/-! ## The invariant -/

/-- What a handler has seen is true of its receiver. -/
def PhaseOk (files : Files Key Secret Ct) (r : Nat) : ChunkPhase → Prop
  | .written done => done = true → files.Written r
  | .complete => files.Written r
  | .verified result | .closed result => result = .ok true → r ∈ files.verified
  | _ => True

def CallOk : AcceptPhase → Prop
  | .taken fileMeta _ => fileMeta.chunkCount < u32Size
  | _ => True

/-- The number of chunks is a `u32`, and only chunks of the file are received. -/
structure InRange (recv : TransferReceiver) : Prop where
  chunks_lt : recv.expectedChunks < u32Size
  received_subset : recv.received ⊆ Finset.range recv.expectedChunks

structure Tracked (files : Files Key Secret Ct) : Prop where
  pending : ∀ fileId m sender, files.pendingMetas fileId = some (m, sender) → m.chunkCount < u32Size
  calls : ∀ call ∈ files.calls, CallOk call.phase
  receivers : ∀ recv ∈ files.receivers, InRange recv
  active : ∀ fileId r rest, files.activeRecvs fileId = some (r, rest) → (fileId, r) ∈ files.accepted
  tasks : ∀ task ∈ files.tasks, (task.chunk.fileId, task.receiver) ∈ files.accepted
  phases : ∀ task ∈ files.tasks, files.PhaseOk task.receiver task.phase
  verified : ∀ r ∈ files.verified, files.Written r

/-- Nothing that was accepted, written or verified is undone. -/
structure Grows (files files' : Files Key Secret Ct) : Prop where
  accepted : files.accepted ⊆ files'.accepted
  verified : files.verified ⊆ files'.verified
  written : ∀ r, files.Written r → files'.Written r

variable {files files' : Files Key Secret Ct}

theorem PhaseOk.mono (grows : Grows files files') {r : Nat} {phase : ChunkPhase}
    (h : files.PhaseOk r phase) : files'.PhaseOk r phase := by
  cases phase with
  | written done => exact fun hdone => grows.written r (h hdone)
  | complete => exact grows.written r h
  | verified result => exact fun hresult => grows.verified (h hresult)
  | closed result => exact fun hresult => grows.verified (h hresult)
  | _ => trivial

namespace Tracked

theorem start (keys : KeyManager Key Secret) (disk : Disk) :
    Tracked (Files.start keys disk : Files Key Secret Ct) where
  pending _ _ _ h := by cases h
  calls _ h := by cases h
  receivers _ h := by cases h
  active _ _ _ h := by cases h
  tasks _ h := by cases h
  phases _ h := by cases h
  verified _ h := by cases h

theorem phaseOk (h : Tracked files) {t : Nat} {task : ChunkTask Ct} {phase : ChunkPhase}
    (htask : files.tasks[t]? = some task) (hphase : task.phase = phase) :
    files.PhaseOk task.receiver phase :=
  hphase ▸ h.phases task (List.mem_of_getElem? htask)

/-- Events, messages, sends, sessions and the disk take no part. -/
theorem of_eq (h : Tracked files) (hpending : files'.pendingMetas = files.pendingMetas)
    (hcalls : files'.calls = files.calls) (hreceivers : files'.receivers = files.receivers)
    (hactive : files'.activeRecvs = files.activeRecvs) (htasks : files'.tasks = files.tasks)
    (haccepted : files'.accepted = files.accepted) (hverified : files'.verified = files.verified) :
    Tracked files' := by
  have hwritten : ∀ r, files.Written r → files'.Written r := by
    rintro r ⟨recv, hrecv, hall⟩
    exact ⟨recv, hreceivers ▸ hrecv, hall⟩
  have grows : Grows files files' :=
    ⟨haccepted ▸ fun _ => id, hverified ▸ fun _ => id, hwritten⟩
  constructor
  · rw [hpending]; exact h.pending
  · rw [hcalls]; exact h.calls
  · rw [hreceivers]; exact h.receivers
  · rw [hactive, haccepted]; exact h.active
  · rw [htasks, haccepted]; exact h.tasks
  · rw [htasks]; exact fun task htask => (h.phases task htask).mono grows
  · rw [hverified]; exact fun r hr => hwritten r (h.verified r hr)

theorem emit (h : Tracked files) (event : FileEvent) : Tracked (files.emit event) :=
  h.of_eq rfl rfl rfl rfl rfl rfl rfl

theorem setTask (h : Tracked files) {t : Nat} {task : ChunkTask Ct}
    (htask : files.tasks[t]? = some task) {phase : ChunkPhase}
    (hphase : files.PhaseOk task.receiver phase) : Tracked (files.setTask t task phase) where
  pending := h.pending
  calls := h.calls
  receivers := h.receivers
  active := h.active
  tasks other hother := by
    rcases List.mem_or_eq_of_mem_set hother with hold | rfl
    · exact h.tasks other hold
    · exact h.tasks task (List.mem_of_getElem? htask)
  phases other hother := by
    rcases List.mem_or_eq_of_mem_set hother with hold | rfl
    · exact h.phases other hold
    · exact hphase
  verified := h.verified

theorem setCall (h : Tracked files) {phase : AcceptPhase} (hphase : CallOk phase) (c : Nat)
    (call : AcceptCall) : Tracked (files.setCall c call phase) where
  pending := h.pending
  calls other hother := by
    rcases List.mem_or_eq_of_mem_set hother with hold | rfl
    · exact h.calls other hold
    · exact hphase
  receivers := h.receivers
  active := h.active
  tasks := h.tasks
  phases := h.phases
  verified := h.verified

theorem deactivate (h : Tracked files) (fileId : Bytes) :
    Tracked { files with activeRecvs := Function.update files.activeRecvs fileId none } where
  pending := h.pending
  calls := h.calls
  receivers := h.receivers
  active other r rest hother := h.active other r rest (Lib.of_erase hother).2
  tasks := h.tasks
  phases := h.phases
  verified := h.verified

theorem setReceiver (h : Tracked files) {r : Nat} {recv recv' : TransferReceiver}
    (hrecv : files.receivers[r]? = some recv) (hrange : InRange recv')
    (hchunks : recv'.expectedChunks = recv.expectedChunks)
    (hsubset : recv.received ⊆ recv'.received) (disk : Disk) :
    Tracked { files with disk, receivers := files.receivers.set r recv' } := by
  have hlt : r < files.receivers.length := (List.getElem?_eq_some_iff.mp hrecv).1
  have hwritten : ∀ q, files.Written q →
      Written { files with disk, receivers := files.receivers.set r recv' } q := by
    rintro q ⟨old, hold, hall⟩
    by_cases hq : r = q
    · subst hq
      rw [hrecv] at hold
      cases hold
      refine ⟨recv', List.getElem?_set_self hlt, ?_⟩
      rw [hchunks]
      exact fun i hi => hsubset (hall i hi)
    · exact ⟨old, (List.getElem?_set_ne hq).trans hold, hall⟩
  refine ⟨h.pending, h.calls, ?_, h.active, h.tasks, ?_, fun q hq => hwritten q (h.verified q hq)⟩
  · intro other hother
    rcases List.mem_or_eq_of_mem_set hother with hold | rfl
    · exact h.receivers other hold
    · exact hrange
  · intro task htask
    refine PhaseOk.mono ?_ (h.phases task htask)
    exact ⟨fun _ => id, fun _ => id, hwritten⟩

theorem addReceiver (h : Tracked files) {asm : FileAssembler} (hrange : InRange asm) (fileId : Bytes)
    (rest : PeerId × Bool) (disk : Disk) :
    Tracked { files with
      disk
      activeRecvs := Function.update files.activeRecvs fileId (some (files.receivers.length, rest))
      receivers := files.receivers ++ [asm]
      accepted := files.accepted ++ [(fileId, files.receivers.length)] } := by
  have hwritten : ∀ r, files.Written r →
      ∃ recv, (files.receivers ++ [asm])[r]? = some recv ∧
        ∀ i < recv.expectedChunks, i ∈ recv.received := by
    rintro r ⟨recv, hrecv, hall⟩
    have hlt : r < files.receivers.length := (List.getElem?_eq_some_iff.mp hrecv).1
    exact ⟨recv, (List.getElem?_append_left hlt).trans hrecv, hall⟩
  refine ⟨h.pending, h.calls, ?_, ?_, fun task htask => List.mem_append_left _ (h.tasks task htask),
    ?_, fun r hr => hwritten r (h.verified r hr)⟩
  · exact List.forall_mem_append.mpr ⟨h.receivers, List.forall_mem_singleton.mpr hrange⟩
  · intro other r rest' hother
    rcases Lib.of_insert hother with ⟨rfl, hnew⟩ | hold
    · cases hnew
      exact List.mem_append_right _ (List.mem_singleton.mpr rfl)
    · exact List.mem_append_left _ (h.active other r rest' hold)
  · intro task htask
    refine PhaseOk.mono ?_ (h.phases task htask)
    exact ⟨List.subset_append_left _ _, fun _ => id, hwritten⟩

end Tracked

/-! ## The receivers -/

theorem InRange.insert {recv : TransferReceiver} (h : InRange recv) {i : Nat}
    (hi : i < recv.expectedChunks) :
    InRange { recv with received := Insert.insert i recv.received } where
  chunks_lt := h.chunks_lt
  received_subset := Finset.insert_subset (Finset.mem_range.mpr hi) h.received_subset

theorem inRange_openDestination {disk disk' : Disk} {dest : Path} {fileMeta : FileMeta}
    {io : AcceptIo} {asm : FileAssembler} {missing : Option (List Nat)}
    (hlt : fileMeta.chunkCount < u32Size)
    (h : openDestination disk dest fileMeta io = (disk', .ok (asm, missing))) : InRange asm := by
  unfold openDestination at h
  split at h
  · cases h
  · cases h
  · next hload =>
    cases h
    unfold FileAssembler.loadState at hload
    split at hload
    · cases hload
    · split at hload
      · cases hload
      · cases hload
        refine ⟨hlt, fun i hi => ?_⟩
        -- only the indices below `chunk_count` are taken from the sidecar
        simp only [FileAssembler.loadReceived, List.mem_toFinset, List.mem_filter,
          decide_eq_true_eq] at hi
        exact Finset.mem_range.mpr hi.2
  · cases h
  · cases h
    exact ⟨hlt, Finset.empty_subset _⟩

theorem handleChunk_ok {sha256 : Bytes → Bytes} {order : IterOrder} {disk disk' : Disk}
    {recv recv' : TransferReceiver} {index : Nat} {data hash : Bytes} {done : Bool}
    (h : TransferReceiver.handleChunk sha256 order disk recv index data hash =
      ((disk', recv'), .ok done)) :
    index < recv.expectedChunks ∧ recv' = { recv with received := insert index recv.received } ∧
      done = recv'.isComplete := by
  unfold TransferReceiver.handleChunk at h
  by_cases haccepts : FileAssembler.Accepts sha256 recv ⟨index, data, hash, order⟩
  · obtain ⟨disk'', hwrite, -⟩ := FileAssembler.writeChunk_of_accepts disk haccepts
    rw [hwrite] at h
    cases h
    exact ⟨haccepts.2, rfl, rfl⟩
  · obtain ⟨err, hwrite⟩ := FileAssembler.writeChunk_of_not_accepts disk haccepts
    rw [hwrite] at h
    cases h

theorem written_of_isComplete {recv : TransferReceiver} (h : InRange recv)
    (hcomplete : recv.isComplete = true) : ∀ i < recv.expectedChunks, i ∈ recv.received := by
  have hmissing := (isComplete_iff h.chunks_lt h.received_subset).mp hcomplete
  intro i hi
  by_contra hnot
  have hmem : i ∈ recv.missingChunks :=
    List.mem_filter.mpr ⟨List.mem_range.mpr hi, decide_eq_true hnot⟩
  rw [hmissing] at hmem
  cases hmem

/-! ## The steps keep the invariant -/

variable {S : Suite Key Secret Ct} {sha256 : Bytes → Bytes} {z : Zstd}

namespace Tracked

theorem handleFileOffer (h : Tracked files) (offer : FileOffer) (generated : FileId) :
    Tracked (files.handleFileOffer offer generated) := by
  unfold Files.handleFileOffer
  split
  · exact h
  · apply Tracked.emit
    refine ⟨?_, h.calls, h.receivers, h.active, h.tasks, h.phases, h.verified⟩
    intro fileId m sender hmeta
    rcases Lib.of_insert hmeta with ⟨-, hnew⟩ | hold
    · cases hnew
      exact offer.chunks_lt
    · exact h.pending fileId m sender hold

theorem acceptFile (h : Tracked files) (fileId : Bytes) (dest : Path) :
    Tracked (files.acceptFile fileId dest) := by
  have hcalls : ∀ call : AcceptCall, CallOk call.phase →
      ∀ other ∈ files.calls ++ [call], CallOk other.phase := fun _ hcall =>
    List.forall_mem_append.mpr ⟨h.calls, List.forall_mem_singleton.mpr hcall⟩
  unfold Files.acceptFile
  split
  · exact ⟨h.pending, hcalls _ trivial, h.receivers, h.active, h.tasks, h.phases, h.verified⟩
  · next m sender hmeta =>
    refine ⟨?_, hcalls _ (h.pending _ _ _ hmeta), h.receivers, h.active, h.tasks, h.phases,
      h.verified⟩
    exact fun other m' sender' hother => h.pending other m' sender' (Lib.of_erase hother).2

theorem openFile (h : Tracked files) {c : Nat} {call : AcceptCall} {fileMeta : FileMeta}
    (hlt : fileMeta.chunkCount < u32Size) (sender : PeerId) (io : AcceptIo) :
    Tracked (files.openFile c call fileMeta sender io) := by
  unfold Files.openFile
  split
  · apply Tracked.setCall
    · exact h.of_eq rfl rfl rfl rfl rfl rfl rfl
    · trivial
  · next hopen =>
    apply Tracked.setCall
    · exact h.addReceiver (inRange_openDestination hlt hopen) _ _ _
    · trivial

theorem sendAccept (h : Tracked files) (c : Nat) (call : AcceptCall) (sender : PeerId)
    (missing : Option (List Nat)) (sent : Result Unit) :
    Tracked (files.sendAccept c call sender missing sent) := by
  unfold Files.sendAccept
  split
  · apply h.setCall
    trivial
  · apply Tracked.setCall
    · exact h.of_eq rfl rfl rfl rfl rfl rfl rfl
    · trivial

theorem handleFileChunk (h : Tracked files) (chunk : FileChunk Ct) :
    Tracked (files.handleFileChunk chunk) := by
  unfold Files.handleFileChunk
  split
  · exact h
  · next receiver peer compressed hactive =>
    refine ⟨h.pending, h.calls, h.receivers, h.active, ?_, ?_, h.verified⟩
    · exact List.forall_mem_append.mpr
        ⟨h.tasks, List.forall_mem_singleton.mpr (h.active _ _ _ hactive)⟩
    · exact List.forall_mem_append.mpr ⟨h.phases, List.forall_mem_singleton.mpr trivial⟩

variable {t : Nat} {task : ChunkTask Ct} {recv : TransferReceiver}

theorem decryptChunk (h : Tracked files) (htask : files.tasks[t]? = some task) (fresh : Secret) :
    Tracked (files.decryptChunk S z t task fresh) := by
  have hkeys : ∀ keys, Tracked { files with keys } := fun keys =>
    h.of_eq rfl rfl rfl rfl rfl rfl rfl
  unfold Files.decryptChunk
  dsimp only
  split
  · apply Tracked.setTask
    · exact (hkeys _).emit _
    · exact htask
    · trivial
  · split
    · apply Tracked.setTask
      · exact (hkeys _).emit _
      · exact htask
      · trivial
    · apply Tracked.setTask
      · exact hkeys _
      · exact htask
      · trivial

theorem writeChunk (h : Tracked files) (htask : files.tasks[t]? = some task)
    (hrecv : files.receivers[task.receiver]? = some recv) (plaintext : Bytes) (order : IterOrder) :
    Tracked (files.writeChunk sha256 t task recv plaintext order) := by
  unfold Files.writeChunk
  split
  · apply Tracked.setTask
    · exact h.emit _
    · exact htask
    · trivial
  · next disk recv' done hhandle =>
    obtain ⟨hindex, rfl, rfl⟩ := handleChunk_ok hhandle
    have hrange := (h.receivers recv (List.mem_of_getElem? hrecv)).insert hindex
    apply Tracked.setTask
    · exact h.setReceiver hrecv hrange rfl (Finset.subset_insert _ _) disk
    · exact htask
    · intro hcomplete
      have hlt : task.receiver < files.receivers.length := (List.getElem?_eq_some_iff.mp hrecv).1
      exact ⟨_, List.getElem?_set_self hlt, written_of_isComplete hrange hcomplete⟩

theorem reportProgress (h : Tracked files) (htask : files.tasks[t]? = some task) {done : Bool}
    (hphase : task.phase = .written done) : Tracked (files.reportProgress t task recv done) := by
  have hdone : done = true → files.Written task.receiver := h.phaseOk htask hphase
  unfold Files.reportProgress
  dsimp only
  apply Tracked.setTask
  · apply Tracked.emit
    exact h.of_eq rfl rfl rfl rfl rfl rfl rfl
  · exact htask
  · cases done with
    | false => trivial
    | true => exact hdone rfl

theorem verifyFile (h : Tracked files) (htask : files.tasks[t]? = some task)
    (hphase : task.phase = .complete) (shorts : Nat → Nat) :
    Tracked (files.verifyFile sha256 t task recv shorts) := by
  have hwritten : files.Written task.receiver := h.phaseOk htask hphase
  unfold Files.verifyFile
  dsimp only
  split
  · next htrue =>
    have hadded : Tracked { files with verified := task.receiver :: files.verified } := by
      refine ⟨h.pending, h.calls, h.receivers, h.active, h.tasks, ?_, ?_⟩
      · intro other hother
        refine PhaseOk.mono ?_ (h.phases other hother)
        exact ⟨fun _ => id, List.subset_cons_self _ _, fun _ => id⟩
      · intro r hr
        rcases List.mem_cons.mp hr with rfl | hold
        · exact hwritten
        · exact h.verified r hold
    refine Tracked.setTask hadded htask ?_
    exact fun _ => List.mem_cons_self
  · next hfalse =>
    refine h.setTask htask ?_
    exact fun htrue => absurd htrue hfalse

theorem closeReceive (h : Tracked files) (htask : files.tasks[t]? = some task) {result : Result Bool}
    (hphase : task.phase = .verified result) : Tracked (files.closeReceive t task result) := by
  unfold Files.closeReceive
  apply Tracked.setTask
  · exact h.deactivate _
  · exact htask
  · exact h.phaseOk htask hphase

theorem reportResult (h : Tracked files) (htask : files.tasks[t]? = some task)
    (result : Result Bool) : Tracked (files.reportResult t task recv result) := by
  have hended : Tracked (files.setTask t task .ended) := h.setTask htask trivial
  unfold Files.reportResult
  dsimp only
  split
  · apply Tracked.emit
    exact hended.of_eq rfl rfl rfl rfl rfl rfl rfl
  · exact hended.emit _
  · exact hended.emit _

theorem handleFileAccept (h : Tracked files) (fileId : Bytes) :
    Tracked (files.handleFileAccept fileId) := by
  unfold Files.handleFileAccept
  split
  · exact h
  · exact h.of_eq rfl rfl rfl rfl rfl rfl rfl

theorem finishSend (h : Tracked files) (t : Nat) (send : Bytes × PeerId) (how : SendEnd) :
    Tracked (files.finishSend t send how) := by
  cases how <;> exact h.of_eq rfl rfl rfl rfl rfl rfl rfl

end Tracked

/-! ## Inversion of a step -/

variable (S sha256 z) in
inductive Step (files : Files Key Secret Ct) :
    FileAction Key Secret Ct → Files Key Secret Ct → Prop
  | offer (o : FileOffer) (generated : FileId) :
      Step files (.offer o generated) (files.handleFileOffer o generated)
  | acceptFile (fileId : Bytes) (dest : Path) :
      Step files (.acceptFile fileId dest) (files.acceptFile fileId dest)
  | openFile {c : Nat} {io : AcceptIo} {call : AcceptCall} {fileMeta : FileMeta} {sender : PeerId}
      (hcall : files.calls[c]? = some call) (hphase : call.phase = .taken fileMeta sender) :
      Step files (.openFile c io) (files.openFile c call fileMeta sender io)
  | sendAccept {c : Nat} {sent : Result Unit} {call : AcceptCall} {sender : PeerId}
      {missing : Option (List Nat)} (hcall : files.calls[c]? = some call)
      (hphase : call.phase = .opened sender missing) :
      Step files (.sendAccept c sent) (files.sendAccept c call sender missing sent)
  | chunk (c : FileChunk Ct) : Step files (.chunk c) (files.handleFileChunk c)
  | decrypt {t : Nat} {fresh : Secret} {task : ChunkTask Ct} (htask : files.tasks[t]? = some task)
      (hphase : task.phase = .found) :
      Step files (.decrypt t fresh) (files.decryptChunk S z t task fresh)
  | write {t : Nat} {order : IterOrder} {task : ChunkTask Ct} {recv : TransferReceiver}
      {plaintext : Bytes} (htask : files.tasks[t]? = some task)
      (hrecv : files.receivers[task.receiver]? = some recv)
      (hphase : task.phase = .decrypted plaintext) :
      Step files (.write t order) (files.writeChunk sha256 t task recv plaintext order)
  | progress {t : Nat} {task : ChunkTask Ct} {recv : TransferReceiver} {done : Bool}
      (htask : files.tasks[t]? = some task)
      (hrecv : files.receivers[task.receiver]? = some recv) (hphase : task.phase = .written done) :
      Step files (.progress t) (files.reportProgress t task recv done)
  | verify {t : Nat} {shorts : Nat → Nat} {task : ChunkTask Ct} {recv : TransferReceiver}
      (htask : files.tasks[t]? = some task)
      (hrecv : files.receivers[task.receiver]? = some recv) (hphase : task.phase = .complete) :
      Step files (.verify t shorts) (files.verifyFile sha256 t task recv shorts)
  | close {t : Nat} {task : ChunkTask Ct} {result : Result Bool}
      (htask : files.tasks[t]? = some task) (hphase : task.phase = .verified result) :
      Step files (.close t) (files.closeReceive t task result)
  | report {t : Nat} {task : ChunkTask Ct} {recv : TransferReceiver} {result : Result Bool}
      (htask : files.tasks[t]? = some task)
      (hrecv : files.receivers[task.receiver]? = some recv) (hphase : task.phase = .closed result) :
      Step files (.report t) (files.reportResult t task recv result)
  | fileComplete (fileId : Bytes) :
      Step files (.fileComplete fileId) (files.handleFileComplete fileId)
  | sendFile (fileId : FileId) (peer : PeerId) :
      Step files (.sendFile fileId peer)
        { files with pendingSends := Function.update files.pendingSends fileId.val (some peer) }
  | fileAccept (fileId : Bytes) : Step files (.fileAccept fileId) (files.handleFileAccept fileId)
  | sendDone {t : Nat} {how : SendEnd} {send : Bytes × PeerId} (hsend : files.sends[t]? = some send) :
      Step files (.sendDone t how) (files.finishSend t send how)
  | rekey (keys : KeyManager Key Secret) : Step files (.rekey keys) { files with keys }

theorem step_cases {a : FileAction Key Secret Ct} (taken : files.step S sha256 z a = some files') :
    Step S sha256 z files a files' := by
  cases a with
  | offer o generated => cases taken; exact .offer o generated
  | acceptFile fileId dest => cases taken; exact .acceptFile fileId dest
  | chunk c => cases taken; exact .chunk c
  | fileComplete fileId => cases taken; exact .fileComplete fileId
  | sendFile fileId peer => cases taken; exact .sendFile fileId peer
  | fileAccept fileId => cases taken; exact .fileAccept fileId
  | rekey keys => cases taken; exact .rekey keys
  | sendDone t how =>
    obtain ⟨send, hsend, taken⟩ := Option.bind_eq_some_iff.mp taken
    cases taken
    exact .sendDone hsend
  | openFile c io =>
    obtain ⟨call, hcall, taken⟩ := Option.bind_eq_some_iff.mp taken
    split at taken
    · next hphase => cases taken; exact .openFile hcall hphase
    · cases taken
  | sendAccept c sent =>
    obtain ⟨call, hcall, taken⟩ := Option.bind_eq_some_iff.mp taken
    split at taken
    · next hphase => cases taken; exact .sendAccept hcall hphase
    · cases taken
  | decrypt t fresh =>
    obtain ⟨task, htask, taken⟩ := Option.bind_eq_some_iff.mp taken
    split at taken
    · next hphase => cases taken; exact .decrypt htask hphase
    · cases taken
  | close t =>
    obtain ⟨task, htask, taken⟩ := Option.bind_eq_some_iff.mp taken
    split at taken
    · next hphase => cases taken; exact .close htask hphase
    · cases taken
  | write t order =>
    obtain ⟨task, htask, taken⟩ := Option.bind_eq_some_iff.mp taken
    obtain ⟨recv, hrecv, taken⟩ := Option.bind_eq_some_iff.mp taken
    split at taken
    · next hphase => cases taken; exact .write htask hrecv hphase
    · cases taken
  | progress t =>
    obtain ⟨task, htask, taken⟩ := Option.bind_eq_some_iff.mp taken
    obtain ⟨recv, hrecv, taken⟩ := Option.bind_eq_some_iff.mp taken
    split at taken
    · next hphase => cases taken; exact .progress htask hrecv hphase
    · cases taken
  | verify t shorts =>
    obtain ⟨task, htask, taken⟩ := Option.bind_eq_some_iff.mp taken
    obtain ⟨recv, hrecv, taken⟩ := Option.bind_eq_some_iff.mp taken
    split at taken
    · next hphase => cases taken; exact .verify htask hrecv hphase
    · cases taken
  | report t =>
    obtain ⟨task, htask, taken⟩ := Option.bind_eq_some_iff.mp taken
    obtain ⟨recv, hrecv, taken⟩ := Option.bind_eq_some_iff.mp taken
    split at taken
    · next hphase => cases taken; exact .report htask hrecv hphase
    · cases taken

theorem Tracked.step (h : Tracked files) {a : FileAction Key Secret Ct}
    (taken : files.step S sha256 z a = some files') : Tracked files' := by
  cases step_cases taken with
  | offer o generated => exact h.handleFileOffer o generated
  | acceptFile fileId dest => exact h.acceptFile fileId dest
  | openFile hcall hphase =>
    have hlt := h.calls _ (List.mem_of_getElem? hcall)
    rw [hphase] at hlt
    exact h.openFile hlt _ _
  | sendAccept => exact h.sendAccept _ _ _ _ _
  | chunk c => exact h.handleFileChunk c
  | decrypt htask => exact h.decryptChunk htask _
  | write htask hrecv => exact h.writeChunk htask hrecv _ _
  | progress htask _ hphase => exact h.reportProgress htask hphase
  | verify htask _ hphase => exact h.verifyFile htask hphase _
  | close htask hphase => exact h.closeReceive htask hphase
  | report htask => exact h.reportResult htask _
  | fileComplete fileId =>
    apply Tracked.emit
    exact h.deactivate fileId
  | sendFile => exact h.of_eq rfl rfl rfl rfl rfl rfl rfl
  | fileAccept fileId => exact h.handleFileAccept fileId
  | sendDone => exact h.finishSend _ _ _
  | rekey => exact h.of_eq rfl rfl rfl rfl rfl rfl rfl

/-! ## The steps that report a file -/

def Reports (files : Files Key Secret Ct) (a : FileAction Key Secret Ct) (fileId : Bytes) : Prop :=
  match a with
  | .report t => ∃ task, files.tasks[t]? = some task ∧ task.phase = .closed (.ok true) ∧
      task.chunk.fileId = fileId
  | .fileComplete id => id = fileId
  | .sendDone t .done => ∃ send, files.sends[t]? = some send ∧ send.1 = fileId
  | _ => False

theorem completes_iff_mem {new : List FileEvent} (h : files'.events = files.events ++ new)
    (fileId : Bytes) : Completes files files' fileId ↔ .fileComplete fileId ∈ new := by
  rw [Completes, h, List.drop_left]

theorem not_completes_of_eq (h : files'.events = files.events) (fileId : Bytes) :
    ¬ Completes files files' fileId := by
  rw [completes_iff_mem (h.trans (List.append_nil _).symm)]
  exact List.not_mem_nil

theorem not_completes_of_ne {event : FileEvent} (h : files'.events = files.events ++ [event])
    {fileId : Bytes} (hne : event ≠ .fileComplete fileId) : ¬ Completes files files' fileId := by
  rw [completes_iff_mem h, List.mem_singleton]
  exact hne.symm

theorem completes_iff {a : FileAction Key Secret Ct} (taken : files.step S sha256 z a = some files')
    (fileId : Bytes) : Completes files files' fileId ↔ Reports files a fileId := by
  cases step_cases taken with
  | offer o generated =>
    refine iff_of_false ?_ id
    unfold handleFileOffer
    split
    · exact not_completes_of_eq rfl _
    · exact not_completes_of_ne rfl FileEvent.noConfusion
  | acceptFile id dest =>
    refine iff_of_false ?_ (fun h => h)
    unfold acceptFile
    split <;> exact not_completes_of_eq rfl _
  | openFile =>
    refine iff_of_false ?_ id
    unfold openFile
    split <;> exact not_completes_of_eq rfl _
  | sendAccept =>
    refine iff_of_false ?_ id
    unfold sendAccept
    split <;> exact not_completes_of_eq rfl _
  | chunk c =>
    refine iff_of_false ?_ id
    unfold handleFileChunk
    split <;> exact not_completes_of_eq rfl _
  | decrypt =>
    refine iff_of_false ?_ id
    unfold decryptChunk
    dsimp only
    split
    · exact not_completes_of_ne rfl FileEvent.noConfusion
    · split
      · exact not_completes_of_ne rfl FileEvent.noConfusion
      · exact not_completes_of_eq rfl _
  | write =>
    refine iff_of_false ?_ id
    unfold writeChunk
    split
    · exact not_completes_of_ne rfl FileEvent.noConfusion
    · exact not_completes_of_eq rfl _
  | progress => exact iff_of_false (not_completes_of_ne rfl FileEvent.noConfusion) id
  | verify => exact iff_of_false (not_completes_of_eq rfl _) id
  | close => exact iff_of_false (not_completes_of_eq rfl _) id
  | @report t task recv result htask hrecv hphase =>
    have hreports : Reports files (.report t) fileId ↔
        result = .ok true ∧ task.chunk.fileId = fileId := by
      simp [Reports, htask, hphase]
    rw [hreports]
    unfold reportResult
    dsimp only
    split
    · rw [completes_iff_mem rfl, List.mem_singleton, FileEvent.fileComplete.injEq, eq_comm]
      exact (and_iff_right rfl).symm
    · exact iff_of_false (not_completes_of_ne rfl FileEvent.noConfusion) (by simp)
    · exact iff_of_false (not_completes_of_ne rfl FileEvent.noConfusion) (by simp)
  | fileComplete id =>
    rw [completes_iff_mem rfl, List.mem_singleton, FileEvent.fileComplete.injEq, eq_comm]
    exact Iff.rfl
  | sendFile => exact iff_of_false (not_completes_of_eq rfl _) id
  | fileAccept id =>
    refine iff_of_false ?_ (fun h => h)
    unfold handleFileAccept
    split <;> exact not_completes_of_eq rfl _
  | @sendDone t how send hsend =>
    cases how with
    | chunkerShared => exact iff_of_false (not_completes_of_ne rfl FileEvent.noConfusion) id
    | failed err => exact iff_of_false (not_completes_of_ne rfl FileEvent.noConfusion) id
    | done =>
      have hreports : Reports files (.sendDone t .done) fileId ↔ send.1 = fileId := by
        simp [Reports, hsend]
      rw [hreports, completes_iff_mem rfl, List.mem_singleton, FileEvent.fileComplete.injEq, eq_comm]
  | rekey => exact iff_of_false (not_completes_of_eq rfl _) id

/-! ## Reported files are verified -/

theorem Tracked.of_run {keys : KeyManager Key Secret} {disk : Disk}
    (run : Lib.Run (Files.step S sha256 z) (fun _ _ => True) (Files.start keys disk) files) :
    Tracked files :=
  run.invariant (.start keys disk) fun tracked _ taken => tracked.step taken

theorem Tracked.lastAccepted_iff (h : Tracked files) (haccepted : files'.accepted = files.accepted)
    (hverified : files'.verified = files.verified)
    (hreceivers : files'.receivers = files.receivers) (fileId : Bytes) :
    (∀ r, files.lastAccepted fileId = some r →
        (fileId, r) ∈ files'.accepted ∧ files'.Written r ∧ r ∈ files'.verified) ↔
      ∀ r ∈ files.lastAccepted fileId, r ∈ files.verified := by
  constructor
  · intro hall r hr
    exact hverified ▸ (hall r hr).2.2
  · intro hall r hr
    obtain ⟨recv, hrecv, hwritten⟩ := h.verified r (hall r hr)
    exact ⟨haccepted ▸ mem_accepted_of_lastAccepted hr, ⟨recv, hreceivers ▸ hrecv, hwritten⟩,
      hverified ▸ hall r hr⟩

theorem completion_verified_iff (S : Suite Key Secret Ct) (sha256 : Bytes → Bytes) (z : Zstd)
    (keys : KeyManager Key Secret) (disk : Disk) {files files' : Files Key Secret Ct}
    {a : FileAction Key Secret Ct}
    (run : Lib.Run (step S sha256 z) (fun _ _ => True) (start keys disk) files)
    (taken : files.step S sha256 z a = some files') :
    (∀ fileId r, Completes files files' fileId → files.subject a fileId = some r →
        (fileId, r) ∈ files'.accepted ∧ files'.Written r ∧ r ∈ files'.verified) ↔
      files.VerifiedFirst a := by
  have tracked := Tracked.of_run run
  simp only [completes_iff taken]
  cases step_cases taken with
  | @report t task recv result htask hrecv hphase =>
    refine iff_of_true ?_ trivial
    -- the handler has its verdict from `verify`, which ran when every chunk was written
    rintro fileId r ⟨task', htask', hclosed, rfl⟩ hsubject
    obtain rfl : task = task' := Option.some.inj (htask.symm.trans htask')
    obtain rfl : task.receiver = r := by simpa [subject, htask] using hsubject
    have hverified : task.receiver ∈ files.verified := tracked.phaseOk htask hclosed rfl
    obtain rfl : result = .ok true := ChunkPhase.closed.inj (hphase.symm.trans hclosed)
    exact ⟨tracked.tasks task (List.mem_of_getElem? htask), tracked.verified _ hverified, hverified⟩
  | fileComplete id =>
    refine Iff.trans ?_ (tracked.lastAccepted_iff rfl rfl rfl id)
    constructor
    · exact fun hall r hr => hall id r rfl hr
    · rintro hall fileId r rfl hr
      exact hall r hr
  | @sendDone t how send hsend =>
    cases how with
    | chunkerShared => exact iff_of_true (fun _ _ h => h.elim) trivial
    | failed err => exact iff_of_true (fun _ _ h => h.elim) trivial
    | done =>
      have hfirst : files.VerifiedFirst (.sendDone t .done) ↔
          ∀ r ∈ files.lastAccepted send.1, r ∈ files.verified := by
        simp [VerifiedFirst, hsend]
      refine Iff.trans ?_ ((tracked.lastAccepted_iff rfl rfl rfl send.1).trans hfirst.symm)
      constructor
      · exact fun hall r hr => hall send.1 r ⟨send, hsend, rfl⟩ hr
      · rintro hall fileId r ⟨send', hsend', rfl⟩ hr
        obtain rfl : send = send' := Option.some.inj (hsend.symm.trans hsend')
        exact hall r hr
  | _ => exact iff_of_true (fun _ _ h => h.elim) trivial

/-- What Alice offers Bob: three bytes in one chunk. -/
def threeBytes : FileOffer :=
  ⟨(twoIds .alice).val, List.replicate 16 7, ascii "a", 3, 1, [1, 2, 3], 0, by decide⟩

def sessions : Side → KeyManager Array32 Array32 :=
  initiateBoth Primitives.additive.suite twoIds (fun _ => .ofNat 11) twoManagers .alice

def onlyChunk : FileChunk Bytes :=
  match ((sessions .alice).encryptForPeer Primitives.additive.suite (twoIds .bob).val [1, 2, 3]).2 with
  | .ok (data, ratchetKey, msgNo) => ⟨threeBytes.fileId, 0, data, [1, 2, 3], ratchetKey, msgNo⟩
  | .error _ => ⟨threeBytes.fileId, 0, [], [], [], 0⟩

/-- A file `a` of three bytes, with a sidecar that names no chunk. -/
def resumable : Disk :=
  fun p => if p = "a".toList then some [0, 0, 0] else some []

/-- Bob resumes the file, and has its verdict. -/
def received : List (FileAction Array32 Array32 Bytes) :=
  [.offer threeBytes ⟨List.replicate 16 0, rfl⟩, .acceptFile threeBytes.fileId "a".toList,
    .openFile 0 .ok, .sendAccept 0 (.ok ()), .chunk onlyChunk, .decrypt 0 (.ofNat 12),
    .write 0 .increasing, .progress 0, .verify 0 fun _ => 2, .close 0]

theorem completion_verified_iff_received :
    ∃ files files' : Files Array32 Array32 Bytes,
      Lib.exec (step Primitives.additive.suite id .stored) (fun _ _ => True)
          (start (sessions .bob) resumable) received = some files ∧
        files.step Primitives.additive.suite id .stored (.report 0) = some files' ∧
        Completes files files' threeBytes.fileId ∧ files'.Written 0 ∧ 0 ∈ files'.verified := by
  have hrun : ((Lib.exec (step Primitives.additive.suite id .stored) (fun _ _ => True)
      (start (sessions .bob) resumable) received).bind fun files =>
        (files.step Primitives.additive.suite id .stored (.report 0)).map fun files' =>
          (files.tasks[0]?.map (·.receiver), files'.events.drop files.events.length)) =
      some (some 0, [.fileComplete threeBytes.fileId]) := by decide +kernel
  obtain ⟨files, hfiles, hstep⟩ := Option.bind_eq_some_iff.mp hrun
  obtain ⟨files', htaken, hends⟩ := Option.map_eq_some_iff.mp hstep
  obtain ⟨hsubject, hevents⟩ := Prod.mk.inj hends
  have hcompletes : Completes files files' threeBytes.fileId := by
    rw [Completes, hevents]
    exact List.mem_singleton.mpr rfl
  have hright := (completion_verified_iff Primitives.additive.suite id .stored (sessions .bob)
    resumable (Lib.Run.of_exec hfiles) htaken).mpr trivial _ 0 hcompletes hsubject
  exact ⟨files, files', hfiles, htaken, hcompletes, hright.2⟩

/-- Bob has accepted the offer, and a `FileComplete` comes in the place of the chunk. -/
theorem unwritten_file_reported :
    ((Lib.exec (step Primitives.additive.suite id .stored) (fun _ _ => True)
        (start (sessions .bob) fun _ => none)
        [.offer threeBytes ⟨List.replicate 16 0, rfl⟩, .acceptFile threeBytes.fileId "a".toList,
          .openFile 0 .ok, .sendAccept 0 (.ok ()), .fileComplete threeBytes.fileId]).map
      fun files : Files Array32 Array32 Bytes =>
        (files.events.getLast?, files.lastAccepted threeBytes.fileId,
          files.receivers.map (·.missingChunks), files.verified)) =
      some (some (.fileComplete threeBytes.fileId), some 0, [[0]], []) := by
  decide +kernel

end Files

end Cypher.Client
