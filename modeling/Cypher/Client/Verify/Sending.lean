import Cypher.Client.Sending
import Cypher.Lib.Run
import Cypher.Transfer.Verify.Acks
import Cypher.Transfer.Verify.Window

/-!
# When a sent file is complete

The task around a call of `run` or `run_selective` adds nothing to the acks and takes nothing from
them: what the call receives has come through `handle_file_chunk_ack`, and `FileComplete` follows its
`Ok`. Whether the chunks were acknowledged then is decided by the call's count alone.
-/

namespace Cypher.Client.SendTask

open Transfer

variable {Cursor : Type} {step : SendCall Cursor → SendAction → Option (SendCall Cursor)}
variable {target : Nat} {task task' : SendTask Cursor}

structure Counts (step : SendCall Cursor → SendAction → Option (SendCall Cursor)) (target : Nat) :
    Prop where
  effect : ∀ {call call' action}, step call action = some call' →
    SendCall.Effect target call action call'
  running : ∀ {call call' action}, step call action = some call' →
    ∀ result, call.phase ≠ .returned result

structure Inv (target : Nat) (task : SendTask Cursor) : Prop where
  counted : task.call.Counted target
  received : ∀ ack ∈ task.call.received, ack ∈ task.delivered
  queue : ∀ ack ∈ task.queue, ack ∈ task.delivered
  handlers : ∀ ack ∈ task.handlers, ack ∈ task.delivered
  completed : task.outbound ≠ [] → task.call.phase = .returned (.ok ())

theorem Inv.start (fileId : Bytes) (peer : PeerId) {call : SendCall Cursor} (h : call.Counted target)
    (hnone : call.received = []) : Inv target (.start fileId peer call) where
  counted := h
  received := by
    intro ack hack
    rw [show (SendTask.start fileId peer call).call.received = [] from hnone] at hack
    cases hack
  queue := fun _ hack => nomatch hack
  handlers := fun _ hack => nomatch hack
  completed := fun h => absurd rfl h

theorem Inv.handleFileChunkAck (h : Inv target task) (fileId : Bytes) (index : Nat) :
    Inv target (task.handleFileChunkAck fileId index) := by
  unfold SendTask.handleFileChunkAck
  split
  · exact
      { h with
        received := fun ack hack => List.mem_append_left _ (h.received ack hack)
        queue := fun ack hack => List.mem_append_left _ (h.queue ack hack)
        handlers := List.forall_mem_append.mpr
          ⟨fun ack hack => List.mem_append_left _ (h.handlers ack hack),
            fun ack hack => List.mem_append_right _ hack⟩ }
  · exact h

theorem Inv.ackSent (h : Inv target task) {i : Nat} (hsent : task.ackSent i = some task') :
    Inv target task' := by
  unfold SendTask.ackSent at hsent
  obtain ⟨index, hindex, hsent⟩ := Option.bind_eq_some_iff.mp hsent
  split at hsent
  · cases hsent
    exact
      { h with
        queue := List.forall_mem_append.mpr ⟨h.queue,
          List.forall_mem_singleton.mpr (h.handlers index (List.mem_of_getElem? hindex))⟩
        handlers := fun ack hack => h.handlers ack (List.mem_of_mem_eraseIdx hack) }
  · cases hsent

theorem Inv.called (hstep : Counts step target) (h : Inv target task) {action : SendAction}
    {call : SendCall Cursor} (hcall : step task.call action = some call)
    (hdelivered : ∀ index, action = .recv (some index) → index ∈ task.delivered) :
    Inv target { task with call } where
  counted := h.counted.effect (hstep.effect hcall)
  received := by
    cases hstep.effect hcall with
    | keeps hk =>
      dsimp only
      rw [hk.received]
      exact h.received
    | takes index hopen =>
      exact List.forall_mem_append.mpr
        ⟨h.received, List.forall_mem_singleton.mpr (hdelivered index rfl)⟩
  queue := h.queue
  handlers := h.handlers
  completed hsome := absurd (h.completed hsome) (hstep.running hcall _)

theorem Inv.recv (hstep : Counts step target) (h : Inv target task)
    (hrecv : task.recv step = some task') : Inv target task' := by
  unfold SendTask.recv at hrecv
  split at hrecv
  · next ack rest hqueue =>
    obtain ⟨call, hcall, hrecv⟩ := Option.bind_eq_some_iff.mp hrecv
    cases hrecv
    have hmem : ∀ index ∈ ack :: rest, index ∈ task.delivered := by
      rw [← hqueue]
      exact h.queue
    have hcalled := h.called hstep hcall (by
      rintro index heq
      cases heq
      exact hmem _ List.mem_cons_self)
    exact { hcalled with queue := fun index hindex => hmem index (List.mem_cons_of_mem _ hindex) }
  · split at hrecv
    · cases hrecv
    · obtain ⟨call, hcall, hrecv⟩ := Option.bind_eq_some_iff.mp hrecv
      cases hrecv
      exact h.called hstep hcall (fun _ heq => nomatch heq)

theorem Inv.finish (h : Inv target task) (hfinish : task.finish = some task') :
    Inv target task' := by
  unfold SendTask.finish at hfinish
  split at hfinish
  · next result hphase hended =>
    cases hfinish
    refine { h with completed := fun hsome => ?_ }
    cases result with
    | ok _ => exact hphase
    | error err =>
      refine h.completed fun hnone => hsome ?_
      dsimp only
      rw [hnone]
      rfl
  · cases hfinish

theorem Inv.next (hstep : Counts step target) (h : Inv target task) {action : TaskAction}
    (hnext : task.next step action = some task') : Inv target task' := by
  cases action with
  | fileChunkAck fileId index =>
    cases hnext
    exact h.handleFileChunkAck fileId index
  | ackSent i => exact h.ackSent hnext
  | unlist =>
    cases hnext
    exact { h with }
  | advance io =>
    obtain ⟨call, hcall, hnext⟩ := Option.bind_eq_some_iff.mp hnext
    cases hnext
    exact h.called hstep hcall (fun _ heq => nomatch heq)
  | recv => exact h.recv hstep hnext
  | finish => exact h.finish hnext

/-- `Ok` and `FileComplete` only with every planned index among the acks received, all of which came
through `handle_file_chunk_ack`. -/
structure Acknowledged (planned : List Nat) (task : SendTask Cursor) : Prop where
  ok : task.call.phase = .returned (.ok ()) → ∀ index ∈ planned, index ∈ task.call.received
  complete : .complete task.peer task.fileId ∈ task.outbound →
    ∀ index ∈ planned, index ∈ task.call.received
  delivered : ∀ ack ∈ task.call.received, ack ∈ task.delivered

theorem Inv.acknowledged_iff {planned : List Nat} (h : Inv planned.length task) :
    Acknowledged planned task ↔
      (task.call.phase = .returned (.ok ()) → ∀ index ∈ planned, index ∈ task.call.received) := by
  constructor
  · exact fun hack => hack.ok
  · intro hok
    exact ⟨hok, fun hmem => hok (h.completed (List.ne_nil_of_mem hmem)), h.received⟩

theorem runStep_counts (sha256 : Bytes → Bytes) (chunker : FileChunker) (windowSize : Nat) :
    Counts (runStep sha256 chunker windowSize) (List.range chunker.chunkCount).length := by
  rw [List.length_range]
  exact ⟨runStep_effect, runStep_running⟩

theorem selectiveStep_counts (sha256 : Bytes → Bytes) (chunker : FileChunker) (windowSize : Nat)
    (targetCount : Nat) :
    Counts (selectiveStep sha256 chunker windowSize targetCount) targetCount :=
  ⟨selectiveStep_effect, selectiveStep_running⟩

/-- **When the end of a transfer means that it was acknowledged.** In every state of a task: for `run`
exactly if no ack that it counted to its `Ok` is out of range; for `run_selective` exactly if the
distinct acks that were not requested are as many as the repetitions in the request. -/
theorem complete_acknowledged_iff (sha256 : Bytes → Bytes) (chunker : FileChunker)
    (windowSize : Nat) (fileId : Bytes) (peer : PeerId) :
    (∀ task, Lib.Run (next (runStep sha256 chunker windowSize)) (fun _ _ => True)
        (start fileId peer (runStart chunker)) task →
      (Acknowledged (List.range chunker.chunkCount) task ↔
        (task.call.phase = .returned (.ok ()) →
          ∀ ack ∈ task.call.received, ack < chunker.chunkCount))) ∧
    ∀ indices task, Lib.Run (next (selectiveStep sha256 chunker windowSize indices.length))
        (fun _ _ => True) (start fileId peer (selectiveStart indices)) task →
      (Acknowledged indices task ↔
        (task.call.phase = .returned (.ok ()) →
          (task.call.received.toFinset \ indices.toFinset).card + indices.toFinset.card =
            indices.length)) := by
  constructor
  · intro task hrun
    have hstart : Inv (List.range chunker.chunkCount).length
        (start fileId peer (runStart chunker)) := by
      refine .start fileId peer ?_ rfl
      rw [List.length_range]
      exact .start _ _
    have hinv := hrun.invariant hstart fun h _ hnext =>
      h.next (runStep_counts sha256 chunker windowSize) hnext
    rw [hinv.acknowledged_iff]
    refine imp_congr_right fun hok => ?_
    rw [hinv.counted.covers_iff_of_nodup List.nodup_range hok]
    exact forall₂_congr fun ack _ => List.mem_range
  · intro indices task hrun
    have hstart : Inv indices.length (start fileId peer (selectiveStart indices)) :=
      .start fileId peer (.start _ _) rfl
    have hinv := hrun.invariant hstart fun h _ hnext =>
      h.next (selectiveStep_counts sha256 chunker windowSize indices.length) hnext
    rw [hinv.acknowledged_iff]
    exact imp_congr_right fun hok => hinv.counted.covers_iff hok

/-- The chunk is sent, one ack with the given index arrives, and the task ends. -/
def oneAck (index : Nat) : List TaskAction :=
  [.advance .ok, .advance .ok, .fileChunkAck [9] index, .ackSent 0, .recv, .advance .ok,
    .advance .ok, .finish]

/-- An ack of the chunk: it is complete and acknowledged. -/
theorem complete_acknowledged_one :
    ∃ task, Lib.exec (next (runStep id oneChunk defaultWindowSize)) (fun _ _ => True)
        (start [9] (.ofNat 1) (runStart oneChunk)) (oneAck 0) = some task ∧
      task.outbound = [.complete (.ofNat 1) [9]] ∧
      Acknowledged (List.range oneChunk.chunkCount) task := by
  have hexec : (Lib.exec (next (runStep id oneChunk defaultWindowSize)) (fun _ _ => True)
      (start [9] (.ofNat 1) (runStart oneChunk)) (oneAck 0)).map
        (fun task => (task.outbound, task.call.received)) =
      some ([.complete (.ofNat 1) [9]], [0]) := by decide +kernel
  obtain ⟨task, htask, hvalues⟩ := Option.map_eq_some_iff.mp hexec
  obtain ⟨houtbound, hreceived⟩ := Prod.mk.inj hvalues
  refine ⟨task, htask, houtbound,
    ((complete_acknowledged_iff id oneChunk defaultWindowSize [9] (.ofNat 1)).1 task
      (.of_exec htask)).mpr fun _ => ?_⟩
  rw [hreceived]
  decide +kernel

/-- An ack of chunk 7 of a file of one chunk ends the transfer: `FileComplete` is sent, and chunk 0
was never acknowledged. -/
theorem unacknowledged_file_completes :
    ∃ task, Lib.exec (next (runStep id oneChunk defaultWindowSize)) (fun _ _ => True)
        (start [9] (.ofNat 1) (runStart oneChunk)) (oneAck 7) = some task ∧
      task.call.phase = .returned (.ok ()) ∧ task.outbound = [.complete (.ofNat 1) [9]] ∧
      0 < oneChunk.chunkCount ∧ 0 ∉ task.call.received := by
  have hexec : (Lib.exec (next (runStep id oneChunk defaultWindowSize)) (fun _ _ => True)
      (start [9] (.ofNat 1) (runStart oneChunk)) (oneAck 7)).map
        (fun task => (task.call.phase, task.outbound, task.call.received)) =
      some (.returned (.ok ()), [.complete (.ofNat 1) [9]], [7]) := by decide +kernel
  obtain ⟨task, htask, hvalues⟩ := Option.map_eq_some_iff.mp hexec
  obtain ⟨hphase, hvalues⟩ := Prod.mk.inj hvalues
  obtain ⟨houtbound, hreceived⟩ := Prod.mk.inj hvalues
  refine ⟨task, htask, hphase, houtbound, by decide +kernel, ?_⟩
  rw [hreceived]
  decide

end Cypher.Client.SendTask
