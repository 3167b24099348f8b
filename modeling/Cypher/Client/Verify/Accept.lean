import Cypher.Client.Verify.Completion
import Cypher.Transfer.Verify.Window

/-!
# An accept that fails

`accept_file` takes the offer out of `pending_metas` before anything that can fail, and puts the
receiver into `active_recvs` before it sends. No error exit puts either back, so the offer is gone
after a failure of any kind and cannot be accepted again.
-/

namespace Cypher.Client.Files

open Crypto Transfer

variable {Key Secret Ct : Type} {files : Files Key Secret Ct} {fileId : Bytes} {dest : Path}
variable {io : AcceptIo} {outbound : Outbound} {fileMeta : FileMeta} {sender : PeerId}

/-! ## What each part of the call leaves alone -/

theorem pendingMetas_openFile (c : Nat) (call : AcceptCall) :
    (files.openFile c call fileMeta sender io).pendingMetas = files.pendingMetas := by
  unfold openFile
  split <;> rfl

theorem pendingMetas_sendAccept (c : Nat) (call : AcceptCall) (missing : Option (List Nat))
    (sent : Result Unit) :
    (files.sendAccept c call sender missing sent).pendingMetas = files.pendingMetas := by
  unfold sendAccept
  split <;> rfl

theorem acceptFile_of_pending (hpending : files.pendingMetas fileId = some (fileMeta, sender)) :
    files.acceptFile fileId dest =
      { files with
        pendingMetas := Function.update files.pendingMetas fileId none
        calls := files.calls ++ [⟨fileId, dest, .taken fileMeta sender⟩] } := by
  unfold acceptFile
  rw [hpending]

theorem pendingMetas_acceptFileCall
    (hpending : files.pendingMetas fileId = some (fileMeta, sender)) (dest : Path) (io : AcceptIo)
    (outbound : Outbound) :
    (files.acceptFileCall fileId dest io outbound).1.pendingMetas =
      Function.update files.pendingMetas fileId none := by
  unfold acceptFileCall
  rw [hpending]
  dsimp only
  split
  · dsimp only
    rw [pendingMetas_openFile, acceptFile_of_pending hpending]
  · dsimp only
    rw [pendingMetas_sendAccept, pendingMetas_openFile, acceptFile_of_pending hpending]

theorem acceptFileCall_ok_iff (hpending : files.pendingMetas fileId = some (fileMeta, sender)) :
    (files.acceptFileCall fileId dest io outbound).2 = .ok () ↔
      (∃ opened, (openDestination files.disk dest fileMeta io).2 = .ok opened) ∧
        outbound = .connected := by
  unfold acceptFileCall
  rw [hpending]
  dsimp only
  split
  · next err herr =>
    rw [herr]
    refine iff_of_false (fun h => nomatch h) ?_
    rintro ⟨⟨opened, hopened⟩, -⟩
    cases hopened
  · next asm missing hopened =>
    rw [hopened]
    refine Iff.trans ?_ (and_iff_right ⟨_, rfl⟩).symm
    cases outbound with
    | notConnected => exact iff_of_false (fun h => nomatch h) (by decide)
    | closed => exact iff_of_false (fun h => nomatch h) (by decide)
    | connected => exact iff_of_true rfl rfl

theorem acceptFileCall_of_none (hnone : files.pendingMetas fileId = none) :
    (files.acceptFileCall fileId dest io outbound).2 =
      .error (.protocol "no pending file offer for that id") := by
  unfold acceptFileCall
  rw [hnone]

theorem calls_openFile (files : Files Key Secret Ct) (c : Nat) (call : AcceptCall) (sender : PeerId)
    {asm : FileAssembler} {missing : Option (List Nat)}
    (h : (openDestination files.disk call.dest fileMeta io).2 = .ok (asm, missing)) :
    (files.openFile c call fileMeta sender io).calls =
      files.calls.set c { call with phase := .opened sender missing } := by
  unfold openFile
  split
  · next heq =>
    rw [heq] at h
    cases h
  · next heq =>
    rw [heq] at h
    cases h
    rfl

/-- The uninterrupted call is a run of the client's steps. -/
theorem run_acceptFileCall (S : Suite Key Secret Ct) (sha256 : Bytes → Bytes) (z : Zstd)
    (files : Files Key Secret Ct) (fileId : Bytes) (dest : Path) (io : AcceptIo)
    (outbound : Outbound) :
    Lib.Run (Files.step S sha256 z) (fun _ _ => True) files
      (files.acceptFileCall fileId dest io outbound).1 := by
  have htaken : Lib.Run (Files.step S sha256 z) (fun _ _ => True) files
      (files.acceptFile fileId dest) :=
    Lib.Run.refl.tail (a := FileAction.acceptFile fileId dest) trivial rfl
  cases hpending : files.pendingMetas fileId with
  | none =>
    have hcall : (files.acceptFileCall fileId dest io outbound).1 =
        files.acceptFile fileId dest := by
      unfold acceptFileCall
      rw [hpending]
    rw [hcall]
    exact htaken
  | some offered =>
    obtain ⟨fileMeta, sender⟩ := offered
    rw [acceptFile_of_pending hpending] at htaken
    have hlast : (files.calls ++ [⟨fileId, dest, .taken fileMeta sender⟩])[files.calls.length]? =
        some ⟨fileId, dest, .taken fileMeta sender⟩ := List.getElem?_concat_length
    have hopened := htaken.tail (a := FileAction.openFile files.calls.length io) trivial (by
      dsimp only [Files.step]
      rw [hlast]
      rfl)
    unfold acceptFileCall
    rw [hpending]
    dsimp only
    rw [acceptFile_of_pending hpending]
    split
    · exact hopened
    · next asm missing hdestination =>
      refine hopened.tail (a := FileAction.sendAccept files.calls.length (sendRaw outbound)) trivial
        ?_
      have hcall := calls_openFile
        { files with
          pendingMetas := Function.update files.pendingMetas fileId none
          calls := files.calls ++ [⟨fileId, dest, .taken fileMeta sender⟩] }
        files.calls.length ⟨fileId, dest, .taken fileMeta sender⟩ sender hdestination
      dsimp only [Files.step]
      rw [hcall, List.getElem?_set_self (by rw [List.length_append]; exact Nat.lt_succ_self _)]
      rfl

/-- **Whether a failed accept can be retried.** With an offer pending, a failure leaves the two maps as
they were exactly if there is none: the destination opens and the request can be sent. After the call
the offer is gone, and another call fails whatever the destination and the connection are then. -/
theorem failed_accept_retryable_iff (files : Files Key Secret Ct) (fileId : Bytes) (dest : Path)
    (io : AcceptIo) (outbound : Outbound) (fileMeta : FileMeta) (sender : PeerId)
    (hpending : files.pendingMetas fileId = some (fileMeta, sender)) :
    ((∀ err, (files.acceptFileCall fileId dest io outbound).2 = .error err →
        (files.acceptFileCall fileId dest io outbound).1.pendingMetas = files.pendingMetas ∧
        (files.acceptFileCall fileId dest io outbound).1.activeRecvs = files.activeRecvs) ↔
      (∃ opened, (openDestination files.disk dest fileMeta io).2 = .ok opened) ∧
        outbound = .connected) ∧
    ∀ dest' io' outbound',
      ((files.acceptFileCall fileId dest io outbound).1.acceptFileCall fileId dest' io'
        outbound').2 = .error (.protocol "no pending file offer for that id") := by
  have hgone := pendingMetas_acceptFileCall hpending dest io outbound
  refine ⟨⟨?_, ?_⟩, ?_⟩
  · intro hkept
    rw [← acceptFileCall_ok_iff hpending]
    cases hresult : (files.acceptFileCall fileId dest io outbound).2 with
    | ok _ => rfl
    | error err =>
      have hsame := congrFun (hkept err hresult).1 fileId
      rw [hgone, Function.update_self, hpending] at hsame
      cases hsame
  · intro hok err herr
    rw [(acceptFileCall_ok_iff hpending).mpr hok] at herr
    cases herr
  · intro dest' io' outbound'
    refine acceptFileCall_of_none ?_
    rw [hgone, Function.update_self]

/-- Bob has Alice's offer and is not connected. -/
def offered : Files Array32 Array32 Bytes :=
  (start (sessions .bob) fun _ => none).handleFileOffer threeBytes oneChunk.fileId

/-- The accept fails for want of a connection; the offer is gone and there is a receiver to which
nobody sends. With the connection back, the offer cannot be accepted. -/
theorem unsent_accept_forgets_offer :
    (offered.pendingMetas threeBytes.fileId).isSome = true ∧
    (offered.acceptFileCall threeBytes.fileId "a".toList .ok .notConnected).2 =
      .error (.session "not connected to gateway") ∧
    (offered.acceptFileCall threeBytes.fileId "a".toList .ok .notConnected).1.pendingMetas
      threeBytes.fileId = none ∧
    ((offered.acceptFileCall threeBytes.fileId "a".toList .ok .notConnected).1.activeRecvs
      threeBytes.fileId).isSome = true ∧ offered.activeRecvs threeBytes.fileId = none ∧
    ((offered.acceptFileCall threeBytes.fileId "a".toList .ok .notConnected).1.acceptFileCall
      threeBytes.fileId "a".toList .ok .connected).2 =
        .error (.protocol "no pending file offer for that id") := by
  decide +kernel

/-- Connected and with a destination that opens, the accept succeeds. -/
theorem failed_accept_retryable_connected :
    ∃ fileMeta sender, offered.pendingMetas threeBytes.fileId = some (fileMeta, sender) ∧
      ∀ err, (offered.acceptFileCall threeBytes.fileId "a".toList .ok .connected).2 = .error err →
        (offered.acceptFileCall threeBytes.fileId "a".toList .ok .connected).1.pendingMetas =
            offered.pendingMetas ∧
          (offered.acceptFileCall threeBytes.fileId "a".toList .ok .connected).1.activeRecvs =
            offered.activeRecvs := by
  refine ⟨_, _, rfl, ?_⟩
  exact (failed_accept_retryable_iff offered threeBytes.fileId "a".toList .ok .connected _ _
    rfl).1.mpr ⟨⟨_, rfl⟩, rfl⟩

end Cypher.Client.Files
