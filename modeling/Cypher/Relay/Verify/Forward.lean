import Cypher.Lib.Lists
import Cypher.Relay.Forward

/-!
# What the relay forwards

The loop is given only the other peer's writer, so the answer to a PING goes there too, and a frame
with the flags PONG and SESSION_CLOSE counts as a PONG. Without the two it forwards a peer's frames
as it should (`forwards_exactly_iff`).
-/

namespace Cypher.Relay

open Transport

/-! ## Flags -/

def isPing (frame : Frame) : Bool :=
  FrameFlags.contains frame.flags FrameFlags.ping

def isPong (frame : Frame) : Bool :=
  FrameFlags.contains frame.flags FrameFlags.pong

def isClose (frame : Frame) : Bool :=
  FrameFlags.contains frame.flags FrameFlags.sessionClose

def isData (frame : Frame) : Bool :=
  !isPing frame && !isPong frame && !isClose frame

/-- A peer's frames are forwarded as they should: those without the three flags before the first
SESSION_CLOSE to the other peer, and a PONG to the peer itself for every PING. -/
structure ForwardsExactly (reader : Peer) (frames : List Frame) : Prop where
  forwarded : putOn reader reader.other frames =
    (frames.takeWhile fun frame => !isClose frame).filter isData
  answered : ∀ frame ∈ frames, isPing frame → pongFor frame ∈ putOn reader reader frames

/-- There is no PING, and no frame without the three flags between the first SESSION_CLOSE and the
first SESSION_CLOSE that is not also a PONG. -/
structure Separated (frames : List Frame) : Prop where
  noPing : ∀ frame ∈ frames, isPing frame = false
  closed : ∀ frame ∈ (frames.dropWhile fun frame => !isClose frame).takeWhile
    (fun frame => !(isClose frame && !isPong frame)), isData frame = false

/-! ## The loop -/

theorem putOn_other (reader : Peer) (frames : List Frame) :
    putOn reader reader.other frames =
      forwardLoop (frames.map fun frame => ⟨some (.ok frame), true⟩) :=
  if_pos rfl

theorem putOn_self (reader : Peer) (frames : List Frame) : putOn reader reader frames = [] := by
  cases reader <;> rfl

/-- Without a PING the loop stops at the first SESSION_CLOSE that is not also a PONG. -/
theorem forwardLoop_of_noPing {frames : List Frame}
    (hping : ∀ frame ∈ frames, isPing frame = false) :
    forwardLoop (frames.map fun frame => ⟨some (.ok frame), true⟩) =
      (frames.takeWhile fun frame => !(isClose frame && !isPong frame)).filter isData := by
  induction frames with
  | nil => rfl
  | cons frame rest ih =>
    obtain ⟨hframe, hrest⟩ := List.forall_mem_cons.mp hping
    have hround : forwardRound ⟨some (.ok frame), true⟩ =
        if isPong frame then ([], true) else if isClose frame then ([], false)
        else ([frame], true) := by
      have hhandle : handle frame = if isPong frame then .skip else if isClose frame then .close
          else .data := if_neg (by rw [Bool.not_eq_true]; exact hframe)
      simp only [forwardRound, hhandle]
      split_ifs <;> rfl
    rw [List.map_cons, forwardLoop, hround, ih hrest]
    cases hpong : isPong frame <;> cases hclose : isClose frame <;>
      simp [hpong, hclose, isData, hframe]

/-- With a PING something goes wrong: either its answer, or a frame that only the peer itself should
get. -/
theorem not_forwardsExactly_of_ping {reader : Peer} {frames : List Frame} {frame : Frame}
    (hmem : frame ∈ frames) (hping : isPing frame) : ¬ ForwardsExactly reader frames := by
  intro h
  have hanswer := h.answered frame hmem hping
  rw [putOn_self] at hanswer
  cases hanswer

/-- **What the relay forwards.** Whatever frames a peer sends, they are forwarded as they should
exactly if none is a PING and no frame without the three flags comes between the first SESSION_CLOSE
and the first one that is not also a PONG. -/
theorem forwards_exactly_iff (reader : Peer) (frames : List Frame) :
    ForwardsExactly reader frames ↔ Separated frames := by
  by_cases hping : ∃ frame ∈ frames, isPing frame
  · obtain ⟨frame, hmem, hset⟩ := hping
    refine iff_of_false (not_forwardsExactly_of_ping hmem hset) ?_
    intro h
    rw [h.noPing frame hmem] at hset
    cases hset
  · have hnone : ∀ frame ∈ frames, isPing frame = false := by
      intro frame hmem
      exact Bool.eq_false_iff.mpr fun hset => hping ⟨frame, hmem, hset⟩
    -- the loop goes on where it should have stopped, up to the next SESSION_CLOSE that it sees
    have hlonger : ∀ frame : Frame, !isClose frame → !(isClose frame && !isPong frame) := by
      intro frame hopen
      rw [Bool.not_eq_true'] at hopen
      rw [hopen]
      rfl
    have hsplit := Lib.takeWhile_split hlonger frames
    have hforwarded : putOn reader reader.other frames =
        (frames.takeWhile fun frame => !isClose frame).filter isData ↔
        ∀ frame ∈ (frames.dropWhile fun frame => !isClose frame).takeWhile
          (fun frame => !(isClose frame && !isPong frame)), isData frame = false := by
      rw [putOn_other, forwardLoop_of_noPing hnone, hsplit, List.filter_append,
        List.append_right_eq_self, List.filter_eq_nil_iff]
      simp only [Bool.not_eq_true]
    constructor
    · intro h
      exact ⟨hnone, hforwarded.mp h.forwarded⟩
    · intro h
      refine ⟨hforwarded.mpr h.closed, ?_⟩
      intro frame hmem hset
      exact absurd ⟨frame, hmem, hset⟩ hping

/-- The answer to a PING of `peer_a` goes to `peer_b`. -/
theorem ping_answered_to_other_peer :
    putOn .a .b [⟨7, 0, FrameFlags.ping, []⟩] = [⟨0, 7, FrameFlags.pong, []⟩] ∧
      putOn .a .a [⟨7, 0, FrameFlags.ping, []⟩] = [] ∧
      ¬ ForwardsExactly .a [⟨7, 0, FrameFlags.ping, []⟩] :=
  ⟨by decide, by decide, not_forwardsExactly_of_ping List.mem_cons_self rfl⟩

end Cypher.Relay
