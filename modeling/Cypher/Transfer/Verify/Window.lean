import Cypher.Lib.Run
import Cypher.Lib.Window
import Cypher.Transfer.Sender
import Mathlib.Data.List.Infix

/-!
# The window of a sender

Both loops of a call keep the invariant `SendCall.Inv`, which instantiates `Lib.Window.Sound` at the
chunks handed to `send_chunk` and the acks in the set. The acks themselves are arbitrary. What is
sent is a plan: all indices in order for `run`, the requested ones for `run_selective`; `At` says
that a cursor stands at a position of the plan.
-/

namespace Cypher.Transfer

open Lib.Window

/-! ## What both calls keep -/

namespace SendCall

variable {Cursor : Type} {sha256 : Bytes → Bytes} {chunker : FileChunker}
variable {At : Cursor → Nat → Prop} {planned : List Nat} {windowSize : Nat} {call : SendCall Cursor}

variable (sha256 chunker At planned windowSize call) in
structure Inv : Prop where
  sound : Sound planned.length windowSize call.sent.length call.acked
  full : call.phase = .receiving → Full planned.length windowSize call.sent.length call.acked
  opening : call.phase = .opening → call.acked = ∅
  cursor : (∀ result, call.phase ≠ .returned result) → At call.cursor call.sent.length
  acked : call.acked = call.received.toFinset
  order : call.sent.map Prod.fst = planned.take call.sent.length
  read : ∀ c ∈ call.sent, chunker.readChunk sha256 c.1 = .ok c.2
  counted : call.underflowed = false
  done : call.phase = .returned (.ok ()) → planned.length ≤ call.acked.card

theorem Inv.start {cursor : Cursor} (hcursor : At cursor 0) :
    Inv sha256 chunker At planned windowSize (.start planned.length cursor) where
  sound := Sound.start _ _
  full h := by
    unfold SendCall.start at h
    dsimp only at h
    split at h <;> cases h
  opening _ := rfl
  cursor _ := hcursor
  acked := rfl
  order := rfl
  read := fun _ hc => nomatch hc
  counted := rfl
  done h := by
    unfold SendCall.start at h
    dsimp only at h
    split at h
    · next hnone => exact hnone.le
    · cases h

theorem Inv.goToReceiving (h : Inv sha256 chunker At planned windowSize call)
    (hrunning : ∀ result, call.phase ≠ .returned result)
    (hfull : Full planned.length windowSize call.sent.length call.acked) :
    Inv sha256 chunker At planned windowSize (call.goTo .receiving) :=
  { h with
    full := fun _ => hfull
    opening := fun hphase => nomatch hphase
    cursor := fun _ => h.cursor hrunning
    done := fun hphase => nomatch hphase }

theorem Inv.goToError (h : Inv sha256 chunker At planned windowSize call) (err : Error) :
    Inv sha256 chunker At planned windowSize (call.goTo (.returned (.error err))) :=
  { h with
    full := fun hphase => nomatch hphase
    opening := fun hphase => nomatch hphase
    cursor := fun hrunning => absurd rfl (hrunning _)
    done := fun hphase => nomatch hphase }

theorem Inv.sendChunk (h : Inv sha256 chunker At planned windowSize call) {index : Nat}
    {advanced : Cursor} (hphase : call.phase = .opening ∨ call.phase = .filling)
    (hindex : planned[call.sent.length]? = some index)
    (hroom : call.sent.length < call.acked.card + windowSize)
    (hadvanced : At advanced (call.sent.length + 1)) (io : ChunkIo) :
    Inv sha256 chunker At planned windowSize
      (call.sendChunk sha256 chunker index advanced io) := by
  have hmore : call.sent.length < planned.length := (List.getElem?_eq_some_iff.mp hindex).1
  have hnot : call.phase ≠ .receiving := by
    rcases hphase with hopening | hfilling
    · rw [hopening]
      exact fun heq => nomatch heq
    · rw [hfilling]
      exact fun heq => nomatch heq
  unfold SendCall.sendChunk
  cases hread : chunker.readChunk sha256 index with
  | error err => exact h.goToError err
  | ok chunk =>
    -- what `send_chunk` is called with, whatever it returns
    have hsent : (call.sent ++ [(index, chunk)]).length = call.sent.length + 1 :=
      List.length_append
    have horder : (call.sent ++ [(index, chunk)]).map Prod.fst =
        planned.take (call.sent ++ [(index, chunk)]).length := by
      rw [hsent, List.map_append, h.order, List.take_add_one, hindex]
      rfl
    have hreads : ∀ c ∈ call.sent ++ [(index, chunk)], chunker.readChunk sha256 c.1 = .ok c.2 :=
      List.forall_mem_append.mpr ⟨h.read, List.forall_mem_singleton.mpr hread⟩
    have hsound : Sound planned.length windowSize (call.sent ++ [(index, chunk)]).length
        call.acked := by
      rw [hsent]
      exact h.sound.send hmore hroom
    cases io with
    | readFailed err => exact h.goToError err
    | sendFailed err =>
      exact
        { h with
          sound := hsound
          full := fun hphase => nomatch hphase
          opening := fun hphase => nomatch hphase
          cursor := fun hrunning => absurd rfl (hrunning _)
          order := horder
          read := hreads
          done := fun hphase => nomatch hphase }
    | ok =>
      exact
        { h with
          sound := hsound
          full := fun hreceiving => absurd hreceiving hnot
          cursor := fun _ => by rw [hsent]; exact hadvanced
          order := horder
          read := hreads
          done := fun hok => absurd hok (running hphase _) }

theorem counting_of_le (call : SendCall Cursor) {count : Nat} (h : call.acked.card ≤ count) :
    call.counting count = call := by
  unfold counting
  rw [decide_eq_false h.not_gt, Bool.or_false]

theorem inFlight_of_le (call : SendCall Cursor) {count : Nat} (h : call.acked.card ≤ count) :
    call.inFlight count = count - call.acked.card :=
  if_pos h

theorem Inv.finish (h : Inv sha256 chunker At planned windowSize call) {call' : SendCall Cursor}
    (hfinish : call.finish planned.length = some call') :
    Inv sha256 chunker At planned windowSize call' := by
  unfold SendCall.finish at hfinish
  split at hfinish
  · cases hfinish
  · next hdone =>
    cases hfinish
    exact
      { h with
        full := fun hphase => nomatch hphase
        opening := fun hphase => nomatch hphase
        cursor := fun hrunning => absurd rfl (hrunning _)
        done := fun _ => not_lt.mp hdone }

theorem Inv.takeAck (h : Inv sha256 chunker At planned windowSize call) (hwindow : 1 ≤ windowSize)
    (ack : Option Nat) {call' : SendCall Cursor}
    (htaken : call.takeAck planned.length ack = some call') :
    Inv sha256 chunker At planned windowSize call' := by
  unfold SendCall.takeAck at htaken
  split at htaken
  · next hopen =>
    cases ack with
    | none =>
      cases htaken
      exact h.goToError _
    | some index =>
      cases htaken
      exact
        { h with
          sound := h.sound.ack (h.full hopen.1) hwindow hopen.2 index
          full := fun hphase => nomatch hphase
          opening := fun hphase => nomatch hphase
          cursor := fun _ => h.cursor (by rw [hopen.1]; exact fun _ heq => nomatch heq)
          acked := by
            dsimp only
            rw [List.toFinset_append, h.acked, Finset.insert_eq, Finset.union_comm]
            rfl
          done := fun hphase => nomatch hphase }
  · cases htaken

end SendCall

/-! ## The two loops -/

section Steps

variable {sha256 : Bytes → Bytes} {chunker : FileChunker} {windowSize : Nat}

theorem runStep_inv {call call' : SendCall Nat} {action : SendAction} (hwindow : 1 ≤ windowSize)
    (h : call.Inv sha256 chunker Eq (List.range chunker.chunkCount) windowSize)
    (htaken : runStep sha256 chunker windowSize call action = some call') :
    call'.Inv sha256 chunker Eq (List.range chunker.chunkCount) windowSize := by
  have htotal : (List.range chunker.chunkCount).length = chunker.chunkCount := List.length_range
  cases action with
  | recv ack =>
    refine h.takeAck hwindow ack ?_
    rw [htotal]
    exact htaken
  | advance io =>
    dsimp only [runStep, runAdvance] at htaken
    cases hphase : call.phase with
    | opening =>
      rw [hphase] at htaken
      dsimp only at htaken
      have hrunning := SendCall.running (.inl hphase)
      have hcursor : call.cursor = call.sent.length := h.cursor hrunning
      have hnone : call.acked.card = 0 := by rw [h.opening hphase, Finset.card_empty]
      rw [hcursor] at htaken
      split at htaken
      · next hmore =>
        cases htaken
        refine h.sendChunk (.inl hphase) ?_ (by omega) rfl io
        rw [List.getElem?_range hmore.1]
      · next hmore =>
        cases htaken
        refine h.goToReceiving hrunning ?_
        rw [Full, htotal]
        omega
    | receiving =>
      rw [hphase] at htaken
      refine h.finish ?_
      rw [htotal]
      exact htaken
    | filling =>
      rw [hphase] at htaken
      dsimp only at htaken
      have hrunning := SendCall.running (.inr hphase)
      have hcursor : call.cursor = call.sent.length := h.cursor hrunning
      have hle := h.sound.acked_le
      rw [hcursor, call.counting_of_le hle, call.inFlight_of_le hle] at htaken
      split at htaken
      · next hmore =>
        split at htaken
        · next hahead =>
          cases htaken
          refine h.goToReceiving hrunning (.inr ?_)
          omega
        · next hroom =>
          cases htaken
          refine h.sendChunk (.inr hphase) ?_ (by omega) rfl io
          rw [List.getElem?_range hmore]
      · next hall =>
        cases htaken
        refine h.goToReceiving hrunning (.inl ?_)
        rw [htotal]
        exact not_lt.mp hall
    | returned result =>
      rw [hphase] at htaken
      cases htaken

/-- The cursor of `run_selective` stands at a position of the requested indices. -/
def SelectionAt (indices : List Nat) (cursor : Selection) (n : Nat) : Prop :=
  cursor = (indices.drop n, n)

theorem sendNext_inv {indices : List Nat} {call : SendCall Selection}
    (h : call.Inv sha256 chunker (SelectionAt indices) indices windowSize)
    (hphase : call.phase = .opening ∨ call.phase = .filling)
    (hroom : call.sent.length < call.acked.card + windowSize) (io : ChunkIo) :
    (sendNext sha256 chunker call io).Inv sha256 chunker (SelectionAt indices) indices
      windowSize := by
  have hrunning := SendCall.running hphase
  have hcursor : call.cursor = (indices.drop call.sent.length, call.sent.length) :=
    h.cursor hrunning
  unfold sendNext
  rw [hcursor]
  dsimp only
  split
  · next hnil =>
    exact h.goToReceiving hrunning (.inl (List.drop_eq_nil_iff.mp hnil))
  · next index rest hcons =>
    have hindex : indices[call.sent.length]? = some index := by
      rw [← List.head?_drop, hcons]
      rfl
    have hrest : indices.drop (call.sent.length + 1) = rest := by
      rw [← List.tail_drop, hcons]
      rfl
    refine h.sendChunk hphase hindex hroom ?_ io
    rw [SelectionAt, hrest]

theorem selectiveStep_inv {indices : List Nat} {call call' : SendCall Selection} {action : SendAction}
    (hwindow : 1 ≤ windowSize)
    (h : call.Inv sha256 chunker (SelectionAt indices) indices windowSize)
    (htaken : selectiveStep sha256 chunker windowSize indices.length call action = some call') :
    call'.Inv sha256 chunker (SelectionAt indices) indices windowSize := by
  cases action with
  | recv ack => exact h.takeAck hwindow ack htaken
  | advance io =>
    dsimp only [selectiveStep, selectiveAdvance] at htaken
    cases hphase : call.phase with
    | opening =>
      rw [hphase] at htaken
      dsimp only at htaken
      have hrunning := SendCall.running (.inl hphase)
      have hcursor : call.cursor.2 = call.sent.length := congrArg Prod.snd (h.cursor hrunning)
      have hnone : call.acked.card = 0 := by rw [h.opening hphase, Finset.card_empty]
      rw [hcursor] at htaken
      split at htaken
      · next hroom =>
        cases htaken
        exact sendNext_inv h (.inl hphase) (by omega) io
      · next hahead =>
        cases htaken
        refine h.goToReceiving hrunning (.inr ?_)
        omega
    | receiving =>
      rw [hphase] at htaken
      exact h.finish htaken
    | filling =>
      rw [hphase] at htaken
      dsimp only at htaken
      have hrunning := SendCall.running (.inr hphase)
      have hcursor : call.cursor.2 = call.sent.length := congrArg Prod.snd (h.cursor hrunning)
      have hle := h.sound.acked_le
      rw [hcursor, call.counting_of_le hle, call.inFlight_of_le hle] at htaken
      split at htaken
      · next hroom =>
        cases htaken
        exact sendNext_inv h (.inr hphase) (by omega) io
      · next hahead =>
        cases htaken
        refine h.goToReceiving hrunning (.inr ?_)
        omega
    | returned result =>
      rw [hphase] at htaken
      cases htaken

end Steps

/-! ## Every run -/

/-- Flow control of a call that is to send the indices `planned`, in one of its states. -/
structure Flow {Cursor : Type} (sha256 : Bytes → Bytes) (chunker : FileChunker) (planned : List Nat)
    (windowSize : Nat) (call : SendCall Cursor) : Prop where
  noUnderflow : call.underflowed = false
  /-- The chunks sent are the first of the plan, in its order, each position once. -/
  inOrder : call.sent.map Prod.fst <+: planned
  read : ∀ c ∈ call.sent, chunker.readChunk sha256 c.1 = .ok c.2
  within : (call.sent.length : Int) - call.received.toFinset.card ≤ windowSize
  complete : call.phase = .returned (.ok ()) → call.sent.map Prod.fst = planned

theorem SendCall.Inv.flow {Cursor : Type} {sha256 : Bytes → Bytes} {chunker : FileChunker}
    {At : Cursor → Nat → Prop} {planned : List Nat} {windowSize : Nat} {call : SendCall Cursor}
    (h : call.Inv sha256 chunker At planned windowSize) :
    Flow sha256 chunker planned windowSize call where
  noUnderflow := h.counted
  inOrder := by
    rw [h.order]
    exact List.take_prefix _ _
  read := h.read
  within := by
    have hwithin := h.sound.within
    rw [h.acked] at hwithin
    omega
  complete hok := by
    rw [h.order, h.sound.complete (h.done hok), List.take_length]

/-- **The window of both transfers, for any acks.** In every state that a call on a fresh sender
reaches, whatever is received and whichever reads and sends fail, no in-flight count has wrapped, the
chunks sent are a prefix of the plan and at most `window_size` more than the distinct acks; it
returns `Ok` only with the whole plan sent. -/
theorem window_flow_sound (sha256 : Bytes → Bytes) (chunker : FileChunker) (windowSize : Nat)
    (hwindow : 1 ≤ windowSize) :
    (∀ call, Lib.Run (runStep sha256 chunker windowSize) (fun _ _ => True) (runStart chunker) call →
      Flow sha256 chunker (List.range chunker.chunkCount) windowSize call) ∧
    ∀ indices call,
      Lib.Run (selectiveStep sha256 chunker windowSize indices.length) (fun _ _ => True)
        (selectiveStart indices) call →
      Flow sha256 chunker indices windowSize call := by
  constructor
  · intro call hrun
    have hstart : (runStart chunker).Inv sha256 chunker Eq (List.range chunker.chunkCount)
        windowSize := by
      have hinv : (SendCall.start (List.range chunker.chunkCount).length 0).Inv sha256 chunker Eq
          (List.range chunker.chunkCount) windowSize := SendCall.Inv.start rfl
      rwa [List.length_range] at hinv
    exact (hrun.invariant hstart fun h _ htaken => runStep_inv hwindow h htaken).flow
  · intro indices call hrun
    have hstart : (selectiveStart indices).Inv sha256 chunker (SelectionAt indices) indices
        windowSize := SendCall.Inv.start rfl
    exact (hrun.invariant hstart fun h _ htaken => selectiveStep_inv hwindow h htaken).flow

def oneChunk : FileChunker :=
  .new id [1, 2, 3] ⟨List.replicate 16 0, List.length_replicate⟩

/-- A window of one chunk, and an ack of a chunk that does not exist. -/
theorem window_flow_sound_one :
    ∃ call, Lib.exec (runStep id oneChunk 1) (fun _ _ => True) (runStart oneChunk)
        [.advance .ok, .advance .ok, .recv (some 7), .advance .ok, .advance .ok] = some call ∧
      call.phase = .returned (.ok ()) ∧ Flow id oneChunk (List.range oneChunk.chunkCount) 1 call := by
  have hexec : (Lib.exec (runStep id oneChunk 1) (fun _ _ => True) (runStart oneChunk)
      [.advance .ok, .advance .ok, .recv (some 7), .advance .ok, .advance .ok]).map SendCall.phase =
      some (.returned (.ok ())) := by decide +kernel
  obtain ⟨call, hcall, hphase⟩ := Option.map_eq_some_iff.mp hexec
  exact ⟨call, hcall, hphase, (window_flow_sound id oneChunk 1 le_rfl).1 call (.of_exec hcall)⟩

end Cypher.Transfer
