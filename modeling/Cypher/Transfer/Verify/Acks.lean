import Cypher.Transfer.Sender
import Mathlib.Data.Finset.SDiff

/-!
# What the end of a transfer rests on

A call returns `Ok` when the set of acks is as large as the plan. Here the set is what was received,
nothing else, and it never grows beyond that size, for any window: so the plan is covered exactly if
the acks outside it make up for the repetitions in it.
-/

namespace Cypher.Transfer

namespace SendCall

variable {Cursor : Type} {target : Nat} {call call' : SendCall Cursor}

/-- No ack is taken in, and `Ok` is returned only with enough of them. -/
structure Keeps (target : Nat) (call call' : SendCall Cursor) : Prop where
  acked : call'.acked = call.acked
  received : call'.received = call.received
  done : call'.phase = .returned (.ok ()) → target ≤ call.acked.card

inductive Effect (target : Nat) (call : SendCall Cursor) : SendAction → SendCall Cursor → Prop
  | keeps {action : SendAction} {call' : SendCall Cursor} (h : Keeps target call call') :
      Effect target call action call'
  | takes (index : Nat) (hopen : call.acked.card < target) :
      Effect target call (.recv (some index))
        { call with
          acked := insert index call.acked
          received := call.received ++ [index]
          phase := .filling }

theorem keeps_goTo (target : Nat) (call : SendCall Cursor) {phase : SendPhase}
    (h : phase ≠ .returned (.ok ())) : Keeps target call (call.goTo phase) :=
  ⟨rfl, rfl, fun hok => absurd hok h⟩

theorem keeps_sendChunk (sha256 : Bytes → Bytes) (chunker : FileChunker) (target : Nat)
    (call : SendCall Cursor) (hphase : call.phase ≠ .returned (.ok ())) (index : Nat)
    (advanced : Cursor) (io : ChunkIo) :
    Keeps target call (call.sendChunk sha256 chunker index advanced io) := by
  unfold SendCall.sendChunk
  split
  · exact keeps_goTo _ _ (fun heq => nomatch heq)
  · split
    · exact keeps_goTo _ _ (fun heq => nomatch heq)
    · exact ⟨rfl, rfl, fun heq => nomatch heq⟩
    · exact ⟨rfl, rfl, fun heq => absurd heq hphase⟩

theorem keeps_finish (h : call.finish target = some call') : Keeps target call call' := by
  unfold finish at h
  split at h
  · cases h
  · next hdone =>
    cases h
    exact ⟨rfl, rfl, fun _ => not_lt.mp hdone⟩

theorem effect_takeAck {ack : Option Nat} (h : call.takeAck target ack = some call') :
    Effect target call (.recv ack) call' := by
  unfold takeAck at h
  split at h
  · next hopen =>
    cases ack with
    | none =>
      cases h
      exact .keeps (keeps_goTo _ _ (fun heq => nomatch heq))
    | some index =>
      cases h
      exact .takes index hopen.2
  · cases h

end SendCall

open SendCall

section Steps

variable {sha256 : Bytes → Bytes} {chunker : FileChunker} {windowSize : Nat}

theorem runStep_effect {call call' : SendCall Nat} {action : SendAction}
    (h : runStep sha256 chunker windowSize call action = some call') :
    Effect chunker.chunkCount call action call' := by
  cases action with
  | recv ack => exact effect_takeAck h
  | advance io =>
    refine .keeps ?_
    dsimp only [runStep, runAdvance] at h
    cases hphase : call.phase with
    | opening =>
      have hrunning := running (.inl hphase) (.ok ())
      rw [hphase] at h
      dsimp only at h
      split at h
      · cases h
        exact keeps_sendChunk _ _ _ _ hrunning _ _ _
      · cases h
        exact keeps_goTo _ _ (fun heq => nomatch heq)
    | receiving =>
      rw [hphase] at h
      exact keeps_finish h
    | filling =>
      have hrunning := running (.inr hphase) (.ok ())
      rw [hphase] at h
      dsimp only at h
      split at h
      · split at h
        · cases h
          exact ⟨rfl, rfl, fun heq => nomatch heq⟩
        · cases h
          obtain ⟨hacked, hreceived, hdone⟩ := keeps_sendChunk sha256 chunker chunker.chunkCount
            (call.counting call.cursor) hrunning call.cursor (call.cursor + 1) io
          exact ⟨hacked, hreceived, hdone⟩
      · cases h
        exact keeps_goTo _ _ (fun heq => nomatch heq)
    | returned result =>
      rw [hphase] at h
      cases h

theorem keeps_sendNext (target : Nat) (call : SendCall Selection)
    (hrunning : call.phase ≠ .returned (.ok ())) (io : ChunkIo) :
    Keeps target call (sendNext sha256 chunker call io) := by
  unfold sendNext
  split
  · exact keeps_goTo _ _ (fun heq => nomatch heq)
  · exact keeps_sendChunk _ _ _ _ hrunning _ _ _

theorem selectiveStep_effect {targetCount : Nat} {call call' : SendCall Selection}
    {action : SendAction}
    (h : selectiveStep sha256 chunker windowSize targetCount call action = some call') :
    Effect targetCount call action call' := by
  cases action with
  | recv ack => exact effect_takeAck h
  | advance io =>
    refine .keeps ?_
    dsimp only [selectiveStep, selectiveAdvance] at h
    cases hphase : call.phase with
    | opening =>
      have hrunning := running (.inl hphase) (.ok ())
      rw [hphase] at h
      dsimp only at h
      split at h
      · cases h
        exact keeps_sendNext _ _ hrunning _
      · cases h
        exact keeps_goTo _ _ (fun heq => nomatch heq)
    | receiving =>
      rw [hphase] at h
      exact keeps_finish h
    | filling =>
      have hrunning := running (.inr hphase) (.ok ())
      rw [hphase] at h
      dsimp only at h
      split at h
      · cases h
        obtain ⟨hacked, hreceived, hdone⟩ :=
          keeps_sendNext targetCount (call.counting call.cursor.2) hrunning io
        exact ⟨hacked, hreceived, hdone⟩
      · cases h
        exact ⟨rfl, rfl, fun heq => nomatch heq⟩
    | returned result =>
      rw [hphase] at h
      cases h

theorem SendCall.running_of_takeAck {Cursor : Type} {target : Nat} {call call' : SendCall Cursor}
    {ack : Option Nat} (h : call.takeAck target ack = some call') (result : Result Unit) :
    call.phase ≠ .returned result := by
  unfold takeAck at h
  split at h
  · next hopen =>
    rw [hopen.1]
    exact fun heq => nomatch heq
  · cases h

theorem runStep_running {call call' : SendCall Nat} {action : SendAction}
    (h : runStep sha256 chunker windowSize call action = some call') (result : Result Unit) :
    call.phase ≠ .returned result := by
  cases action with
  | recv ack => exact running_of_takeAck h result
  | advance io =>
    intro hphase
    dsimp only [runStep, runAdvance] at h
    rw [hphase] at h
    cases h

theorem selectiveStep_running {targetCount : Nat} {call call' : SendCall Selection}
    {action : SendAction}
    (h : selectiveStep sha256 chunker windowSize targetCount call action = some call')
    (result : Result Unit) : call.phase ≠ .returned result := by
  cases action with
  | recv ack => exact running_of_takeAck h result
  | advance io =>
    intro hphase
    dsimp only [selectiveStep, selectiveAdvance] at h
    rw [hphase] at h
    cases h

end Steps

/-! ## The count of acks -/

namespace SendCall

variable {Cursor : Type} {target : Nat} {call call' : SendCall Cursor}

/-- The set of acks is what was received, at most `target` of them, and just as many at the end. -/
structure Counted (target : Nat) (call : SendCall Cursor) : Prop where
  acked : call.acked = call.received.toFinset
  le : call.acked.card ≤ target
  done : call.phase = .returned (.ok ()) → target ≤ call.acked.card

theorem Counted.start (target : Nat) (cursor : Cursor) : Counted target (.start target cursor) where
  acked := rfl
  le := Nat.zero_le _
  done h := by
    unfold SendCall.start at h
    dsimp only at h
    split at h
    · next hnone => exact hnone.le
    · cases h

theorem Counted.effect {action : SendAction} (h : Counted target call)
    (he : Effect target call action call') : Counted target call' := by
  cases he with
  | keeps hk =>
    refine ⟨?_, ?_, ?_⟩
    · rw [hk.acked, hk.received]
      exact h.acked
    · rw [hk.acked]
      exact h.le
    · rw [hk.acked]
      exact hk.done
  | takes index hopen =>
    refine ⟨?_, (Finset.card_insert_le _ _).trans hopen, fun hphase => nomatch hphase⟩
    dsimp only
    rw [List.toFinset_append, h.acked, Finset.insert_eq, Finset.union_comm]
    rfl

/-- At the end the plan is covered exactly if the acks outside it are as many as the repetitions in
it. -/
theorem Counted.covers_iff {planned : List Nat} (h : Counted planned.length call)
    (hok : call.phase = .returned (.ok ())) :
    (∀ index ∈ planned, index ∈ call.received) ↔
      (call.received.toFinset \ planned.toFinset).card + planned.toFinset.card =
        planned.length := by
  have hcard : call.received.toFinset.card = planned.length := by
    rw [← h.acked]
    exact le_antisymm h.le (h.done hok)
  rw [← hcard]
  constructor
  · intro hall
    refine Finset.card_sdiff_add_card_eq_card fun index hindex => ?_
    exact List.mem_toFinset.mpr (hall index (List.mem_toFinset.mp hindex))
  · intro hequal index hindex
    have hunion : (call.received.toFinset \ planned.toFinset) ∪ planned.toFinset =
        call.received.toFinset ∪ planned.toFinset := Finset.sdiff_union_self_eq_union
    have hdisjoint := Finset.card_union_of_disjoint
      (Finset.sdiff_disjoint : Disjoint (call.received.toFinset \ planned.toFinset) planned.toFinset)
    -- the union is not larger than the acks alone
    have hsame : call.received.toFinset = call.received.toFinset ∪ planned.toFinset := by
      refine Finset.eq_of_subset_of_card_le Finset.subset_union_left ?_
      rw [← hunion, hdisjoint, hequal]
    have hmem : index ∈ call.received.toFinset := by
      rw [hsame]
      exact Finset.mem_union_right _ (List.mem_toFinset.mpr hindex)
    exact List.mem_toFinset.mp hmem

theorem Counted.covers_iff_of_nodup {planned : List Nat} (hnodup : planned.Nodup)
    (h : Counted planned.length call) (hok : call.phase = .returned (.ok ())) :
    (∀ index ∈ planned, index ∈ call.received) ↔ ∀ ack ∈ call.received, ack ∈ planned := by
  rw [h.covers_iff hok, List.toFinset_card_of_nodup hnodup, Nat.add_eq_right, Finset.card_eq_zero,
    Finset.sdiff_eq_empty_iff_subset]
  constructor
  · intro hsub ack hack
    exact List.mem_toFinset.mp (hsub (List.mem_toFinset.mpr hack))
  · intro hall ack hack
    exact List.mem_toFinset.mpr (hall ack (List.mem_toFinset.mp hack))

end SendCall

end Cypher.Transfer
