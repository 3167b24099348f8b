import Cypher.Transfer.Chunker
import Mathlib.Data.Finset.Card

/-!
# Sending the chunks of a file (`cypher-transfer/src/sender.rs`)

A call of `TransferSender::run` or `run_selective`, one iteration of one of its loops at a time. The
two differ in what they count with: `run` in `next_to_send`, `run_selective` in the iterator over the
indices and `sent_count` (the cursor of a `SendCall`). `usize` has 64 bits; a release build wraps when
the in-flight count is below zero, and `underflowed` records that it did. `next_to_send` is a `u32`
below the chunk count when it is increased, so it is a number here.
-/

namespace Cypher.Transfer

inductive SendPhase where
  /-- In the loop that sends the initial window. -/
  | opening
  /-- At the head of the loop over the acks. -/
  | receiving
  /-- In the loop that keeps the window full. -/
  | filling
  | returned (result : Result Unit)
  deriving DecidableEq

/-- How reading a chunk that is in range, and `send_chunk` for it, go. -/
inductive ChunkIo where
  | ok
  | readFailed (err : Error)
  | sendFailed (err : Error)
  deriving DecidableEq

structure SendCall (Cursor : Type) where
  acked : Finset Nat
  phase : SendPhase
  cursor : Cursor
  /-- The arguments of the calls of `send_chunk`: index, data and hash. -/
  sent : List (Nat × Bytes × Bytes)
  /-- The acks taken from the channel. -/
  received : List Nat
  /-- An in-flight count has wrapped. -/
  underflowed : Bool
  deriving DecidableEq

inductive SendAction where
  /-- One iteration of the loop the call is in. -/
  | advance (io : ChunkIo)
  /-- `ack_rx.recv` returns; `none` when the channel is closed. -/
  | recv (ack : Option Nat)
  deriving DecidableEq

namespace SendCall

variable {Cursor : Type}

/-- A call on a fresh sender. With nothing to send it returns at once. -/
def start (target : Nat) (cursor : Cursor) : SendCall Cursor where
  acked := ∅
  phase := if target = 0 then .returned (.ok ()) else .opening
  cursor
  sent := []
  received := []
  underflowed := false

def goTo (call : SendCall Cursor) (phase : SendPhase) : SendCall Cursor :=
  { call with phase }

/-- `read_chunk` and `send_chunk`; the cursor is moved on if both succeed. -/
def sendChunk (sha256 : Bytes → Bytes) (chunker : FileChunker) (call : SendCall Cursor)
    (index : Nat) (advanced : Cursor) (io : ChunkIo) : SendCall Cursor :=
  match chunker.readChunk sha256 index with
  | .error err => call.goTo (.returned (.error err))
  | .ok chunk =>
    match io with
    | .readFailed err => call.goTo (.returned (.error err))
    | .sendFailed err =>
      { call with sent := call.sent ++ [(index, chunk)], phase := .returned (.error err) }
    | .ok => { call with sent := call.sent ++ [(index, chunk)], cursor := advanced }

/-- `count - self.acked.len()` on `usize`. -/
def inFlight (call : SendCall Cursor) (count : Nat) : Nat :=
  if call.acked.card ≤ count then count - call.acked.card
  else count + u64Size - call.acked.card

/-- Note whether the in-flight count wraps. -/
def counting (call : SendCall Cursor) (count : Nat) : SendCall Cursor :=
  { call with underflowed := call.underflowed || decide (count < call.acked.card) }

/-- The head of the loop over the acks, when it is left. -/
def finish (call : SendCall Cursor) (target : Nat) : Option (SendCall Cursor) :=
  if call.acked.card < target then none else some (call.goTo (.returned (.ok ())))

/-- The head of the loop over the acks, when it is not. -/
def takeAck (call : SendCall Cursor) (target : Nat) (ack : Option Nat) : Option (SendCall Cursor) :=
  if call.phase = .receiving ∧ call.acked.card < target then
    match ack with
    | some index =>
      some { call with
        acked := insert index call.acked
        received := call.received ++ [index]
        phase := .filling }
    | none => some (call.goTo (.returned (.error (.transfer "ack channel closed prematurely"))))
  else none

theorem running {call : SendCall Cursor}
    (hphase : call.phase = .opening ∨ call.phase = .filling) :
    ∀ result, call.phase ≠ .returned result := by
  intro result heq
  rcases hphase with hopening | hfilling
  · rw [hopening] at heq
    cases heq
  · rw [hfilling] at heq
    cases heq

end SendCall

variable (sha256 : Bytes → Bytes) (chunker : FileChunker) (windowSize : Nat)

/-! ## `run` -/

def runStart : SendCall Nat :=
  .start chunker.chunkCount 0

def runAdvance (call : SendCall Nat) (io : ChunkIo) : Option (SendCall Nat) :=
  let total := chunker.chunkCount
  let nextToSend := call.cursor
  match call.phase with
  | .opening =>
    if nextToSend < total ∧ nextToSend < windowSize then
      some (call.sendChunk sha256 chunker nextToSend (nextToSend + 1) io)
    else some (call.goTo .receiving)
  | .receiving => call.finish total
  | .filling =>
    if nextToSend < total then
      let call := call.counting nextToSend
      if call.inFlight nextToSend ≥ windowSize then some (call.goTo .receiving)
      else some (call.sendChunk sha256 chunker nextToSend (nextToSend + 1) io)
    else some (call.goTo .receiving)
  | .returned _ => none

def runStep (call : SendCall Nat) : SendAction → Option (SendCall Nat)
  | .advance io => runAdvance sha256 chunker windowSize call io
  | .recv ack => call.takeAck chunker.chunkCount ack

/-! ## `run_selective` -/

/-- The rest of the iterator, and `sent_count`. -/
abbrev Selection := List Nat × Nat

def selectiveStart (indices : List Nat) : SendCall Selection :=
  .start indices.length (indices, 0)

/-- `iter.next()` and what is done with the index; without one the loop is left. -/
def sendNext (call : SendCall Selection) (io : ChunkIo) : SendCall Selection :=
  match call.cursor.1 with
  | [] => call.goTo .receiving
  | index :: rest => call.sendChunk sha256 chunker index (rest, call.cursor.2 + 1) io

def selectiveAdvance (targetCount : Nat) (call : SendCall Selection) (io : ChunkIo) :
    Option (SendCall Selection) :=
  let sentCount := call.cursor.2
  match call.phase with
  | .opening =>
    if sentCount < windowSize then some (sendNext sha256 chunker call io)
    else some (call.goTo .receiving)
  | .receiving => call.finish targetCount
  | .filling =>
    -- the count is taken before the iterator is asked, also when it has run out
    let call := call.counting sentCount
    if call.inFlight sentCount < windowSize then some (sendNext sha256 chunker call io)
    else some (call.goTo .receiving)
  | .returned _ => none

def selectiveStep (targetCount : Nat) (call : SendCall Selection) :
    SendAction → Option (SendCall Selection)
  | .advance io => selectiveAdvance sha256 chunker windowSize targetCount call io
  | .recv ack => call.takeAck targetCount ack

end Cypher.Transfer
