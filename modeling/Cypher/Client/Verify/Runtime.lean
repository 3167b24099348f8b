import Cypher.Client.Runtime
import Cypher.Client.Verify.Replies

/-!
# Runs of the I/O loops and the event loop

* What a loop has read, dispatched, sent and written, exactly and in order, with one `Disconnected`
  at its end (`io_loop_exact`).
* A loop that is to acknowledge a chunk while its own channel is full never goes on, and a call of
  the API that waits for room there keeps the lock that a reconnect needs (`io_loop_stuck_iff`).
* The event loop of the desktop handles nothing while it waits for prekeys, and the reply that there
  are none does not end the wait (`event_loop_waits`).
* With the channel of events full as well, the I/O loop and the event loop wait for each other, also
  if the reply has arrived (`runtime_jams`).

The four rest on one inversion of a step (`Moves`, with `IoStep` for what concerns one loop only). No
step but a loop's own takes commands out of its channel, and no step but the event loop's takes events.
-/

namespace Cypher.Client

open Lib Proto Signaling Transport

/-! ## What a step does to one loop -/

def isPing (frame : Frame) : Bool :=
  FrameFlags.contains frame.flags FrameFlags.ping

/-- The frames a loop answers, skips or leaves at come first. -/
def isData (frame : Frame) : Bool :=
  !isPing frame && !FrameFlags.contains frame.flags FrameFlags.pong &&
    !FrameFlags.contains frame.flags ackOnly &&
    !FrameFlags.contains frame.flags FrameFlags.sessionClose

inductive IoStep (l : IoLoop) : IoLoop → Prop
  | arrived {frame} (live : l.closed = false) :
      IoStep l { l with inbound := l.inbound ++ [frame], arrived := l.arrived ++ [frame] }
  | pushed {cmd outbound} (live : l.closed = false) (room : l.outbound.send cmd = some outbound) :
      IoStep l { l with outbound, accepted := l.accepted ++ [cmd] }
  | wrote {payload flags outbound} (ready : l.turn = .running [])
      (next : l.outbound.recv = some (.send payload flags, outbound)) :
      IoStep l { l with outbound, written := l.written ++ [.command (.send payload flags)] }
  | writeFailed {cmd outbound} (ready : l.turn = .running [])
      (next : l.outbound.recv = some (cmd, outbound)) :
      IoStep l { l with outbound, turn := .leaving }
  | closes {outbound} (ready : l.turn = .running [])
      (next : l.outbound.recv = some (.close, outbound)) :
      IoStep l { l with outbound, written := l.written ++ [.command .close], turn := .leaving }
  | ponged {frame inbound} (ready : l.turn = .running []) (next : l.inbound = frame :: inbound)
      (ping : isPing frame = true) :
      IoStep l { l with
        inbound, taken := l.taken ++ [frame], written := l.written ++ [.pong] }
  | pongFailed {frame inbound} (ready : l.turn = .running []) (next : l.inbound = frame :: inbound)
      (ping : isPing frame = true) :
      IoStep l { l with inbound, taken := l.taken ++ [frame], turn := .leaving }
  | skipped {frame inbound} (ready : l.turn = .running []) (next : l.inbound = frame :: inbound)
      (noPing : isPing frame = false) (noData : isData frame = false) :
      IoStep l { l with inbound, taken := l.taken ++ [frame] }
  | sessionClosed {frame inbound} (ready : l.turn = .running [])
      (next : l.inbound = frame :: inbound) (noPing : isPing frame = false)
      (noData : isData frame = false) :
      IoStep l { l with inbound, taken := l.taken ++ [frame], turn := .leaving }
  | readFailed (ready : l.turn = .running []) : IoStep l { l with turn := .leaving }
  | acked {peer fileId index rest outbound}
      (turn : l.turn = .running (.sendChunkAck peer fileId index :: rest))
      (room : l.outbound.send (chunkAck peer fileId index) = some outbound) :
      IoStep l { l with
        turn := .running rest
        performed := l.performed ++ [.sendChunkAck peer fileId index]
        outbound, accepted := l.accepted ++ [chunkAck peer fileId index] }
  | waited {rest} (turn : l.turn = .running (.wait :: rest)) :
      IoStep l { l with turn := .running rest, performed := l.performed ++ [.wait] }

variable {l l' : IoLoop}

theorem IoLoop.push_eq_some {cmd : OutboundCmd} (h : l.push cmd = some l') :
    l.closed = false ∧ ∃ outbound, l.outbound.send cmd = some outbound ∧
      l' = { l with outbound, accepted := l.accepted ++ [cmd] } := by
  unfold push at h
  split at h
  · cases h
  · next live =>
    obtain ⟨outbound, hsend, rfl⟩ := Option.map_eq_some_iff.mp h
    exact ⟨by simpa using live, outbound, hsend, rfl⟩

theorem IoStep.of_write {ok : Bool} (h : l.write ok = some l') : IoStep l l' := by
  unfold IoLoop.write at h
  split at h
  · next ready =>
    split at h
    · cases h
    · next cmd outbound next =>
      cases cmd with
      | send payload flags =>
        cases ok with
        | true =>
          cases h
          exact .wrote ready next
        | false =>
          cases h
          exact .writeFailed ready next
      | close =>
        cases ok with
        | true =>
          cases h
          exact .closes ready next
        | false =>
          cases h
          exact .writeFailed ready next
  · cases h

namespace Runtime

/-! ## What a step does -/

inductive Moves (parseJson : Bytes → Option Json) (s : Runtime) : RuntimeAction → Runtime → Prop
  | io {a c} {l l' : IoLoop} (loop : s.loops c = some l) (io : IoStep l l') :
      Moves parseJson s a (s.set c l')
  | dispatched {c} {l : IoLoop} {frame inbound effects ok pending turn} (loop : s.loops c = some l)
      (ready : l.turn = .running []) (next : l.inbound = frame :: inbound)
      (data : isData frame = true)
      (result : dispatchInbound parseJson s.pending frame.payload effects = some (pending, turn)) :
      Moves parseJson s (.read c effects ok) { s.set c { l with
        inbound, taken := l.taken ++ [frame], turn
        dispatched := l.dispatched ++ [(frame.payload, turn.todo)] } with pending }
  | emitted {a c} {l : IoLoop} {event rest events} (loop : s.loops c = some l)
      (turn : l.turn = .running (.emit event :: rest))
      (room : s.events.send (some c, event) = some events) :
      Moves parseJson s a { s.set c { l with
        turn := .running rest, performed := l.performed ++ [.emit event] } with
          events, emitted := s.emitted ++ [(some c, event)] }
  | left {a c} {l : IoLoop} {events} (loop : s.loops c = some l) (turn : l.turn = .leaving)
      (room : s.events.send (some c, .disconnected) = some events) :
      Moves parseJson s a { s.set c { l with turn := .ended } with
        events, emitted := s.emitted ++ [(some c, .disconnected)] }
  | installed (free : s.sending = none) :
      Moves parseJson s .install { s.set s.nextConn .start with
        nextConn := s.nextConn + 1, outboundTx := some s.nextConn }
  | sendRaw {a c cmd} (free : s.sending = none) (tx : s.outboundTx = some c) :
      Moves parseJson s a { s with sending := some ⟨c, cmd, none⟩ }
  | sendRequest {a c channel peer} (free : s.sending = none)
      (requesting : s.eventLoop = .requesting channel peer) (tx : s.outboundTx = some c) :
      Moves parseJson s a { s with sending := some ⟨c, getPrekeys peer, some channel⟩ }
  | requestFailed {a channel peer} (free : s.sending = none)
      (requesting : s.eventLoop = .requesting channel peer) :
      Moves parseJson s a { s with eventLoop := .idle }
  | released {a call} {l : IoLoop} (holds : s.sending = some call) (loop : s.loops call.conn = some l)
      (gone : l.closed = true) :
      Moves parseJson s a { s with
        sending := none
        eventLoop := if call.channel.isSome then .idle else s.eventLoop }
  | sent {a call} {l : IoLoop} {outbound} (holds : s.sending = some call)
      (loop : s.loops call.conn = some l) (live : l.closed = false)
      (room : l.outbound.send call.cmd = some outbound) :
      Moves parseJson s a { s.set call.conn
          { l with outbound, accepted := l.accepted ++ [call.cmd] } with
        sending := none
        eventLoop := call.channel.elim s.eventLoop .waiting }
  | emit {a event events} (room : s.events.send (none, event) = some events) :
      Moves parseJson s a { s with events, emitted := s.emitted ++ [(none, event)] }
  | handled {a emission events} (idle : s.eventLoop = .idle)
      (next : s.events.recv = some (emission, events)) :
      Moves parseJson s a { s with events, handled := s.handled ++ [emission] }
  | requested {a source peer events} (idle : s.eventLoop = .idle)
      (next : s.events.recv = some ((source, .peerConnected peer), events)) :
      Moves parseJson s a { s with
        events, handled := s.handled ++ [(source, .peerConnected peer)]
        pending := Function.update s.pending .getPrekeys (some s.nextChannel)
        nextChannel := s.nextChannel + 1
        eventLoop := .requesting s.nextChannel peer }
  | resumed {a channel} (waiting : s.eventLoop = .waiting channel)
      (free : s.pending .getPrekeys ≠ some channel) :
      Moves parseJson s a { s with eventLoop := .idle }
  | inserted {kind} : Moves parseJson s (.request kind) (s.insertPending kind)

variable {parseJson : Bytes → Option Json} {s t : Runtime} {a : RuntimeAction} {c : ConnId}

theorem emit_eq_some {source : Option ConnId} {event : RuntimeEvent}
    (h : s.emit source event = some t) :
    ∃ events, s.events.send (source, event) = some events ∧
      t = { s with events, emitted := s.emitted ++ [(source, event)] } := by
  obtain ⟨events, hsend, rfl⟩ := Option.map_eq_some_iff.mp h
  exact ⟨events, hsend, rfl⟩

theorem moves_of_read {effects : List Effect} {ok : Bool} (loop : s.loops c = some l)
    (h : s.read parseJson c l effects ok = some t) :
    Moves parseJson s (.read c effects ok) t := by
  unfold read at h
  split at h
  · next frame inbound ready next =>
    have ping_eq : FrameFlags.contains frame.flags FrameFlags.ping = isPing frame := rfl
    dsimp only at h
    rw [ping_eq] at h
    cases hping : isPing frame with
    | true =>
      rw [hping, if_pos rfl] at h
      cases ok with
      | true =>
        cases h
        exact .io loop (.ponged ready next hping)
      | false =>
        cases h
        exact .io loop (.pongFailed ready next hping)
    | false =>
      rw [hping, if_neg Bool.false_ne_true] at h
      split at h
      · next skip =>
        have hdata : isData frame = false := by
          rcases Bool.or_eq_true_iff.mp skip with hskip | hskip <;> simp [isData, hskip]
        cases h
        exact .io loop (.skipped ready next hping hdata)
      · next noSkip =>
        split at h
        · next close =>
          cases h
          exact .io loop (.sessionClosed ready next hping (by simp [isData, close]))
        · next noClose =>
          obtain ⟨⟨pending, turn⟩, hresult, rfl⟩ := Option.map_eq_some_iff.mp h
          have hdata : isData frame = true := by
            rw [Bool.or_eq_true_iff, not_or] at noSkip
            simp [isData, hping, noSkip, noClose]
          exact .dispatched loop ready next hdata hresult
  · cases h

theorem moves_of_proceed (loop : s.loops c = some l) (h : s.proceed c l = some t) :
    Moves parseJson s a t := by
  unfold proceed at h
  split at h
  · next effect rest turn =>
    cases effect with
    | sendChunkAck peer fileId index =>
      obtain ⟨l', hpush, rfl⟩ := Option.map_eq_some_iff.mp h
      obtain ⟨-, outbound, room, rfl⟩ := IoLoop.push_eq_some hpush
      exact .io loop (.acked turn room)
    | emit event =>
      obtain ⟨events, room, rfl⟩ := emit_eq_some h
      exact .emitted loop turn room
    | wait =>
      cases h
      exact .io loop (.waited turn)
  · next turn =>
    obtain ⟨events, room, rfl⟩ := emit_eq_some h
    exact .left loop turn room
  · cases h

theorem moves_of_sent {call : SendCall} (holds : s.sending = some call)
    (loop : s.loops call.conn = some l) (h : s.sent call l = some t) : Moves parseJson s a t := by
  unfold Runtime.sent at h
  split at h
  · next gone =>
    cases h
    exact .released holds loop gone
  · obtain ⟨l', hpush, rfl⟩ := Option.map_eq_some_iff.mp h
    obtain ⟨live, outbound, room, rfl⟩ := IoLoop.push_eq_some hpush
    exact .sent holds loop live room

theorem moves_of_step (h : step parseJson s a = some t) : Moves parseJson s a t := by
  cases a with
  | install =>
    simp only [step] at h
    split at h
    · cases h
    · next free =>
      cases h
      exact .installed free
  | arrive c frame =>
    simp only [step] at h
    split at h
    · cases h
    · next l loop =>
      split at h
      · cases h
      · next live =>
        cases h
        exact .io loop (.arrived (by simpa using live))
  | enqueue c payload flags =>
    simp only [step] at h
    split at h
    · cases h
    · next l loop =>
      obtain ⟨l', hpush, rfl⟩ := Option.map_eq_some_iff.mp h
      obtain ⟨live, outbound, room, rfl⟩ := IoLoop.push_eq_some hpush
      exact .io loop (.pushed live room)
  | sendRaw payload flags =>
    simp only [step] at h
    split at h
    · next free tx =>
      cases h
      exact .sendRaw free tx
    · cases h
  | sendRequest =>
    simp only [step] at h
    split at h
    · next channel peer free requesting =>
      split at h
      · next tx =>
        cases h
        exact .sendRequest free requesting tx
      · cases h
        exact .requestFailed free requesting
    · cases h
  | sent =>
    simp only [step] at h
    split at h
    · cases h
    · next call holds =>
      split at h
      · cases h
      · next l loop => exact moves_of_sent holds loop h
  | write c ok =>
    simp only [step] at h
    split at h
    · cases h
    · next l loop =>
      obtain ⟨l', hwrite, rfl⟩ := Option.map_eq_some_iff.mp h
      exact .io loop (.of_write hwrite)
  | read c effects ok =>
    simp only [step] at h
    split at h
    · cases h
    · next l loop => exact moves_of_read loop h
  | readFailed c =>
    simp only [step] at h
    split at h
    · cases h
    · next l loop =>
      split at h
      · next ready =>
        cases h
        exact .io loop (.readFailed ready)
      · cases h
  | proceed c =>
    simp only [step] at h
    split at h
    · cases h
    · next l loop => exact moves_of_proceed loop h
  | emit event =>
    obtain ⟨events, room, rfl⟩ := emit_eq_some h
    exact .emit room
  | handle hasSession =>
    simp only [step] at h
    split at h
    · next emission events idle next =>
      obtain ⟨source, event⟩ := emission
      split at h
      · next peer hevent =>
        dsimp only at hevent
        subst hevent
        split at h
        · cases h
          exact .handled idle next
        · cases h
          exact .requested idle next
      · cases h
        exact .handled idle next
    · cases h
  | resume =>
    simp only [step] at h
    split at h
    · next channel waiting =>
      split at h
      · cases h
      · next free =>
        cases h
        exact .resumed waiting free
    · cases h
  | request kind =>
    cases h
    exact .inserted

end Runtime

/-! ## What a loop has read, done and written -/

def Written.command? : Written → Option OutboundCmd
  | .command cmd => some cmd
  | .pong => none

def Effect.event? : Effect → Option RuntimeEvent
  | .emit event => some event
  | _ => none

@[simp] theorem Turn.todo_running (todo : List Effect) : (Turn.running todo).todo = todo := rfl

@[simp] theorem Turn.todo_leaving : Turn.leaving.todo = [] := rfl

@[simp] theorem Turn.todo_ended : Turn.ended.todo = [] := rfl

def IoLoop.left (l : IoLoop) : Bool :=
  l.turn = .leaving || l.turn = .ended

/-- What the handlers of the payload that was dispatched last have to do. -/
def IoLoop.lastEffects (l : IoLoop) : List Effect :=
  (l.dispatched.getLast?.map Prod.snd).getD []

/-- Frames are read in order, the payloads of data frames are dispatched, and what is to do for one is
done before the next is read: what is left to do is of the last one. Commands are written in order
and each PING is answered; the write that made the loop leave is the only one that may be missing. -/
structure IoLoop.Exact (l : IoLoop) : Prop where
  read : l.arrived = l.taken ++ l.inbound
  dispatched : l.dispatched.map Prod.fst = (l.taken.filter isData).map Frame.payload
  done : l.dispatched.flatMap Prod.snd = l.performed ++ l.turn.todo
  last : l.turn.todo <:+ l.lastEffects
  sent : ∃ lost missed,
    l.accepted = l.written.filterMap Written.command? ++ lost ++ l.outbound.items ∧
      (l.taken.filter isPing).length = l.written.count .pong + missed ∧
      lost.length + missed ≤ if l.left then 1 else 0

namespace IoLoop.Exact

theorem start : IoLoop.start.Exact where
  read := rfl
  dispatched := rfl
  done := rfl
  last := List.suffix_rfl
  sent := ⟨[], 0, rfl, rfl, Nat.le_refl 0⟩

theorem of_ready (h : l.Exact) (ready : l.turn = .running []) :
    l.dispatched.flatMap Prod.snd = l.performed ∧
      l.accepted = l.written.filterMap Written.command? ++ l.outbound.items ∧
      (l.taken.filter isPing).length = l.written.count .pong := by
  obtain ⟨lost, missed, haccepted, hpongs, hmissing⟩ := h.sent
  have hleft : l.left = false := by simp [left, ready]
  rw [hleft, if_neg Bool.false_ne_true, Nat.le_zero, Nat.add_eq_zero_iff] at hmissing
  obtain ⟨hlost, rfl⟩ := hmissing
  rw [List.length_eq_zero_iff.mp hlost, List.append_nil] at haccepted
  refine ⟨?_, haccepted, hpongs⟩
  rw [h.done, ready, Turn.todo_running, List.append_nil]

theorem read_cons (h : l.Exact) {frame : Frame} {inbound : List Frame}
    (next : l.inbound = frame :: inbound) : l.arrived = (l.taken ++ [frame]) ++ inbound := by
  rw [h.read, next, List.append_assoc, List.singleton_append]

theorem dispatched_of_noData (h : l.Exact) {frame : Frame} (noData : isData frame = false) :
    l.dispatched.map Prod.fst = ((l.taken ++ [frame]).filter isData).map Frame.payload := by
  rw [List.filter_append, List.filter_cons_of_neg (by simp [noData]), List.filter_nil,
    List.append_nil]
  exact h.dispatched

theorem done_of_cons (h : l.Exact) {effect : Effect} {rest : List Effect}
    (turn : l.turn = .running (effect :: rest)) :
    l.dispatched.flatMap Prod.snd = l.performed ++ [effect] ++ rest := by
  rw [h.done, turn, Turn.todo_running, List.append_assoc, List.singleton_append]

theorem last_of_cons (h : l.Exact) {effect : Effect} {rest : List Effect}
    (turn : l.turn = .running (effect :: rest)) : rest <:+ l.lastEffects := by
  have hlast := h.last
  rw [turn, Turn.todo_running] at hlast
  exact (List.suffix_cons effect rest).trans hlast

theorem io (h : l.Exact) (io : IoStep l l') : l'.Exact := by
  cases io with
  | arrived live =>
    refine ⟨?_, h.dispatched, h.done, h.last, h.sent⟩
    rw [h.read, List.append_assoc]
  | pushed live room =>
    refine ⟨h.read, h.dispatched, h.done, h.last, ?_⟩
    obtain ⟨lost, missed, haccepted, hpongs, hmissing⟩ := h.sent
    refine ⟨lost, missed, ?_, hpongs, hmissing⟩
    rw [haccepted, Channel.items_of_send room, List.append_assoc _ _ [_]]
  | wrote ready next =>
    refine ⟨h.read, h.dispatched, h.done, h.last, ?_⟩
    obtain ⟨-, haccepted, hpongs⟩ := h.of_ready ready
    refine ⟨[], 0, ?_, ?_, Nat.zero_le _⟩
    · rw [haccepted, Channel.items_of_recv next, List.filterMap_append]
      simp [Written.command?]
    · rw [hpongs, List.count_append]
      simp
  | @writeFailed cmd outbound ready next =>
    obtain ⟨hdone, haccepted, hpongs⟩ := h.of_ready ready
    refine ⟨h.read, h.dispatched, ?_, List.nil_suffix, [cmd], 0, ?_, hpongs, Nat.le_refl 1⟩
    · rw [hdone, Turn.todo_leaving, List.append_nil]
    · rw [haccepted, Channel.items_of_recv next, List.append_assoc, List.singleton_append]
  | closes ready next =>
    obtain ⟨hdone, haccepted, hpongs⟩ := h.of_ready ready
    refine ⟨h.read, h.dispatched, ?_, List.nil_suffix, [], 0, ?_, ?_, Nat.zero_le _⟩
    · rw [hdone, Turn.todo_leaving, List.append_nil]
    · rw [haccepted, Channel.items_of_recv next, List.filterMap_append]
      simp [Written.command?]
    · rw [hpongs, List.count_append]
      simp
  | ponged ready next ping =>
    obtain ⟨-, haccepted, hpongs⟩ := h.of_ready ready
    refine ⟨h.read_cons next, h.dispatched_of_noData (by simp [isData, ping]), h.done, h.last, [], 0,
      ?_, ?_, Nat.zero_le _⟩
    · rw [haccepted, List.filterMap_append]
      simp [Written.command?]
    · rw [List.filter_append, List.length_append, hpongs, List.count_append]
      simp [ping]
  | pongFailed ready next ping =>
    obtain ⟨hdone, haccepted, hpongs⟩ := h.of_ready ready
    refine ⟨h.read_cons next, h.dispatched_of_noData (by simp [isData, ping]), ?_, List.nil_suffix, [],
      1, ?_, ?_, Nat.le_refl 1⟩
    · rw [hdone, Turn.todo_leaving, List.append_nil]
    · rw [haccepted, List.append_nil]
    · rw [List.filter_append, List.length_append, hpongs]
      simp [ping]
  | skipped ready next noPing noData =>
    obtain ⟨-, haccepted, hpongs⟩ := h.of_ready ready
    refine ⟨h.read_cons next, h.dispatched_of_noData noData, h.done, h.last, [], 0, ?_, ?_,
      Nat.zero_le _⟩
    · rw [haccepted, List.append_nil]
    · rw [List.filter_append, List.length_append, hpongs]
      simp [noPing]
  | sessionClosed ready next noPing noData =>
    obtain ⟨hdone, haccepted, hpongs⟩ := h.of_ready ready
    refine ⟨h.read_cons next, h.dispatched_of_noData noData, ?_, List.nil_suffix, [], 0, ?_, ?_,
      Nat.zero_le _⟩
    · rw [hdone, Turn.todo_leaving, List.append_nil]
    · rw [haccepted, List.append_nil]
    · rw [List.filter_append, List.length_append, hpongs]
      simp [noPing]
  | readFailed ready =>
    obtain ⟨hdone, haccepted, hpongs⟩ := h.of_ready ready
    refine ⟨h.read, h.dispatched, ?_, List.nil_suffix, [], 0, ?_, hpongs, Nat.zero_le _⟩
    · rw [hdone, Turn.todo_leaving, List.append_nil]
    · rw [haccepted, List.append_nil]
  | acked turn room =>
    obtain ⟨lost, missed, haccepted, hpongs, hmissing⟩ := h.sent
    refine ⟨h.read, h.dispatched, h.done_of_cons turn, h.last_of_cons turn, lost, missed, ?_, hpongs,
      ?_⟩
    · rw [haccepted, Channel.items_of_send room, List.append_assoc _ _ [_]]
    · simpa [left, turn] using hmissing
  | waited turn =>
    obtain ⟨lost, missed, haccepted, hpongs, hmissing⟩ := h.sent
    refine ⟨h.read, h.dispatched, h.done_of_cons turn, h.last_of_cons turn, lost, missed, haccepted,
      hpongs, ?_⟩
    simpa [left, turn] using hmissing

theorem dispatch (h : l.Exact) {frame : Frame} {inbound : List Frame} (ready : l.turn = .running [])
    (next : l.inbound = frame :: inbound) (data : isData frame = true) (turn : Turn) :
    Exact { l with
      inbound, taken := l.taken ++ [frame], turn
      dispatched := l.dispatched ++ [(frame.payload, turn.todo)] } := by
  obtain ⟨hdone, haccepted, hpongs⟩ := h.of_ready ready
  have noPing : isPing frame = false := by
    cases hping : isPing frame with
    | false => rfl
    | true => simp [isData, hping] at data
  refine ⟨h.read_cons next, ?_, ?_, ?_, [], 0, ?_, ?_, Nat.zero_le _⟩
  · rw [List.map_append, h.dispatched, List.filter_append, List.map_append]
    simp [data]
  · rw [List.flatMap_append, hdone]
    simp
  · simp [lastEffects]
  · rw [haccepted, List.append_nil]
  · rw [List.filter_append, List.length_append, hpongs]
    simp [noPing]

theorem emit (h : l.Exact) {event : RuntimeEvent} {rest : List Effect}
    (turn : l.turn = .running (.emit event :: rest)) :
    Exact { l with turn := .running rest, performed := l.performed ++ [.emit event] } := by
  obtain ⟨lost, missed, haccepted, hpongs, hmissing⟩ := h.sent
  refine ⟨h.read, h.dispatched, h.done_of_cons turn, h.last_of_cons turn, lost, missed, haccepted,
    hpongs, ?_⟩
  simpa [left, turn] using hmissing

theorem leave (h : l.Exact) (turn : l.turn = .leaving) : Exact { l with turn := .ended } := by
  obtain ⟨lost, missed, haccepted, hpongs, hmissing⟩ := h.sent
  refine ⟨h.read, h.dispatched, ?_, List.nil_suffix, lost, missed, haccepted, hpongs, ?_⟩
  · rw [h.done, turn, Turn.todo_leaving, Turn.todo_ended]
  · simpa [left, turn] using hmissing

end IoLoop.Exact

theorem IoStep.reports (io : IoStep l l') :
    l'.performed.filterMap Effect.event? = l.performed.filterMap Effect.event? ∧
      (l'.turn = .ended ↔ l.turn = .ended) := by
  cases io with
  | arrived live => exact ⟨rfl, Iff.rfl⟩
  | pushed live room => exact ⟨rfl, Iff.rfl⟩
  | wrote ready next => exact ⟨rfl, Iff.rfl⟩
  | writeFailed ready next => exact ⟨rfl, by simp [ready]⟩
  | closes ready next => exact ⟨rfl, by simp [ready]⟩
  | ponged ready next ping => exact ⟨rfl, Iff.rfl⟩
  | pongFailed ready next ping => exact ⟨rfl, by simp [ready]⟩
  | skipped ready next noPing noData => exact ⟨rfl, Iff.rfl⟩
  | sessionClosed ready next noPing noData => exact ⟨rfl, by simp [ready]⟩
  | readFailed ready => exact ⟨rfl, by simp [ready]⟩
  | acked turn room =>
    refine ⟨?_, by simp [turn]⟩
    rw [List.filterMap_append]
    simp [Effect.event?]
  | waited turn =>
    refine ⟨?_, by simp [turn]⟩
    rw [List.filterMap_append]
    simp [Effect.event?]

namespace Runtime

variable {parseJson : Bytes → Option Json} {s t : Runtime} {a : RuntimeAction} {c : ConnId}

theorem loops_set_self (s : Runtime) (c : ConnId) (l : IoLoop) : (s.set c l).loops c = some l := by
  unfold set
  exact Function.update_self _ _ _

theorem loops_set_of_ne (s : Runtime) {c c' : ConnId} (hne : c' ≠ c) (l : IoLoop) :
    (s.set c l).loops c' = s.loops c' := by
  unfold set
  exact Function.update_of_ne hne _ _

theorem loops_set_eq_some {c' : ConnId} (h : (s.set c l).loops c' = some l') :
    c' = c ∧ l' = l ∨ c' ≠ c ∧ s.loops c' = some l' := by
  by_cases heq : c' = c
  · subst heq
    exact .inl ⟨rfl, (Option.some.inj ((loops_set_self s c' l).symm.trans h)).symm⟩
  · exact .inr ⟨heq, (loops_set_of_ne s heq l).symm.trans h⟩

/-- A dispatched payload leaves the slots as they are, or is a reply that empties its own; the loop goes
on or panics. -/
theorem dispatchInbound_cases {pending pending' : Pending} {payload : Bytes} {effects : List Effect}
    {turn : Turn} (h : dispatchInbound parseJson pending payload effects = some (pending', turn)) :
    (turn = .panicked ∨ ∃ todo, turn = .running todo) ∧
      (pending' = pending ∨ ∃ json kind, payload.head? = some 0x7B ∧ parseJson payload = some json ∧
        replyKind json = some kind ∧ pending' = Function.update pending kind none) := by
  unfold dispatchInbound at h
  split at h
  · next hhead =>
    split at h
    · cases h
      exact ⟨.inr ⟨_, rfl⟩, .inl rfl⟩
    · next json hjson =>
      have hpending : (dispatchJson pending json).1 = pending ∨ ∃ kind,
          replyKind json = some kind ∧
            (dispatchJson pending json).1 = Function.update pending kind none := by
        unfold dispatchJson
        split
        · exact .inl rfl
        · split
          · exact .inl rfl
          · next kind hkind =>
            split
            · exact .inl rfl
            · exact .inr ⟨kind, hkind, rfl⟩
      have hslots : (dispatchJson pending json).1 = pending ∨ ∃ json' kind,
          payload.head? = some 0x7B ∧ parseJson payload = some json' ∧ replyKind json' = some kind ∧
            (dispatchJson pending json).1 = Function.update pending kind none :=
        hpending.imp_right fun ⟨kind, hkind, heq⟩ => ⟨json, kind, hhead, hjson, hkind, heq⟩
      dsimp only at h
      split at h
      · cases h
        exact ⟨.inr ⟨_, rfl⟩, hslots⟩
      · cases h
        exact ⟨.inl rfl, hslots⟩
      · cases h
        exact ⟨.inr ⟨_, rfl⟩, hslots⟩
  · split at h
    · cases h
      exact ⟨.inr ⟨_, rfl⟩, .inl rfl⟩
    · split at h
      · cases h
        exact ⟨.inr ⟨_, rfl⟩, .inl rfl⟩
      · cases h

def emittedBy (emitted : List Emission) (c : ConnId) : List RuntimeEvent :=
  emitted.filterMap fun emission => if emission.1 = some c then some emission.2 else none

theorem emittedBy_append_self (emitted : List Emission) (c : ConnId) (event : RuntimeEvent) :
    emittedBy (emitted ++ [(some c, event)]) c = emittedBy emitted c ++ [event] := by
  simp [emittedBy]

theorem emittedBy_append_of_ne (emitted : List Emission) {source : Option ConnId} {c : ConnId}
    (hne : source ≠ some c) (event : RuntimeEvent) :
    emittedBy (emitted ++ [(source, event)]) c = emittedBy emitted c := by
  simp [emittedBy, hne]

/-- The events of the loop at `c` are those it performed, and `Disconnected` once it has ended. -/
def Reported (emitted : List Emission) (c : ConnId) (l : IoLoop) : Prop :=
  emittedBy emitted c =
    l.performed.filterMap Effect.event? ++ if l.turn = .ended then [.disconnected] else []

/-- Loops are numbered below `nextConn`, are exact and have reported what they did; the channel of events
holds what was sent and is not handled. -/
structure Exact (s : Runtime) : Prop where
  known : ∀ {c l}, s.loops c = some l → c < s.nextConn
  fresh : ∀ {c}, s.nextConn ≤ c → emittedBy s.emitted c = []
  loop : ∀ {c l}, s.loops c = some l → l.Exact
  reported : ∀ {c l}, s.loops c = some l → Reported s.emitted c l
  events : s.emitted = s.handled ++ s.events.items

namespace Exact

theorem start : Runtime.start.Exact where
  known h := by cases h
  fresh _ := rfl
  loop h := by cases h
  reported h := by cases h
  events := rfl

theorem set (h : s.Exact) (loop : s.loops c = some l) (exact : l'.Exact)
    (reported : Reported s.emitted c l') : (s.set c l').Exact where
  known hloop := by
    rcases loops_set_eq_some hloop with ⟨rfl, -⟩ | ⟨-, hloop⟩
    · exact h.known loop
    · exact h.known hloop
  fresh := h.fresh
  loop hloop := by
    rcases loops_set_eq_some hloop with ⟨rfl, rfl⟩ | ⟨-, hloop⟩
    · exact exact
    · exact h.loop hloop
  reported hloop := by
    rcases loops_set_eq_some hloop with ⟨rfl, rfl⟩ | ⟨-, hloop⟩
    · exact reported
    · exact h.reported hloop
  events := h.events

theorem emit (h : s.Exact) (loop : s.loops c = some l) (exact : l'.Exact) {event : RuntimeEvent}
    {events : Channel Emission channelCapacity}
    (room : s.events.send (some c, event) = some events)
    (reported : Reported (s.emitted ++ [(some c, event)]) c l') :
    Exact { s.set c l' with events, emitted := s.emitted ++ [(some c, event)] } where
  known hloop := by
    rcases loops_set_eq_some hloop with ⟨rfl, -⟩ | ⟨-, hloop⟩
    · exact h.known loop
    · exact h.known hloop
  fresh {c'} hfresh := by
    have hlt := h.known loop
    have hne : some c ≠ some c' := by
      intro heq
      obtain rfl := Option.some.inj heq
      exact Nat.not_lt.mpr hfresh hlt
    exact (emittedBy_append_of_ne _ hne _).trans (h.fresh hfresh)
  loop hloop := by
    rcases loops_set_eq_some hloop with ⟨rfl, rfl⟩ | ⟨-, hloop⟩
    · exact exact
    · exact h.loop hloop
  reported {c' _} hloop := by
    rcases loops_set_eq_some hloop with ⟨rfl, rfl⟩ | ⟨hne, hloop⟩
    · exact reported
    · have hne' : some c ≠ some c' := fun heq => hne (Option.some.inj heq).symm
      exact (emittedBy_append_of_ne _ hne' _).trans (h.reported hloop)
  events := by
    show s.emitted ++ [_] = s.handled ++ events.items
    rw [Channel.items_of_send room, h.events, List.append_assoc]

theorem moves (h : s.Exact) (moved : Moves parseJson s a t) : t.Exact := by
  cases moved with
  | io loop io =>
    obtain ⟨hsame, hended⟩ := io.reports
    refine h.set loop ((h.loop loop).io io) ?_
    rw [Reported, h.reported loop, hsame]
    simp only [hended]
  | @dispatched c l frame inbound effects ok pending turn loop ready next data result =>
    have hturn : turn ≠ .ended := by
      rcases (dispatchInbound_cases result).1 with rfl | ⟨todo, rfl⟩ <;> simp
    have hset := h.set loop ((h.loop loop).dispatch ready next data turn) (by
      rw [Reported, h.reported loop]
      simp [ready, hturn])
    exact ⟨hset.known, hset.fresh, hset.loop, hset.reported, hset.events⟩
  | emitted loop turn room =>
    refine h.emit loop ((h.loop loop).emit turn) room ?_
    rw [Reported, emittedBy_append_self, h.reported loop]
    simp [turn, Effect.event?]
  | left loop turn room =>
    refine h.emit loop ((h.loop loop).leave turn) room ?_
    rw [Reported, emittedBy_append_self, h.reported loop]
    simp [turn]
  | installed free =>
    refine ⟨?_, ?_, ?_, ?_, h.events⟩
    · intro c l hloop
      show c < s.nextConn + 1
      rcases loops_set_eq_some hloop with ⟨rfl, -⟩ | ⟨-, hloop⟩
      · exact Nat.lt_succ_self _
      · exact Nat.lt_succ_of_lt (h.known hloop)
    · intro c hfresh
      exact h.fresh (Nat.le_of_succ_le hfresh)
    · intro c l hloop
      rcases loops_set_eq_some hloop with ⟨-, rfl⟩ | ⟨-, hloop⟩
      · exact IoLoop.Exact.start
      · exact h.loop hloop
    · intro c l hloop
      rcases loops_set_eq_some hloop with ⟨rfl, rfl⟩ | ⟨-, hloop⟩
      · exact h.fresh (Nat.le_refl _)
      · exact h.reported hloop
  | sendRaw free tx => exact ⟨h.known, h.fresh, h.loop, h.reported, h.events⟩
  | sendRequest free requesting tx => exact ⟨h.known, h.fresh, h.loop, h.reported, h.events⟩
  | requestFailed free requesting => exact ⟨h.known, h.fresh, h.loop, h.reported, h.events⟩
  | released holds loop gone => exact ⟨h.known, h.fresh, h.loop, h.reported, h.events⟩
  | @sent _ call l outbound holds loop live room =>
    have hreported : Reported s.emitted call.conn l := h.reported loop
    have hset := h.set loop ((h.loop loop).io (.pushed live room)) hreported
    exact ⟨hset.known, hset.fresh, hset.loop, hset.reported, hset.events⟩
  | emit room =>
    refine ⟨h.known, ?_, h.loop, ?_, ?_⟩
    · intro c hfresh
      exact (emittedBy_append_of_ne _ (by simp) _).trans (h.fresh hfresh)
    · intro c l hloop
      exact (emittedBy_append_of_ne _ (by simp) _).trans (h.reported hloop)
    · show s.emitted ++ [_] = s.handled ++ _
      rw [Channel.items_of_send room, h.events, List.append_assoc]
  | handled idle next =>
    refine ⟨h.known, h.fresh, h.loop, h.reported, ?_⟩
    show s.emitted = s.handled ++ [_] ++ _
    rw [h.events, Channel.items_of_recv next, List.append_assoc, List.singleton_append]
  | requested idle next =>
    refine ⟨h.known, h.fresh, h.loop, h.reported, ?_⟩
    show s.emitted = s.handled ++ [_] ++ _
    rw [h.events, Channel.items_of_recv next, List.append_assoc, List.singleton_append]
  | resumed waiting free => exact ⟨h.known, h.fresh, h.loop, h.reported, h.events⟩
  | inserted => exact ⟨h.known, h.fresh, h.loop, h.reported, h.events⟩

end Exact

theorem exact_run (run : Run (step parseJson) (fun _ _ => True) start s) : s.Exact :=
  run.invariant (I := Exact) .start fun h _ taken => h.moves (moves_of_step taken)

/-- **What a loop has done.** In every run of the client, each I/O loop has read a prefix of the
frames that arrived and dispatched the payloads of the data frames among them, in order and once each;
what was to do for them is done but for what is left to do for the last one. Its events are those, in
that order, with one `Disconnected` behind them exactly if the loop has ended. The commands of its
channel are written in the order in which they were accepted, and every PING is answered; the write
that made the loop leave is the only one that may be missing. The event loop takes the events of all
loops in the order in which they were sent. -/
theorem io_loop_exact (run : Run (step parseJson) (fun _ _ => True) start s)
    (loop : s.loops c = some l) :
    l.arrived = l.taken ++ l.inbound ∧
      l.dispatched.map Prod.fst = (l.taken.filter isData).map Frame.payload ∧
      l.dispatched.flatMap Prod.snd = l.performed ++ l.turn.todo ∧ l.turn.todo <:+ l.lastEffects ∧
      (emittedBy s.emitted c = l.performed.filterMap Effect.event? ++
        if l.turn = .ended then [.disconnected] else []) ∧
      (∃ lost missed,
        l.accepted = l.written.filterMap Written.command? ++ lost ++ l.outbound.items ∧
          (l.taken.filter isPing).length = l.written.count .pong + missed ∧
          lost.length + missed ≤ if l.left then 1 else 0) ∧
      s.emitted = s.handled ++ s.events.items := by
  have hexact := exact_run run
  have hloop := hexact.loop loop
  exact ⟨hloop.read, hloop.dispatched, hloop.done, hloop.last, hexact.reported loop, hloop.sent,
    hexact.events⟩

/-- A PING is answered, a command is written, and a peer that has joined is reported. -/
def joinedRun : List RuntimeAction :=
  [.install, .arrive 0 ⟨1, 0, FrameFlags.ping, []⟩, .arrive 0 ⟨2, 0, 0, [0x7B]⟩,
    .enqueue 0 [7] 0, .read 0 [] true, .write 0 true, .read 0 [] true, .proceed 0]

def joinedJson (_ : Bytes) : Option Json :=
  some (peerJoined (List.replicate 64 '0'))

theorem io_loop_exact_joined :
    ∃ s l, Run (step joinedJson) (fun _ _ => True) start s ∧ s.loops 0 = some l ∧
      l.written = [.pong, .command (.send [7] 0)] ∧
      emittedBy s.emitted 0 = l.performed.filterMap Effect.event? ++
        if l.turn = .ended then [.disconnected] else [] := by
  obtain ⟨s, l, hexec, hloop, hwritten⟩ : ∃ s l,
      exec (step joinedJson) (fun _ _ => True) start joinedRun = some s ∧ s.loops 0 = some l ∧
        l.written = [.pong, .command (.send [7] 0)] := ⟨_, _, rfl, rfl, rfl⟩
  have hrun := Run.of_exec hexec
  obtain ⟨-, -, -, -, hreported, -, -⟩ := io_loop_exact hrun hloop
  exact ⟨s, l, hrun, hloop, hwritten, hreported⟩

end Runtime

/-! ## A loop that waits for itself -/

/-- The loop is to send an acknowledgement and its own channel has no room. -/
structure IoLoop.Stuck (l : IoLoop) : Prop where
  turn : ∃ peer fileId index rest, l.turn = .running (.sendChunkAck peer fileId index :: rest)
  full : l.outbound.Full

/-- Nothing but the arrival of frames has changed the loop. -/
structure IoLoop.Rests (l l' : IoLoop) : Prop where
  turn : l'.turn = l.turn
  outbound : l'.outbound = l.outbound
  taken : l'.taken = l.taken
  written : l'.written = l.written

namespace IoLoop

theorem Rests.refl (l : IoLoop) : l.Rests l :=
  ⟨rfl, rfl, rfl, rfl⟩

theorem Rests.trans {l'' : IoLoop} (first : l.Rests l') (second : l'.Rests l'') : l.Rests l'' where
  turn := second.turn.trans first.turn
  outbound := second.outbound.trans first.outbound
  taken := second.taken.trans first.taken
  written := second.written.trans first.written

namespace Stuck

theorem rests (h : l.Stuck) (same : l.Rests l') : l'.Stuck where
  turn := by
    obtain ⟨peer, fileId, index, rest, turn⟩ := h.turn
    exact ⟨peer, fileId, index, rest, same.turn.trans turn⟩
  full := by
    rw [same.outbound]
    exact h.full

theorem not_ready (h : l.Stuck) : l.turn ≠ .running [] := by
  obtain ⟨peer, fileId, index, rest, turn⟩ := h.turn
  simp [turn]

theorem not_emitting (h : l.Stuck) {event : RuntimeEvent} {rest : List Effect} :
    l.turn ≠ .running (.emit event :: rest) := by
  obtain ⟨peer, fileId, index, rest', turn⟩ := h.turn
  simp [turn]

theorem not_leaving (h : l.Stuck) : l.turn ≠ .leaving := by
  obtain ⟨peer, fileId, index, rest, turn⟩ := h.turn
  simp [turn]

theorem not_closed (h : l.Stuck) : l.closed = false := by
  obtain ⟨peer, fileId, index, rest, turn⟩ := h.turn
  simp [closed, turn]

theorem no_room (h : l.Stuck) {cmd : OutboundCmd} {outbound : Channel OutboundCmd channelCapacity} :
    l.outbound.send cmd ≠ some outbound := by
  rw [Channel.send_of_full h.full]
  exact (Option.some_ne_none outbound).symm

theorem io (h : l.Stuck) (io : IoStep l l') : l.Rests l' := by
  obtain ⟨peer, fileId, index, rest, hturn⟩ := h.turn
  cases io with
  | arrived live => exact ⟨rfl, rfl, rfl, rfl⟩
  | pushed live room => exact absurd room h.no_room
  | wrote ready next => exact absurd ready h.not_ready
  | writeFailed ready next => exact absurd ready h.not_ready
  | closes ready next => exact absurd ready h.not_ready
  | ponged ready next ping => exact absurd ready h.not_ready
  | pongFailed ready next ping => exact absurd ready h.not_ready
  | skipped ready next noPing noData => exact absurd ready h.not_ready
  | sessionClosed ready next noPing noData => exact absurd ready h.not_ready
  | readFailed ready => exact absurd ready h.not_ready
  | acked turn room => exact absurd room h.no_room
  | waited turn => simp [hturn] at turn

end Stuck

end IoLoop

namespace Runtime

variable {parseJson : Bytes → Option Json} {s t : Runtime} {a : RuntimeAction} {c : ConnId}

/-- The loop of `c` is as `l` was, but for frames that arrive. -/
structure Frozen (c : ConnId) (l : IoLoop) (s : Runtime) : Prop where
  known : c < s.nextConn
  loop : ∃ l', s.loops c = some l' ∧ l.Rests l'

namespace Frozen

theorem set (h : Frozen c l s) (stuck : l.Stuck) {c' : ConnId} {l₁ l₂ : IoLoop}
    (loop : s.loops c' = some l₁) (keep : l₁.Stuck → l₁.Rests l₂) :
    ∃ l', (s.set c' l₂).loops c = some l' ∧ l.Rests l' := by
  by_cases heq : c = c'
  · subst heq
    obtain ⟨l', hloop, hrests⟩ := h.loop
    obtain rfl := Option.some.inj (hloop.symm.trans loop)
    exact ⟨l₂, loops_set_self s c l₂, hrests.trans (keep (stuck.rests hrests))⟩
  · rw [loops_set_of_ne s heq]
    exact h.loop

theorem moves (stuck : l.Stuck) (h : Frozen c l s) (moved : Moves parseJson s a t) :
    Frozen c l t := by
  cases moved with
  | io loop io => exact ⟨h.known, h.set stuck loop fun hstuck => hstuck.io io⟩
  | dispatched loop ready next data result =>
    exact ⟨h.known, h.set stuck loop fun hstuck => absurd ready hstuck.not_ready⟩
  | emitted loop turn room =>
    exact ⟨h.known, h.set stuck loop fun hstuck => absurd turn hstuck.not_emitting⟩
  | left loop turn room =>
    exact ⟨h.known, h.set stuck loop fun hstuck => absurd turn hstuck.not_leaving⟩
  | installed free =>
    refine ⟨Nat.lt_succ_of_lt h.known, ?_⟩
    rw [show (s.set s.nextConn .start).loops c = s.loops c from
      loops_set_of_ne s (Nat.ne_of_lt h.known) .start]
    exact h.loop
  | sendRaw free tx => exact ⟨h.known, h.loop⟩
  | sendRequest free requesting tx => exact ⟨h.known, h.loop⟩
  | requestFailed free requesting => exact ⟨h.known, h.loop⟩
  | released holds loop gone => exact ⟨h.known, h.loop⟩
  | sent holds loop live room =>
    exact ⟨h.known, h.set stuck loop fun hstuck => absurd room hstuck.no_room⟩
  | emit room => exact ⟨h.known, h.loop⟩
  | handled idle next => exact ⟨h.known, h.loop⟩
  | requested idle next => exact ⟨h.known, h.loop⟩
  | resumed waiting free => exact ⟨h.known, h.loop⟩
  | inserted => exact ⟨h.known, h.loop⟩

/-- A call that waits for room in the channel of such a loop keeps the lock, and without the lock
neither another command is sent by the API nor another connection is put in place. -/
theorem lock_moves (stuck : l.Stuck) (h : Frozen c l s) {call : SendCall}
    (holds : s.sending = some call) (conn : call.conn = c) (moved : Moves parseJson s a t) :
    t.sending = some call ∧ t.nextConn = s.nextConn := by
  obtain ⟨l', hloop, hrests⟩ := h.loop
  have hstuck := stuck.rests hrests
  have busy : s.sending ≠ none := by simp [holds]
  -- the loop of the call that holds the lock is the stuck one
  have hcall : ∀ {call' : SendCall} {l₁ : IoLoop}, s.sending = some call' →
      s.loops call'.conn = some l₁ → l₁ = l' := by
    intro call' l₁ holds' loop
    obtain rfl := Option.some.inj (holds.symm.trans holds')
    rw [conn] at loop
    exact Option.some.inj (loop.symm.trans hloop)
  cases moved with
  | io loop io => exact ⟨holds, rfl⟩
  | dispatched loop ready next data result => exact ⟨holds, rfl⟩
  | emitted loop turn room => exact ⟨holds, rfl⟩
  | left loop turn room => exact ⟨holds, rfl⟩
  | installed free => exact absurd free busy
  | sendRaw free tx => exact absurd free busy
  | sendRequest free requesting tx => exact absurd free busy
  | requestFailed free requesting => exact absurd free busy
  | released holds' loop gone =>
    obtain rfl := hcall holds' loop
    rw [hstuck.not_closed] at gone
    cases gone
  | sent holds' loop live room =>
    obtain rfl := hcall holds' loop
    exact absurd room hstuck.no_room
  | emit room => exact ⟨holds, rfl⟩
  | handled idle next => exact ⟨holds, rfl⟩
  | requested idle next => exact ⟨holds, rfl⟩
  | resumed waiting free => exact ⟨holds, rfl⟩
  | inserted => exact ⟨holds, rfl⟩

end Frozen

theorem frozen_run (stuck : l.Stuck) (h : Frozen c l s)
    (run : Run (step parseJson) (fun _ _ => True) s t) :
    Frozen c l t ∧ ∀ call, s.sending = some call → call.conn = c →
      t.sending = some call ∧ t.nextConn = s.nextConn := by
  induction run with
  | refl => exact ⟨h, fun call holds _ => ⟨holds, rfl⟩⟩
  | tail _ _ taken ih =>
    obtain ⟨hfrozen, hlock⟩ := ih
    have moved := moves_of_step taken
    refine ⟨hfrozen.moves stuck moved, fun call holds conn => ?_⟩
    obtain ⟨hsending, hconns⟩ := hlock call holds conn
    obtain ⟨hsending', hconns'⟩ := hfrozen.lock_moves stuck hsending conn moved
    exact ⟨hsending', hconns'.trans hconns⟩

theorem exists_ack (loop : s.loops c = some l) {peer : PeerId} {fileId : Bytes} {index : UInt32}
    {rest : List Effect} (turn : l.turn = .running (.sendChunkAck peer fileId index :: rest))
    (room : ¬ l.outbound.Full) :
    ∃ t l', step parseJson s (.proceed c) = some t ∧ t.loops c = some l' ∧
      l'.turn = .running rest := by
  obtain ⟨outbound, hsend⟩ := Channel.exists_send_of_not_full room (chunkAck peer fileId index)
  refine ⟨_, _, ?_, loops_set_self s c { l with
    turn := .running rest
    performed := l.performed ++ [.sendChunkAck peer fileId index]
    outbound, accepted := l.accepted ++ [chunkAck peer fileId index] }, rfl⟩
  simp only [step, loop, proceed, turn, IoLoop.push, hsend, Option.map_some]
  rfl

/-- **A loop that waits for itself.** An I/O loop that is to acknowledge a chunk goes on at some time
unless its channel of commands is full. If it is full, the loop reads and writes nothing any more in any
continuation; and if a call of the API waits for room in that channel, it waits for ever with the lock,
so that no command of the API gets through and no new connection is put in place. -/
theorem io_loop_stuck_iff (reached : Run (step parseJson) (fun _ _ => True) start s)
    (loop : s.loops c = some l) {peer : PeerId} {fileId : Bytes} {index : UInt32}
    {rest : List Effect} (turn : l.turn = .running (.sendChunkAck peer fileId index :: rest)) :
    l.outbound.Full ↔ ∀ t, Run (step parseJson) (fun _ _ => True) s t →
      (∃ l', t.loops c = some l' ∧ l.Rests l') ∧
        ∀ call, s.sending = some call → call.conn = c →
          t.sending = some call ∧ t.nextConn = s.nextConn := by
  constructor
  · intro full t run
    have stuck : l.Stuck := ⟨⟨peer, fileId, index, rest, turn⟩, full⟩
    have hfrozen : Frozen c l s := ⟨(exact_run reached).known loop, l, loop, .refl l⟩
    obtain ⟨hfrozen', hlock⟩ := frozen_run stuck hfrozen run
    exact ⟨hfrozen'.loop, hlock⟩
  · intro rests
    by_contra room
    obtain ⟨t, l', taken, hloop, hturn⟩ : ∃ t l', step parseJson s (.proceed c) = some t ∧
        t.loops c = some l' ∧ l'.turn = .running rest := exists_ack loop turn room
    obtain ⟨⟨l'', hloop'', hrests⟩, -⟩ := rests t (.tail .refl trivial taken)
    obtain rfl := Option.some.inj (hloop.symm.trans hloop'')
    have hsame := hrests.turn
    rw [hturn, turn, Turn.running.injEq] at hsame
    exact List.cons_ne_self _ _ hsame.symm

theorem exists_filled (loop : s.loops c = some l) (live : l.closed = false) (n : Nat)
    (room : l.outbound.items.length + n ≤ channelCapacity) :
    ∃ t l', Run (step parseJson) (fun _ _ => True) s t ∧ t.loops c = some l' ∧
      l'.turn = l.turn ∧ l'.outbound.items.length = l.outbound.items.length + n ∧
      t.sending = s.sending := by
  induction n with
  | zero => exact ⟨s, l, .refl, loop, rfl, rfl, rfl⟩
  | succ n ih =>
    obtain ⟨t, l', run, hloop, hturn, hlength, hsending⟩ := ih (by omega)
    have hlive : l'.closed = false := by
      unfold IoLoop.closed at live ⊢
      rw [hturn]
      exact live
    have hroom : ¬ l'.outbound.Full := by
      unfold Channel.Full
      omega
    obtain ⟨outbound, hsend⟩ := Channel.exists_send_of_not_full hroom (.send [] 0)
    have htaken : step parseJson t (.enqueue c [] 0) =
        some (t.set c { l' with outbound, accepted := l'.accepted ++ [.send [] 0] }) := by
      simp [step, hloop, IoLoop.push, hlive, hsend]
    refine ⟨_, _, run.tail trivial htaken, loops_set_self _ _ _, hturn, ?_, hsending⟩
    rw [Channel.items_of_send hsend, List.length_append, List.length_singleton, hlength]
    omega

def chunkFrame : Frame :=
  ⟨1, 0, 0, Message.serialize ⟨fileChunk, (([1] : Bytes), ([2] : Bytes), (0 : UInt32), ([] : Bytes),
    ([] : Bytes), ([] : Bytes), (0 : UInt32), ())⟩⟩

/-- The chunk is written to the file while the channel fills and a call of the API has the lock. -/
theorem io_loop_stuck_full :
    ∃ s l call, Run (step joinedJson) (fun _ _ => True) start s ∧ s.loops 0 = some l ∧
      s.sending = some call ∧ ∀ t, Run (step joinedJson) (fun _ _ => True) s t →
        (∃ l', t.loops 0 = some l' ∧ l.Rests l') ∧
          t.sending = some call ∧ t.nextConn = s.nextConn := by
  let todo : List Effect :=
    [.sendChunkAck (Array32.ofNat 1) [2] 0, .emit (.file (.fileProgress [2] 1))]
  obtain ⟨s₀, l₀, call, hexec, hloop₀, hturn₀, hempty, hsending₀, hconn⟩ : ∃ s₀ l₀ call,
      exec (step joinedJson) (fun _ _ => True) start
        [.install, .arrive 0 chunkFrame, .sendRaw [] 0, .read 0 todo true] = some s₀ ∧
      s₀.loops 0 = some l₀ ∧ l₀.turn = .running todo ∧ l₀.outbound.items = [] ∧
      s₀.sending = some call ∧ call.conn = 0 := ⟨_, _, _, rfl, rfl, rfl, rfl, rfl, rfl⟩
  have hlive : l₀.closed = false := by simp [IoLoop.closed, hturn₀]
  obtain ⟨s, l, hfill, hloop, hturn, hlength, hsending⟩ :=
    exists_filled hloop₀ hlive channelCapacity (by simp [hempty])
  have hreached := (Run.of_exec hexec).trans hfill
  have hfull : l.outbound.Full := by simp [Channel.Full, hlength, hempty]
  have hcall : s.sending = some call := hsending.trans hsending₀
  refine ⟨s, l, call, hreached, hloop, hcall, fun t run => ?_⟩
  obtain ⟨hloop', hlock⟩ :=
    (io_loop_stuck_iff hreached hloop (hturn.trans hturn₀)).mp hfull t run
  exact ⟨hloop', hlock call hcall hconn⟩

/-! ## An event loop that waits for a reply -/

/-- A call of `send_raw` that the event loop has made is the one it is in. -/
def Owned (s : Runtime) : Prop :=
  ∀ call channel, s.sending = some call → call.channel = some channel →
    ∃ peer, s.eventLoop = .requesting channel peer

theorem Owned.moves (h : s.Owned) (moved : Moves parseJson s a t) : t.Owned := by
  cases moved with
  | io loop io => exact h
  | dispatched loop ready next data result => exact h
  | emitted loop turn room => exact h
  | left loop turn room => exact h
  | installed free => exact h
  | sendRaw free tx =>
    intro call channel hsending hchannel
    obtain rfl := Option.some.inj hsending
    cases hchannel
  | sendRequest free requesting tx =>
    intro call channel hsending hchannel
    obtain rfl := Option.some.inj hsending
    obtain rfl := Option.some.inj hchannel
    exact ⟨_, requesting⟩
  | requestFailed free requesting =>
    intro call channel hsending
    exact absurd (free.symm.trans hsending) (Option.some_ne_none call).symm
  | released holds loop gone =>
    intro call channel hsending
    cases hsending
  | sent holds loop live room =>
    intro call channel hsending
    cases hsending
  | emit room => exact h
  | handled idle next => exact h
  | requested idle next =>
    intro call channel hsending hchannel
    obtain ⟨peer, hrequesting⟩ := h call channel hsending hchannel
    rw [idle] at hrequesting
    cases hrequesting
  | resumed waiting free =>
    intro call channel hsending hchannel
    obtain ⟨peer, hrequesting⟩ := h call channel hsending hchannel
    rw [waiting] at hrequesting
    cases hrequesting
  | inserted => exact h

theorem owned_run (run : Run (step parseJson) (fun _ _ => True) start s) : s.Owned :=
  run.invariant (I := Owned) (fun _ _ hsending => by cases hsending)
    fun h _ taken => h.moves (moves_of_step taken)

/-- While the event loop waits, a call that holds the lock is another's. -/
theorem Owned.channel_eq_none (h : s.Owned) {channel : Nat} (waiting : s.eventLoop = .waiting channel)
    {call : SendCall} (holds : s.sending = some call) : call.channel = none := by
  cases hchannel : call.channel with
  | none => rfl
  | some channel' =>
    obtain ⟨peer, hrequesting⟩ := h call channel' holds hchannel
    rw [waiting] at hrequesting
    cases hrequesting

/-- The event loop is in `initiate_session` and the sender of its channel is in the slot. -/
structure Waits (channel : Nat) (s : Runtime) : Prop where
  waiting : s.eventLoop = .waiting channel
  slot : s.pending .getPrekeys = some channel

/-- The frame is one that `dispatch_json` takes for a reply about prekeys. -/
def isPrekeysReply (parseJson : Bytes → Option Json) (frame : Frame) : Bool :=
  frame.payload.head? = some 0x7B && (parseJson frame.payload).bind replyKind = some .getPrekeys

theorem Waits.not_idle {channel : Nat} (h : Waits channel s) : s.eventLoop ≠ .idle := by
  simp [h.waiting]

/-- Only a reply about prekeys or another `initiate_session` ends the wait. -/
theorem Waits.moves {channel : Nat} (h : Waits channel s) (owned : s.Owned)
    (moved : Moves parseJson s a t) (noRequest : a ≠ .request .getPrekeys)
    (noReply : ∀ {c l frame inbound effects ok}, a = .read c effects ok → s.loops c = some l →
      l.turn = .running [] → l.inbound = frame :: inbound → isPrekeysReply parseJson frame = false) :
    Waits channel t ∧ t.handled = s.handled := by
  cases moved with
  | io loop io => exact ⟨⟨h.waiting, h.slot⟩, rfl⟩
  | @dispatched _ l frame _ _ _ pending turn loop ready next data result =>
    have hreply := noReply rfl loop ready next
    refine ⟨⟨h.waiting, ?_⟩, rfl⟩
    show pending .getPrekeys = some channel
    rcases (dispatchInbound_cases result).2 with rfl | ⟨json, kind, hhead, hjson, hkind, rfl⟩
    · exact h.slot
    · have hne : PendingKind.getPrekeys ≠ kind := by
        rintro rfl
        simp [isPrekeysReply, hhead, hjson, hkind] at hreply
      rw [Function.update_of_ne hne]
      exact h.slot
  | emitted loop turn room => exact ⟨⟨h.waiting, h.slot⟩, rfl⟩
  | left loop turn room => exact ⟨⟨h.waiting, h.slot⟩, rfl⟩
  | installed free => exact ⟨⟨h.waiting, h.slot⟩, rfl⟩
  | sendRaw free tx => exact ⟨⟨h.waiting, h.slot⟩, rfl⟩
  | sendRequest free requesting tx => exact ⟨⟨h.waiting, h.slot⟩, rfl⟩
  | requestFailed free requesting =>
    rw [h.waiting] at requesting
    cases requesting
  | @released _ call l holds loop gone =>
    refine ⟨⟨?_, h.slot⟩, rfl⟩
    have hnone := owned.channel_eq_none h.waiting holds
    simp [hnone, h.waiting]
  | @sent _ call l outbound holds loop live room =>
    refine ⟨⟨?_, h.slot⟩, rfl⟩
    have hnone := owned.channel_eq_none h.waiting holds
    simp [hnone, h.waiting]
  | emit room => exact ⟨⟨h.waiting, h.slot⟩, rfl⟩
  | handled idle next => exact absurd idle h.not_idle
  | requested idle next => exact absurd idle h.not_idle
  | resumed waiting free =>
    obtain rfl := EventLoop.waiting.inj (h.waiting.symm.trans waiting)
    exact absurd h.slot free
  | @inserted kind =>
    have hne : PendingKind.getPrekeys ≠ kind := by
      rintro rfl
      exact noRequest rfl
    refine ⟨⟨h.waiting, ?_⟩, rfl⟩
    show Function.update s.pending kind _ .getPrekeys = some channel
    rw [Function.update_of_ne hne]
    exact h.slot

/-- Neither another `initiate_session` nor a reply about prekeys. -/
def quiet (parseJson : Bytes → Option Json) (s : Runtime) : RuntimeAction → Bool
  | .request kind => kind ≠ .getPrekeys
  | .read c _ _ =>
    ((s.loops c).bind fun l => l.inbound.head?).all fun frame => !isPrekeysReply parseJson frame
  | _ => true

theorem noReply_of_quiet (hquiet : quiet parseJson s a = true) {c : ConnId} {frame : Frame}
    {inbound : List Frame} {effects : List Effect} {ok : Bool} (hread : a = .read c effects ok)
    (loop : s.loops c = some l) (next : l.inbound = frame :: inbound) :
    isPrekeysReply parseJson frame = false := by
  subst hread
  simpa [quiet, loop, next] using hquiet

/-- **An event loop that waits.** While the event loop waits for prekeys, no event is handled, not even
`Disconnected`, until a reply about prekeys is read or `initiate_session` is called again; at most as many
events as the channel has places are taken in meanwhile. The reply that no prekeys were found is not such
a reply. -/
theorem event_loop_waits (reached : Run (step parseJson) (fun _ _ => True) start s) {channel : Nat}
    (waits : Waits channel s)
    (run : Run (step parseJson) (fun s a => quiet parseJson s a = true) s t) :
    t.eventLoop = .waiting channel ∧ t.handled = s.handled ∧
      t.emitted.length ≤ s.handled.length + channelCapacity ∧
      ∀ frame, parseJson frame.payload = some prekeysNotFound →
        isPrekeysReply parseJson frame = false := by
  have hkept : Waits channel t ∧ t.handled = s.handled ∧ t.Owned ∧ t.Exact := by
    induction run with
    | refl => exact ⟨waits, rfl, owned_run reached, exact_run reached⟩
    | @tail v w a _ guard taken ih =>
      obtain ⟨hwaits, hhandled, howned, hexact⟩ := ih
      have moved := moves_of_step taken
      have noRequest : a ≠ .request .getPrekeys := by
        rintro rfl
        simp [quiet] at guard
      obtain ⟨hwaits', hhandled'⟩ := hwaits.moves howned moved noRequest
        fun hread loop _ next => noReply_of_quiet guard hread loop next
      exact ⟨hwaits', hhandled'.trans hhandled, howned.moves moved, hexact.moves moved⟩
  obtain ⟨hwaits, hhandled, -, hexact⟩ := hkept
  refine ⟨hwaits.waiting, hhandled, ?_, ?_⟩
  · rw [hexact.events, List.length_append, hhandled]
    exact Nat.add_le_add_left t.events.bounded _
  · intro frame hjson
    simp [isPrekeysReply, hjson]

/-- What the frames of the next two runs are read as: a peer has joined, it has no prekeys, or it has. -/
def replyJson (payload : Bytes) : Option Json :=
  if payload = [0x7B] then some (peerJoined (List.replicate 64 '0'))
  else if payload = [0x7B, 0] then some prekeysNotFound
  else some (prekeysFound ⟨[], [], none⟩)

/-- A peer joins, and the event loop asks for its prekeys. -/
def requestRun : List RuntimeAction :=
  [.install, .arrive 0 ⟨1, 0, 0, [0x7B]⟩, .read 0 [] true, .proceed 0, .handle false, .sendRequest,
    .sent]

/-- The peer has no prekeys; the reply says so, the connection is lost, and the event loop waits on. -/
theorem event_loop_waits_notFound :
    ∃ s t, Run (step replyJson) (fun _ _ => True) start s ∧ s.handled.length = 1 ∧
      Run (step replyJson) (fun s a => quiet replyJson s a = true) s t ∧
      (some 0, .disconnected) ∈ t.emitted ∧ t.handled = s.handled := by
  obtain ⟨s, hexec, hwaiting, hslot, hhandled⟩ : ∃ s,
      exec (step replyJson) (fun _ _ => True) start requestRun = some s ∧
        s.eventLoop = .waiting 0 ∧ s.pending .getPrekeys = some 0 ∧ s.handled.length = 1 ∧
        ∃ t, exec (step replyJson) (fun s a => quiet replyJson s a = true) s
            [.arrive 0 ⟨2, 0, 0, [0x7B, 0]⟩, .read 0 [] true, .readFailed 0, .proceed 0] = some t ∧
          t.emitted.getLast? = some (some 0, .disconnected) :=
    ⟨_, rfl, rfl, rfl, rfl, _, rfl, rfl⟩
  obtain ⟨hlength, t, hexec', hlast⟩ := hhandled
  have hreached := Run.of_exec hexec
  have hrun := Run.of_exec hexec'
  obtain ⟨-, hsame, -, -⟩ := event_loop_waits hreached ⟨hwaiting, hslot⟩ hrun
  exact ⟨s, t, hreached, hlength, hrun, List.mem_of_getLast? hlast, hsame⟩

end Runtime

/-! ## Loops that wait for each other -/

/-- Whatever the loop does next, it needs room in a channel: for an event, or in its own channel, which
is full. -/
structure IoLoop.Jammed (l : IoLoop) : Prop where
  not_ready : l.turn ≠ .running []
  not_waiting : ∀ rest, l.turn ≠ .running (.wait :: rest)
  full : ∀ peer fileId index rest,
    l.turn = .running (.sendChunkAck peer fileId index :: rest) → l.outbound.Full

/-- The loop has neither read nor written anything, nor gone on. -/
structure IoLoop.Halts (l l' : IoLoop) : Prop where
  turn : l'.turn = l.turn
  taken : l'.taken = l.taken
  written : l'.written = l.written

namespace IoLoop

theorem Halts.trans {l'' : IoLoop} (first : l.Halts l') (second : l'.Halts l'') : l.Halts l'' where
  turn := second.turn.trans first.turn
  taken := second.taken.trans first.taken
  written := second.written.trans first.written

theorem Jammed.io (h : l.Jammed) (io : IoStep l l') : l.Halts l' ∧ l'.Jammed := by
  cases io with
  | arrived live => exact ⟨⟨rfl, rfl, rfl⟩, h.not_ready, h.not_waiting, h.full⟩
  | @pushed cmd outbound live room =>
    refine ⟨⟨rfl, rfl, rfl⟩, h.not_ready, h.not_waiting, ?_⟩
    intro peer fileId index rest turn
    rw [Channel.send_of_full (h.full peer fileId index rest turn)] at room
    cases room
  | wrote ready next => exact absurd ready h.not_ready
  | writeFailed ready next => exact absurd ready h.not_ready
  | closes ready next => exact absurd ready h.not_ready
  | ponged ready next ping => exact absurd ready h.not_ready
  | pongFailed ready next ping => exact absurd ready h.not_ready
  | skipped ready next noPing noData => exact absurd ready h.not_ready
  | sessionClosed ready next noPing noData => exact absurd ready h.not_ready
  | readFailed ready => exact absurd ready h.not_ready
  | acked turn room =>
    rw [Channel.send_of_full (h.full _ _ _ _ turn)] at room
    cases room
  | waited turn => exact absurd turn (h.not_waiting _)

end IoLoop

namespace Runtime

variable {parseJson : Bytes → Option Json} {s t : Runtime} {a : RuntimeAction} {c : ConnId}

/-- The channel of events is full, and every loop needs room in a full channel. -/
structure Jam (s : Runtime) : Prop where
  full : s.events.Full
  loops : ∀ {c l}, s.loops c = some l → l.Jammed

/-- The loops of `s` have not gone on in `t`, and no event was sent. -/
structure Still (s t : Runtime) : Prop where
  emitted : t.emitted = s.emitted
  loops : ∀ {c l}, s.loops c = some l → ∃ l', t.loops c = some l' ∧ l.Halts l'

theorem Still.refl (s : Runtime) : s.Still s :=
  ⟨rfl, fun loop => ⟨_, loop, rfl, rfl, rfl⟩⟩

theorem Still.trans {u : Runtime} (first : s.Still t) (second : t.Still u) : s.Still u where
  emitted := second.emitted.trans first.emitted
  loops loop := by
    obtain ⟨l', hloop', hhalts⟩ := first.loops loop
    obtain ⟨l'', hloop'', hhalts'⟩ := second.loops hloop'
    exact ⟨l'', hloop'', hhalts.trans hhalts'⟩

namespace Jam

theorem no_room (h : s.Jam) {emission : Emission} {events : Channel Emission channelCapacity} :
    s.events.send emission ≠ some events := by
  rw [Channel.send_of_full h.full]
  exact (Option.some_ne_none events).symm

theorem set (h : s.Jam) (loop : s.loops c = some l) (io : IoStep l l') :
    (s.set c l').Jam ∧ s.Still (s.set c l') := by
  obtain ⟨hhalts, hjammed⟩ := (h.loops loop).io io
  refine ⟨⟨h.full, ?_⟩, rfl, ?_⟩
  · intro c' l₁ hloop
    rcases loops_set_eq_some hloop with ⟨rfl, rfl⟩ | ⟨-, hloop⟩
    · exact hjammed
    · exact h.loops hloop
  · intro c' l₁ hloop
    by_cases heq : c' = c
    · subst heq
      obtain rfl := Option.some.inj (loop.symm.trans hloop)
      exact ⟨l', loops_set_self s c' l', hhalts⟩
    · exact ⟨l₁, (loops_set_of_ne s heq l').trans hloop, rfl, rfl, rfl⟩

theorem moves (h : s.Jam) (moved : Moves parseJson s a t) (busy : s.eventLoop ≠ .idle)
    (noInstall : a ≠ .install) : t.Jam ∧ s.Still t := by
  have hstill := Still.refl s
  cases moved with
  | io loop io => exact h.set loop io
  | dispatched loop ready next data result => exact absurd ready (h.loops loop).not_ready
  | emitted loop turn room => exact absurd room h.no_room
  | left loop turn room => exact absurd room h.no_room
  | installed free => exact absurd rfl noInstall
  | sendRaw free tx => exact ⟨⟨h.full, h.loops⟩, hstill.emitted, hstill.loops⟩
  | sendRequest free requesting tx => exact ⟨⟨h.full, h.loops⟩, hstill.emitted, hstill.loops⟩
  | requestFailed free requesting => exact ⟨⟨h.full, h.loops⟩, hstill.emitted, hstill.loops⟩
  | released holds loop gone => exact ⟨⟨h.full, h.loops⟩, hstill.emitted, hstill.loops⟩
  | sent holds loop live room =>
    obtain ⟨hjam, hset⟩ := h.set loop (.pushed live room)
    exact ⟨⟨hjam.full, hjam.loops⟩, hset.emitted, hset.loops⟩
  | emit room => exact absurd room h.no_room
  | handled idle next => exact absurd idle busy
  | requested idle next => exact absurd idle busy
  | resumed waiting free => exact ⟨⟨h.full, h.loops⟩, hstill.emitted, hstill.loops⟩
  | inserted => exact ⟨⟨h.full, h.loops⟩, hstill.emitted, hstill.loops⟩

end Jam

/-- Neither another `initiate_session` nor a new connection. -/
def unaided : RuntimeAction → Bool
  | .install => false
  | .request kind => kind ≠ .getPrekeys
  | _ => true

/-- **Loops that wait for each other.** Let the event loop wait for prekeys, the channel of events be
full, and every I/O loop need room in a full channel. Then nothing more is read, written, sent as an event
or handled in any continuation, unless `initiate_session` is called again or a new connection is made:
a reply that has already arrived is never read, since the loop that would read it waits for the event
loop, which waits for the reply. -/
theorem runtime_jams (reached : Run (step parseJson) (fun _ _ => True) start s) {channel : Nat}
    (waits : Waits channel s) (jam : s.Jam)
    (run : Run (step parseJson) (fun _ a => unaided a = true) s t) :
    t.eventLoop = .waiting channel ∧ t.handled = s.handled ∧ t.emitted = s.emitted ∧
      ∀ c l, s.loops c = some l → ∃ l', t.loops c = some l' ∧
        l'.turn = l.turn ∧ l'.taken = l.taken ∧ l'.written = l.written := by
  have hkept : Waits channel t ∧ t.handled = s.handled ∧ t.Owned ∧ t.Jam ∧ s.Still t := by
    induction run with
    | refl => exact ⟨waits, rfl, owned_run reached, jam, .refl s⟩
    | @tail v w a _ guard taken ih =>
      obtain ⟨hwaits, hhandled, howned, hjam, hstill⟩ := ih
      have moved := moves_of_step taken
      have noRequest : a ≠ .request .getPrekeys := by
        rintro rfl
        simp [unaided] at guard
      have noInstall : a ≠ .install := by
        rintro rfl
        simp [unaided] at guard
      -- no loop is at its `select!`, so no frame is read
      obtain ⟨hwaits', hhandled'⟩ := hwaits.moves howned moved noRequest
        fun _ loop ready _ => absurd ready (hjam.loops loop).not_ready
      obtain ⟨hjam', hstill'⟩ := hjam.moves moved hwaits.not_idle noInstall
      exact ⟨hwaits', hhandled'.trans hhandled, howned.moves moved, hjam', hstill.trans hstill'⟩
  obtain ⟨hwaits, hhandled, -, -, hstill⟩ := hkept
  refine ⟨hwaits.waiting, hhandled, hstill.emitted, fun c l loop => ?_⟩
  obtain ⟨l', hloop, hhalts⟩ := hstill.loops loop
  exact ⟨l', hloop, hhalts.turn, hhalts.taken, hhalts.written⟩

theorem exists_events_filled (s : Runtime) (n : Nat)
    (room : s.events.items.length + n ≤ channelCapacity) :
    ∃ t, Run (step parseJson) (fun _ _ => True) s t ∧ t.loops = s.loops ∧
      t.nextConn = s.nextConn ∧ t.eventLoop = s.eventLoop ∧ t.pending = s.pending ∧
      t.events.items.length = s.events.items.length + n := by
  induction n with
  | zero => exact ⟨s, .refl, rfl, rfl, rfl, rfl, rfl⟩
  | succ n ih =>
    obtain ⟨t, run, hloops, hconns, heventLoop, hpending, hlength⟩ := ih (by omega)
    have hroom : ¬ t.events.Full := by
      unfold Channel.Full
      omega
    obtain ⟨events, hsend⟩ := Channel.exists_send_of_not_full hroom (none, .disconnected)
    have htaken : step parseJson t (.emit .disconnected) =
        some { t with events, emitted := t.emitted ++ [(none, .disconnected)] } := by
      simp [step, emit, hsend]
    refine ⟨_, run.tail trivial htaken, hloops, hconns, heventLoop, hpending, ?_⟩
    rw [Channel.items_of_send hsend, List.length_append, List.length_singleton, hlength]
    omega

/-- The prekeys have arrived behind the notice of another peer, and the channel of events has filled. -/
theorem runtime_jams_reply :
    ∃ s l frame, Run (step replyJson) (fun _ _ => True) start s ∧ s.loops 0 = some l ∧
      l.inbound = [frame] ∧ isPrekeysReply replyJson frame = true ∧
      ∀ t, Run (step replyJson) (fun _ a => unaided a = true) s t →
        t.handled = s.handled ∧ ∃ l', t.loops 0 = some l' ∧ l'.taken = l.taken := by
  obtain ⟨s₀, l, hexec, hloop₀, hturn, hinbound, hconns₀, hwaiting₀, hslot₀, hempty⟩ : ∃ s₀ l,
      exec (step replyJson) (fun _ _ => True) start (requestRun ++
        [.arrive 0 ⟨2, 0, 0, [0x7B]⟩, .arrive 0 ⟨3, 0, 0, [0x7B, 1]⟩, .read 0 [] true]) = some s₀ ∧
      s₀.loops 0 = some l ∧ (∃ event, l.turn = .running [.emit event]) ∧
      l.inbound = [⟨3, 0, 0, [0x7B, 1]⟩] ∧ s₀.nextConn = 1 ∧ s₀.eventLoop = .waiting 0 ∧
      s₀.pending .getPrekeys = some 0 ∧ s₀.events.items = [] :=
    ⟨_, _, rfl, rfl, ⟨_, rfl⟩, rfl, rfl, rfl, rfl, rfl⟩
  obtain ⟨s, hfill, hloops, hconns, heventLoop, hpending, hlength⟩ :=
    exists_events_filled s₀ channelCapacity (by simp [hempty])
  have hreached := (Run.of_exec hexec).trans hfill
  have hloop : s.loops 0 = some l := by rw [hloops, hloop₀]
  obtain ⟨event, hevent⟩ := hturn
  have hjammed : l.Jammed := ⟨by simp [hevent], by simp [hevent], by simp [hevent]⟩
  have hjam : s.Jam := by
    refine ⟨by simp [Channel.Full, hlength, hempty], ?_⟩
    intro c l' hloop'
    have hknown := (exact_run hreached).known hloop'
    rw [hconns, hconns₀, Nat.lt_one_iff] at hknown
    subst hknown
    obtain rfl := Option.some.inj (hloop.symm.trans hloop')
    exact hjammed
  have hwaits : Waits 0 s := ⟨heventLoop.trans hwaiting₀, (congrFun hpending _).trans hslot₀⟩
  refine ⟨s, l, _, hreached, hloop, hinbound, rfl, fun t run => ?_⟩
  obtain ⟨-, hhandled, -, hstill⟩ := runtime_jams hreached hwaits hjam run
  obtain ⟨l', hloop', -, htaken, -⟩ := hstill 0 l hloop
  exact ⟨hhandled, l', hloop', htaken⟩

end Runtime

end Cypher.Client
