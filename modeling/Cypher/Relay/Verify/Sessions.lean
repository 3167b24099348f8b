import Cypher.Lib.Paired
import Cypher.Relay.Sessions

/-!
# Relay sessions in a run

What a step does to the sessions is said once (`step_cases`), and what it does to a single one is all
that an invariant of sessions has to know (`sessions_invariant`): the tasks send what `forward_loop`
sends on what they have read (`sent_eq_forwardLoop`).

Removing the entry of a session stops neither of its tasks. Nothing is delivered afterwards in the
runs in which nothing is read afterwards either (`nothing_late`).
-/

namespace Cypher.Relay

open Transport

namespace RelayService

variable {svc svc' : RelayService} {action : RelayAction}

inductive Step (svc : RelayService) : RelayAction → RelayService → Prop
  | connect {c : Nat} {key : String} (fresh : c ∉ svc.connected) :
      Step svc (.connect c key) (svc.connect c key)
  | settle {meeting : Meeting} (mem : meeting ∈ svc.meetings) :
      Step svc (.settle meeting) (svc.settle meeting)
  | read {s : Nat} {reader : Peer} {item : Option (Except String Frame)} {session : RelaySession}
      (hs : svc.relays s = some session) (htask : session.tasks reader = .reading) :
      Step svc (.read s reader item) (svc.setRelay s (session.readItem reader item))
  | send {s : Nat} {reader : Peer} {session : RelaySession} {frame : Frame}
      (hs : svc.relays s = some session) (htask : session.tasks reader = .sending frame) :
      Step svc (.send s reader) (svc.sendFrame s session reader frame)
  | tearDown {s : Nat} {reader : Peer} {session : RelaySession}
      (hs : svc.relays s = some session) (htask : session.tasks reader = .leaving) :
      Step svc (.tearDown s reader)
        ((svc.setRelay s (session.setTask reader .ended)).removeEntry session.key)
  | writerFails {c : Nat} : Step svc (.writerFails c) { svc with closed := c :: svc.closed }
  | elapse {seconds : Nat} : Step svc (.elapse seconds) { svc with now := svc.now + seconds }
  | wake (idle : svc.expiredKeys = []) (slept : svc.wokeAt + cleanupIntervalSecs ≤ svc.now) :
      Step svc .wake { svc with wokeAt := svc.now }
  | collect {key : String} {s : Nat} {session : RelaySession} (hkey : svc.sessions key = some s)
      (hs : svc.relays s = some session) (hexpired : svc.expired session) :
      Step svc (.collect key) { svc with expiredKeys := key :: svc.expiredKeys }
  | expire {key : String} (mem : key ∈ svc.expiredKeys) :
      Step svc (.expire key)
        ({ svc with expiredKeys := svc.expiredKeys.erase key }.removeEntry key)

theorem step_cases (taken : svc.step action = some svc') : Step svc action svc' := by
  cases action with
  | connect c key =>
    simp only [step] at taken
    split at taken
    · cases taken
    · next fresh =>
      cases taken
      exact .connect fresh
  | settle meeting =>
    simp only [step] at taken
    split at taken
    · next mem =>
      cases taken
      exact .settle mem
    · cases taken
  | read s reader item =>
    simp only [step] at taken
    split at taken
    · next session hs =>
      split at taken
      · next htask =>
        cases taken
        exact .read hs htask
      · cases taken
    · cases taken
  | send s reader =>
    simp only [step] at taken
    split at taken
    · next session hs =>
      split at taken
      · next frame htask =>
        cases taken
        exact .send hs htask
      · cases taken
    · cases taken
  | tearDown s reader =>
    simp only [step] at taken
    split at taken
    · next session hs =>
      split at taken
      · next htask =>
        cases taken
        exact .tearDown hs htask
      · cases taken
    · cases taken
  | writerFails c =>
    cases taken
    exact .writerFails
  | elapse seconds =>
    cases taken
    exact .elapse
  | wake =>
    simp only [step] at taken
    split at taken
    · next h =>
      cases taken
      exact .wake h.1 h.2
    · cases taken
  | collect key =>
    simp only [step] at taken
    split at taken
    · next session hsession =>
      split at taken
      · next hexpired =>
        cases taken
        obtain ⟨s, hkey, hs⟩ := Option.bind_eq_some_iff.mp hsession
        exact .collect hkey hs hexpired
      · cases taken
    · cases taken
  | expire key =>
    simp only [step] at taken
    split at taken
    · next mem =>
      cases taken
      exact .expire mem
    · cases taken

/-! ## What the operations leave alone -/

theorem connect_eq (svc : RelayService) (c : Nat) (key : String) :
    (svc.connect c key).relays = svc.relays ∧ (svc.connect c key).sessions = svc.sessions ∧
      (svc.connect c key).removed = svc.removed ∧
      (svc.connect c key).delivered = svc.delivered := by
  simp only [connect]
  split
  · exact ⟨rfl, rfl, rfl, rfl⟩
  · split <;> exact ⟨rfl, rfl, rfl, rfl⟩

theorem settle_eq (svc : RelayService) (meeting : Meeting) :
    ((svc.settle meeting).relays = svc.relays ∨
      ∃ partner, (svc.settle meeting).relays = Function.update svc.relays svc.count
        (some (.start meeting.key partner meeting.connection svc.now))) ∧
      (svc.settle meeting).removed = svc.removed ∧
      (svc.settle meeting).delivered = svc.delivered := by
  simp only [settle]
  split
  · next partner _ => exact ⟨.inr ⟨partner, rfl⟩, rfl, rfl⟩
  · exact ⟨.inl rfl, rfl, rfl⟩

theorem sendFrame_relays (svc : RelayService) (s : Nat) (session : RelaySession) (reader : Peer)
    (frame : Frame) : (svc.sendFrame s session reader frame).relays =
      Function.update svc.relays s (some (session.finishRound reader
        ⟨some (.ok frame), !svc.closed.contains (session.peers (writerOf reader))⟩)) := by
  simp only [sendFrame]
  split <;> rfl

theorem sendFrame_removed (svc : RelayService) (s : Nat) (session : RelaySession) (reader : Peer)
    (frame : Frame) : (svc.sendFrame s session reader frame).removed = svc.removed := by
  simp only [sendFrame]
  split <;> rfl

theorem mem_delivered_sendFrame {s : Nat} {session : RelaySession} {reader : Peer} {frame : Frame}
    {d : Delivery} (hd : d ∈ (svc.sendFrame s session reader frame).delivered) :
    d ∈ svc.delivered ∨
      handle frame = .data ∧ d = ⟨s, reader, frame, svc.removed.contains s⟩ := by
  simp only [sendFrame] at hd
  split at hd
  · next h =>
    rcases List.mem_cons.mp hd with hd | hd
    · exact .inr ⟨h.2, hd⟩
    · exact .inl hd
  · exact .inl hd

/-! ## Invariants of sessions -/

section Invariant

variable {I : RelaySession → Prop}

theorem of_update {relays : Nat → Option RelaySession} {s : Nat} {session : RelaySession}
    (hsession : I session) (h : ∀ t old, relays t = some old → I old) (t : Nat)
    (new : RelaySession) (hnew : Function.update relays s (some session) t = some new) : I new := by
  rcases Lib.of_insert hnew with ⟨-, rfl⟩ | hold
  · exact hsession
  · exact h t new hold

/-- What holds of a new session and is kept by its two tasks holds of every session of a run. -/
theorem sessions_invariant {ok : RelayService → RelayAction → Prop}
    (run : Lib.Run step ok start svc)
    (new : ∀ key peerA peerB createdAt, I (.start key peerA peerB createdAt))
    (read : ∀ {session : RelaySession} {reader}, session.tasks reader = .reading → I session →
      ∀ item, I (session.readItem reader item))
    (send : ∀ {session : RelaySession} {reader frame}, session.tasks reader = .sending frame →
      I session → ∀ writerOpen, I (session.finishRound reader ⟨some (.ok frame), writerOpen⟩))
    (leave : ∀ {session : RelaySession} {reader}, session.tasks reader = .leaving → I session →
      I (session.setTask reader .ended))
    {s : Nat} {session : RelaySession} (hs : svc.relays s = some session) : I session := by
  have hall : ∀ t old, svc.relays t = some old → I old := by
    refine run.invariant (I := fun svc => ∀ t old, svc.relays t = some old → I old) ?_ ?_
    · intro t old hold
      cases hold
    · intro v w action h _ taken
      cases step_cases taken with
      | connect =>
        rw [(connect_eq v _ _).1]
        exact h
      | settle =>
        obtain ⟨hrelays | ⟨partner, hrelays⟩, -, -⟩ := settle_eq v _
        · rw [hrelays]
          exact h
        · rw [hrelays]
          exact of_update (new _ _ _ _) h
      | read hs htask => exact of_update (read htask (h _ _ hs) _) h
      | send hs htask =>
        rw [sendFrame_relays]
        exact of_update (send htask (h _ _ hs) _) h
      | tearDown hs htask => exact of_update (leave htask (h _ _ hs)) h
      | writerFails => exact h
      | elapse => exact h
      | wake => exact h
      | collect => exact h
      | expire => exact h
  exact hall s session hs

end Invariant

end RelayService

/-! ## The tasks and `forward_loop` -/

theorem forwardLoop_append {rounds : List Round} (h : ∀ round ∈ rounds, (forwardRound round).2)
    (round : Round) : forwardLoop (rounds ++ [round]) = forwardLoop rounds ++ (forwardRound round).1 := by
  induction rounds with
  | nil =>
    have hsingle : forwardLoop [round] =
        (forwardRound round).1 ++ if (forwardRound round).2 then [] else [] := rfl
    rw [List.nil_append, hsingle, ite_self, List.append_nil]
    rfl
  | cons first rest ih =>
    obtain ⟨hfirst, hrest⟩ := List.forall_mem_cons.mp h
    rw [List.cons_append, forwardLoop, forwardLoop, if_pos hfirst, if_pos hfirst, ih hrest,
      List.append_assoc]

/-- A task has sent what `forward_loop` sends in its rounds, and goes on only if all of them did. -/
structure Follows (session : RelaySession) (reader : Peer) : Prop where
  sent : session.sent reader = forwardLoop (session.rounds reader)
  going : session.tasks reader ≠ .leaving → session.tasks reader ≠ .ended →
    ∀ round ∈ session.rounds reader, (forwardRound round).2

namespace Follows

variable {session : RelaySession} {reader : Peer}

theorem setTask (h : Follows session reader) {other : Peer} {task : Task}
    (hgoing : other = reader → task ≠ .leaving → task ≠ .ended →
      session.tasks reader ≠ .leaving ∧ session.tasks reader ≠ .ended) :
    Follows (session.setTask other task) reader := by
  refine ⟨h.sent, ?_⟩
  intro hleaving hended
  by_cases hsame : reader = other
  · subst hsame
    simp only [RelaySession.setTask, Function.update_self] at hleaving hended
    obtain ⟨hleaving, hended⟩ := hgoing rfl hleaving hended
    exact h.going hleaving hended
  · simp only [RelaySession.setTask, Function.update_of_ne hsame] at hleaving hended
    exact h.going hleaving hended

theorem finishRound (h : Follows session reader) {other : Peer}
    (htask : session.tasks other ≠ .leaving ∧ session.tasks other ≠ .ended) (round : Round) :
    Follows (session.finishRound other round) reader := by
  by_cases hsame : reader = other
  · subst hsame
    have hrounds := h.going htask.1 htask.2
    refine ⟨?_, ?_⟩
    · simp only [RelaySession.finishRound, Function.update_self]
      rw [forwardLoop_append hrounds, h.sent]
    · intro hleaving _
      simp only [RelaySession.finishRound, Function.update_self] at hleaving ⊢
      have hround : (forwardRound round).2 := by
        by_contra hstop
        exact hleaving (if_neg hstop)
      exact List.forall_mem_append.mpr ⟨hrounds, List.forall_mem_singleton.mpr hround⟩
  · refine ⟨?_, ?_⟩
    · simp only [RelaySession.finishRound, Function.update_of_ne hsame]
      exact h.sent
    · intro hleaving hended
      simp only [RelaySession.finishRound, Function.update_of_ne hsame] at hleaving hended ⊢
      exact h.going hleaving hended

theorem readItem (h : Follows session reader) {other : Peer}
    (htask : session.tasks other = .reading) (item : Option (Except String Frame)) :
    Follows (session.readItem other item) reader := by
  have hreading : session.tasks other ≠ .leaving ∧ session.tasks other ≠ .ended := by
    rw [htask]
    exact ⟨Task.noConfusion, Task.noConfusion⟩
  have hsending : ∀ frame, Follows (session.setTask other (.sending frame)) reader :=
    fun frame => h.setTask fun hsame _ _ => hsame ▸ hreading
  simp only [RelaySession.readItem]
  split
  · next frame =>
    split
    · exact hsending frame
    · exact ⟨(hsending frame).sent, (hsending frame).going⟩
    · exact h.finishRound hreading _
  · exact h.finishRound hreading _

end Follows

/-- **The tasks run `forward_loop`.** In every run, what the task of a peer has put on the other
peer's writer is what `forward_loop` sends in the rounds it has made. -/
theorem sent_eq_forwardLoop {svc : RelayService} {ok : RelayService → RelayAction → Prop}
    (run : Lib.Run RelayService.step ok .start svc) {s : Nat} {session : RelaySession}
    (hs : svc.relays s = some session) (reader : Peer) :
    session.sent reader = forwardLoop (session.rounds reader) := by
  have hfollows : Follows session reader := by
    refine RelayService.sessions_invariant (I := (Follows · reader)) run ?_ ?_ ?_ ?_ hs
    · intro key peerA peerB createdAt
      exact ⟨rfl, fun _ _ round hround => by cases hround⟩
    · intro session other htask h item
      exact h.readItem htask item
    · intro session other frame htask h writerOpen
      refine h.finishRound ?_ _
      rw [htask]
      exact ⟨Task.noConfusion, Task.noConfusion⟩
    · intro session other htask h
      exact h.setTask fun _ _ hended => absurd rfl hended
  exact hfollows.sent

/-! ## After the entry is gone -/

/-- The task has a frame in hand that it will pass on. -/
def Task.holdsData : Task → Bool
  | .sending frame => handle frame = .data
  | _ => false

namespace RelayService

/-- Neither task of the session has such a frame. -/
def Idle (svc : RelayService) (s : Nat) : Prop :=
  ∀ session ∈ svc.relays s,
    (session.tasks .a).holdsData = false ∧ (session.tasks .b).holdsData = false

instance (svc : RelayService) (s : Nat) : Decidable (svc.Idle s) :=
  inferInstanceAs (Decidable (∀ session ∈ svc.relays s, _))

/-- The session whose entry is under the key, if there is one, is idle. -/
def EntryIdle (svc : RelayService) (key : String) : Prop :=
  ∀ s ∈ svc.sessions key, svc.Idle s

instance (svc : RelayService) (key : String) : Decidable (svc.EntryIdle key) :=
  inferInstanceAs (Decidable (∀ s ∈ svc.sessions key, _))

/-- A session without an entry gets no frame to forward, and no entry is removed while its session
has one in hand. -/
def Quiet (svc : RelayService) : RelayAction → Prop
  | .read s _ (some (.ok frame)) => s ∈ svc.removed → handle frame ≠ .data
  | .tearDown s _ => ∀ session ∈ svc.relays s, svc.EntryIdle session.key
  | .expire key => svc.EntryIdle key
  | _ => True

instance (svc : RelayService) : (action : RelayAction) → Decidable (svc.Quiet action)
  | .connect _ _ => .isTrue trivial
  | .settle _ => .isTrue trivial
  | .read s _ (some (.ok frame)) =>
    inferInstanceAs (Decidable (s ∈ svc.removed → handle frame ≠ .data))
  | .read _ _ (some (.error _)) => .isTrue trivial
  | .read _ _ none => .isTrue trivial
  | .send _ _ => .isTrue trivial
  | .tearDown s _ => inferInstanceAs (Decidable (∀ session ∈ svc.relays s, _))
  | .writerFails _ => .isTrue trivial
  | .elapse _ => .isTrue trivial
  | .wake => .isTrue trivial
  | .collect _ => .isTrue trivial
  | .expire key => inferInstanceAs (Decidable (svc.EntryIdle key))

/-- No frame was delivered after its session had lost its entry. -/
def NothingLate (svc : RelayService) : Prop :=
  ∀ d ∈ svc.delivered, d.late = false

variable {svc : RelayService} {s t : Nat} {session : RelaySession}

theorem idle_iff (hs : svc.relays s = some session) :
    svc.Idle s ↔ ∀ reader, (session.tasks reader).holdsData = false := by
  constructor
  · intro h reader
    obtain ⟨ha, hb⟩ := h session hs
    cases reader with
    | a => exact ha
    | b => exact hb
  · intro h old hold
    rw [hs] at hold
    cases hold
    exact ⟨h .a, h .b⟩

theorem Idle.update {svc' : RelayService} (h : svc.Idle t) (hs : svc.relays s = some session)
    {new : RelaySession} {reader : Peer} {task : Task}
    (hrelays : svc'.relays = Function.update svc.relays s (some new))
    (htasks : new.tasks = Function.update session.tasks reader task)
    (htask : s = t → task.holdsData = false) : svc'.Idle t := by
  by_cases hts : s = t
  · subst hts
    have hnew : svc'.relays s = some new := by rw [hrelays, Function.update_self]
    rw [idle_iff hnew, htasks]
    intro other
    by_cases hsame : other = reader
    · subst hsame
      rw [Function.update_self]
      exact htask rfl
    · rw [Function.update_of_ne hsame]
      exact (idle_iff hs).mp h other
  · have hold : svc'.relays t = svc.relays t := by
      rw [hrelays, Function.update_of_ne (Ne.symm hts)]
    rw [Idle, hold]
    exact h

theorem holdsData_finishRound (round : Round) :
    (if (forwardRound round).2 then Task.reading else Task.leaving).holdsData = false := by
  split <;> rfl

theorem readItem_tasks (session : RelaySession) (reader : Peer)
    (item : Option (Except String Frame)) :
    ∃ task, (session.readItem reader item).tasks = Function.update session.tasks reader task ∧
      (task.holdsData = false ∨ ∃ frame, item = some (.ok frame) ∧ handle frame = .data) := by
  simp only [RelaySession.readItem]
  split
  · next frame =>
    split
    · next reply hpong =>
      refine ⟨.sending frame, rfl, .inl ?_⟩
      rw [Task.holdsData, hpong]
      rfl
    · next hdata => exact ⟨.sending frame, rfl, .inr ⟨frame, rfl, hdata⟩⟩
    · exact ⟨_, rfl, .inl (holdsData_finishRound _)⟩
  · exact ⟨_, rfl, .inl (holdsData_finishRound _)⟩

/-- The sessions that have lost their entry are idle, and nothing was delivered late. -/
structure Stopped (svc : RelayService) : Prop where
  idle : ∀ s ∈ svc.removed, svc.Idle s
  nothingLate : svc.NothingLate

namespace Stopped

theorem start : Stopped .start where
  idle s hs := by cases hs
  nothingLate d hd := by cases hd

theorem of_eq (h : Stopped svc) {svc' : RelayService} (hrelays : svc'.relays = svc.relays)
    (hremoved : svc'.removed = svc.removed) (hdelivered : svc'.delivered = svc.delivered) :
    Stopped svc' := by
  refine ⟨?_, ?_⟩
  · intro s hs
    rw [hremoved] at hs
    rw [Idle, hrelays]
    exact h.idle s hs
  · rw [NothingLate, hdelivered]
    exact h.nothingLate

theorem removeEntry (h : Stopped svc) {key : String} (hidle : svc.EntryIdle key) :
    Stopped (svc.removeEntry key) := by
  refine ⟨?_, h.nothingLate⟩
  intro s hs
  rcases List.mem_append.mp hs with hs | hs
  · exact hidle s (Option.mem_toList.mp hs)
  · exact h.idle s hs

theorem step {svc' : RelayService} {action : RelayAction} (h : Stopped svc)
    (guard : svc.Quiet action) (taken : svc.step action = some svc') : Stopped svc' := by
  cases step_cases taken with
  | connect =>
    obtain ⟨hrelays, -, hremoved, hdelivered⟩ := connect_eq svc _ _
    exact h.of_eq hrelays hremoved hdelivered
  | @settle meeting _ =>
    obtain ⟨hrelays | ⟨partner, hrelays⟩, hremoved, hdelivered⟩ := settle_eq svc meeting
    · exact h.of_eq hrelays hremoved hdelivered
    · refine ⟨?_, ?_⟩
      · intro s hs session hsession
        rw [hremoved] at hs
        rw [hrelays] at hsession
        rcases Lib.of_insert hsession with ⟨-, rfl⟩ | hold
        · exact ⟨rfl, rfl⟩
        · exact h.idle s hs session hold
      · rw [NothingLate, hdelivered]
        exact h.nothingLate
  | @read s reader item session hs htask =>
    refine ⟨?_, h.nothingLate⟩
    intro t ht
    obtain ⟨task, htasks, hquiet⟩ := readItem_tasks session reader item
    refine (h.idle t ht).update hs rfl htasks ?_
    rintro rfl
    rcases hquiet with hquiet | ⟨frame, rfl, hdata⟩
    · exact hquiet
    · exact absurd hdata (guard ht)
  | @send s reader session frame hs htask =>
    refine ⟨?_, ?_⟩
    · intro t ht
      rw [sendFrame_removed] at ht
      exact (h.idle t ht).update hs (sendFrame_relays ..) rfl fun _ => holdsData_finishRound _
    · intro d hd
      rcases mem_delivered_sendFrame hd with hd | ⟨hdata, rfl⟩
      · exact h.nothingLate d hd
      · -- a session that has lost its entry has no frame in hand
        rw [List.contains_eq_mem, decide_eq_false_iff_not]
        intro hremoved
        have hidle := (idle_iff hs).mp (h.idle s hremoved) reader
        rw [htask, Task.holdsData, hdata] at hidle
        cases hidle
  | @tearDown s reader session hs htask =>
    have hset : ∀ t, svc.Idle t → (svc.setRelay s (session.setTask reader .ended)).Idle t :=
      fun t ht => ht.update hs rfl rfl fun _ => rfl
    refine removeEntry ⟨fun t ht => hset t (h.idle t ht), h.nothingLate⟩ ?_
    intro t ht
    exact hset t (guard session hs t ht)
  | writerFails => exact h.of_eq rfl rfl rfl
  | elapse => exact h.of_eq rfl rfl rfl
  | wake => exact h.of_eq rfl rfl rfl
  | collect => exact h.of_eq rfl rfl rfl
  | @expire key _ =>
    have herased : Stopped { svc with expiredKeys := svc.expiredKeys.erase key } :=
      h.of_eq rfl rfl rfl
    exact herased.removeEntry guard

end Stopped

/-- **Nothing is forwarded after the entry is gone**, in every run in which no session without an
entry reads a frame to forward and no session loses its entry while it has one in hand. -/
theorem nothing_late (svc : RelayService) (run : Lib.Run step Quiet .start svc) : NothingLate svc :=
  (run.invariant Stopped.start fun h guard taken => h.step guard taken).nothingLate

/-- A frame is forwarded, and then one peer closes the session. -/
theorem nothing_late_closed :
    ∃ svc, Lib.Run step Quiet .start svc ∧ svc.removed = [0] ∧
      svc.delivered = [⟨0, .a, ⟨1, 0, 0, [5]⟩, false⟩] ∧ NothingLate svc := by
  have hexec : (Lib.exec step Quiet .start [.connect 0 "k", .settle ⟨"k", 0, none⟩, .connect 1 "k",
      .settle ⟨"k", 1, some 0⟩, .read 0 .a (some (.ok ⟨1, 0, 0, [5]⟩)), .send 0 .a,
      .read 0 .a (some (.ok ⟨2, 0, FrameFlags.sessionClose, []⟩)), .tearDown 0 .a]).map
      (fun svc => (svc.removed, svc.delivered)) =
        some ([0], [⟨0, .a, ⟨1, 0, 0, [5]⟩, false⟩]) := by decide +kernel
  obtain ⟨svc, hsvc, hvalues⟩ := Option.map_eq_some_iff.mp hexec
  obtain ⟨hremoved, hdelivered⟩ := Prod.mk.inj hvalues
  exact ⟨svc, .of_exec hsvc, hremoved, hdelivered, nothing_late svc (.of_exec hsvc)⟩

/-- After an hour the cleanup removes the entry, and the session goes on: a frame that is read from
`peer_a` then reaches `peer_b`. -/
theorem forwards_after_expiry :
    ∃ before after, Lib.Run step (fun _ _ => True) .start before ∧ before.removed = [0] ∧
      before.delivered = [] ∧ before.Idle 0 ∧ Lib.Run step (fun _ _ => True) before after ∧
      after.delivered = [⟨0, .a, ⟨1, 0, 0, [5]⟩, true⟩] ∧ ¬ NothingLate after := by
  have hexec : (Lib.exec step (fun _ _ => True) .start [.connect 0 "k", .settle ⟨"k", 0, none⟩,
      .connect 1 "k", .settle ⟨"k", 1, some 0⟩, .elapse 3601, .wake, .collect "k",
      .expire "k"]).map
      (fun svc => (svc.removed, svc.delivered, decide (svc.Idle 0),
        (Lib.exec step (fun _ _ => True) svc
          [.read 0 .a (some (.ok ⟨1, 0, 0, [5]⟩)), .send 0 .a]).map (·.delivered))) =
        some ([0], [], true, some [⟨0, .a, ⟨1, 0, 0, [5]⟩, true⟩]) := by decide +kernel
  obtain ⟨before, hbefore, hvalues⟩ := Option.map_eq_some_iff.mp hexec
  obtain ⟨hremoved, hvalues⟩ := Prod.mk.inj hvalues
  obtain ⟨hnone, hvalues⟩ := Prod.mk.inj hvalues
  obtain ⟨hidle, hlater⟩ := Prod.mk.inj hvalues
  obtain ⟨after, hafter, hdelivered⟩ := Option.map_eq_some_iff.mp hlater
  refine ⟨before, after, .of_exec hbefore, hremoved, hnone, of_decide_eq_true hidle,
    .of_exec hafter, hdelivered, ?_⟩
  intro h
  have hlate := h ⟨0, .a, ⟨1, 0, 0, [5]⟩, true⟩ (by rw [hdelivered]; exact List.mem_cons_self)
  cases hlate

end RelayService

end Cypher.Relay
