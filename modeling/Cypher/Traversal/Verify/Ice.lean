import Cypher.Traversal.Ice

/-!
# Runs of the connectivity checks

* `punch_ok_round_trip`: a check that succeeds with the address of another client has had a round trip
  with the socket behind it, whatever the network loses, repeats or delays.
* `punch_one_sided`: the handshake does not end on both sides. A client that is done answers no more,
  and if it has not answered by then, the other side cannot succeed.
* `check_tries_arrivals`: what a check tries, in which order and for how long.

Addresses are seen from a socket: `view σ x` is the socket that `σ` reaches, and hears, under the
address `x`. The sockets of the clients are `ours`; any other host may send anything from its own
address.
-/

namespace Cypher.Traversal.Peers

open Lib

variable {Addr Socket Peer : Type} [DecidableEq Peer]
  {parse : Bytes → Option Addr} {view : Socket → Addr → Option Socket} {ours : Socket → Prop}
  {s t : Peers Addr Socket Peer} {a : IceAction Addr Socket Peer}

/-! ## What a step does -/

/-- The candidate that an action hands to the agent of a client. -/
def arrival (parse : Bytes → Option Addr) (p : Peer) :
    IceAction Addr Socket Peer → Option (Candidate Addr)
  | .addRemote q candidate => if q = p then some candidate else none
  | .signal q text => if q = p then (parse text).map Candidate.serverReflexive else none
  | _ => none

/-- An action that brings no agent and no candidate. -/
def Quiet (parse : Bytes → Option Addr) (b : IceAction Addr Socket Peer) : Prop :=
  (∀ p, arrival parse p b = none) ∧
    ∀ p socket localAddr srflx, b ≠ .gather p socket localAddr srflx

inductive Moves (parse : Bytes → Option Addr) (s : Peers Addr Socket Peer) :
    IceAction Addr Socket Peer → Peers Addr Socket Peer → Prop
  | gathered {p socket localAddr srflx} (idle : (s.clients p).check = none)
      (fresh : socket ∉ s.bound) :
      Moves parse s (.gather p socket localAddr srflx)
        { s.set p { s.clients p with
            agent := some ((IceAgent.new socket localAddr).gatherCandidates srflx) } with
          bound := s.bound ++ [socket] }
  | added {b p candidate} (idle : (s.clients p).check = none)
      (arrives : arrival parse p b = some candidate) (other : ∀ q, q ≠ p → arrival parse q b = none) :
      Moves parse s b (s.set p { s.clients p with
        agent := (s.clients p).agent.map (·.addRemoteCandidate candidate) })
  | unchanged {b} (quiet : Quiet parse b) : Moves parse s b s
  | began {p agent} (idle : (s.clients p).check = none) (stored : (s.clients p).agent = some agent) :
      Moves parse s (.tryP2pConnect p) (s.set p ((s.clients p).proceed agent s.now s.now []
        (sortCandidates agent.remoteCandidates)))
  | probed {p agent check sent} (busy : s.running p = some (agent, check))
      (due : check.punch.nextTick ≤ s.now) (early : s.now < check.punch.deadline) :
      Moves parse s (.tick p sent) (s.probe p agent check sent)
  | succeeded {p agent check data answered} (busy : s.running p = some (agent, check))
      (ack : data.take bufLen = punchAckMagic) :
      Moves parse s (.receive p check.punch.remoteAddr data answered)
        (s.set p ((s.clients p).finish agent check.startedAt s.now check.failed
          (.ok (agent.localAddr, check.punch.remoteAddr))))
  | answered {p agent check data} (busy : s.running p = some (agent, check))
      (punch : data.take bufLen = punchMagic) :
      Moves parse s (.receive p check.punch.remoteAddr data true)
        { s with sent := s.sent ++ [(agent.socket, check.punch.remoteAddr, punchAckMagic)] }
  | failed {b p agent check err} (busy : s.running p = some (agent, check))
      (late : err = .timeout → check.punch.deadline ≤ s.now)
      (quiet : Quiet parse b) :
      Moves parse s b (s.set p ((s.clients p).punchFailed agent check s.now err))
  | cancelled {p} : Moves parse s (.cancel p) (s.set p { s.clients p with check := none })
  | elapsed {ms} : Moves parse s (.elapse ms) { s with now := s.now + ms }

theorem moves_addRemoteCandidate {p : Peer} {candidate : Candidate Addr}
    (h : s.addRemoteCandidate p candidate = some t) (arrives : arrival parse p a = some candidate)
    (other : ∀ q, q ≠ p → arrival parse q a = none) : Moves parse s a t := by
  simp only [addRemoteCandidate] at h
  split at h
  · cases h
  · next idle =>
    cases h
    exact .added idle arrives other

theorem moves_receive [DecidableEq Addr] {p : Peer} {agent : IceAgent Addr Socket} {check : Check Addr}
    (busy : s.running p = some (agent, check)) (source : Addr) (data : Bytes) (answered : Bool) :
    Moves parse s (.receive p source data answered)
      (s.receive p agent check source data answered) := by
  simp only [receive]
  split
  · exact .unchanged ⟨fun _ => rfl, nofun⟩
  · next hsource =>
    rw [not_not] at hsource
    subst hsource
    split
    · next ack => exact .succeeded busy ack
    · split
      · next punch =>
        cases answered with
        | true => exact .answered busy punch
        | false => exact .unchanged ⟨fun _ => rfl, nofun⟩
      · exact .unchanged ⟨fun _ => rfl, nofun⟩

theorem moves_of_step [DecidableEq Addr] [DecidableEq Socket] (h : step parse s a = some t) :
    Moves parse s a t := by
  cases a with
  | gather p socket localAddr srflx =>
    simp only [step] at h
    split at h
    · cases h
    · next idle =>
      split at h
      · cases h
      · next fresh =>
        cases h
        exact .gathered idle fresh
  | addRemote p candidate =>
    exact moves_addRemoteCandidate h (if_pos rfl) fun q hq => if_neg (Ne.symm hq)
  | signal p text =>
    simp only [step] at h
    split at h
    · next addr hparse =>
      refine moves_addRemoteCandidate h ?_ fun q hq => if_neg (Ne.symm hq)
      rw [arrival, if_pos rfl, hparse]
      rfl
    · next hparse =>
      cases h
      refine .unchanged ⟨fun q => ?_, nofun⟩
      rw [arrival, hparse]
      exact ite_self _
  | tryP2pConnect p =>
    simp only [step] at h
    split at h
    · cases h
    · cases h
      exact .unchanged ⟨fun _ => rfl, nofun⟩
    · next agent idle stored =>
      cases h
      exact .began idle stored
  | tick p sent =>
    obtain ⟨⟨agent, check⟩, busy, h⟩ := Option.bind_eq_some_iff.mp h
    simp only at h
    split at h
    · cases h
    · next due =>
      split at h
      · next late =>
        cases h
        exact .failed busy (fun _ => late) ⟨fun _ => rfl, nofun⟩
      · next early =>
        cases h
        exact .probed busy (Nat.le_of_not_lt due) (Nat.lt_of_not_le early)
  | receive p source data answered =>
    obtain ⟨⟨agent, check⟩, busy, h⟩ := Option.bind_eq_some_iff.mp h
    cases h
    exact moves_receive busy source data answered
  | receiveFailed p msg =>
    obtain ⟨⟨agent, check⟩, busy, h⟩ := Option.bind_eq_some_iff.mp h
    cases h
    exact .failed busy nofun ⟨fun _ => rfl, nofun⟩
  | deadline p =>
    obtain ⟨⟨agent, check⟩, busy, h⟩ := Option.bind_eq_some_iff.mp h
    simp only at h
    split at h
    · next late =>
      cases h
      exact .failed busy (fun _ => late) ⟨fun _ => rfl, nofun⟩
    · cases h
  | cancel p =>
    obtain ⟨_, busy, h⟩ := Option.bind_eq_some_iff.mp h
    cases h
    exact .cancelled
  | elapse ms =>
    cases h
    exact .elapsed

/-! ### What is sent -/

inductive Sends (s : Peers Addr Socket Peer) : IceAction Addr Socket Peer →
    Socket × Addr × Bytes → Prop
  | punch {p agent check sent} (busy : s.running p = some (agent, check)) :
      Sends s (.tick p sent) (agent.socket, check.punch.remoteAddr, punchMagic)
  | ack {p agent check data answered} (busy : s.running p = some (agent, check))
      (punch : data.take bufLen = punchMagic) :
      Sends s (.receive p check.punch.remoteAddr data answered)
        (agent.socket, check.punch.remoteAddr, punchAckMagic)

theorem sent_moves (h : Moves parse s a t) :
    t.sent = s.sent ∨ ∃ d, Sends s a d ∧ t.sent = s.sent ++ [d] := by
  cases h with
  | @probed p agent check sent busy due early =>
    cases sent with
    | true => exact Or.inr ⟨_, .punch busy, rfl⟩
    | false => exact Or.inl rfl
  | answered busy punch => exact Or.inr ⟨_, .ack busy punch, rfl⟩
  | _ => exact Or.inl rfl

theorem mem_sent_moves (h : Moves parse s a t) {d : Socket × Addr × Bytes} :
    d ∈ t.sent → d ∈ s.sent ∨ Sends s a d := by
  intro hd
  rcases sent_moves h with heq | ⟨d', hsends, heq⟩
  · exact Or.inl (heq ▸ hd)
  · rw [heq, List.mem_append, List.mem_singleton] at hd
    rcases hd with hd | rfl
    · exact Or.inl hd
    · exact Or.inr hsends

theorem sent_subset_moves (h : Moves parse s a t) : s.sent ⊆ t.sent := by
  rcases sent_moves h with heq | ⟨d', -, heq⟩
  · rw [heq]
    exact List.Subset.refl _
  · rw [heq]
    exact List.subset_append_left _ _

/-! ### What becomes of a client -/

omit [DecidableEq Peer] in
theorem running_eq_some {p : Peer} {agent : IceAgent Addr Socket} {check : Check Addr} :
    s.running p = some (agent, check) ↔
      (s.clients p).agent = some agent ∧ (s.clients p).check = some check := by
  simp only [running]
  split
  · next agent' check' hagent hcheck =>
    rw [hagent, hcheck]
    simp
  · next hnot =>
    constructor
    · exact nofun
    · rintro ⟨hagent, hcheck⟩
      exact absurd hcheck (hnot agent check hagent)

/-- A step as one client sees it. -/
inductive Turns (parse : Bytes → Option Addr) (s : Peers Addr Socket Peer) (p : Peer) :
    IceAction Addr Socket Peer → Client Addr Socket → Prop
  | same {b} (none : arrival parse p b = none) : Turns parse s p b (s.clients p)
  | gathered {socket localAddr srflx} (idle : (s.clients p).check = none)
      (fresh : socket ∉ s.bound) :
      Turns parse s p (.gather p socket localAddr srflx) { s.clients p with
        agent := some ((IceAgent.new socket localAddr).gatherCandidates srflx) }
  | added {b candidate} (idle : (s.clients p).check = none)
      (arrives : arrival parse p b = some candidate) :
      Turns parse s p b { s.clients p with
        agent := (s.clients p).agent.map (·.addRemoteCandidate candidate) }
  | began {agent} (stored : (s.clients p).agent = some agent) :
      Turns parse s p (.tryP2pConnect p) ((s.clients p).proceed agent s.now s.now []
        (sortCandidates agent.remoteCandidates))
  | ticked {check sent} (busy : (s.clients p).check = some check) :
      Turns parse s p (.tick p sent) { s.clients p with
        check := some { check with punch := check.punch.ticked s.now } }
  | succeeded {agent check data answered} (busy : s.running p = some (agent, check))
      (ack : data.take bufLen = punchAckMagic) :
      Turns parse s p (.receive p check.punch.remoteAddr data answered)
        ((s.clients p).finish agent check.startedAt s.now check.failed
          (.ok (agent.localAddr, check.punch.remoteAddr)))
  | failed {b agent check err} (busy : s.running p = some (agent, check))
      (late : err = .timeout → check.punch.deadline ≤ s.now)
      (none : arrival parse p b = none) :
      Turns parse s p b ((s.clients p).punchFailed agent check s.now err)
  | cancelled : Turns parse s p (.cancel p) { s.clients p with check := none }

theorem turns_set {p q : Peer} {client : Client Addr Socket} (hother : p ≠ q → arrival parse p a = none)
    (hself : p = q → Turns parse s p a client) :
    Turns parse s p a ((s.set q client).clients p) := by
  by_cases hp : p = q
  · subst hp
    have : (s.set p client).clients p = client := Function.update_self _ _ _
    rw [this]
    exact hself rfl
  · have : (s.set q client).clients p = s.clients p := Function.update_of_ne hp _ _
    rw [this]
    exact .same (hother hp)

theorem Moves.turns (h : Moves parse s a t) (p : Peer) : Turns parse s p a (t.clients p) := by
  cases h with
  | gathered idle fresh =>
    refine turns_set (fun _ => rfl) ?_
    rintro rfl
    exact .gathered idle fresh
  | added idle arrives other =>
    refine turns_set (other p) ?_
    rintro rfl
    exact .added idle arrives
  | unchanged quiet => exact .same (quiet.1 p)
  | began idle stored =>
    refine turns_set (fun _ => rfl) ?_
    rintro rfl
    exact .began stored
  | @probed q agent check sent busy due early =>
    have hclients : (s.probe q agent check sent).clients = (s.set q { s.clients q with
        check := some { check with punch := check.punch.ticked s.now } }).clients := by
      cases sent <;> rfl
    rw [hclients]
    refine turns_set (fun _ => rfl) ?_
    rintro rfl
    exact .ticked (running_eq_some.mp busy).2
  | succeeded busy ack =>
    refine turns_set (fun _ => rfl) ?_
    rintro rfl
    exact .succeeded busy ack
  | answered busy punch => exact .same rfl
  | failed busy late quiet =>
    refine turns_set (fun _ => quiet.1 p) ?_
    rintro rfl
    exact .failed busy late (quiet.1 p)
  | cancelled =>
    refine turns_set (fun _ => rfl) ?_
    rintro rfl
    exact .cancelled
  | elapsed => exact .same rfl

inductive Returns (s : Peers Addr Socket Peer) (p : Peer) :
    IceAction Addr Socket Peer → Outcome Addr Socket → Prop
  | ok {agent check data answered} (busy : s.running p = some (agent, check))
      (ack : data.take bufLen = punchAckMagic) :
      Returns s p (.receive p check.punch.remoteAddr data answered)
        ⟨agent.socket, agent.remoteCandidates, check.startedAt, s.now, check.failed,
          .ok (agent.localAddr, check.punch.remoteAddr)⟩
  | exhausted {b agent check err} (busy : s.running p = some (agent, check)) (last : check.rest = [])
      (late : err = .timeout → check.punch.deadline ≤ s.now) :
      Returns s p b ⟨agent.socket, agent.remoteCandidates, check.startedAt, s.now,
        check.failed ++ [(check.punch.remoteAddr, err)], .error Client.allFailed⟩
  | nothing {agent} (stored : (s.clients p).agent = some agent)
      (empty : sortCandidates agent.remoteCandidates = []) :
      Returns s p (.tryP2pConnect p) ⟨agent.socket, agent.remoteCandidates, s.now, s.now, [],
        .error Client.allFailed⟩

omit [DecidableEq Peer] in
theorem mem_outcomes_proceed {client : Client Addr Socket} {agent : IceAgent Addr Socket}
    {startedAt now : Nat} {failed : List (Addr × Error)} {rest : List (Candidate Addr)}
    {o : Outcome Addr Socket} (ho : o ∈ (client.proceed agent startedAt now failed rest).outcomes) :
    o ∈ client.outcomes ∨ (rest = [] ∧
      o = ⟨agent.socket, agent.remoteCandidates, startedAt, now, failed,
        .error Client.allFailed⟩) := by
  cases rest with
  | nil =>
    rcases List.mem_append.mp ho with ho | ho
    · exact Or.inl ho
    · exact Or.inr ⟨rfl, List.mem_singleton.mp ho⟩
  | cons candidate rest => exact Or.inl ho

theorem Turns.mem_outcomes {p : Peer} {client : Client Addr Socket} (h : Turns parse s p a client)
    {o : Outcome Addr Socket} (ho : o ∈ client.outcomes) :
    o ∈ (s.clients p).outcomes ∨ Returns s p a o := by
  cases h with
  | same | gathered | added | ticked | cancelled => exact Or.inl ho
  | began stored =>
    rcases mem_outcomes_proceed ho with ho | ⟨hempty, rfl⟩
    · exact Or.inl ho
    · exact Or.inr (.nothing stored hempty)
  | succeeded busy ack =>
    rcases List.mem_append.mp ho with ho | ho
    · exact Or.inl ho
    · rw [List.mem_singleton.mp ho]
      exact Or.inr (.ok busy ack)
  | failed busy late none =>
    rcases mem_outcomes_proceed ho with ho | ⟨hlast, rfl⟩
    · exact Or.inl ho
    · exact Or.inr (.exhausted busy hlast late)

omit [DecidableEq Peer] in
theorem agent_proceed (client : Client Addr Socket) (agent : IceAgent Addr Socket)
    (startedAt now : Nat) (failed : List (Addr × Error)) (rest : List (Candidate Addr)) :
    (client.proceed agent startedAt now failed rest).agent = client.agent := by
  cases rest <;> rfl

theorem Turns.agent {p : Peer} {client : Client Addr Socket} (h : Turns parse s p a client)
    {agent : IceAgent Addr Socket} (hagent : client.agent = some agent) :
    (∃ agent', (s.clients p).agent = some agent' ∧ agent.socket = agent'.socket ∧
      agent.remoteCandidates = agent'.remoteCandidates ++ (arrival parse p a).toList) ∨
    (∃ localAddr srflx, a = .gather p agent.socket localAddr srflx ∧ agent.socket ∉ s.bound ∧
      agent.remoteCandidates = []) := by
  have hkept : arrival parse p a = none → (s.clients p).agent = some agent →
      ∃ agent', (s.clients p).agent = some agent' ∧ agent.socket = agent'.socket ∧
        agent.remoteCandidates = agent'.remoteCandidates ++ (arrival parse p a).toList := by
    intro hnone hagent
    exact ⟨agent, hagent, rfl, by rw [hnone]; exact (List.append_nil _).symm⟩
  cases h with
  | same none => exact Or.inl (hkept none hagent)
  | gathered idle fresh =>
    cases hagent
    exact Or.inr ⟨_, _, rfl, fresh, rfl⟩
  | added idle arrives =>
    obtain ⟨agent', hagent', rfl⟩ := Option.map_eq_some_iff.mp hagent
    exact Or.inl ⟨agent', hagent', rfl, by rw [arrives]; rfl⟩
  | began stored => exact Or.inl (hkept rfl ((agent_proceed ..).symm.trans hagent))
  | ticked | succeeded | cancelled => exact Or.inl (hkept rfl hagent)
  | failed busy late none => exact Or.inl (hkept none ((agent_proceed ..).symm.trans hagent))

omit [DecidableEq Peer] in
theorem check_proceed {client : Client Addr Socket} {agent : IceAgent Addr Socket}
    {startedAt now : Nat} {failed : List (Addr × Error)} {rest : List (Candidate Addr)}
    {check : Check Addr} (h : (client.proceed agent startedAt now failed rest).check = some check) :
    ∃ candidate later, rest = candidate :: later ∧
      check = ⟨startedAt, failed, Punch.start candidate.addr now, later⟩ := by
  cases rest with
  | nil => cases h
  | cons candidate later => exact ⟨candidate, later, rfl, (Option.some.inj h).symm⟩

/-- The check that a client is in after a step. -/
inductive Checking (s : Peers Addr Socket Peer) (p : Peer) :
    IceAction Addr Socket Peer → IceAgent Addr Socket → Check Addr → Prop
  | kept {b agent check} (busy : s.running p = some (agent, check)) : Checking s p b agent check
  | ticked {b agent check} (busy : s.running p = some (agent, check)) :
      Checking s p b agent { check with punch := check.punch.ticked s.now }
  | next {b agent check err candidate later} (busy : s.running p = some (agent, check))
      (late : err = .timeout → check.punch.deadline ≤ s.now) (more : check.rest = candidate :: later) :
      Checking s p b agent ⟨check.startedAt, check.failed ++ [(check.punch.remoteAddr, err)],
        Punch.start candidate.addr s.now, later⟩
  | began {agent candidate later} (stored : (s.clients p).agent = some agent)
      (first : sortCandidates agent.remoteCandidates = candidate :: later) :
      Checking s p (.tryP2pConnect p) agent
        ⟨s.now, [], Punch.start candidate.addr s.now, later⟩

theorem Turns.checking {p : Peer} {client : Client Addr Socket} (h : Turns parse s p a client)
    {agent : IceAgent Addr Socket} {check : Check Addr} (hagent : client.agent = some agent)
    (hcheck : client.check = some check) : Checking s p a agent check := by
  cases h with
  | same none => exact .kept (running_eq_some.mpr ⟨hagent, hcheck⟩)
  | gathered idle fresh => cases idle.symm.trans hcheck
  | added idle arrives => cases idle.symm.trans hcheck
  | began stored =>
    rw [agent_proceed, stored] at hagent
    obtain rfl := Option.some.inj hagent
    obtain ⟨candidate, later, hfirst, rfl⟩ := check_proceed hcheck
    exact .began stored hfirst
  | ticked busy =>
    obtain rfl := Option.some.inj hcheck
    exact .ticked (running_eq_some.mpr ⟨hagent, busy⟩)
  | succeeded busy ack => cases hcheck
  | failed busy late none =>
    rw [Client.punchFailed, agent_proceed, (running_eq_some.mp busy).1] at hagent
    obtain rfl := Option.some.inj hagent
    obtain ⟨candidate, later, hmore, rfl⟩ := check_proceed hcheck
    exact .next busy late hmore
  | cancelled => cases hcheck

theorem bound_moves (h : Moves parse s a t) : s.bound ⊆ t.bound := by
  cases h with
  | gathered idle fresh => exact List.subset_append_left _ _
  | @probed q agent check sent busy due early => cases sent <;> exact List.Subset.refl _
  | _ => exact List.Subset.refl _

theorem bound_gather {p : Peer} {socket : Socket} {localAddr : Addr} {srflx : Result Addr}
    (h : Moves parse s (.gather p socket localAddr srflx) t) : socket ∈ t.bound := by
  cases h with
  | gathered idle fresh => exact List.mem_append_right _ (List.mem_singleton_self _)
  | added idle arrives other => cases arrives
  | unchanged quiet => exact absurd rfl (quiet.2 _ _ _ _)
  | failed busy late quiet => exact absurd rfl (quiet.2 _ _ _ _)

/-! ## Success is a round trip -/

/-- Source addresses are genuine: a datagram of the handshake that arrives from the address of a client
was sent by that client. -/
def Unspoofed (view : Socket → Addr → Option Socket) (ours : Socket → Prop)
    (s : Peers Addr Socket Peer) : IceAction Addr Socket Peer → Prop
  | .receive p source data _ => ∀ agent check g, s.running p = some (agent, check) →
      view agent.socket source = some g → ours g →
      data.take bufLen = punchMagic ∨ data.take bufLen = punchAckMagic →
      ∃ dest, view g dest = some agent.socket ∧ (g, dest, data.take bufLen) ∈ s.sent
  | _ => True

def isReceive : IceAction Addr Socket Peer → Bool
  | .receive _ _ _ _ => true
  | _ => false

omit [DecidableEq Peer] in
theorem unspoofed_of_not_receive (h : isReceive a = false) : Unspoofed view ours s a := by
  cases a with
  | receive => cases h
  | _ => trivial

/-- `σ` has sent a punch that has reached `g`, and `g` an answer that has reached `σ`. -/
def RoundTrip (view : Socket → Addr → Option Socket) (sent : List (Socket × Addr × Bytes))
    (σ g : Socket) : Prop :=
  ∃ there back, (view σ there = some g ∧ (σ, there, punchMagic) ∈ sent) ∧
    (view g back = some σ ∧ (g, back, punchAckMagic) ∈ sent)

structure Traced (view : Socket → Addr → Option Socket) (ours : Socket → Prop)
    (s : Peers Addr Socket Peer) : Prop where
  acks : ∀ g back σ, (g, back, punchAckMagic) ∈ s.sent → view g back = some σ → ours σ →
    ∃ there, view σ there = some g ∧ (σ, there, punchMagic) ∈ s.sent
  oks : ∀ p, ∀ o ∈ (s.clients p).outcomes, ∀ here remote g, o.result = .ok (here, remote) →
    view o.socket remote = some g → ours o.socket → ours g → RoundTrip view s.sent o.socket g

omit [DecidableEq Peer] in
theorem traced_start : Traced view ours (start : Peers Addr Socket Peer) where
  acks := (fun _ _ _ h => nomatch h)
  oks := (fun _ _ h => nomatch h)

omit [DecidableEq Peer] in
theorem RoundTrip.mono {sent sent' : List (Socket × Addr × Bytes)} {σ g : Socket}
    (hsub : sent ⊆ sent') : RoundTrip view sent σ g → RoundTrip view sent' σ g := by
  rintro ⟨there, back, ⟨hthere, hpunch⟩, hback, hack⟩
  exact ⟨there, back, ⟨hthere, hsub hpunch⟩, hback, hsub hack⟩

theorem Traced.moves (h : Traced view ours s) (unspoofed : Unspoofed view ours s a)
    (hmove : Moves parse s a t) : Traced view ours t := by
  have hsub := sent_subset_moves hmove
  constructor
  · intro g back σ hack hσ hours
    rcases mem_sent_moves hmove hack with hold | hnew
    · obtain ⟨there, hg, hpunch⟩ := h.acks g back σ hold hσ hours
      exact ⟨there, hg, hsub hpunch⟩
    · cases hnew with
      | ack busy punch =>
        obtain ⟨there, hg, hpunch⟩ := unspoofed _ _ σ busy hσ hours (Or.inl punch)
        rw [punch] at hpunch
        exact ⟨there, hg, hsub hpunch⟩
  · intro p o ho here remote g hok hg hours hclient
    rcases (hmove.turns p).mem_outcomes ho with hold | hnew
    · exact (h.oks p o hold here remote g hok hg hours hclient).mono hsub
    · cases hnew with
      | ok busy ack =>
        cases hok
        obtain ⟨back, hback, hack⟩ := unspoofed _ _ g busy hg hclient (Or.inr ack)
        rw [ack] at hack
        -- the socket that was answered is the one that asks
        obtain ⟨there, hthere, hpunch⟩ := h.acks g back _ hack hback hours
        exact ⟨there, back, ⟨hthere, hsub hpunch⟩, hback, hsub hack⟩
      | exhausted => cases hok
      | nothing => cases hok

theorem traced_run [DecidableEq Addr] [DecidableEq Socket]
    (run : Run (step parse) (Unspoofed view ours) start s) : Traced view ours s :=
  run.invariant traced_start fun h unspoofed taken => h.moves unspoofed (moves_of_step taken)

/-! ### Whose sockets they are -/

structure Owners (s : Peers Addr Socket Peer) : Prop where
  bound : ∀ p agent, (s.clients p).agent = some agent → agent.socket ∈ s.bound
  unique : ∀ p q agent agent', (s.clients p).agent = some agent →
    (s.clients q).agent = some agent' → agent.socket = agent'.socket → p = q
  outcomes : ∀ p, ∀ o ∈ (s.clients p).outcomes, o.socket ∈ s.bound

omit [DecidableEq Peer] in
theorem owners_start : Owners (start : Peers Addr Socket Peer) where
  bound := (fun _ _ h => nomatch h)
  unique := (fun _ _ _ _ h => nomatch h)
  outcomes := (fun _ _ h => nomatch h)

omit [DecidableEq Peer] in
theorem Returns.began {p : Peer} {o : Outcome Addr Socket} (h : Returns s p a o) :
    ∃ agent, (s.clients p).agent = some agent ∧ o.socket = agent.socket ∧
      o.candidates = agent.remoteCandidates ∧
      ((∃ check, s.running p = some (agent, check) ∧ check.startedAt = o.startedAt) ∨
        a = .tryP2pConnect p ∧ o.startedAt = s.now) := by
  cases h with
  | ok busy ack => exact ⟨_, (running_eq_some.mp busy).1, rfl, rfl, Or.inl ⟨_, busy, rfl⟩⟩
  | exhausted busy last late =>
    exact ⟨_, (running_eq_some.mp busy).1, rfl, rfl, Or.inl ⟨_, busy, rfl⟩⟩
  | nothing stored empty => exact ⟨_, stored, rfl, rfl, Or.inr ⟨rfl, rfl⟩⟩

theorem Owners.moves (h : Owners s) (hmove : Moves parse s a t) : Owners t := by
  refine ⟨?_, ?_, ?_⟩
  · intro p agent hagent
    rcases (hmove.turns p).agent hagent with ⟨agent', hagent', hsocket, -⟩ | ⟨_, _, rfl, -, -⟩
    · rw [hsocket]
      exact bound_moves hmove (h.bound p agent' hagent')
    · exact bound_gather hmove
  · intro p q agent agent' hp hq heq
    rcases (hmove.turns p).agent hp with ⟨before, hbefore, hsocket, -⟩ | ⟨_, _, ha, hfresh, -⟩ <;>
      rcases (hmove.turns q).agent hq with ⟨before', hbefore', hsocket', -⟩ | ⟨_, _, ha', hfresh', -⟩
    · exact h.unique p q before before' hbefore hbefore' (by rw [← hsocket, ← hsocket', heq])
    · rw [← heq, hsocket] at hfresh'
      exact absurd (h.bound p before hbefore) hfresh'
    · rw [heq, hsocket'] at hfresh
      exact absurd (h.bound q before' hbefore') hfresh
    · rw [ha, IceAction.gather.injEq] at ha'
      exact ha'.1
  · intro p o ho
    rcases (hmove.turns p).mem_outcomes ho with ho | hnew
    · exact bound_moves hmove (h.outcomes p o ho)
    · obtain ⟨agent, hagent, hsocket, -, -⟩ := hnew.began
      rw [hsocket]
      exact bound_moves hmove (h.bound p agent hagent)

theorem owners_run [DecidableEq Addr] [DecidableEq Socket] {ok : Peers Addr Socket Peer → _ → Prop}
    (run : Run (step parse) ok start s) : Owners s :=
  run.invariant owners_start fun h _ taken => h.moves (moves_of_step taken)

/-- If `check_connectivity` succeeds with the address of a client, the socket behind that address was
reached by one of its punches and has answered to an address under which it reaches this client. Hosts
that are no clients may send what they like. -/
theorem punch_ok_round_trip [DecidableEq Addr] [DecidableEq Socket]
    (run : Run (step parse) (Unspoofed view ours) start s) (hours : ∀ σ ∈ s.bound, ours σ) {p : Peer}
    {o : Outcome Addr Socket} (ho : o ∈ (s.clients p).outcomes) {here remote : Addr}
    (hok : o.result = .ok (here, remote)) {g : Socket} (hg : view o.socket remote = some g)
    (hclient : ours g) :
    ∃ there back, (view o.socket there = some g ∧ (o.socket, there, punchMagic) ∈ s.sent) ∧
      (view g back = some o.socket ∧ (g, back, punchAckMagic) ∈ s.sent) :=
  (traced_run run).oks p o ho here remote g hok hg
    (hours _ ((owners_run run).outcomes p o ho)) hclient

/-- Two clients, each with one socket whose number is its address, and a stranger behind 9 who sends an
acknowledgement that nobody has asked for. The second client has the punch of the first, and has
answered it; the answer arrives last. -/
theorem punch_ok_round_trip_two :
    ∃ s : Peers Nat Nat Bool, Run (step fun text => some text.length)
        (Unspoofed (fun _ x => some x) (· < 2)) start s ∧
      ∃ o ∈ (s.clients false).outcomes, o.result = .ok (0, 1) ∧
        RoundTrip (fun _ x => some x) s.sent o.socket 1 := by
  have hpunched : exec (step fun text => some text.length) (fun _ a => isReceive a = false)
      (start : Peers Nat Nat Bool)
      [.gather false 0 0 (.error .timeout), .gather true 1 1 (.error .timeout),
        .addRemote false (.host 1), .addRemote true (.host 0), .tryP2pConnect false,
        .tryP2pConnect true, .tick false true] = some _ := rfl
  have hrun : Run _ (Unspoofed (fun _ x => some x) (· < 2)) start _ :=
    (Run.of_exec hpunched).mono fun _ _ => unspoofed_of_not_receive
  have hstranger := hrun.tail (a := .receive false 9 punchAckMagic true)
    (by rintro _ _ _ ⟨⟩ ⟨⟩ hours; exact absurd hours (by decide)) rfl
  have hanswered := hstranger.tail (a := .receive true 0 punchMagic true)
    (by rintro _ _ _ ⟨⟩ ⟨⟩ - -; exact ⟨1, rfl, .head _⟩) rfl
  have hdone := hanswered.tail (a := .receive false 1 punchAckMagic true)
    (by rintro _ _ _ ⟨⟩ ⟨⟩ - -; exact ⟨0, rfl, .tail _ (.head _)⟩) rfl
  refine ⟨_, hdone, _, .head _, rfl, ?_⟩
  exact punch_ok_round_trip (p := false) hdone (by decide) (.head _) rfl rfl (by decide)

/-! ## The handshake ends on one side -/

theorem Turns.idle {p : Peer} {client : Client Addr Socket} (h : Turns parse s p a client)
    (hidle : (s.clients p).check = none) (hne : a ≠ .tryP2pConnect p) : client.check = none := by
  have hbusy : ∀ {agent check}, s.running p = some (agent, check) → client.check = none := by
    intro agent check busy
    rw [(running_eq_some.mp busy).2] at hidle
    cases hidle
  cases h with
  | same | gathered | added => exact hidle
  | began stored => exact absurd rfl hne
  | ticked busy =>
    rw [busy] at hidle
    cases hidle
  | succeeded busy ack => exact hbusy busy
  | failed busy late none => exact hbusy busy
  | cancelled => rfl

/-- No client that is in a check sends from `σ`, and nothing was sent from it since `sent`. -/
structure Silent (σ : Socket) (p : Peer) (sent : List (Socket × Addr × Bytes))
    (s : Peers Addr Socket Peer) : Prop where
  idle : (s.clients p).check = none
  others : ∀ q agent, q ≠ p → (s.clients q).agent = some agent → agent.socket ≠ σ
  bound : σ ∈ s.bound
  sent : ∀ d ∈ s.sent, d.1 = σ → d ∈ sent

theorem Silent.moves {σ : Socket} {p : Peer} {sent : List (Socket × Addr × Bytes)}
    (h : Silent σ p sent s) (hne : a ≠ .tryP2pConnect p) (hmove : Moves parse s a t) :
    Silent σ p sent t := by
  refine ⟨(hmove.turns p).idle h.idle hne, ?_, bound_moves hmove h.bound, ?_⟩
  · intro q agent hq hagent heq
    rcases (hmove.turns q).agent hagent with ⟨agent', hagent', hsocket, -⟩ | ⟨_, _, -, hfresh, -⟩
    · exact h.others q agent' hq hagent' (hsocket ▸ heq)
    · exact hfresh (heq ▸ h.bound)
  · -- the sender of a new datagram is in a check, so it is not `p`
    have hsender : ∀ {q agent check}, s.running q = some (agent, check) → agent.socket ≠ σ := by
      intro q agent check busy
      obtain ⟨hagent, hcheck⟩ := running_eq_some.mp busy
      refine h.others q agent ?_ hagent
      rintro rfl
      rw [h.idle] at hcheck
      cases hcheck
    intro d hd heq
    rcases mem_sent_moves hmove hd with hd | hnew
    · exact h.sent d hd heq
    · cases hnew with
      | punch busy => exact absurd heq (hsender busy)
      | ack busy punch => exact absurd heq (hsender busy)

/-- A client that has left its check, by success or not, without having answered a punch of `g`, does
not enter another one: then no check of `g` ever succeeds with an address of that client, unless
somebody forges that address. -/
theorem punch_one_sided [DecidableEq Addr] [DecidableEq Socket] {p : Peer}
    {agent : IceAgent Addr Socket} {g : Socket}
    (before : Run (step parse) (Unspoofed view ours) start s)
    (stored : (s.clients p).agent = some agent) (done : (s.clients p).check = none)
    (unanswered : ∀ back, view agent.socket back = some g →
      (agent.socket, back, punchAckMagic) ∉ s.sent)
    (after : Run (step parse) (fun s a => Unspoofed view ours s a ∧ a ≠ .tryP2pConnect p) s t)
    (hours : ∀ σ ∈ t.bound, ours σ) {q : Peer} {o : Outcome Addr Socket}
    (ho : o ∈ (t.clients q).outcomes) (hg : o.socket = g) {here remote : Addr}
    (hok : o.result = .ok (here, remote)) :
    view g remote ≠ some agent.socket := by
  intro hremote
  have howners := owners_run before
  have hsilent : Silent agent.socket p s.sent t :=
    after.invariant
      ⟨done, fun q agent' hq hagent' heq => hq (howners.unique q p agent' agent hagent' stored heq),
        howners.bound p agent stored, fun _ hd _ => hd⟩
      fun h guard taken => h.moves guard.2 (moves_of_step taken)
  have hrun := before.trans (after.mono fun _ _ h => h.1)
  obtain ⟨there, back, -, hback, hack⟩ := (traced_run hrun).oks q o ho here remote agent.socket hok
    (hg ▸ hremote) (hours _ ((owners_run hrun).outcomes q o ho)) (hours _ hsilent.bound)
  rw [hg] at hback
  exact unanswered back hback (hsilent.sent _ hack rfl)

/-- Nothing is lost here. The first client succeeds before it has looked at a punch of the second,
which then times out. -/
theorem punch_one_sided_two :
    ∃ s t : Peers Nat Nat Bool,
      Run (step fun text => some text.length) (Unspoofed (fun _ x => some x) (· < 2)) start s ∧
      Run (step fun text => some text.length)
        (fun s a => Unspoofed (fun _ x => some x) (· < 2) s a ∧ a ≠ .tryP2pConnect false) s t ∧
      (∃ o ∈ (s.clients false).outcomes, o.result = .ok (0, 1)) ∧
      (∃ o ∈ (t.clients true).outcomes, o.failed = [(0, .timeout)]) ∧
      ∀ o ∈ (t.clients true).outcomes, o.socket = 1 → ∀ here remote,
        o.result = .ok (here, remote) → some remote ≠ some 0 := by
  have hpunched : exec (step fun text => some text.length) (fun _ a => isReceive a = false)
      (start : Peers Nat Nat Bool)
      [.gather false 0 0 (.error .timeout), .gather true 1 1 (.error .timeout),
        .addRemote false (.host 1), .addRemote true (.host 0), .tryP2pConnect false,
        .tryP2pConnect true, .tick false true, .tick true true] = some _ := rfl
  have hrun : Run _ (Unspoofed (fun _ x => some x) (· < 2)) start _ :=
    (Run.of_exec hpunched).mono fun _ _ => unspoofed_of_not_receive
  have hanswered := hrun.tail (a := .receive true 0 punchMagic true)
    (by rintro _ _ _ ⟨⟩ ⟨⟩ - -; exact ⟨1, rfl, .head _⟩) rfl
  have hdone := hanswered.tail (a := .receive false 1 punchAckMagic true)
    (by rintro _ _ _ ⟨⟩ ⟨⟩ - -; exact ⟨0, rfl, .tail _ (.tail _ (.head _))⟩) rfl
  have hlate : ∀ {s : Peers Nat Nat Bool} {agent check}, s.running true = some (agent, check) →
      check.punch.deadline ≤ s.now + 5000 →
      Run (step fun text => some text.length)
        (fun s a => Unspoofed (fun _ x => some x) (· < 2) s a ∧ a ≠ .tryP2pConnect false) s
        ({ s with now := s.now + 5000 }.set true
          ((s.clients true).punchFailed agent check (s.now + 5000) .timeout)) := by
    intro s agent check busy hdeadline
    refine (Run.refl.tail (a := IceAction.elapse 5000) ⟨trivial, nofun⟩ rfl).tail
      (a := IceAction.deadline true) ⟨trivial, nofun⟩ ?_
    have hbusy : { s with now := s.now + 5000 }.running true = some (agent, check) := busy
    simp [step, hbusy, hdeadline]
  refine ⟨_, _, hdone, hlate rfl (by decide), ⟨_, .head _, rfl⟩, ⟨_, .head _, rfl⟩, ?_⟩
  intro o ho hsocket here remote hok
  exact punch_one_sided (p := false) hdone rfl rfl (by rintro back ⟨⟩; decide)
    (hlate rfl (by decide)) (by decide) ho hsocket hok

/-! ## What a check tries -/

def timeouts (failed : List (Addr × Error)) : Nat :=
  failed.countP (·.2 = .timeout)

/-- A check in progress: what it has tried, tries and will try are its candidates in order, and it has
given each timeout its time. -/
structure Progress (candidates : List (Candidate Addr)) (now : Nat) (check : Check Addr) : Prop where
  order : (sortCandidates candidates).map (·.addr) =
    check.failed.map Prod.fst ++ check.punch.remoteAddr :: check.rest.map (·.addr)
  spent : check.startedAt + punchTimeout * timeouts check.failed + punchTimeout ≤
    check.punch.deadline
  begun : check.punch.deadline ≤ now + punchTimeout

/-- A finished check: the candidates in order up to the one that answered, or all of them. -/
structure Tried (o : Outcome Addr Socket) : Prop where
  ok : ∀ here remote, o.result = .ok (here, remote) → ∃ later,
    (sortCandidates o.candidates).map (·.addr) = o.failed.map Prod.fst ++ remote :: later
  error : ∀ err, o.result = .error err →
    (sortCandidates o.candidates).map (·.addr) = o.failed.map Prod.fst
  spent : o.startedAt + punchTimeout * timeouts o.failed ≤ o.endedAt

structure Checks (s : Peers Addr Socket Peer) : Prop where
  running : ∀ p agent check, s.running p = some (agent, check) →
    Progress agent.remoteCandidates s.now check
  finished : ∀ p, ∀ o ∈ (s.clients p).outcomes, Tried o

omit [DecidableEq Peer] in
theorem timeouts_append (failed : List (Addr × Error)) (addr : Addr) (err : Error) :
    timeouts (failed ++ [(addr, err)]) = timeouts failed + if err = .timeout then 1 else 0 := by
  rw [timeouts, List.countP_append, List.countP_singleton]
  simp [timeouts]

theorem Progress.spent_failed {candidates : List (Candidate Addr)} {now : Nat} {check : Check Addr}
    (h : Progress candidates now check) {err : Error}
    (late : err = .timeout → check.punch.deadline ≤ now) :
    check.startedAt + punchTimeout * timeouts (check.failed ++ [(check.punch.remoteAddr, err)]) ≤
      now := by
  have hspent := h.spent
  have hbegun := h.begun
  rw [timeouts_append]
  split
  · next htimeout =>
    have := late htimeout
    rw [Nat.mul_add]
    omega
  · rw [Nat.add_zero]
    omega

theorem Progress.next {candidates : List (Candidate Addr)} {now : Nat} {check : Check Addr}
    (h : Progress candidates now check) {err : Error}
    (late : err = .timeout → check.punch.deadline ≤ now) {candidate : Candidate Addr}
    {rest : List (Candidate Addr)} (hrest : check.rest = candidate :: rest) :
    Progress candidates now ⟨check.startedAt, check.failed ++ [(check.punch.remoteAddr, err)],
      Punch.start candidate.addr now, rest⟩ where
  order := by
    rw [h.order, hrest]
    simp [Punch.start]
  spent := Nat.add_le_add_right (h.spent_failed late) _
  begun := le_rfl

omit [DecidableEq Peer] in
theorem Returns.tried {p : Peer} {o : Outcome Addr Socket} (hchecks : Checks s)
    (h : Returns s p a o) : Tried o := by
  cases h with
  | @ok agent check _ _ busy ack =>
    have hprogress := hchecks.running p agent check busy
    refine ⟨?_, nofun, ?_⟩
    · rintro here remote ⟨⟩
      exact ⟨_, hprogress.order⟩
    · have := hprogress.spent
      have := hprogress.begun
      show check.startedAt + punchTimeout * timeouts check.failed ≤ s.now
      omega
  | @exhausted _ agent check err busy last late =>
    have hprogress := hchecks.running p agent check busy
    refine ⟨nofun, fun _ _ => ?_, hprogress.spent_failed late⟩
    show (sortCandidates agent.remoteCandidates).map (·.addr) =
      (check.failed ++ [(check.punch.remoteAddr, err)]).map Prod.fst
    rw [hprogress.order, last]
    simp
  | nothing stored empty =>
    refine ⟨nofun, fun _ _ => ?_, le_rfl⟩
    show (sortCandidates _).map (·.addr) = []
    rw [empty]
    rfl

omit [DecidableEq Peer] in
/-- The check after a step, at the time before it. -/
theorem Checking.progress {p : Peer} {agent : IceAgent Addr Socket} {check : Check Addr}
    (h : Checking s p a agent check) (hchecks : Checks s) :
    Progress agent.remoteCandidates s.now check := by
  cases h with
  | kept busy => exact hchecks.running p _ _ busy
  | ticked busy =>
    have hprogress := hchecks.running p _ _ busy
    exact ⟨hprogress.order, hprogress.spent, hprogress.begun⟩
  | next busy late more => exact (hchecks.running p _ _ busy).next late more
  | began stored first => exact ⟨by rw [first]; rfl, le_rfl, le_rfl⟩

theorem now_moves (h : Moves parse s a t) : s.now ≤ t.now := by
  cases h with
  | @probed q agent check sent busy due early => cases sent <;> exact le_rfl
  | elapsed => exact Nat.le_add_right _ _
  | _ => exact le_rfl

theorem Checks.moves (h : Checks s) (hmove : Moves parse s a t) : Checks t := by
  constructor
  · intro p agent check busy
    obtain ⟨hagent, hcheck⟩ := running_eq_some.mp busy
    have hprogress := ((hmove.turns p).checking hagent hcheck).progress h
    exact ⟨hprogress.order, hprogress.spent,
      hprogress.begun.trans (Nat.add_le_add_right (now_moves hmove) _)⟩
  · intro p o ho
    rcases (hmove.turns p).mem_outcomes ho with ho | hnew
    · exact h.finished p o ho
    · exact hnew.tried h

omit [DecidableEq Peer] in
theorem checks_start : Checks (start : Peers Addr Socket Peer) where
  running := (fun _ _ _ h => nomatch h)
  finished := (fun _ _ h => nomatch h)

omit [DecidableEq Peer] in
/-- A check that runs after a step ran before it, or has been begun by it. -/
theorem Checking.started {p : Peer} {agent : IceAgent Addr Socket} {check : Check Addr}
    (h : Checking s p a agent check) :
    (∃ check', s.running p = some (agent, check') ∧ check'.startedAt = check.startedAt) ∨
      a = .tryP2pConnect p ∧ (s.clients p).agent = some agent ∧ check.startedAt = s.now := by
  cases h with
  | kept busy | ticked busy | next busy late more => exact Or.inl ⟨_, busy, rfl⟩
  | began stored first => exact Or.inr ⟨rfl, stored, rfl⟩

section Runs

variable [DecidableEq Addr] [DecidableEq Socket]

theorem checks_run {ok : Peers Addr Socket Peer → IceAction Addr Socket Peer → Prop}
    (run : Run (step parse) ok start s) : Checks s :=
  run.invariant checks_start fun h _ taken => h.moves (moves_of_step taken)

/-- One of the `actions` from `v` on is the call that began a check of `p` at `startedAt`, with the
candidates that had arrived by then. -/
def Began (parse : Bytes → Option Addr) (v : Peers Addr Socket Peer) (p : Peer)
    (actions : List (IceAction Addr Socket Peer)) (startedAt : Nat)
    (candidates : List (Candidate Addr)) : Prop :=
  ∃ early late u, actions = early ++ .tryP2pConnect p :: late ∧
    exec (step parse) (fun _ _ => True) v early = some u ∧ u.now = startedAt ∧
    candidates = early.filterMap (arrival parse p)

/-- What `p` has and has tried, with the socket `σ`, after the `actions` since it stored that agent. -/
structure Since (parse : Bytes → Option Addr) (v : Peers Addr Socket Peer) (σ : Socket) (p : Peer)
    (actions : List (IceAction Addr Socket Peer)) (s : Peers Addr Socket Peer) : Prop where
  reached : exec (step parse) (fun _ _ => True) v actions = some s
  bound : σ ∈ s.bound
  agent : ∀ agent, (s.clients p).agent = some agent → agent.socket = σ →
    agent.remoteCandidates = actions.filterMap (arrival parse p)
  running : ∀ agent check, s.running p = some (agent, check) → agent.socket = σ →
    Began parse v p actions check.startedAt agent.remoteCandidates
  outcomes : ∀ o ∈ (s.clients p).outcomes, o.socket = σ →
    Began parse v p actions o.startedAt o.candidates

theorem Began.extend {v : Peers Addr Socket Peer} {p : Peer}
    {actions : List (IceAction Addr Socket Peer)} {startedAt : Nat}
    {candidates : List (Candidate Addr)} (h : Began parse v p actions startedAt candidates)
    (a : IceAction Addr Socket Peer) :
    Began parse v p (actions ++ [a]) startedAt candidates := by
  obtain ⟨early, late, u, rfl, hu⟩ := h
  exact ⟨early, late ++ [a], u, by simp, hu⟩

theorem Since.began {v : Peers Addr Socket Peer} {σ : Socket} {p : Peer}
    {actions : List (IceAction Addr Socket Peer)} (h : Since parse v σ p actions s)
    {agent : IceAgent Addr Socket} (hagent : (s.clients p).agent = some agent)
    (hsocket : agent.socket = σ) :
    Began parse v p (actions ++ [.tryP2pConnect p]) s.now agent.remoteCandidates :=
  ⟨actions, [], s, rfl, h.reached, rfl, h.agent agent hagent hsocket⟩

theorem Since.step {v : Peers Addr Socket Peer} {σ : Socket} {p : Peer}
    {actions : List (IceAction Addr Socket Peer)} (h : Since parse v σ p actions s)
    (taken : step parse s a = some t) : Since parse v σ p (actions ++ [a]) t := by
  have hmove := moves_of_step taken
  have hturn := hmove.turns p
  refine ⟨?_, bound_moves hmove h.bound, ?_, ?_, ?_⟩
  · rw [exec_append, h.reached, Option.bind_some]
    simp only [exec, if_true, taken, Option.bind_some]
  · intro agent hagent hsocket
    rcases hturn.agent hagent with ⟨agent', hagent', heq, hcands⟩ | ⟨_, _, -, hfresh, -⟩
    · rw [hcands, h.agent agent' hagent' (heq ▸ hsocket), List.filterMap_append]
      cases harrival : arrival parse p a <;> simp [harrival]
    · exact absurd h.bound (hsocket ▸ hfresh)
  · intro agent check busy hsocket
    obtain ⟨hagent, hcheck⟩ := running_eq_some.mp busy
    rcases (hturn.checking hagent hcheck).started with ⟨check', busy', hstart⟩ | ⟨rfl, hstored, hnow⟩
    · rw [← hstart]
      exact (h.running agent check' busy' hsocket).extend a
    · rw [hnow]
      exact h.began hstored hsocket
  · intro o ho hsocket
    rcases hturn.mem_outcomes ho with hold | hnew
    · exact (h.outcomes o hold hsocket).extend a
    · obtain ⟨agent, hagent, hagentSocket, hcands, hwhen⟩ := hnew.began
      have hσ : agent.socket = σ := hagentSocket ▸ hsocket
      rw [hcands]
      rcases hwhen with ⟨check, busy, hstart⟩ | ⟨rfl, hnow⟩
      · rw [← hstart]
        exact (h.running agent check busy hσ).extend a
      · rw [hnow]
        exact h.began hagent hσ

theorem Since.exec {v : Peers Addr Socket Peer} {σ : Socket} {p : Peer}
    {actions : List (IceAction Addr Socket Peer)} (h : Since parse v σ p actions s)
    {rest : List (IceAction Addr Socket Peer)}
    (hexec : exec (Peers.step parse) (fun _ _ => True) s rest = some t) :
    Since parse v σ p (actions ++ rest) t := by
  induction rest generalizing s actions with
  | nil =>
    cases hexec
    rwa [List.append_nil]
  | cons a rest ih =>
    simp only [Lib.exec, if_true] at hexec
    obtain ⟨u, taken, hexec⟩ := Option.bind_eq_some_iff.mp hexec
    rw [List.append_cons]
    exact ih (h.step taken) hexec

theorem since_gather {p : Peer} {socket : Socket} {localAddr : Addr} {srflx : Result Addr}
    (howners : Owners s) (taken : step parse s (.gather p socket localAddr srflx) = some t) :
    Since parse t socket p [] t := by
  have hmove := moves_of_step taken
  have hturn := hmove.turns p
  have hfresh : socket ∉ s.bound := by
    cases hmove with
    | gathered idle fresh => exact fresh
    | added idle arrives other => cases arrives
    | unchanged quiet => exact absurd rfl (quiet.2 _ _ _ _)
    | failed busy late quiet => exact absurd rfl (quiet.2 _ _ _ _)
  refine ⟨rfl, bound_gather hmove, ?_, ?_, ?_⟩
  · intro agent hagent hsocket
    rcases hturn.agent hagent with ⟨agent', hagent', heq, -⟩ | ⟨_, _, -, -, hnil⟩
    · exact absurd (howners.bound p agent' hagent') (heq ▸ hsocket ▸ hfresh)
    · exact hnil
  · intro agent check busy hsocket
    obtain ⟨hagent, hcheck⟩ := running_eq_some.mp busy
    rcases (hturn.checking hagent hcheck).started with ⟨_, busy', -⟩ | ⟨htry, -, -⟩
    · have hstored := (running_eq_some.mp busy').1
      exact absurd (howners.bound p agent hstored) (hsocket ▸ hfresh)
    · cases htry
  · intro o ho hsocket
    rcases hturn.mem_outcomes ho with ho | hnew
    · exact absurd (howners.outcomes p o ho) (hsocket ▸ hfresh)
    · obtain ⟨agent, hagent, heq, -, -⟩ := hnew.began
      exact absurd (howners.bound p agent hagent) (heq ▸ hsocket ▸ hfresh)

omit [DecidableEq Peer] [DecidableEq Addr] [DecidableEq Socket] in
theorem sortCandidates_eq_self {candidates : List (Candidate Addr)} {n : Nat}
    (h : ∀ c ∈ candidates, c.priority = n) : sortCandidates candidates = candidates := by
  refine List.Pairwise.insertionSort_eq ?_
  rw [List.pairwise_iff_forall_sublist]
  intro c d hcd
  have hc := h c (hcd.subset List.mem_cons_self)
  have hd := h d (hcd.subset (List.mem_cons_of_mem _ List.mem_cons_self))
  rw [hc, hd]

/-- A check tries the candidates that have arrived after its agent was stored and before the call that
began it, all of them and no others: in the order of their priorities, and in the order of arrival if
all have come by signalling. It ends at the first that answers, and spends five seconds on each that
times out. -/
theorem check_tries_arrivals {before after : List (IceAction Addr Socket Peer)} {p : Peer}
    {socket : Socket} {localAddr : Addr} {srflx : Result Addr}
    (hexec : exec (step parse) (fun _ _ => True) start
      (before ++ .gather p socket localAddr srflx :: after) = some s)
    {o : Outcome Addr Socket} (ho : o ∈ (s.clients p).outcomes) (hsocket : o.socket = socket) :
    ∃ early late u, after = early ++ .tryP2pConnect p :: late ∧
      exec (step parse) (fun _ _ => True) start
        (before ++ .gather p socket localAddr srflx :: early) = some u ∧ u.now = o.startedAt ∧
      (∀ here remote, o.result = .ok (here, remote) → ∃ later,
        (sortCandidates (early.filterMap (arrival parse p))).map (·.addr) =
          o.failed.map Prod.fst ++ remote :: later) ∧
      (∀ err, o.result = .error err →
        (sortCandidates (early.filterMap (arrival parse p))).map (·.addr) =
          o.failed.map Prod.fst) ∧
      ((∀ candidate, .addRemote p candidate ∉ early) →
        sortCandidates (early.filterMap (arrival parse p)) = early.filterMap (arrival parse p)) ∧
      o.startedAt + 5000 * o.failed.countP (·.2 = .timeout) ≤ o.endedAt := by
  have htried := (checks_run (Run.of_exec hexec)).finished p o ho
  rw [exec_append] at hexec
  obtain ⟨w, hbefore, hexec⟩ := Option.bind_eq_some_iff.mp hexec
  simp only [exec, if_true] at hexec
  obtain ⟨v, taken, hafter⟩ := Option.bind_eq_some_iff.mp hexec
  have hsince := (since_gather (owners_run (Run.of_exec hbefore)) taken).exec hafter
  obtain ⟨early, late, u, hsplit, hearly, hnow, hcands⟩ := hsince.outcomes o ho hsocket
  refine ⟨early, late, u, hsplit, ?_, hnow, hcands ▸ htried.ok, hcands ▸ htried.error, ?_,
    htried.spent⟩
  · rw [exec_append, hbefore, Option.bind_some]
    simp only [exec, if_true, taken, Option.bind_some, hearly]
  intro hsignals
  refine sortCandidates_eq_self (n := 200) fun c hc => ?_
  obtain ⟨a, ha, harrival⟩ := List.mem_filterMap.mp hc
  cases a with
  | addRemote q candidate =>
    simp only [arrival, Option.ite_none_right_eq_some] at harrival
    exact absurd (harrival.1 ▸ ha) (hsignals candidate)
  | signal q text =>
    simp only [arrival, Option.ite_none_right_eq_some, Option.map_eq_some_iff] at harrival
    obtain ⟨-, addr, -, rfl⟩ := harrival
    rfl
  | _ => cases harrival

/-- A candidate that came before the agent was stored, one that came after it, and one that came when
the check was over. -/
theorem check_tries_arrivals_late :
    ∃ s : Peers Nat Nat Bool,
      exec (step fun text => some text.length) (fun _ _ => True) start
        ([.signal false [0]] ++ .gather false 0 0 (.error .timeout) ::
          [.signal false [0, 0], .tryP2pConnect false, .elapse 5000, .deadline false,
            .signal false [0, 0, 0]]) = some s ∧
      ∃ o ∈ (s.clients false).outcomes, o.failed = [(2, .timeout)] ∧
        ∃ early late u, [.signal false [0, 0], .tryP2pConnect false, .elapse 5000,
            .deadline false, .signal false [0, 0, 0]] = early ++ .tryP2pConnect false :: late ∧
          exec (step fun text => some text.length) (fun _ _ => True) start
            ([.signal false [0]] ++ .gather false 0 0 (.error .timeout) :: early) = some u ∧
          u.now = o.startedAt ∧
          (sortCandidates (early.filterMap (arrival (fun text => some text.length) false))).map
            (·.addr) = o.failed.map Prod.fst ∧
          o.startedAt + 5000 * o.failed.countP (·.2 = .timeout) ≤ o.endedAt := by
  have hexec : exec (step fun text => some text.length) (fun _ _ => True)
      (start : Peers Nat Nat Bool)
      ([.signal false [0]] ++ .gather false 0 0 (.error .timeout) ::
        [.signal false [0, 0], .tryP2pConnect false, .elapse 5000, .deadline false,
          .signal false [0, 0, 0]]) = some _ := rfl
  refine ⟨_, hexec, _, .head _, rfl, ?_⟩
  obtain ⟨early, late, u, hsplit, hearly, hnow, -, herror, -, hspent⟩ :=
    check_tries_arrivals (p := false) hexec (.head _) rfl
  exact ⟨early, late, u, hsplit, hearly, hnow, herror _ rfl, hspent⟩

end Runs

end Cypher.Traversal.Peers
