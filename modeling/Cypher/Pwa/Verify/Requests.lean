import Cypher.Pwa.Requests

/-!
# What settles a promise of the web client

A settlement is proper if it is the reply to the promise's own call, the call's own timer or a later
call that supersedes it. In any interleaving, all settlements are proper exactly if no message and no
timer finds a promise pending that it was not meant for (`settled_properly_iff`).
-/

namespace Cypher.Pwa

open Lib Signaling

/-- Resolved with the reply to its own call, or rejected by its own timer or by a later call. -/
def Settled.Proper (answered : List (Nat × ApiValue)) (s : Settled) : Prop :=
  match s.settlement with
  | .resolved value =>
    s.trigger = .message (.reply s.promise) ∧ (s.promise, value) ∈ answered
  | .rejected _ => s.trigger = .timer s.promise ∨ ∃ later, s.trigger = .superseded later

/-- The trigger of a proper settlement. -/
def Settled.OwnTrigger (s : Settled) : Prop :=
  match s.settlement with
  | .resolved _ => s.trigger = .message (.reply s.promise)
  | .rejected _ => s.trigger = .timer s.promise ∨ ∃ later, s.trigger = .superseded later

namespace Api

/-- A timer of `createLink` finds no other promise pending, and a message is the reply to the call of
whatever is pending of the kind it is taken for. -/
def Undisturbed (api : Api) : ApiAction → Prop
  | .expire promise =>
    api.promises[promise]? = some .createLink → ∀ p ∈ api.pendingLink, p = promise
  | .deliver i => ∀ m ∈ api.inbound[i]?,
    ((truthy? m.json "link_id").isSome = true → ∀ p ∈ api.pendingLink, m.origin = .reply p) ∧
      ((connectedPeer? m.json).isSome = true → ∀ p ∈ api.listeners, m.origin = .reply p) ∧
      (isPrekeysResponse m.json = true → ∀ p ∈ api.pendingPrekeys, m.origin = .reply p)
  | _ => True

instance (api : Api) (a : ApiAction) : Decidable (api.Undisturbed a) := by
  cases a <;> unfold Undisturbed <;> infer_instance

def Unsettled (api : Api) (promise : Nat) : Prop :=
  ∀ s ∈ api.settled, s.promise ≠ promise

/-! ## Messages of signaling -/

/-- What a message says, read as `handleMessage` reads it: it is of one kind at most, and a reply
says what signaling answered. -/
structure Says (answered : List (Nat × ApiValue)) (m : Inbound) : Prop where
  link_only : (truthy? m.json "link_id").isSome = true →
    connectedPeer? m.json = none ∧ isPrekeysResponse m.json = false
  peer_only : (connectedPeer? m.json).isSome = true → isPrekeysResponse m.json = false
  link : ∀ linkId, truthy? m.json "link_id" = some linkId →
    ∀ p, m.origin = .reply p → (p, .link linkId) ∈ answered
  peer : ∀ peerId, connectedPeer? m.json = some peerId →
    ∀ p, m.origin = .reply p → (p, .peer peerId) ∈ answered
  inbox : isPrekeysResponse m.json = true →
    ∀ p, m.origin = .reply p → (p, .inbox (m.json.getStr? "inbox_id")) ∈ answered

theorem Says.mono {answered answered' : List (Nat × ApiValue)} {m : Inbound}
    (h : Says answered m) (hsub : ∀ x ∈ answered, x ∈ answered') : Says answered' m where
  link_only := h.link_only
  peer_only := h.peer_only
  link linkId hlink p hp := hsub _ (h.link linkId hlink p hp)
  peer peerId hpeer p hp := hsub _ (h.peer peerId hpeer p hp)
  inbox hinbox p hp := hsub _ (h.inbox hinbox p hp)

theorem says_peerJoined (answered : List (Nat × ApiValue)) (joinerHex : List Char) :
    Says answered ⟨.notification, peerJoined joinerHex⟩ where
  link_only h := by cases h
  peer_only _ := rfl
  link _ h := by cases h
  peer _ _ p hp := by cases hp
  inbox h := by cases h

theorem truthy?_eq_some {json : Json} {key : String} {s : List Char}
    (h : truthy? json key = some s) : json.getStr? key = some s :=
  (Option.filter_eq_some_iff.mp h).1

theorem says_linkCreated {answered : List (Nat × ApiValue)} {promise : Nat} {linkId : List Char}
    (h : (promise, .link linkId) ∈ answered) :
    Says answered ⟨.reply promise, linkCreated linkId⟩ where
  link_only _ := ⟨rfl, rfl⟩
  peer_only h := by cases h
  link l hl p hp := by
    obtain rfl : linkId = l := Option.some.inj (truthy?_eq_some hl)
    obtain rfl := Origin.reply.inj hp
    exact h
  peer _ h := by cases h
  inbox h := by cases h

theorem says_peerFound {answered : List (Nat × ApiValue)} {promise : Nat} {peerId : List Char}
    (h : (promise, .peer peerId) ∈ answered) (session : Option PeerSession) :
    Says answered ⟨.reply promise, peerFound peerId session⟩ where
  link_only h := by cases h
  peer_only _ := rfl
  link _ h := by cases h
  peer x hx p hp := by
    have hfound : truthy? (peerFound peerId session) "peer_id" = some x := hx
    obtain rfl : peerId = x := Option.some.inj (truthy?_eq_some hfound)
    obtain rfl := Origin.reply.inj hp
    exact h
  inbox h := by cases h

theorem says_linkNotFound (answered : List (Nat × ApiValue)) (origin : Origin) :
    Says answered ⟨origin, linkNotFound⟩ where
  link_only h := by cases h
  peer_only h := by cases h
  link _ h := by cases h
  peer _ h := by cases h
  inbox h := by
    have hnot : isPrekeysResponse linkNotFound = false := by decide +kernel
    rw [show isPrekeysResponse linkNotFound = true from h] at hnot
    cases hnot

theorem says_prekeysFound {answered : List (Nat × ApiValue)} {promise : Nat} {bundle : PrekeyBundle}
    (h : (promise, .inbox bundle.inboxId) ∈ answered) :
    Says answered ⟨.reply promise, prekeysFound bundle⟩ where
  link_only h := by cases h
  peer_only h := by cases h
  link _ h := by cases h
  peer _ h := by cases h
  inbox _ p hp := by
    have hinbox : (prekeysFound bundle).getStr? "inbox_id" = bundle.inboxId := by
      obtain ⟨identityKey, signedPrekey, inboxId⟩ := bundle
      cases inboxId <;> rfl
    obtain rfl := Origin.reply.inj hp
    rw [hinbox]
    exact h

theorem says_prekeysNotFound {answered : List (Nat × ApiValue)} {promise : Nat}
    (h : (promise, .inbox none) ∈ answered) :
    Says answered ⟨.reply promise, prekeysNotFound⟩ where
  link_only h := by cases h
  peer_only h := by cases h
  link _ h := by cases h
  peer _ h := by cases h
  inbox _ p hp := by
    obtain rfl := Origin.reply.inj hp
    exact h

/-- The first publication says what signaling answers, the others are notifications. -/
theorem says_publications (session : SessionId) (peerIdHex newLink : List Char)
    (atLink atSession atJoiner atCreator : Directory) (c : ApiCall) (promise : Nat)
    {answered : List (Nat × ApiValue)} (hanswer : ∀ v ∈ answer newLink atLink c,
      (promise, v) ∈ answered) :
    ∀ m ∈ received session promise
      (publications session peerIdHex newLink atLink atSession atJoiner atCreator c),
      Says answered m := by
  cases c with
  | createLink =>
    intro m hm
    rw [List.mem_singleton.mp hm]
    exact says_linkCreated (hanswer _ rfl)
  | joinLink link =>
    simp only [publications, Directory.answerRequestPeer]
    cases hlink : atLink.getLink link with
    | none =>
      intro m hm
      rw [List.mem_singleton.mp hm]
      exact says_linkNotFound _ _
    | some creatorHex =>
      intro m hm
      rcases List.mem_cons.mp hm with rfl | hm
      · refine says_peerFound (hanswer _ ?_) _
        rw [answer, hlink]
        rfl
      · obtain ⟨publication, hpub, rfl⟩ := List.mem_map.mp hm
        have hnotify := List.mem_of_mem_filter hpub
        unfold Directory.notifyCreator at hnotify
        split at hnotify
        · cases hnotify
        · next joinerHex hjoiner =>
          obtain ⟨peerSession, -, rfl⟩ := List.mem_map.mp hnotify
          exact says_peerJoined _ joinerHex
  | fetchPeerInboxId target =>
    simp only [publications, Directory.answerGetPrekeys]
    cases hbundle : atLink.getPrekeys (hexEncode target) with
    | none =>
      intro m hm
      rw [List.mem_singleton.mp hm]
      refine says_prekeysNotFound (hanswer _ ?_)
      rw [answer, hbundle]
      rfl
    | some bundle =>
      intro m hm
      rw [List.mem_singleton.mp hm]
      refine says_prekeysFound (hanswer _ ?_)
      rw [answer, hbundle]
      rfl

/-! ## Settling -/

variable {api api' : Api}

/-- No promise of `ps` stays pending, and nothing new is pending or under way. -/
structure Drops (api api' : Api) (ps : List Nat) : Prop where
  inRange : ∀ p ∈ ps, p < api.promises.length
  pendingLink : ∀ p ∈ api'.pendingLink, p ∈ api.pendingLink ∧ p ∉ ps
  pendingPrekeys : ∀ p ∈ api'.pendingPrekeys, p ∈ api.pendingPrekeys ∧ p ∉ ps
  listeners : ∀ p ∈ api'.listeners, p ∈ api.listeners ∧ p ∉ ps
  promises : api'.promises = api.promises
  answered : api'.answered = api.answered
  inbound : ∀ m ∈ api'.inbound, m ∈ api.inbound

/-- What a step that settles promises does: no promise of `ps` stays pending, and those that are not
settled are. -/
structure Settles (api api' : Api) (ps : List Nat) (settlement : Settlement) (trigger : Trigger) :
    Prop extends Drops api api' ps where
  settled : ∀ s, s ∈ api'.settled ↔
    s ∈ api.settled ∨ ∃ p ∈ ps, api.Unsettled p ∧ s = ⟨p, settlement, trigger⟩

/-- Nothing pending is settled, each pending promise is of its kind, and messages say what they
should. -/
structure Tracked (api : Api) : Prop where
  inRange : ∀ s ∈ api.settled, s.promise < api.promises.length
  pendingLink : ∀ p ∈ api.pendingLink,
    api.promises[p]? = some .createLink ∧ api.Unsettled p
  pendingPrekeys : ∀ p ∈ api.pendingPrekeys,
    (∃ target, api.promises[p]? = some (.fetchPeerInboxId target)) ∧ api.Unsettled p
  listeners : ∀ p ∈ api.listeners,
    (∃ link, api.promises[p]? = some (.joinLink link)) ∧ api.Unsettled p
  inbound : ∀ m ∈ api.inbound, Says api.answered m
  /-- A promise that is resolved by its own reply has the value of that reply. -/
  values : ∀ s ∈ api.settled, ∀ value, s.settlement = .resolved value →
    s.trigger = .message (.reply s.promise) → (s.promise, value) ∈ api.answered

theorem Settles.unsettled {ps : List Nat} {settlement : Settlement} {trigger : Trigger}
    (h : Settles api api' ps settlement trigger) {p : Nat} (hp : api.Unsettled p) (hps : p ∉ ps) :
    api'.Unsettled p := by
  intro s hs
  rcases (h.settled s).mp hs with hold | ⟨q, hq, -, rfl⟩
  · exact hp s hold
  · rintro rfl
    exact hps hq

theorem Tracked.settles (h : Tracked api) {ps : List Nat} {settlement : Settlement}
    {trigger : Trigger} (hsettles : Settles api api' ps settlement trigger)
    (hvalues : ∀ p ∈ ps, ∀ value, settlement = .resolved value → trigger = .message (.reply p) →
      (p, value) ∈ api.answered) : Tracked api' where
  inRange s hs := by
    rw [hsettles.promises]
    rcases (hsettles.settled s).mp hs with hold | ⟨p, hp, -, rfl⟩
    · exact h.inRange s hold
    · exact hsettles.inRange p hp
  pendingLink p hp := by
    obtain ⟨hold, hps⟩ := hsettles.pendingLink p hp
    rw [hsettles.promises]
    exact (h.pendingLink p hold).imp_right fun hun => hsettles.unsettled hun hps
  pendingPrekeys p hp := by
    obtain ⟨hold, hps⟩ := hsettles.pendingPrekeys p hp
    rw [hsettles.promises]
    exact (h.pendingPrekeys p hold).imp_right fun hun => hsettles.unsettled hun hps
  listeners p hp := by
    obtain ⟨hold, hps⟩ := hsettles.listeners p hp
    rw [hsettles.promises]
    exact (h.listeners p hold).imp_right fun hun => hsettles.unsettled hun hps
  inbound m hm := by
    rw [hsettles.answered]
    exact h.inbound m (hsettles.inbound m hm)

  values s hs value hvalue htrigger := by
    rw [hsettles.answered]
    rcases (hsettles.settled s).mp hs with hold | ⟨p, hp, -, rfl⟩
    · exact h.values s hold value hvalue htrigger
    · exact hvalues p hp value hvalue htrigger

def Orderly (api : Api) : Prop :=
  ∀ s ∈ api.settled, s.OwnTrigger

theorem Tracked.orderly_iff (h : Tracked api) :
    (∀ s ∈ api.settled, s.Proper api.answered) ↔ api.Orderly := by
  refine forall₂_congr fun s hs => ?_
  have hvalue := h.values s hs
  unfold Settled.Proper Settled.OwnTrigger
  split
  · next value hsettlement => exact and_iff_left_of_imp (hvalue value hsettlement)
  · exact Iff.rfl

theorem Settles.orderly_iff {ps : List Nat} {settlement : Settlement} {trigger : Trigger}
    (h : Settles api api' ps settlement trigger) (horderly : api.Orderly) :
    api'.Orderly ↔
      ∀ p ∈ ps, api.Unsettled p → (⟨p, settlement, trigger⟩ : Settled).OwnTrigger := by
  constructor
  · intro hall p hp hun
    exact hall _ ((h.settled _).mpr (.inr ⟨p, hp, hun, rfl⟩))
  · intro hnew s hs
    rcases (h.settled s).mp hs with hold | ⟨p, hp, hun, rfl⟩
    · exact horderly s hold
    · exact hnew p hp hun

theorem mem_settle (api : Api) (trigger : Trigger) (settlement : Settlement) (p : Nat)
    (s : Settled) :
    s ∈ (api.settle trigger settlement p).settled ↔
      s ∈ api.settled ∨ (api.Unsettled p ∧ s = ⟨p, settlement, trigger⟩) := by
  unfold settle
  split
  · next hsettled =>
    obtain ⟨s', hs', hp⟩ := List.any_eq_true.mp hsettled
    have hnot : ¬ api.Unsettled p := fun hun => hun s' hs' (of_decide_eq_true hp)
    simp [hnot]
  · next hsettled =>
    have hun : api.Unsettled p := fun s' hs' hp =>
      hsettled (List.any_eq_true.mpr ⟨s', hs', decide_eq_true hp⟩)
    simp [hun]

theorem settle_eq (api : Api) (trigger : Trigger) (settlement : Settlement) (p : Nat) :
    ∃ settled, api.settle trigger settlement p = { api with settled } := by
  unfold settle
  split
  · exact ⟨api.settled, rfl⟩
  · exact ⟨_, rfl⟩

theorem foldl_settle_eq (trigger : Trigger) (settlement : Settlement) (ps : List Nat) (api : Api) :
    ∃ settled, ps.foldl (fun api p => api.settle trigger settlement p) api =
      { api with settled } := by
  induction ps generalizing api with
  | nil => exact ⟨api.settled, rfl⟩
  | cons p ps ih =>
    obtain ⟨settled, hp⟩ := settle_eq api trigger settlement p
    rw [List.foldl_cons, hp]
    exact ih _

theorem mem_foldl_settle (trigger : Trigger) (settlement : Settlement) (ps : List Nat) (api : Api)
    (s : Settled) :
    s ∈ (ps.foldl (fun api p => api.settle trigger settlement p) api).settled ↔
      s ∈ api.settled ∨ ∃ p ∈ ps, api.Unsettled p ∧ s = ⟨p, settlement, trigger⟩ := by
  induction ps generalizing api with
  | nil => simp
  | cons p ps ih =>
    rw [List.foldl_cons, ih, mem_settle]
    -- what is settled by then is as before, except for the first of the list
    have hun : ∀ q, (api.settle trigger settlement p).Unsettled q ↔
        api.Unsettled q ∧ (api.Unsettled p → p ≠ q) := by
      intro q
      simp only [Unsettled, mem_settle]
      constructor
      · intro h
        exact ⟨fun s' hs' => h s' (.inl hs'), fun hp => h ⟨p, settlement, trigger⟩ (.inr ⟨hp, rfl⟩)⟩
      · rintro ⟨h, hp⟩ s' (hs' | ⟨hpun, rfl⟩)
        · exact h s' hs'
        · exact hp hpun
    constructor
    · rintro ((hold | ⟨hp, rfl⟩) | ⟨q, hq, hqun, rfl⟩)
      · exact .inl hold
      · exact .inr ⟨p, List.mem_cons_self, hp, rfl⟩
      · exact .inr ⟨q, List.mem_cons_of_mem _ hq, ((hun q).mp hqun).1, rfl⟩
    · rintro (hold | ⟨q, hq, hqun, rfl⟩)
      · exact .inl (.inl hold)
      · by_cases hpq : q = p
        · subst hpq
          exact .inl (.inr ⟨hqun, rfl⟩)
        · rcases List.mem_cons.mp hq with rfl | hq
          · exact absurd rfl hpq
          · exact .inr ⟨q, hq, (hun q).mpr ⟨hqun, fun _ h => hpq h.symm⟩, rfl⟩

theorem Drops.settles {ps : List Nat} (h : Drops api api' ps)
    (hsettled : api'.settled = api.settled) (settlement : Settlement) (trigger : Trigger) :
    Settles api (ps.foldl (fun api p => api.settle trigger settlement p) api') ps settlement
      trigger := by
  obtain ⟨settled, heq⟩ := foldl_settle_eq trigger settlement ps api'
  refine ⟨?_, fun s => ?_⟩
  · rw [heq]
    exact ⟨h.inRange, h.pendingLink, h.pendingPrekeys, h.listeners, h.promises, h.answered, h.inbound⟩
  · rw [mem_foldl_settle]
    unfold Unsettled
    rw [hsettled]

/-! ## Pending promises of different kinds are different -/

namespace Tracked

variable (h : Tracked api) {p q : Nat}
include h

theorem link_inRange (hp : p ∈ api.pendingLink) : p < api.promises.length :=
  (List.getElem?_eq_some_iff.mp (h.pendingLink p hp).1).1

theorem prekeys_inRange (hp : p ∈ api.pendingPrekeys) : p < api.promises.length := by
  obtain ⟨⟨target, htarget⟩, -⟩ := h.pendingPrekeys p hp
  exact (List.getElem?_eq_some_iff.mp htarget).1

theorem listener_inRange (hp : p ∈ api.listeners) : p < api.promises.length := by
  obtain ⟨⟨link, hlink⟩, -⟩ := h.listeners p hp
  exact (List.getElem?_eq_some_iff.mp hlink).1

theorem link_ne_prekeys (hp : p ∈ api.pendingLink) (hq : q ∈ api.pendingPrekeys) : p ≠ q := by
  rintro rfl
  obtain ⟨⟨target, htarget⟩, -⟩ := h.pendingPrekeys p hq
  rw [(h.pendingLink p hp).1] at htarget
  cases htarget

theorem link_ne_listener (hp : p ∈ api.pendingLink) (hq : q ∈ api.listeners) : p ≠ q := by
  rintro rfl
  obtain ⟨⟨link, hlink⟩, -⟩ := h.listeners p hq
  rw [(h.pendingLink p hp).1] at hlink
  cases hlink

theorem prekeys_ne_listener (hp : p ∈ api.pendingPrekeys) (hq : q ∈ api.listeners) : p ≠ q := by
  rintro rfl
  obtain ⟨⟨target, htarget⟩, -⟩ := h.pendingPrekeys p hp
  obtain ⟨⟨link, hlink⟩, -⟩ := h.listeners p hq
  rw [htarget] at hlink
  cases hlink

end Tracked

/-! ## Timers and messages -/

/-- The step settles promises, each with what was answered to it if the trigger is its own; and the
triggers are all own exactly if the step is undisturbed. -/
def Exact (api api' : Api) (a : ApiAction) : Prop :=
  ∃ ps settlement trigger, Settles api api' ps settlement trigger ∧
    (∀ p ∈ ps, ∀ value, settlement = .resolved value → trigger = .message (.reply p) →
      (p, value) ∈ api.answered) ∧
    ((∀ p ∈ ps, api.Unsettled p → (⟨p, settlement, trigger⟩ : Settled).OwnTrigger) ↔
      api.Undisturbed a)

theorem exact_of_nothing {a : ApiAction} (h : Drops api api' [])
    (hsettled : api'.settled = api.settled) (hundisturbed : api.Undisturbed a) :
    Exact api api' a :=
  ⟨[], .rejected "", .timer 0, h.settles hsettled _ _, by simp, by simp [hundisturbed]⟩

theorem drops_nothing (api : Api) (timers : List Nat) {inbound : List Inbound}
    (hinbound : ∀ m ∈ inbound, m ∈ api.inbound) : Drops api { api with timers, inbound } [] :=
  ⟨by simp, fun _ hp => ⟨hp, by simp⟩, fun _ hp => ⟨hp, by simp⟩, fun _ hp => ⟨hp, by simp⟩, rfl, rfl,
    hinbound⟩

theorem Tracked.drops_link (h : Tracked api) {pending : Nat} (hlink : api.pendingLink = some pending)
    (timers : List Nat) {inbound : List Inbound} (hinbound : ∀ m ∈ inbound, m ∈ api.inbound) :
    Drops api { api with timers, inbound, pendingLink := none } [pending] := by
  refine ⟨?_, ?_, ?_, ?_, rfl, rfl, hinbound⟩
  · exact List.forall_mem_singleton.mpr (h.link_inRange hlink)
  · simp
  · intro p hp
    refine ⟨hp, fun hmem => ?_⟩
    exact h.link_ne_prekeys hlink hp (List.mem_singleton.mp hmem).symm
  · intro p hp
    refine ⟨hp, fun hmem => ?_⟩
    exact h.link_ne_listener hlink hp (List.mem_singleton.mp hmem).symm

theorem Tracked.drops_prekeys (h : Tracked api) {pending : Nat}
    (hpending : api.pendingPrekeys = some pending) (timers : List Nat) {inbound : List Inbound}
    (hinbound : ∀ m ∈ inbound, m ∈ api.inbound) :
    Drops api { api with timers, inbound, pendingPrekeys := none } [pending] := by
  refine ⟨?_, ?_, ?_, ?_, rfl, rfl, hinbound⟩
  · exact List.forall_mem_singleton.mpr (h.prekeys_inRange hpending)
  · intro p hp
    refine ⟨hp, fun hmem => ?_⟩
    exact h.link_ne_prekeys hp hpending (List.mem_singleton.mp hmem)
  · simp
  · intro p hp
    refine ⟨hp, fun hmem => ?_⟩
    exact h.prekeys_ne_listener hpending hp (List.mem_singleton.mp hmem).symm

theorem Tracked.expire (h : Tracked api) {promise : Nat} {c : ApiCall}
    (hc : api.promises[promise]? = some c) (timers : List Nat) :
    Exact api ({ api with timers }.expire promise c) (.expire promise) := by
  have hpromise : ∀ p ∈ [promise], p < api.promises.length := by
    intro p hp
    rw [List.mem_singleton.mp hp]
    exact (List.getElem?_eq_some_iff.mp hc).1
  have hkept : Drops api { api with timers } [] :=
    drops_nothing api timers fun _ hm => hm
  cases c with
  | createLink =>
    cases hlink : api.pendingLink with
    | none =>
      rw [hlink] at hkept
      refine exact_of_nothing hkept rfl ?_
      simp [Undisturbed, hlink]
    | some pending =>
      -- whatever link is pending is settled
      have hdrops : Drops api { api with timers, pendingLink := none } [pending] :=
        h.drops_link hlink timers fun _ hm => hm
      refine ⟨_, _, _, hdrops.settles rfl (.rejected "create_link timeout") (.timer promise), ?_, ?_⟩
      · simp
      · simp only [List.mem_singleton, forall_eq, Settled.OwnTrigger, Undisturbed, hlink, hc]
        have hun := (h.pendingLink pending hlink).2
        simp [hun, eq_comm]
  | joinLink link =>
    have hdrops : Drops api
        { api with timers, listeners := api.listeners.filter (· ≠ promise) } [promise] := by
      refine ⟨hpromise, ?_, ?_, ?_, rfl, rfl, fun _ hm => hm⟩
      · intro p hp
        refine ⟨hp, fun hmem => ?_⟩
        have hkind := (h.pendingLink p hp).1
        rw [List.mem_singleton.mp hmem, hc] at hkind
        cases hkind
      · intro p hp
        refine ⟨hp, fun hmem => ?_⟩
        obtain ⟨⟨target, hkind⟩, -⟩ := h.pendingPrekeys p hp
        rw [List.mem_singleton.mp hmem, hc] at hkind
        cases hkind
      · intro p hp
        simpa using hp
    simp only [Api.expire]
    refine ⟨_, _, _, hdrops.settles rfl (.rejected "join_link timeout") (.timer promise), ?_, ?_⟩
    · simp
    · simp [Settled.OwnTrigger, Undisturbed, hc]
  | fetchPeerInboxId target =>
    have hundisturbed : api.Undisturbed (.expire promise) := by
      simp [Undisturbed, hc]
    simp only [Api.expire]
    split
    · next hpending =>
      have hdrops : Drops api { api with timers, pendingPrekeys := none } [promise] :=
        h.drops_prekeys hpending timers fun _ hm => hm
      refine ⟨_, _, _, hdrops.settles rfl (.rejected "get_prekeys timeout") (.timer promise), ?_, ?_⟩
      · simp
      · simp [Settled.OwnTrigger, hundisturbed]
    · exact exact_of_nothing hkept rfl hundisturbed

theorem Tracked.handleJson (h : Tracked api) {i : Nat} {m : Inbound}
    (hm : api.inbound[i]? = some m) :
    Exact api ({ api with inbound := api.inbound.eraseIdx i }.handleJson m.origin m.json)
      (.deliver i) := by
  have hsays := h.inbound m (List.mem_of_getElem? hm)
  have hinbound : ∀ m ∈ api.inbound.eraseIdx i, m ∈ api.inbound := fun _ => List.mem_of_mem_eraseIdx
  have hkept : Drops api { api with inbound := api.inbound.eraseIdx i } [] :=
    drops_nothing api api.timers hinbound
  unfold Api.handleJson
  cases hlinkId : truthy? m.json "link_id" with
  | some linkId =>
    obtain ⟨hpeer, hprekeys⟩ := hsays.link_only (by rw [hlinkId]; rfl)
    cases hlink : api.pendingLink with
    | none =>
      rw [hlink] at hkept
      simp only [hpeer, hprekeys, Bool.false_eq_true, if_false]
      refine exact_of_nothing hkept rfl ?_
      simp [Undisturbed, hm, hlink, hpeer, hprekeys]
    | some pending =>
      have hdrops : Drops api
          { api with inbound := api.inbound.eraseIdx i, pendingLink := none } [pending] :=
        h.drops_link hlink api.timers hinbound
      refine ⟨_, _, _, hdrops.settles rfl (.resolved (.link linkId)) (.message m.origin), ?_, ?_⟩
      · intro p _ value hvalue htrigger
        obtain rfl := Settlement.resolved.inj hvalue
        exact hsays.link linkId hlinkId p (Trigger.message.inj htrigger)
      · have hun := (h.pendingLink pending hlink).2
        simp [Settled.OwnTrigger, Undisturbed, hm, hlink, hlinkId, hpeer, hprekeys, hun]
  | none =>
    cases hpeer : connectedPeer? m.json with
    | some peer =>
      -- every listener is settled
      have hprekeys := hsays.peer_only (by rw [hpeer]; rfl)
      have hdrops : Drops api
          { api with inbound := api.inbound.eraseIdx i, listeners := [] } api.listeners := by
        refine ⟨fun p hp => h.listener_inRange hp, ?_, ?_, by simp, rfl, rfl, hinbound⟩
        · intro p hp
          exact ⟨hp, fun hmem => h.link_ne_listener hp hmem rfl⟩
        · intro p hp
          exact ⟨hp, fun hmem => h.prekeys_ne_listener hp hmem rfl⟩
      refine ⟨_, _, _, hdrops.settles rfl (.resolved (.peer peer)) (.message m.origin), ?_, ?_⟩
      · intro p _ value hvalue htrigger
        obtain rfl := Settlement.resolved.inj hvalue
        exact hsays.peer peer hpeer p (Trigger.message.inj htrigger)
      · simp only [Settled.OwnTrigger, Undisturbed, hm, hlinkId, hpeer, hprekeys, Option.mem_some,
          forall_eq', Option.isSome_some, Option.isSome_none, Bool.false_eq_true, false_implies,
          true_implies, true_and, and_true, Trigger.message.injEq]
        exact forall₂_congr fun p hp => ⟨fun hown => hown (h.listeners p hp).2, fun hown _ => hown⟩
    | none =>
      cases hprekeys : isPrekeysResponse m.json with
      | false =>
        refine exact_of_nothing hkept rfl ?_
        simp [Undisturbed, hm, hlinkId, hpeer, hprekeys]
      | true =>
        cases hpending : api.pendingPrekeys with
        | none =>
          rw [hpending] at hkept
          refine exact_of_nothing hkept rfl ?_
          simp [Undisturbed, hm, hlinkId, hpeer, hpending]
        | some pending =>
          have hdrops : Drops api
              { api with inbound := api.inbound.eraseIdx i, pendingPrekeys := none } [pending] :=
            h.drops_prekeys hpending api.timers hinbound
          refine ⟨_, _, _, hdrops.settles rfl (.resolved (.inbox (m.json.getStr? "inbox_id")))
            (.message m.origin), ?_, ?_⟩
          · intro p _ value hvalue htrigger
            obtain rfl := Settlement.resolved.inj hvalue
            exact hsays.inbox hprekeys p (Trigger.message.inj htrigger)
          · have hun := (h.pendingPrekeys pending hpending).2
            simp [Settled.OwnTrigger, Undisturbed, hm, hlinkId, hpeer, hprekeys, hpending, hun]

/-! ## Calls -/

theorem Tracked.unsettled_new (h : Tracked api) : api.Unsettled api.promises.length := by
  intro s hs heq
  have := h.inRange s hs
  omega

theorem Tracked.addPromise (h : Tracked api) (c : ApiCall) (timers requests : List Nat) :
    Tracked { api with promises := api.promises ++ [c], timers, requests } := by
  have hold : ∀ {p : Nat} {c' : ApiCall}, api.promises[p]? = some c' →
      (api.promises ++ [c])[p]? = some c' := by
    intro p c' hp
    rw [List.getElem?_append_left (List.getElem?_eq_some_iff.mp hp).1]
    exact hp
  refine ⟨?_, ?_, ?_, ?_, h.inbound, h.values⟩
  · intro s hs
    have := h.inRange s hs
    simp only [List.length_append]
    omega
  · intro p hp
    exact (h.pendingLink p hp).imp_left hold
  · intro p hp
    exact (h.pendingPrekeys p hp).imp_left fun ⟨target, htarget⟩ => ⟨target, hold htarget⟩
  · intro p hp
    exact (h.listeners p hp).imp_left fun ⟨link, hlink⟩ => ⟨link, hold hlink⟩

theorem settle_pendingPrekeys (api : Api) (trigger : Trigger) (settlement : Settlement) (p : Nat)
    (pending : Option Nat) :
    { api with pendingPrekeys := pending }.settle trigger settlement p =
      { api.settle trigger settlement p with pendingPrekeys := pending } := by
  unfold settle
  dsimp only
  split <;> rfl

theorem Tracked.supersede (h : Tracked api) {promise : Nat} {target : Bytes}
    (hpromise : api.promises[promise]? = some (.fetchPeerInboxId target))
    (hun : api.Unsettled promise) (hnew : promise ∉ api.pendingPrekeys) (error : String) :
    Tracked { (match api.pendingPrekeys with
      | some previous => api.settle (.superseded promise) (.rejected error) previous
      | none => api) with pendingPrekeys := some promise } := by
  cases hpending : api.pendingPrekeys with
  | none =>
    refine ⟨h.inRange, h.pendingLink, ?_, h.listeners, h.inbound, h.values⟩
    intro p hp
    obtain rfl := Option.some.inj hp
    exact ⟨⟨target, hpromise⟩, hun⟩
  | some previous =>
    have hdrops : Drops api { api with pendingPrekeys := none } [previous] := by
      refine ⟨?_, ?_, by simp, ?_, rfl, rfl, fun _ hm => hm⟩
      · intro p hp
        rw [List.mem_singleton.mp hp]
        exact h.prekeys_inRange hpending
      · intro p hp
        refine ⟨hp, fun hmem => ?_⟩
        exact h.link_ne_prekeys hp hpending (List.mem_singleton.mp hmem)
      · intro p hp
        refine ⟨hp, fun hmem => ?_⟩
        exact h.prekeys_ne_listener hpending hp (List.mem_singleton.mp hmem).symm
    have hsettles := hdrops.settles rfl (.rejected error) (.superseded promise)
    have hne : promise ∉ [previous] := by
      intro hmem
      rw [List.mem_singleton.mp hmem] at hnew
      exact hnew hpending
    have htracked := h.settles hsettles (by simp)
    have hun' := hsettles.unsettled hun hne
    simp only [List.foldl_cons, List.foldl_nil, settle_pendingPrekeys] at htracked hun'
    obtain ⟨settled, heq⟩ := settle_eq api (.superseded promise) (.rejected error) previous
    refine ⟨htracked.inRange, htracked.pendingLink, ?_, htracked.listeners, htracked.inbound,
      htracked.values⟩
    intro p hp
    obtain rfl := Option.some.inj hp
    refine ⟨⟨target, ?_⟩, hun'⟩
    dsimp only
    rw [heq]
    exact hpromise

theorem Tracked.begin (h : Tracked api) (c : ApiCall) : Tracked (api.begin c) := by
  have hadded := h.addPromise c (api.timers ++ [api.promises.length])
    (api.requests ++ [api.promises.length])
  have hnew : (api.promises ++ [c])[api.promises.length]? = some c := List.getElem?_concat_length
  cases c with
  | createLink =>
    refine ⟨hadded.inRange, ?_, hadded.pendingPrekeys, hadded.listeners, hadded.inbound,
      hadded.values⟩
    intro p hp
    obtain rfl := Option.some.inj hp
    exact ⟨hnew, h.unsettled_new⟩
  | joinLink link =>
    refine ⟨hadded.inRange, hadded.pendingLink, hadded.pendingPrekeys, ?_, hadded.inbound,
      hadded.values⟩
    intro p hp
    rcases List.mem_append.mp hp with hold | hp
    · exact hadded.listeners p hold
    · rw [List.mem_singleton.mp hp]
      exact ⟨⟨link, hnew⟩, h.unsettled_new⟩
  | fetchPeerInboxId target =>
    refine hadded.supersede hnew h.unsettled_new ?_ _
    intro hmem
    exact Nat.lt_irrefl _ (h.prekeys_inRange hmem)

theorem begin_settled (api : Api) (c : ApiCall) :
    (∀ s ∈ api.settled, s ∈ (api.begin c).settled) ∧
      ∀ s ∈ (api.begin c).settled, s ∈ api.settled ∨ s.OwnTrigger := by
  cases c with
  | createLink => exact ⟨fun _ hs => hs, fun _ hs => .inl hs⟩
  | joinLink link => exact ⟨fun _ hs => hs, fun _ hs => .inl hs⟩
  | fetchPeerInboxId target =>
    unfold Api.begin
    dsimp only
    split
    · simp only [mem_settle]
      refine ⟨fun s hs => .inl hs, ?_⟩
      rintro s (hold | ⟨-, rfl⟩)
      · exact .inl hold
      · exact .inr (.inr ⟨_, rfl⟩)
    · exact ⟨fun _ hs => hs, fun _ hs => .inl hs⟩

/-! ## Runs -/

theorem Exact.settled_mono {a : ApiAction} (h : Exact api api' a) :
    ∀ s ∈ api.settled, s ∈ api'.settled := by
  obtain ⟨ps, settlement, trigger, hsettles, -, -⟩ := h
  exact fun s hs => (hsettles.settled s).mpr (.inl hs)

theorem Exact.tracked {a : ApiAction} (h : Exact api api' a) (htracked : Tracked api) :
    Tracked api' := by
  obtain ⟨ps, settlement, trigger, hsettles, hvalues, -⟩ := h
  exact htracked.settles hsettles hvalues

theorem Exact.orderly_iff {a : ApiAction} (h : Exact api api' a) (horderly : api.Orderly) :
    api'.Orderly ↔ api.Undisturbed a := by
  obtain ⟨ps, settlement, trigger, hsettles, -, hown⟩ := h
  rw [hsettles.orderly_iff horderly, hown]

/-- Every step keeps what is tracked and settled; it keeps the triggers own exactly if it is
undisturbed. -/
theorem Tracked.step (h : Tracked api) {a : ApiAction} (hstep : api.step a = some api') :
    Tracked api' ∧ (∀ s ∈ api.settled, s ∈ api'.settled) ∧
      (api.Orderly → (api'.Orderly ↔ api.Undisturbed a)) := by
  cases a with
  | call c =>
    obtain rfl := Option.some.inj hstep
    obtain ⟨hmono, hown⟩ := begin_settled api c
    refine ⟨h.begin c, hmono, fun horderly => iff_of_true ?_ trivial⟩
    exact fun s hs => (hown s hs).elim (horderly s) id
  | expire promise =>
    simp only [Api.step, bind, Option.bind_eq_some_iff] at hstep
    obtain ⟨c, hc, hstep⟩ := hstep
    split at hstep
    · obtain rfl := Option.some.inj hstep
      have hexact := h.expire hc (api.timers.erase promise)
      exact ⟨hexact.tracked h, hexact.settled_mono, hexact.orderly_iff⟩
    · cases hstep
  | serve i newLink atLink atSession atJoiner atCreator =>
    simp only [Api.step, bind, Option.bind_eq_some_iff] at hstep
    obtain ⟨promise, hpromise, c, hc, hstep⟩ := hstep
    obtain rfl := Option.some.inj hstep
    refine ⟨⟨h.inRange, h.pendingLink, h.pendingPrekeys, h.listeners, ?_, ?_⟩, fun _ hs => hs,
      fun horderly => iff_of_true horderly trivial⟩
    · intro m hm
      rcases List.mem_append.mp hm with hold | hnew
      · exact (h.inbound m hold).mono fun _ hx => List.mem_append_left _ hx
      · refine says_publications api.session api.peerIdHex newLink atLink atSession atJoiner atCreator c
          promise ?_ m hnew
        intro v hv
        refine List.mem_append_right _ ?_
        rw [show answer newLink atLink c = some v from hv]
        exact List.mem_singleton.mpr rfl
    · intro s hs value hvalue htrigger
      exact List.mem_append_left _ (h.values s hs value hvalue htrigger)
  | notify joinerHex =>
    obtain rfl := Option.some.inj hstep
    refine ⟨⟨h.inRange, h.pendingLink, h.pendingPrekeys, h.listeners, ?_, h.values⟩, fun _ hs => hs,
      fun horderly => iff_of_true horderly trivial⟩
    intro m hm
    rcases List.mem_append.mp hm with hold | hnew
    · exact h.inbound m hold
    · rw [List.mem_singleton.mp hnew]
      exact says_peerJoined _ joinerHex
  | deliver i =>
    simp only [Api.step, bind, Option.bind_eq_some_iff] at hstep
    obtain ⟨m, hm, hstep⟩ := hstep
    obtain rfl := Option.some.inj hstep
    have hexact := h.handleJson hm
    exact ⟨hexact.tracked h, hexact.settled_mono, hexact.orderly_iff⟩

theorem tracked_start (session : SessionId) (peerIdHex : List Char) :
    Tracked (start session peerIdHex) := by
  refine ⟨?_, ?_, ?_, ?_, ?_, ?_⟩ <;> simp [start]

/-- **What settles a promise.** In every interleaving of calls, replies, notifications and timers,
each promise is resolved with the reply to its own call and rejected by its own timer or a later call,
exactly if no timer of `createLink` and no message finds a promise pending that it was not meant for. -/
theorem settled_properly_iff (session : SessionId) (peerIdHex : List Char)
    (actions : List ApiAction) {api : Api}
    (hrun : Lib.exec step (fun _ _ => True) (start session peerIdHex) actions = some api) :
    (∀ s ∈ api.settled, s.Proper api.answered) ↔
      Lib.exec step Undisturbed (start session peerIdHex) actions = some api := by
  have htracked : Tracked api := (Lib.Run.of_exec hrun).invariant (I := Tracked)
    (tracked_start session peerIdHex) fun h _ hstep => (h.step hstep).1
  rw [htracked.orderly_iff]
  refine Lib.good_iff_exec (I := Tracked) (fun h hstep => (h.step hstep).1) ?_ ?_ ?_
    (tracked_start session peerIdHex) (by intro s hs; cases hs) hrun
  · intro v w a h horderly hundisturbed hstep
    exact ((h.step hstep).2.2 horderly).mpr hundisturbed
  · intro v w a h hdisturbed hstep horderly
    have hbefore : v.Orderly := fun s hs => horderly s ((h.step hstep).2.1 s hs)
    exact hdisturbed (((h.step hstep).2.2 hbefore).mp horderly)
  · intro v w a h hbroken hstep horderly
    exact hbroken fun s hs => horderly s ((h.step hstep).2.1 s hs)

/-- A link `ab` of the peer `c0`. -/
def oneLink : Directory :=
  { Directory.empty with links := Expiring.empty.set (ascii "ab") "c0".toList 1000 }

theorem settled_properly_iff_inTurn :
    ∃ api, Lib.exec step (fun _ _ => True) (start 7 "a0".toList)
        [.call .createLink, .call (.joinLink (ascii "ab")),
          .serve 0 "cd".toList oneLink oneLink oneLink oneLink,
          .serve 0 [] oneLink oneLink oneLink oneLink, .deliver 1, .expire 1, .notify "b0".toList,
          .deliver 1, .deliver 0, .expire 0] = some api ∧
      api.settled.length = 2 ∧ ∀ s ∈ api.settled, s.Proper api.answered := by
  have hlen : (Lib.exec step Undisturbed (start 7 "a0".toList)
      [.call .createLink, .call (.joinLink (ascii "ab")),
        .serve 0 "cd".toList oneLink oneLink oneLink oneLink,
        .serve 0 [] oneLink oneLink oneLink oneLink, .deliver 1, .expire 1, .notify "b0".toList,
        .deliver 1, .deliver 0, .expire 0]).map (·.settled.length) = some 2 := by decide +kernel
  obtain ⟨api, hexec, hlen⟩ := Option.map_eq_some_iff.mp hlen
  have hrun := Lib.exec_mono (fun _ _ _ => trivial) hexec
  exact ⟨api, hrun, hlen, (settled_properly_iff 7 "a0".toList _ hrun).mpr hexec⟩

/-- A peer joins a link of ours while we join the link of `c0`: `joinLink` is resolved with the id of
that peer. -/
theorem join_resolved_by_notification :
    (Lib.exec step (fun _ _ => True) (start 7 "a0".toList)
      [.call (.joinLink (ascii "ab")), .notify "b0".toList, .deliver 0]).map (·.settled) =
    some [⟨0, .resolved (.peer "b0".toList), .message .notification⟩] := by
  decide +kernel

-- The timer of a `createLink` that has its link rejects the next `createLink`.
example : (Lib.exec step (fun _ _ => True) (start 7 "a0".toList)
      [.call .createLink, .serve 0 "cd".toList oneLink oneLink oneLink oneLink, .deliver 0,
        .call .createLink, .expire 0]).map (·.settled) =
    some [⟨0, .resolved (.link "cd".toList), .message (.reply 0)⟩,
      ⟨1, .rejected "create_link timeout", .timer 0⟩] := by
  decide +kernel

end Api

end Cypher.Pwa
