import Cypher.Lib.Paired
import Cypher.Onion.Cover

/-!
# Cover tasks over whole runs

* `cover_one_per_service`: a service never has two cover tasks that were not told to stop, and one in
  the mode of its configuration whenever it is not being restarted. A task that was told to stop
  begins at most one more fetch, and only if it was asleep.
* `cover_outlives_service`: the task of a service that a later connection has replaced is never
  stopped, and no configuration reaches it any more.
* `cover_follows_config`: if configurations are only set while no other call is under way, the task
  of the current service that was not told to stop has the mode set last.

A service is restarted by one call at a time: by the connection that made it, which has not stored it
yet, or by the call that holds the lock. The first result is a cycle through the places of a restart.
-/

namespace Cypher.Onion

open Lib

/-! ## The cycle of a service -/

namespace CoverService

variable {service service' : CoverService} {restart : Restart} {next : Option Restart}

/-- The tasks as they were spawned, each with its mode and its token. -/
def spawned (service : CoverService) : List (PowerMode × Nat) :=
  service.tasks.map fun task => (task.mode, task.cancel)

def live (service : CoverService) : List (PowerMode × Nat) :=
  service.spawned.filter fun task => task.2 ∉ service.cancelled

/-- Tokens are numbered in the order in which they are made, and a task returns only if its own is
cancelled. -/
structure Numbered (service : CoverService) : Prop where
  cancelled : ∀ token ∈ service.cancelled, token < service.tokens
  slot : ∀ token, service.coverCancel = some token → token < service.tokens
  returned : ∀ task ∈ service.tasks, task.phase = .returned → task.cancel ∈ service.cancelled

theorem Numbered.unstopped (h : Numbered service) :
    service.unstopped.map (fun task => (task.mode, task.cancel)) = service.live := by
  have hfilter : service.unstopped =
      service.tasks.filter fun task => task.cancel ∉ service.cancelled := by
    rw [CoverService.unstopped, running, List.filter_filter]
    refine List.filter_congr fun task htask => ?_
    have := h.returned task htask
    by_cases hcancel : task.cancel ∈ service.cancelled <;> simp_all
  rw [hfilter, live, spawned, List.filter_map]
  rfl

/-- What holds of a service where a restart stands, `none` if there is none. -/
inductive Point (service : CoverService) : Option Restart → Prop
  | rest {token} (slot : service.coverCancel = some token)
      (live : service.live = [(service.config.powerMode, token)]) : Point service none
  | first (slot : service.coverCancel = none) (live : service.live = []) :
      Point service (some .take)
  | again {mode token} (slot : service.coverCancel = some token)
      (live : service.live = [(mode, token)]) : Point service (some .take)
  | read (slot : service.coverCancel = none) (live : service.live = []) : Point service (some .read)
  | store (slot : service.coverCancel = none) (live : service.live = []) :
      Point service (some (.store service.config))
  | spawn {token} (slot : service.coverCancel = some token) (live : service.live = [])
      (fresh : token ∉ service.cancelled) :
      Point service (some (.spawn service.config.powerMode token))

structure Good (service : CoverService) (at? : Option Restart) : Prop where
  numbered : Numbered service
  point : Point service at?

theorem live_cancel (service : CoverService) (token : Nat) :
    { service with coverCancel := none, cancelled := service.cancelled ++ [token] }.live =
      service.live.filter fun task => task.2 ≠ token := by
  simp only [live, List.filter_filter]
  refine List.filter_congr fun task _ => ?_
  simp [not_or, Bool.and_comm]

theorem restartCover_config (hstep : service.restartCover restart = (service', next)) :
    service'.config = service.config := by
  cases restart with
  | take =>
    simp only [restartCover] at hstep
    split at hstep <;> (cases hstep; rfl)
  | _ =>
    cases hstep
    rfl

/-! ### Steps of a task -/

inductive Runs (task : CoverTraffic) (cancelled : Prop) : CoverTraffic → Prop
  | scheduled (head : task.phase = .head) (go : ¬ cancelled) :
      Runs task cancelled { task with phase := .asleep }
  | returned (stop : cancelled) : Runs task cancelled { task with phase := .returned }
  | off (asleep : task.phase = .asleep) : Runs task cancelled { task with phase := .head }
  | elapsed (asleep : task.phase = .asleep) :
      Runs task cancelled { task with phase := .fetching, fetches := task.fetches + 1 }
  | fetched (fetching : task.phase = .fetching) : Runs task cancelled { task with phase := .head }

theorem runs_of_run {task task' : CoverTraffic} {p : Prop} [Decidable p] {event : CoverEvent}
    (h : task.run (decide p) event = some task') : Runs task p task' := by
  cases event with
  | scheduled =>
    simp only [CoverTraffic.run] at h
    split at h
    · next head =>
      by_cases hp : p
      · simp only [hp, decide_true, if_true] at h
        cases h
        exact .returned hp
      · simp only [hp, decide_false, Bool.false_eq_true, if_false] at h
        cases h
        exact .scheduled head hp
    · cases h
  | cancelled =>
    simp only [CoverTraffic.run] at h
    split at h
    · split at h
      · next hp =>
        cases h
        exact .returned (of_decide_eq_true hp)
      · cases h
    · cases h
  | elapsed =>
    simp only [CoverTraffic.run] at h
    split at h
    · next asleep =>
      split at h
      · cases h
        exact .off asleep
      · cases h
        exact .elapsed asleep
    · cases h
  | fetched =>
    simp only [CoverTraffic.run] at h
    split at h
    · next fetching =>
      cases h
      exact .fetched fetching
    · cases h

theorem Runs.mode {task task' : CoverTraffic} {p : Prop} (h : Runs task p task') :
    task'.mode = task.mode := by
  cases h <;> rfl

theorem Runs.cancel {task task' : CoverTraffic} {p : Prop} (h : Runs task p task') :
    task'.cancel = task.cancel := by
  cases h <;> rfl

/-- How often a task with a cancelled token calls `fetch_all`, the call after its sleep included. -/
def budget (task : CoverTraffic) : Nat :=
  task.fetches + if task.phase = .asleep then 1 else 0

theorem Runs.budget_le {task task' : CoverTraffic} {p : Prop} (h : Runs task p task') (hp : p) :
    budget task' ≤ budget task := by
  cases h with
  | scheduled head go => exact absurd hp go
  | returned stop => exact Nat.le_add_right _ _
  | off asleep => exact Nat.le_add_right _ _
  | elapsed asleep =>
    simp only [budget, asleep, if_true, reduceCtorEq, if_false]
    exact le_rfl
  | fetched fetching => exact Nat.le_add_right _ _

/-- A service after a step of its `i`-th task. -/
structure Ticks (service : CoverService) (i : Nat) (task task' : CoverTraffic)
    (service' : CoverService) : Prop where
  found : service.tasks[i]? = some task
  runs : Runs task (task.cancel ∈ service.cancelled) task'
  result : service' = { service with tasks := service.tasks.set i task' }

theorem ticks_of_stepTask {i : Nat} {event : CoverEvent}
    (h : service.stepTask i event = some service') :
    ∃ task task', Ticks service i task task' service' := by
  simp only [stepTask] at h
  split at h
  · cases h
  · next task found =>
    obtain ⟨task', hrun, rfl⟩ := Option.map_eq_some_iff.mp h
    exact ⟨task, task', found, runs_of_run hrun, rfl⟩

theorem Ticks.spawned {i : Nat} {task task' : CoverTraffic} (h : Ticks service i task task' service') :
    service'.spawned = service.spawned := by
  obtain ⟨found, hruns, rfl⟩ := h
  simp only [CoverService.spawned, List.map_set, hruns.mode, hruns.cancel]
  refine List.ext_getElem? fun j => ?_
  rw [List.getElem?_set]
  split
  · next heq =>
    subst heq
    rw [List.getElem?_map, found]
    simp [(List.getElem?_eq_some_iff.mp found).1]
  · rfl

theorem Ticks.live {i : Nat} {task task' : CoverTraffic} (h : Ticks service i task task' service') :
    service'.live = service.live := by
  rw [CoverService.live, CoverService.live, h.spawned, h.result]

theorem Good.ticks {at? : Option Restart} {i : Nat} {task task' : CoverTraffic}
    (hgood : Good service at?) (h : Ticks service i task task' service') : Good service' at? := by
  obtain ⟨hnumbered, hpoint⟩ := hgood
  have hlive := h.live
  obtain ⟨found, hruns, rfl⟩ := h
  refine ⟨⟨hnumbered.cancelled, hnumbered.slot, ?_⟩, ?_⟩
  · intro other hother hreturned
    rcases List.mem_or_eq_of_mem_set hother with hother | rfl
    · exact hnumbered.returned other hother hreturned
    · cases hruns with
      | returned stop => exact stop
      | _ => cases hreturned
  · cases hpoint with
    | rest slot live => exact .rest slot (hlive.trans live)
    | first slot live => exact .first slot (hlive.trans live)
    | again slot live => exact .again slot (hlive.trans live)
    | read slot live => exact .read slot (hlive.trans live)
    | store slot live => exact .store slot (hlive.trans live)
    | spawn slot live fresh => exact .spawn slot (hlive.trans live) fresh

/-! ### Steps of a restart -/

/-- A restart only ever adds tasks and cancels tokens. -/
theorem restartCover_grows (hstep : service.restartCover restart = (service', next)) :
    ∃ tasks tokens, service'.tasks = service.tasks ++ tasks ∧
      service'.cancelled = service.cancelled ++ tokens := by
  cases restart with
  | take =>
    simp only [restartCover] at hstep
    split at hstep
    · cases hstep
      exact ⟨[], _, (List.append_nil _).symm, rfl⟩
    · cases hstep
      exact ⟨[], [], (List.append_nil _).symm, (List.append_nil _).symm⟩
  | spawn mode token =>
    cases hstep
    exact ⟨_, [], rfl, (List.append_nil _).symm⟩
  | _ =>
    cases hstep
    exact ⟨[], [], (List.append_nil _).symm, (List.append_nil _).symm⟩

theorem Good.new (config : AnonymousTransportConfig) : Good (.new config) (some .take) :=
  ⟨⟨nofun, nofun, nofun⟩, .first rfl rfl⟩

theorem Good.configure (h : Good service none) (config : AnonymousTransportConfig) :
    Good { service with config } (some .take) := by
  obtain ⟨hnumbered, hpoint⟩ := h
  cases hpoint with
  | rest slot live =>
    exact ⟨⟨hnumbered.cancelled, hnumbered.slot, hnumbered.returned⟩, .again slot live⟩

theorem Good.step (h : Good service (some restart))
    (hstep : service.restartCover restart = (service', next)) :
    Good service' next := by
  obtain ⟨hnumbered, hpoint⟩ := h
  cases hpoint with
  | first slot live =>
    simp only [restartCover, slot, Prod.mk.injEq] at hstep
    obtain ⟨rfl, rfl⟩ := hstep
    exact ⟨hnumbered, .read slot live⟩
  | @again mode token slot live =>
    simp only [restartCover, slot, Prod.mk.injEq] at hstep
    obtain ⟨rfl, rfl⟩ := hstep
    refine ⟨⟨?_, nofun, ?_⟩, .read rfl ?_⟩
    · intro other hother
      rcases List.mem_append.mp hother with hother | hother
      · exact hnumbered.cancelled other hother
      · rw [List.mem_singleton.mp hother]
        exact hnumbered.slot token slot
    · intro task htask hreturned
      exact List.mem_append_left _ (hnumbered.returned task htask hreturned)
    · rw [live_cancel, live]
      simp
  | read slot live =>
    simp only [restartCover, Prod.mk.injEq] at hstep
    obtain ⟨rfl, rfl⟩ := hstep
    exact ⟨hnumbered, .store slot live⟩
  | store slot live =>
    simp only [restartCover, Prod.mk.injEq] at hstep
    obtain ⟨rfl, rfl⟩ := hstep
    have hfresh : service.tokens ∉ service.cancelled :=
      fun hmem => Nat.lt_irrefl _ (hnumbered.cancelled _ hmem)
    refine ⟨⟨?_, ?_, hnumbered.returned⟩, .spawn rfl live hfresh⟩
    · exact fun token hmem => Nat.lt_succ_of_lt (hnumbered.cancelled token hmem)
    · intro token hslot
      rw [← Option.some.inj hslot]
      exact Nat.lt_succ_self _
  | @spawn token slot live fresh =>
    simp only [restartCover, Prod.mk.injEq] at hstep
    obtain ⟨rfl, rfl⟩ := hstep
    refine ⟨⟨hnumbered.cancelled, hnumbered.slot, ?_⟩, .rest slot ?_⟩
    · intro task htask hreturned
      rcases List.mem_append.mp htask with htask | htask
      · exact hnumbered.returned task htask hreturned
      · rw [List.mem_singleton.mp htask] at hreturned
        cases hreturned
    · show List.filter _ (List.map _ (service.tasks ++ [_])) = _
      rw [List.map_append, List.filter_append]
      show service.live ++ _ = _
      rw [live, List.nil_append]
      simp [fresh, CoverTraffic.new]

theorem Good.unstopped_le_one {at? : Option Restart} (h : Good service at?) :
    service.unstopped.length ≤ 1 := by
  have hlength := congrArg List.length h.numbered.unstopped
  rw [List.length_map] at hlength
  rw [hlength]
  cases h.point <;> simp [*]

theorem Good.unstopped_rest (h : Good service none) :
    service.unstopped.map (·.mode) = [service.config.powerMode] := by
  have hmodes := congrArg (List.map Prod.fst) h.numbered.unstopped
  rw [List.map_map] at hmodes
  refine hmodes.trans ?_
  cases h.point with
  | rest slot live => rw [live, List.map_singleton]

end CoverService

/-! ## What a step does -/

/-- The service that a connection has made and not stored. -/
def Call.own? : Call → Option ServiceId
  | starting s _ => some s
  | started s => some s
  | _ => none

/-- The service that a call with the lock works on. -/
def Call.held? : Call → Option ServiceId
  | configuring s _ => some s
  | restarting s _ => some s
  | _ => none

/-- The restart that a call is in. -/
def Call.restart? : Call → Option (ServiceId × Restart)
  | starting s restart => some (s, restart)
  | restarting s restart => some (s, restart)
  | _ => none

/-- The configuration that a call hands on. -/
def Call.config? : Call → Option AnonymousTransportConfig
  | connecting _ config => some config
  | waiting config => some config
  | configuring _ config => some config
  | _ => none

/-- The call has a configuration that it has not handed to the current service yet. -/
def Call.setting : Call → Bool
  | waiting _ => true
  | configuring _ _ => true
  | _ => false

/-- Where a call stands after a step of the restart it is in. -/
inductive Call.Restarts (s : ServiceId) : Call → Option Restart → Option Call → Prop
  | starting {restart next} : Restarts s (.starting s restart) (some next) (some (.starting s next))
  | started {restart} : Restarts s (.starting s restart) none (some (.started s))
  | restarting {restart next} :
      Restarts s (.restarting s restart) (some next) (some (.restarting s next))
  | restarted {restart} : Restarts s (.restarting s restart) none none

namespace CoverClient

/-- The transitions. The lock is given back with the last step of a restart that has it. -/
inductive Moves (c : CoverClient) : CoverAction → CoverClient → Prop
  | connect {bootstrap} :
      Moves c (.connect bootstrap) (c.begin (.connecting bootstrap c.anonymousConfig))
  | setConfig {config} :
      Moves c (.setConfig config) ({ c with anonymousConfig := config }.begin (.waiting config))
  | refused {k bootstrap config} (at_k : c.calls k = some (.connecting bootstrap config)) :
      Moves c (.advance k) (c.move k none)
  | created {k bootstrap config} (at_k : c.calls k = some (.connecting bootstrap config)) :
      Moves c (.advance k) { (c.setService c.nextService (.new config)).move k
        (some (.starting c.nextService .take)) with nextService := c.nextService + 1 }
  | stored {k s} (at_k : c.calls k = some (.started s)) (free : c.lock = none) :
      Moves c (.advance k) { c.move k none with anonymousService := some s }
  | ignored {k config} (at_k : c.calls k = some (.waiting config))
      (missing : c.anonymousService = none) : Moves c (.advance k) (c.move k none)
  | locked {k config s} (at_k : c.calls k = some (.waiting config)) (free : c.lock = none)
      (current : c.anonymousService = some s) :
      Moves c (.advance k) { c.move k (some (.configuring s config)) with lock := some k }
  | configured {k s config service} (at_k : c.calls k = some (.configuring s config))
      (known : c.services s = some service) :
      Moves c (.advance k)
        ((c.setService s { service with config }).move k (some (.restarting s .take)))
  | restarts {k s call restart next call' service service' lock} (at_k : c.calls k = some call)
      (inside : call.restart? = some (s, restart)) (goes : call.Restarts s next call')
      (known : c.services s = some service)
      (restarted : service.restartCover restart = (service', next))
      (unlocks : lock = c.lock ∨ lock = none ∧ call.held? = some s ∧ call' = none) :
      Moves c (.advance k) { (c.setService s service').move k call' with lock }
  | task {s i event service task task' service'} (known : c.services s = some service)
      (ticks : service.Ticks i task task' service') :
      Moves c (.task s i event) (c.setService s service')

variable {c d : CoverClient} {a : CoverAction} {k k' : CallId} {s s' : ServiceId}
  {service service' : CoverService} {call : Call} {restart : Restart}

theorem moves_of_step (h : c.step a = some d) : Moves c a d := by
  cases a with
  | connect bootstrap =>
    cases h
    exact .connect
  | setConfig config =>
    cases h
    exact .setConfig
  | advance k =>
    simp only [step] at h
    split at h
    · cases h
    · next call hcall =>
      cases call with
      | connecting bootstrap config =>
        simp only [advance] at h
        split at h
        · cases h
          exact .refused hcall
        · cases h
          exact .created hcall
      | starting s restart =>
        simp only [advance] at h
        split at h
        · cases h
        · next hservice =>
          split at h
          · next hrestart =>
            cases h
            exact .restarts hcall rfl .starting hservice hrestart (.inl rfl)
          · next hrestart =>
            cases h
            exact .restarts hcall rfl .started hservice hrestart (.inl rfl)
      | started s =>
        simp only [advance] at h
        split at h
        · cases h
        · next hlock =>
          cases h
          exact .stored hcall hlock
      | waiting config =>
        simp only [advance] at h
        split at h
        · cases h
        · next hlock =>
          split at h
          · next hnone =>
            cases h
            exact .ignored hcall hnone
          · next hsome =>
            cases h
            exact .locked hcall hlock hsome
      | configuring s config =>
        simp only [advance] at h
        split at h
        · cases h
        · next hservice =>
          cases h
          exact .configured hcall hservice
      | restarting s restart =>
        simp only [advance] at h
        split at h
        · cases h
        · next hservice =>
          split at h
          · next hrestart =>
            cases h
            exact .restarts hcall rfl .restarting hservice hrestart (.inl rfl)
          · next hrestart =>
            cases h
            exact .restarts hcall rfl .restarted hservice hrestart (.inr ⟨rfl, rfl, rfl⟩)
  | task s i event =>
    simp only [step] at h
    split at h
    · cases h
    · next hservice =>
      obtain ⟨service', hstep, rfl⟩ := Option.map_eq_some_iff.mp h
      obtain ⟨task, task', hticks⟩ := CoverService.ticks_of_stepTask hstep
      exact .task hservice hticks

/-! ## Who works on a service -/

theorem bind_eq_some {α : Type} {f : Call → Option α} {x : α} (hcall : c.calls k = some call)
    (hx : f call = some x) : (c.calls k).bind f = some x := by
  rw [hcall]
  exact hx

/-- A service is worked on by the connection that made it until it is stored, and by the call with the
lock while it is the current one. -/
structure Owned (c : CoverClient) : Prop where
  free : ∀ k, c.nextCall ≤ k → c.calls k = none
  known : ∀ s, c.nextService ≤ s → c.services s = none
  current : ∀ s, c.anonymousService = some s → s < c.nextService
  own : ∀ k call s, c.calls k = some call → call.own? = some s →
    s < c.nextService ∧ c.anonymousService ≠ some s
  one : ∀ k k' call call' s, c.calls k = some call → c.calls k' = some call' →
    call.own? = some s → call'.own? = some s → k = k'
  held : ∀ k call s, c.calls k = some call → call.held? = some s →
    c.lock = some k ∧ c.anonymousService = some s

theorem Owned.start : Owned start :=
  ⟨fun _ _ => rfl, fun _ _ => rfl, nofun, nofun, nofun, nofun⟩

namespace Owned

theorem lt_nextCall (h : Owned c) (hcall : c.calls k = some call) : k < c.nextCall := by
  by_contra hge
  rw [h.free k (not_lt.mp hge)] at hcall
  cases hcall

theorem lt_nextService (h : Owned c) (hservice : c.services s = some service) :
    s < c.nextService := by
  by_contra hge
  rw [h.known s (not_lt.mp hge)] at hservice
  cases hservice

theorem known_setService (h : Owned c) (hservice : c.services s = some service) (s' : ServiceId)
    (hs' : c.nextService ≤ s') : Function.update c.services s (some service') s' = none := by
  have hne : s' ≠ s := (Nat.lt_of_lt_of_le (h.lt_nextService hservice) hs').ne'
  exact (Function.update_of_ne hne _ _).trans (h.known s' hs')

/-- A call is in a restart of its own service or, with the lock, of the current one. -/
theorem of_restart (h : Owned c) (hcall : c.calls k = some call)
    (hrestart : call.restart? = some (s, restart)) :
    call.own? = some s ∨ c.lock = some k ∧ c.anonymousService = some s := by
  cases call with
  | starting => exact .inl (congrArg (Option.map Prod.fst) hrestart)
  | restarting => exact .inr (h.held k _ s hcall (congrArg (Option.map Prod.fst) hrestart))
  | _ => cases hrestart

theorem alone (h : Owned c) {call' : Call} (hcall : c.calls k = some call)
    (hcall' : c.calls k' = some call') (hrestart : call.restart? = some (s, restart))
    (hworks : call'.own? = some s ∨ c.lock = some k' ∧ c.anonymousService = some s) : k = k' := by
  rcases h.of_restart hcall hrestart with hown | ⟨hlock, hcurrent⟩ <;>
    rcases hworks with hown' | ⟨hlock', hcurrent'⟩
  · exact h.one k k' call call' s hcall hcall' hown hown'
  · exact absurd hcurrent' (h.own k call s hcall hown).2
  · exact absurd hcurrent (h.own k' call' s hcall' hown').2
  · exact Option.some.inj (hlock.symm.trans hlock')

theorem update (h : Owned c) {config : AnonymousTransportConfig} {nextCall : CallId}
    {new : Option Call} {services : ServiceId → Option CoverService} {lock : Option CallId}
    (hk : k < nextCall) (hnext : c.nextCall ≤ nextCall)
    (hown : ∀ call s, new = some call → call.own? = some s →
      ∃ old, c.calls k = some old ∧ old.own? = some s)
    (hheld : ∀ call s, new = some call → call.held? = some s →
      lock = some k ∧ c.anonymousService = some s)
    (hlock : ∀ k' call s, k' ≠ k → c.calls k' = some call → call.held? = some s →
      lock = some k')
    (hservices : ∀ s, c.nextService ≤ s → services s = none) :
    Owned { c with
      anonymousConfig := config, lock, services, calls := Function.update c.calls k new,
      nextCall } := by
  have howns : ∀ k' call s, Function.update c.calls k new k' = some call → call.own? = some s →
      ∃ old, c.calls k' = some old ∧ old.own? = some s := by
    intro k' call s hcall hs
    rcases Lib.of_update hcall with ⟨rfl, hnew⟩ | ⟨-, hcall⟩
    · exact hown call s hnew hs
    · exact ⟨call, hcall, hs⟩
  refine ⟨?_, hservices, h.current, ?_, ?_, ?_⟩
  · intro k' hk'
    have hne : k' ≠ k := (Nat.lt_of_lt_of_le hk hk').ne'
    exact (Function.update_of_ne hne _ _).trans (h.free k' (hnext.trans hk'))
  · intro k' call s hcall hs
    obtain ⟨old, hold, hs⟩ := howns k' call s hcall hs
    exact h.own k' old s hold hs
  · intro k' k'' call call' s hcall hcall' hs hs'
    obtain ⟨old, hold, hs⟩ := howns k' call s hcall hs
    obtain ⟨old', hold', hs'⟩ := howns k'' call' s hcall' hs'
    exact h.one k' k'' old old' s hold hold' hs hs'
  · intro k' call s hcall hs
    rcases Lib.of_update hcall with ⟨rfl, hnew⟩ | ⟨hne, hcall⟩
    · exact hheld call s hnew hs
    · exact ⟨hlock k' call s hne hcall hs, (h.held k' call s hcall hs).2⟩

theorem ends (h : Owned c) (hcall : c.calls k = some call) : Owned (c.move k none) :=
  h.update (h.lt_nextCall hcall) le_rfl nofun nofun
    (fun k' call s _ hcall hs => (h.held k' call s hcall hs).1) h.known

theorem begins (h : Owned c) (config : AnonymousTransportConfig) (hown : call.own? = none)
    (hheld : call.held? = none) : Owned ({ c with anonymousConfig := config }.begin call) := by
  refine h.update (Nat.lt_succ_self _) (Nat.le_succ _) ?_ ?_
    (fun k' call s _ hcall hs => (h.held k' call s hcall hs).1) h.known
  · rintro _ s ⟨⟩ hs
    rw [hown] at hs
    cases hs
  · rintro _ s ⟨⟩ hs
    rw [hheld] at hs
    cases hs

theorem created (h : Owned c) {bootstrap : TransportBootstrap} {config : AnonymousTransportConfig}
    (hcall : c.calls k = some (.connecting bootstrap config)) :
    Owned { (c.setService c.nextService (.new config)).move k
      (some (.starting c.nextService .take)) with nextService := c.nextService + 1 } := by
  have hends := h.ends hcall
  -- the new service is beyond all services that are in use
  have hnew : ∀ k' call s, Function.update c.calls k (some (.starting c.nextService .take)) k' =
      some call → call.own? = some s →
      k' = k ∧ s = c.nextService ∨ c.calls k' = some call ∧ s < c.nextService := by
    intro k' call s hcall' hs
    rcases Lib.of_update hcall' with ⟨rfl, ⟨⟩⟩ | ⟨-, hcall'⟩
    · exact .inl ⟨rfl, (Option.some.inj hs).symm⟩
    · exact .inr ⟨hcall', (h.own k' call s hcall' hs).1⟩
  refine ⟨?_, ?_, fun s hs => Nat.lt_succ_of_lt (h.current s hs), ?_, ?_, ?_⟩
  · intro k' hk'
    have hne : k' ≠ k := (Nat.lt_of_lt_of_le (h.lt_nextCall hcall) hk').ne'
    exact (Function.update_of_ne hne _ _).trans (h.free k' hk')
  · intro s hs
    exact (Function.update_of_ne (Nat.lt_of_succ_le hs).ne' _ _).trans
      (h.known s (Nat.le_of_succ_le hs))
  · intro k' call s hcall' hs
    rcases hnew k' call s hcall' hs with ⟨-, rfl⟩ | ⟨hcall', hlt⟩
    · exact ⟨Nat.lt_succ_self _, fun hs => Nat.lt_irrefl _ (h.current _ hs)⟩
    · exact ⟨Nat.lt_succ_of_lt hlt, (h.own k' call s hcall' hs).2⟩
  · intro k' k'' call call' s hcall' hcall'' hs hs'
    rcases hnew k' call s hcall' hs with ⟨rfl, hs₀⟩ | ⟨hcall', hlt⟩ <;>
      rcases hnew k'' call' s hcall'' hs' with ⟨rfl, hs₁⟩ | ⟨hcall'', hlt'⟩
    · rfl
    · exact absurd hs₀ hlt'.ne
    · exact absurd hs₁ hlt.ne
    · exact h.one k' k'' call call' s hcall' hcall'' hs hs'
  · intro k' call s hcall' hs
    rcases Lib.of_update hcall' with ⟨rfl, ⟨⟩⟩ | ⟨-, hcall'⟩
    · cases hs
    · exact h.held k' call s hcall' hs

theorem stored (h : Owned c) (hcall : c.calls k = some (.started s)) (hfree : c.lock = none) :
    Owned { c.move k none with anonymousService := some s } := by
  have hends := h.ends hcall
  refine ⟨hends.free, hends.known, ?_, ?_, hends.one, ?_⟩
  · rintro _ ⟨⟩
    exact (h.own k _ s hcall rfl).1
  · intro k' call s' hcall' hs'
    refine ⟨(hends.own k' call s' hcall' hs').1, ?_⟩
    rintro ⟨⟩
    -- only this connection worked on the service
    rcases Lib.of_update hcall' with ⟨-, ⟨⟩⟩ | ⟨hne, hcall'⟩
    exact hne (h.one k' k call _ s hcall' hcall hs' rfl)
  · intro k' call s' hcall' hs'
    have hlock : c.lock = some k' := (hends.held k' call s' hcall' hs').1
    rw [hfree] at hlock
    cases hlock

theorem moves (h : Owned c) (hmove : Moves c a d) : Owned d := by
  have hlock : ∀ k k' call s, k' ≠ k → c.calls k' = some call → call.held? = some s →
      c.lock = some k' := fun _ k' call s _ hcall hs => (h.held k' call s hcall hs).1
  cases hmove with
  | connect => exact h.begins c.anonymousConfig rfl rfl
  | setConfig => exact h.begins _ rfl rfl
  | refused at_k => exact h.ends at_k
  | created at_k => exact h.created at_k
  | stored at_k free => exact h.stored at_k free
  | ignored at_k missing => exact h.ends at_k
  | locked at_k free current =>
    refine h.update (h.lt_nextCall at_k) le_rfl ?_ ?_ ?_ h.known
    · rintro _ s ⟨⟩ ⟨⟩
    · rintro _ s ⟨⟩ ⟨⟩
      exact ⟨rfl, current⟩
    · intro k' call s hne hcall hs
      rw [hlock _ k' call s hne hcall hs] at free
      cases free
  | configured at_k known =>
    refine h.update (h.lt_nextCall at_k) le_rfl ?_ ?_ (hlock _) (h.known_setService known)
    · rintro _ s ⟨⟩ ⟨⟩
    · rintro _ s ⟨⟩ ⟨⟩
      exact h.held _ _ _ at_k rfl
  | @restarts k s call restart next call' service service' lock at_k inside goes known restarted
      unlocks =>
    refine h.update (h.lt_nextCall at_k) le_rfl ?_ ?_ ?_ (h.known_setService known)
    · rintro new s' rfl hs'
      cases goes with
      | starting => exact ⟨_, at_k, hs'⟩
      | started => exact ⟨_, at_k, hs'⟩
      | restarting => cases hs'
    · rintro new s' rfl hs'
      cases goes with
      | restarting =>
        rcases unlocks with rfl | ⟨-, -, ⟨⟩⟩
        exact h.held _ _ _ at_k hs'
      | _ => cases hs'
    · intro k' other s' hne hcall' hs'
      have hholds := hlock k k' other s' hne hcall' hs'
      rcases unlocks with rfl | ⟨-, hheld, -⟩
      · exact hholds
      · rw [(h.held k call s at_k hheld).1] at hholds
        exact absurd (Option.some.inj hholds).symm hne
  | task known ticks =>
    exact ⟨h.free, h.known_setService known, h.current, h.own, h.one, h.held⟩

end Owned

/-! ## Restarts -/

/-- Every service is where the call that restarts it says, and at rest if there is none. -/
structure Points (services : ServiceId → Option CoverService) (calls : CallId → Option Call) :
    Prop where
  restart : ∀ k call s restart, calls k = some call → call.restart? = some (s, restart) →
    ∃ service, services s = some service ∧ service.Good (some restart)
  rest : ∀ s service, services s = some service →
    (∀ k call restart, calls k = some call → call.restart? ≠ some (s, restart)) →
    service.Good none

namespace Points

variable {services : ServiceId → Option CoverService} {calls : CallId → Option Call}
  {new : Option Call}

/-- A call outside of restarts goes on outside of them. -/
theorem quiet (h : Points services calls) (hold : ∀ call, calls k = some call → call.restart? = none)
    (hnew : ∀ call, new = some call → call.restart? = none) :
    Points services (Function.update calls k new) := by
  constructor
  · intro k' call s restart hcall hrestart
    rcases Lib.of_update hcall with ⟨-, hcall⟩ | ⟨-, hcall⟩
    · rw [hnew call hcall] at hrestart
      cases hrestart
    · exact h.restart k' call s restart hcall hrestart
  · intro s service hservice hnone
    refine h.rest s service hservice fun k' call restart hcall hrestart => ?_
    have hne : k' ≠ k := by
      rintro rfl
      rw [hold call hcall] at hrestart
      cases hrestart
    exact hnone k' call restart ((Function.update_of_ne hne _ _).trans hcall) hrestart

/-- A service changes that no call restarts but `k`, which goes on in its restart, into one or out of
it. -/
theorem turn (h : Points services calls) {n : Option Restart}
    (hold : ∀ call s' restart, calls k = some call → call.restart? = some (s', restart) → s' = s)
    (halone : ∀ k' call restart, k' ≠ k → calls k' = some call → call.restart? ≠ some (s, restart))
    (hgood : service.Good n) (hnew : new.bind Call.restart? = n.map (s, ·)) :
    Points (Function.update services s (some service)) (Function.update calls k new) := by
  constructor
  · intro k' call s' restart hcall hrestart
    rcases Lib.of_update hcall with ⟨-, rfl⟩ | ⟨hne, hcall⟩
    · rw [Option.bind_some, hrestart] at hnew
      obtain ⟨restart', hnext, heq⟩ := Option.map_eq_some_iff.mp hnew.symm
      obtain ⟨rfl, rfl⟩ := Prod.mk.inj heq
      exact ⟨service, Function.update_self _ _ _, hnext ▸ hgood⟩
    · obtain ⟨service', hservice', hgood'⟩ := h.restart k' call s' restart hcall hrestart
      have hs' : s' ≠ s := fun heq => halone k' call restart hne hcall (heq ▸ hrestart)
      exact ⟨service', (Function.update_of_ne hs' _ _).trans hservice', hgood'⟩
  · intro s' service' hservice' hnone
    rcases Lib.of_update hservice' with ⟨rfl, ⟨⟩⟩ | ⟨hs', hservice'⟩
    · cases n with
      | none => exact hgood
      | some restart =>
        obtain ⟨call, hcall, hrestart⟩ := Option.bind_eq_some_iff.mp hnew
        exact absurd hrestart (hnone k call restart ((Function.update_self _ _ _).trans hcall))
    · refine h.rest s' service' hservice' fun k' call restart hcall hrestart => ?_
      by_cases hk' : k' = k
      · subst hk'
        exact hs' (hold call s' restart hcall hrestart)
      · exact hnone k' call restart ((Function.update_of_ne hk' _ _).trans hcall) hrestart

theorem ticks (h : Points services calls) {i : Nat} {task task' : CoverTraffic}
    (hservice : services s = some service) (hticks : service.Ticks i task task' service') :
    Points (Function.update services s (some service')) calls := by
  constructor
  · intro k call s' restart hcall hrestart
    obtain ⟨service₀, hservice₀, hgood⟩ := h.restart k call s' restart hcall hrestart
    by_cases hs' : s' = s
    · subst hs'
      obtain rfl := Option.some.inj (hservice.symm.trans hservice₀)
      exact ⟨service', Function.update_self _ _ _, hgood.ticks hticks⟩
    · exact ⟨service₀, (Function.update_of_ne hs' _ _).trans hservice₀, hgood⟩
  · intro s' service₀ hservice₀ hnone
    rcases Lib.of_update hservice₀ with ⟨rfl, ⟨⟩⟩ | ⟨-, hservice₀⟩
    · exact (h.rest _ service hservice hnone).ticks hticks
    · exact h.rest s' service₀ hservice₀ hnone

theorem moves (h : Points c.services c.calls) (howned : Owned c) (hmove : Moves c a d) :
    Points d.services d.calls := by
  have hquiet : ∀ {k call}, c.calls k = some call → call.restart? = none →
      ∀ call', c.calls k = some call' → call'.restart? = none := by
    intro k call hcall hnone call' hcall'
    exact Option.some.inj (hcall.symm.trans hcall') ▸ hnone
  have hfresh : ∀ call, c.calls c.nextCall = some call → call.restart? = none := by
    intro call hcall
    exact absurd (howned.lt_nextCall hcall) (Nat.lt_irrefl _)
  cases hmove with
  | connect => exact h.quiet hfresh (by rintro _ ⟨⟩; rfl)
  | setConfig => exact h.quiet hfresh (by rintro _ ⟨⟩; rfl)
  | refused at_k => exact h.quiet (hquiet at_k rfl) nofun
  | @created k bootstrap config at_k =>
    refine h.turn (n := some .take) ?_ ?_ (.new config) rfl
    · intro call s' restart hcall hrestart
      rw [hquiet at_k rfl call hcall] at hrestart
      cases hrestart
    · intro k' call restart _ hcall hrestart
      obtain ⟨service, hservice, -⟩ := h.restart k' call _ restart hcall hrestart
      rw [howned.known _ le_rfl] at hservice
      cases hservice
  | stored at_k free => exact h.quiet (hquiet at_k rfl) nofun
  | ignored at_k missing => exact h.quiet (hquiet at_k rfl) nofun
  | locked at_k free current => exact h.quiet (hquiet at_k rfl) (by rintro _ ⟨⟩; rfl)
  | @configured k s config service at_k known =>
    have halone : ∀ k' call restart, k' ≠ k → c.calls k' = some call →
        call.restart? ≠ some (s, restart) := fun k' call restart hne hcall hrestart =>
      hne (howned.alone hcall at_k hrestart (.inr (howned.held k _ s at_k rfl)))
    have hold : ∀ call s' restart, c.calls k = some call →
        call.restart? ≠ some (s', restart) := by
      intro call s' restart hcall hrestart
      rw [hquiet at_k rfl call hcall] at hrestart
      cases hrestart
    refine h.turn (n := some .take) (fun call s' restart hcall hrestart =>
      absurd hrestart (hold call s' restart hcall)) halone ?_ rfl
    apply CoverService.Good.configure
    refine h.rest s service known fun k' call restart hcall hrestart => ?_
    by_cases hk' : k' = k
    · exact hold call s restart (hk' ▸ hcall) hrestart
    · exact halone k' call restart hk' hcall hrestart
  | @restarts k s call restart next call' service service' lock at_k inside goes known restarted
      unlocks =>
    refine h.turn ?_ ?_ ?_ (n := next) ?_
    · intro call₀ s' restart' hcall hrestart
      obtain rfl := Option.some.inj (at_k.symm.trans hcall)
      exact (Prod.mk.inj (Option.some.inj (inside.symm.trans hrestart))).1.symm
    · exact fun k' call₀ restart' hne hcall hrestart =>
        hne (howned.alone hcall at_k hrestart (howned.of_restart at_k inside))
    · obtain ⟨service₀, hservice₀, hgood⟩ := h.restart k call s restart at_k inside
      obtain rfl := Option.some.inj (known.symm.trans hservice₀)
      exact hgood.step restarted
    · cases goes <;> rfl
  | task known ticks => exact h.ticks known ticks

end Points

theorem points_start : Points start.services start.calls :=
  ⟨nofun, nofun⟩

theorem owned_points (run : Run step (fun _ _ => True) start c) :
    Owned c ∧ Points c.services c.calls :=
  run.invariant (I := fun c => Owned c ∧ Points c.services c.calls) ⟨.start, points_start⟩
    fun ⟨howned, hpoints⟩ _ hstep =>
      ⟨howned.moves (moves_of_step hstep), hpoints.moves howned (moves_of_step hstep)⟩

theorem Points.good_rest (h : Points c.services c.calls) (hservice : c.services s = some service)
    (hnone : ∀ k restart, (c.calls k).bind Call.restart? ≠ some (s, restart)) :
    service.Good none :=
  h.rest s service hservice fun k _ restart hcall hrestart =>
    hnone k restart (bind_eq_some hcall hrestart)

/-! ## Tasks that were told to stop -/

inductive Changes (service : CoverService) : CoverService → Prop
  | same : Changes service service
  | configured {config} : Changes service { service with config }
  | restarted {restart service' next}
      (restarted : service.restartCover restart = (service', next)) : Changes service service'
  | ticked {i task task' service'} (ticks : service.Ticks i task task' service') :
      Changes service service'

theorem changes_update {service₀ service₁ : CoverService} (hservice : c.services s = some service)
    (known : c.services s' = some service₀) (hchange : Changes service₀ service₁) :
    ∃ service', Function.update c.services s' (some service₁) s = some service' ∧
      Changes service service' := by
  by_cases hs : s = s'
  · subst hs
    obtain rfl := Option.some.inj (hservice.symm.trans known)
    exact ⟨service₁, Function.update_self _ _ _, hchange⟩
  · exact ⟨service, (Function.update_of_ne hs _ _).trans hservice, .same⟩

theorem Moves.changes (hmove : Moves c a d) (howned : Owned c)
    (hservice : c.services s = some service) :
    ∃ service', d.services s = some service' ∧ Changes service service' := by
  cases hmove with
  | created at_k =>
    have hne : s ≠ c.nextService := (howned.lt_nextService hservice).ne
    exact ⟨service, (Function.update_of_ne hne _ _).trans hservice, .same⟩
  | configured at_k known => exact changes_update hservice known .configured
  | restarts at_k inside goes known restarted unlocks =>
    exact changes_update hservice known (.restarted restarted)
  | task known ticks => exact changes_update hservice known (.ticked ticks)
  | _ => exact ⟨service, hservice, .same⟩

/-- The `i`-th task was told to stop and calls `fetch_all` at most `n` times in all. -/
def Ending (i n : Nat) (service : CoverService) : Prop :=
  ∃ task, service.tasks[i]? = some task ∧ task.cancel ∈ service.cancelled ∧
    CoverService.budget task ≤ n

theorem Ending.changes {i n : Nat} {service service' : CoverService} (h : Ending i n service)
    (hchange : Changes service service') : Ending i n service' := by
  obtain ⟨task, htask, hcancel, hbudget⟩ := h
  cases hchange with
  | same => exact ⟨task, htask, hcancel, hbudget⟩
  | configured => exact ⟨task, htask, hcancel, hbudget⟩
  | restarted restarted =>
    obtain ⟨tasks, tokens, htasks, htokens⟩ := CoverService.restartCover_grows restarted
    refine ⟨task, ?_, ?_, hbudget⟩
    · rw [htasks, List.getElem?_append_left (List.getElem?_eq_some_iff.mp htask).1, htask]
    · rw [htokens]
      exact List.mem_append_left _ hcancel
  | @ticked j other other' _ ticks =>
    obtain ⟨found, hruns, rfl⟩ := ticks
    by_cases hj : j = i
    · subst hj
      rw [htask] at found
      obtain rfl := Option.some.inj found
      have hlt := (List.getElem?_eq_some_iff.mp htask).1
      refine ⟨other', List.getElem?_set_self hlt, ?_, (hruns.budget_le hcancel).trans hbudget⟩
      rw [hruns.cancel]
      exact hcancel
    · exact ⟨task, (List.getElem?_set_ne hj).trans htask, hcancel, hbudget⟩

/-- From `c` on the `i`-th task of a service calls `fetch_all` at most `n` times more. -/
def FetchesAtMost (c : CoverClient) (s : ServiceId) (i n : Nat) : Prop :=
  ∀ d, Run step (fun _ _ => True) c d → ∀ service task service' task',
    c.services s = some service → service.tasks[i]? = some task →
    d.services s = some service' → service'.tasks[i]? = some task' →
    task'.fetches ≤ task.fetches + n

/-- A task that was told to stop while it slept may begin a fetch, any other one begins none. -/
theorem fetchesAtMost_of_cancelled (howned : Owned c) {s : ServiceId} {service : CoverService}
    (hservice : c.services s = some service) {i : Nat} {task : CoverTraffic}
    (htask : service.tasks[i]? = some task) (hcancel : task.cancel ∈ service.cancelled) :
    FetchesAtMost c s i (if task.phase = .asleep then 1 else 0) := by
  intro d later service₀ task₀ service' task' hservice₀ htask₀ hservice' htask'
  rw [hservice] at hservice₀
  obtain rfl := Option.some.inj hservice₀
  rw [htask] at htask₀
  obtain rfl := Option.some.inj htask₀
  have hinv : Owned d ∧ ∃ service', d.services s = some service' ∧
      Ending i (CoverService.budget task) service' :=
    later.invariant
      (I := fun d => Owned d ∧ ∃ service', d.services s = some service' ∧
        Ending i (CoverService.budget task) service')
      ⟨howned, service, hservice, task, htask, hcancel, le_rfl⟩
      fun ⟨howned, _, hknown, hending⟩ _ hstep =>
        have hmove := moves_of_step hstep
        have ⟨service', hnow, hchange⟩ := hmove.changes howned hknown
        ⟨howned.moves hmove, service', hnow, hending.changes hchange⟩
  obtain ⟨-, service₁, hservice₁, task₁, htask₁, -, hbudget⟩ := hinv
  rw [hservice'] at hservice₁
  obtain rfl := Option.some.inj hservice₁
  rw [htask'] at htask₁
  obtain rfl := Option.some.inj htask₁
  exact (Nat.le_add_right _ _).trans hbudget

/-- In every run a service has at most one cover task that was not told to stop, and exactly one, in the
mode of its configuration, when no call is restarting it. The others may still be inside `fetch_all`,
but begin at most one more, and none unless they were asleep. -/
theorem cover_one_per_service (run : Run step (fun _ _ => True) start c) {s : ServiceId}
    {service : CoverService} (hservice : c.services s = some service) :
    service.unstopped.length ≤ 1 ∧
      ((∀ k restart, (c.calls k).bind Call.restart? ≠ some (s, restart)) →
        service.unstopped.map (·.mode) = [service.config.powerMode]) ∧
      ∀ i task, service.tasks[i]? = some task → task.cancel ∈ service.cancelled →
        FetchesAtMost c s i (if task.phase = .asleep then 1 else 0) := by
  obtain ⟨howned, hpoints⟩ := owned_points run
  refine ⟨?_, fun hnone => (hpoints.good_rest hservice hnone).unstopped_rest,
    fun i task htask hcancel => fetchesAtMost_of_cancelled howned hservice htask hcancel⟩
  by_cases hnone : ∀ k restart, (c.calls k).bind Call.restart? ≠ some (s, restart)
  · exact (hpoints.good_rest hservice hnone).unstopped_le_one
  · push Not at hnone
    obtain ⟨k, restart, hcall⟩ := hnone
    obtain ⟨call, hcall, hrestart⟩ := Option.bind_eq_some_iff.mp hcall
    obtain ⟨service', hservice', hgood⟩ := hpoints.restart k call s restart hcall hrestart
    obtain rfl := Option.some.inj (hservice.symm.trans hservice')
    exact hgood.unstopped_le_one

/-- No call is under way. -/
def idle (c : CoverClient) : Bool :=
  (List.range c.nextCall).all fun k => (c.calls k).isNone

theorem Owned.calls_eq_none (h : Owned c) (hidle : c.idle = true) (k : CallId) : c.calls k = none := by
  rcases Nat.lt_or_ge k c.nextCall with hlt | hge
  · exact Option.isNone_iff_eq_none.mp (List.all_eq_true.mp hidle k (List.mem_range.mpr hlt))
  · exact h.free k hge

/-- A connection that gets its anonymous transport, as call `k`. -/
def connection (k : CallId) : List CoverAction :=
  .connect ⟨.ofNat 1, capabilitySignedInbox⟩ :: List.replicate 6 (.advance k)

def turnOff (k : CallId) : List CoverAction :=
  .setConfig (.ofSettings false []) :: List.replicate 6 (.advance k)

/-- A configuration is set while the task is inside `fetch_all`: it goes on beside the new one, and
fetches no more. -/
theorem cover_one_per_service_connected :
    ∃ c service, exec step (fun _ _ => True) start
        (connection 0 ++ [.task 0 0 .scheduled, .task 0 0 .elapsed] ++
          turnOff 1) = some c ∧
      c.services 0 = some service ∧ service.running.map (·.mode) = [.desktop, .batterySaver] ∧
      service.unstopped.map (·.mode) = [.batterySaver] ∧ FetchesAtMost c 0 0 0 := by
  obtain ⟨c, hexec, hservice, hidle⟩ :
      ∃ c, exec step (fun _ _ => True) start
          (connection 0 ++ [.task 0 0 .scheduled, .task 0 0 .elapsed] ++
            turnOff 1) = some c ∧
        c.services 0 = some ⟨.ofSettings false [], some 1, 2, [0],
          [⟨.desktop, 0, .fetching, 1⟩, ⟨.batterySaver, 1, .head, 0⟩]⟩ ∧ c.idle = true :=
    ⟨_, rfl, rfl, rfl⟩
  obtain ⟨-, hrest, hothers⟩ := cover_one_per_service (Run.of_exec hexec) hservice
  refine ⟨c, _, hexec, hservice, by decide, hrest ?_, hothers 0 _ rfl (by decide)⟩
  intro k restart hcall
  rw [(owned_points (Run.of_exec hexec)).1.calls_eq_none hidle k] at hcall
  cases hcall

/-! ## Services that were replaced -/

/-- Only the tasks of a service have gone on. -/
structure Same (service service' : CoverService) : Prop where
  config : service'.config = service.config
  cancelled : service'.cancelled = service.cancelled
  spawned : service'.spawned = service.spawned

theorem Same.ticks {service'' : CoverService} {i : Nat} {task task' : CoverTraffic}
    (h : Same service service') (hticks : service'.Ticks i task task' service'') :
    Same service service'' := by
  refine ⟨?_, ?_, hticks.spawned.trans h.spawned⟩
  · rw [hticks.result]
    exact h.config
  · rw [hticks.result]
    exact h.cancelled

/-- Nothing refers to a service any more but its own tasks. -/
structure Left (c : CoverClient) (s : ServiceId) (service : CoverService) : Prop where
  known : ∃ service', c.services s = some service' ∧ Same service service'
  made : s < c.nextService
  current : c.anonymousService ≠ some s
  calls : ∀ k call, c.calls k = some call → call.own? ≠ some s ∧ call.held? ≠ some s

theorem Left.restart_ne (h : Left c s service) (hcall : c.calls k = some call) :
    call.restart? ≠ some (s, restart) := by
  intro hrestart
  obtain ⟨hown, hheld⟩ := h.calls k call hcall
  cases call with
  | starting => exact hown (congrArg (Option.map Prod.fst) hrestart)
  | restarting => exact hheld (congrArg (Option.map Prod.fst) hrestart)
  | _ => cases hrestart

theorem Left.calls_update (h : Left c s service) {new : Option Call}
    (hnew : ∀ call, new = some call → call.own? ≠ some s ∧ call.held? ≠ some s) (k' : CallId)
    (call : Call) (hcall : Function.update c.calls k new k' = some call) :
    call.own? ≠ some s ∧ call.held? ≠ some s := by
  rcases Lib.of_update hcall with ⟨-, hcall⟩ | ⟨-, hcall⟩
  · exact hnew call hcall
  · exact h.calls k' call hcall

theorem Left.moves (h : Left c s service) (hmove : Moves c a d) : Left d s service := by
  obtain ⟨service₀, hservice₀, hsame⟩ := h.known
  have hkept : ∀ {s'} {service₁ : CoverService}, s' ≠ s → ∃ service',
      Function.update c.services s' (some service₁) s = some service' ∧ Same service service' :=
    fun hne => ⟨service₀, (Function.update_of_ne hne.symm _ _).trans hservice₀, hsame⟩
  have hne : ∀ {s' : ServiceId}, s' ≠ s → some s' ≠ some s :=
    fun hne heq => hne (Option.some.inj heq)
  cases hmove with
  | connect =>
    exact ⟨h.known, h.made, h.current, h.calls_update (by rintro _ ⟨⟩; exact ⟨nofun, nofun⟩)⟩
  | setConfig =>
    exact ⟨h.known, h.made, h.current, h.calls_update (by rintro _ ⟨⟩; exact ⟨nofun, nofun⟩)⟩
  | refused at_k => exact ⟨h.known, h.made, h.current, h.calls_update nofun⟩
  | created at_k =>
    refine ⟨hkept h.made.ne', Nat.lt_succ_of_lt h.made, h.current, h.calls_update ?_⟩
    rintro _ ⟨⟩
    exact ⟨hne h.made.ne', nofun⟩
  | stored at_k free =>
    exact ⟨h.known, h.made, (h.calls _ _ at_k).1, h.calls_update nofun⟩
  | ignored at_k missing => exact ⟨h.known, h.made, h.current, h.calls_update nofun⟩
  | locked at_k free current =>
    refine ⟨h.known, h.made, h.current, h.calls_update ?_⟩
    rintro _ ⟨⟩
    exact ⟨nofun, fun heq => h.current (current.trans heq)⟩
  | configured at_k known =>
    have hs := (h.calls _ _ at_k).2
    refine ⟨hkept fun heq => hs (congrArg some heq), h.made, h.current, h.calls_update ?_⟩
    rintro _ ⟨⟩
    exact ⟨nofun, hs⟩
  | @restarts k s' call restart next call' service₁ service₂ lock at_k inside goes known restarted
      unlocks =>
    have hs : s' ≠ s := fun heq => h.restart_ne at_k (heq ▸ inside)
    refine ⟨hkept hs, h.made, h.current, h.calls_update ?_⟩
    rintro new rfl
    cases goes with
    | restarting => exact ⟨nofun, hne hs⟩
    | _ => exact ⟨hne hs, nofun⟩
  | @task s' i event service₁ task task' service₂ known ticks =>
    refine ⟨?_, h.made, h.current, h.calls⟩
    by_cases hs' : s' = s
    · subst hs'
      obtain rfl := Option.some.inj (hservice₀.symm.trans known)
      exact ⟨service₂, Function.update_self _ _ _, hsame.ticks ticks⟩
    · exact hkept hs'

/-- Once another connection has taken the place of a service, its cover task runs in its old mode for
good: no later call reaches the service, and its token is never cancelled. -/
theorem cover_outlives_service (run : Run step (fun _ _ => True) start c)
    (hservice : c.services s = some service) (hcurrent : c.anonymousService ≠ some s)
    (hown : ∀ k, (c.calls k).bind Call.own? ≠ some s) (later : Run step (fun _ _ => True) c d) :
    ∃ service', d.services s = some service' ∧ service'.config = service.config ∧
      service'.cancelled = service.cancelled ∧
      service'.unstopped.map (fun task => (task.mode, task.cancel)) =
        service.unstopped.map (fun task => (task.mode, task.cancel)) ∧
      service'.unstopped.map (·.mode) = [service.config.powerMode] := by
  obtain ⟨howned, hpoints⟩ := owned_points run
  have hleft : Left c s service := ⟨⟨service, hservice, rfl, rfl, rfl⟩,
    howned.lt_nextService hservice, hcurrent, fun k call hcall =>
      ⟨fun hs => hown k (bind_eq_some hcall hs),
        fun hs => hcurrent (howned.held k call s hcall hs).2⟩⟩
  have hend : Left d s service := later.invariant (I := fun d => Left d s service) hleft
    fun h _ hstep => h.moves (moves_of_step hstep)
  obtain ⟨service', hservice', hsame⟩ := hend.known
  have hgood := hpoints.rest s service hservice fun _ _ _ => hleft.restart_ne
  have hgood' := (owned_points (run.trans later)).2.rest s service' hservice'
    fun _ _ _ => hend.restart_ne
  refine ⟨service', hservice', hsame.config, hsame.cancelled, ?_,
    hsame.config ▸ hgood'.unstopped_rest⟩
  rw [hgood'.numbered.unstopped, hgood.numbered.unstopped, CoverService.live, CoverService.live,
    hsame.spawned, hsame.cancelled]

/-- After a second connection the user turns cover traffic off: the task of the first one goes on. -/
theorem cover_outlives_service_off :
    ∃ c d service service', exec step (fun _ _ => True) start (connection 0 ++ connection 1) = some c ∧
      exec step (fun _ _ => True) c
        (turnOff 2 ++ [.task 0 0 .scheduled, .task 0 0 .elapsed]) = some d ∧
      d.services 1 = some service' ∧ service'.unstopped.map (·.mode) = [.batterySaver] ∧
      d.services 0 = some service ∧ service.unstopped.map (·.mode) = [.desktop] := by
  obtain ⟨c, d, hexec, hlater, hservice, hcurrent, hidle, hservice'⟩ :
      ∃ c d, exec step (fun _ _ => True) start (connection 0 ++ connection 1) = some c ∧
        exec step (fun _ _ => True) c
          (turnOff 2 ++ [.task 0 0 .scheduled, .task 0 0 .elapsed]) = some d ∧
        c.services 0 = some ⟨.default, some 0, 1, [], [⟨.desktop, 0, .head, 0⟩]⟩ ∧
        c.anonymousService = some 1 ∧ c.idle = true ∧
        d.services 1 = some ⟨.ofSettings false [], some 1, 2, [0],
          [⟨.desktop, 0, .head, 0⟩, ⟨.batterySaver, 1, .head, 0⟩]⟩ :=
    ⟨_, _, rfl, rfl, rfl, rfl, rfl, rfl⟩
  have hother : c.anonymousService ≠ some 0 := by
    rw [hcurrent]
    decide
  have hown : ∀ k, (c.calls k).bind Call.own? ≠ some 0 := by
    intro k hcall
    rw [(owned_points (Run.of_exec hexec)).1.calls_eq_none hidle k] at hcall
    cases hcall
  obtain ⟨service, hservice₀, -, -, -, hunstopped⟩ :=
    cover_outlives_service (Run.of_exec hexec) hservice hother hown (Run.of_exec hlater)
  exact ⟨c, d, service, _, hexec, hlater, hservice', by decide, hservice₀, hunstopped⟩

/-! ## Configurations -/

/-- A configuration is set only while no other call is under way. -/
def calm (c : CoverClient) : CoverAction → Bool
  | .setConfig _ => c.idle
  | _ => true

def Has (services : ServiceId → Option CoverService) (config : AnonymousTransportConfig)
    (s : ServiceId) : Prop :=
  ∃ service, services s = some service ∧ service.config = config

section Has

variable {services : ServiceId → Option CoverService} {config : AnonymousTransportConfig}

theorem Has.update (h : Has services config s') (hnew : s' = s → service.config = config) :
    Has (Function.update services s (some service)) config s' := by
  by_cases hs : s' = s
  · subst hs
    exact ⟨service, Function.update_self _ _ _, hnew rfl⟩
  · obtain ⟨service', hservice', hconfig⟩ := h
    exact ⟨service', (Function.update_of_ne hs _ _).trans hservice', hconfig⟩

theorem Has.replace (h : Has services config s') (hservice : services s = some service)
    (hconfig : service'.config = service.config) :
    Has (Function.update services s (some service')) config s' := by
  refine h.update ?_
  rintro rfl
  obtain ⟨service₀, hservice₀, hconfig₀⟩ := h
  obtain rfl := Option.some.inj (hservice.symm.trans hservice₀)
  exact hconfig.trans hconfig₀

end Has

/-- Every call that is under way, and the current service once no call has a configuration for it, has
the configuration set last. -/
structure Followed (c : CoverClient) : Prop where
  carried : ∀ k call config, c.calls k = some call → call.config? = some config →
    config = c.anonymousConfig
  own : ∀ k call s, c.calls k = some call → call.own? = some s → Has c.services c.anonymousConfig s
  current : ∀ s, c.anonymousService = some s →
    (∃ k call, c.calls k = some call ∧ call.setting = true) ∨ Has c.services c.anonymousConfig s

namespace Followed

theorem start : Followed start :=
  ⟨nofun, nofun, nofun⟩

theorem update (h : Followed c) {nextCall : CallId} {new : Option Call} {lock : Option CallId}
    {current : Option ServiceId} {nextService : ServiceId}
    {services : ServiceId → Option CoverService}
    (hcarried : ∀ call config, new = some call → call.config? = some config →
      config = c.anonymousConfig)
    (hown : ∀ call s, new = some call → call.own? = some s → Has services c.anonymousConfig s)
    (hservices : ∀ s, Has c.services c.anonymousConfig s → Has services c.anonymousConfig s)
    (hcurrent : ∀ s, current = some s →
      (∃ k' call, Function.update c.calls k new k' = some call ∧ call.setting = true) ∨
        Has services c.anonymousConfig s) :
    Followed { c with
      anonymousService := current, lock, services, nextService,
      calls := Function.update c.calls k new, nextCall } := by
  refine ⟨?_, ?_, hcurrent⟩
  · intro k' call config hcall hconfig
    rcases Lib.of_update hcall with ⟨-, hcall⟩ | ⟨-, hcall⟩
    · exact hcarried call config hcall hconfig
    · exact h.carried k' call config hcall hconfig
  · intro k' call s hcall hs
    rcases Lib.of_update hcall with ⟨-, hcall⟩ | ⟨-, hcall⟩
    · exact hown call s hcall hs
    · exact hservices s (h.own k' call s hcall hs)

theorem current_update (h : Followed c) {new : Option Call}
    {services : ServiceId → Option CoverService}
    (hold : ∀ call, c.calls k = some call → call.setting = false)
    (hservices : ∀ s, Has c.services c.anonymousConfig s → Has services c.anonymousConfig s)
    (s : ServiceId) (hs : c.anonymousService = some s) :
    (∃ k' call, Function.update c.calls k new k' = some call ∧ call.setting = true) ∨
      Has services c.anonymousConfig s := by
  refine (h.current s hs).imp ?_ (hservices s)
  rintro ⟨k', call, hcall, hsetting⟩
  have hne : k' ≠ k := by
    rintro rfl
    rw [hold call hcall] at hsetting
    cases hsetting
  exact ⟨k', call, (Function.update_of_ne hne _ _).trans hcall, hsetting⟩

theorem moves (h : Followed c) (howned : Owned c) (hcalm : calm c a = true) (hmove : Moves c a d) :
    Followed d := by
  have hsame : ∀ {k call}, c.calls k = some call → call.setting = false →
      ∀ call', c.calls k = some call' → call'.setting = false := by
    intro k call hcall hsetting call' hcall'
    exact Option.some.inj (hcall.symm.trans hcall') ▸ hsetting
  have hid : ∀ s, Has c.services c.anonymousConfig s → Has c.services c.anonymousConfig s :=
    fun _ hs => hs
  cases hmove with
  | connect =>
    refine h.update ?_ ?_ hid (h.current_update ?_ hid)
    · rintro _ config ⟨⟩ ⟨⟩
      rfl
    · rintro _ s ⟨⟩ ⟨⟩
    · exact fun call hcall => absurd (howned.lt_nextCall hcall) (Nat.lt_irrefl _)
  | @setConfig config =>
    -- no other call is under way
    have hnone : ∀ k' call, Function.update c.calls c.nextCall (some (.waiting config)) k' =
        some call → call = .waiting config := by
      intro k' call hcall
      rcases Lib.of_update hcall with ⟨-, ⟨⟩⟩ | ⟨-, hcall⟩
      · rfl
      · rw [howned.calls_eq_none hcalm] at hcall
        cases hcall
    refine ⟨?_, ?_, fun s _ => .inl ⟨c.nextCall, .waiting config, Function.update_self _ _ _, rfl⟩⟩
    · intro k' call config' hcall hconfig
      rw [hnone k' call hcall] at hconfig
      exact (Option.some.inj hconfig).symm
    · intro k' call s hcall hs
      rw [hnone k' call hcall] at hs
      cases hs
  | refused at_k => exact h.update nofun nofun hid (h.current_update (hsame at_k rfl) hid)
  | @created k bootstrap config at_k =>
    have hconfig := h.carried k _ config at_k rfl
    have hservices : ∀ s, Has c.services c.anonymousConfig s →
        Has (Function.update c.services c.nextService (some (.new config))) c.anonymousConfig s :=
      fun s hs => hs.update fun _ => hconfig
    refine h.update ?_ ?_ hservices (h.current_update (hsame at_k rfl) hservices)
    · rintro _ config' ⟨⟩ ⟨⟩
    · rintro _ s ⟨⟩ ⟨⟩
      exact ⟨_, Function.update_self _ _ _, hconfig⟩
  | @stored k s at_k free =>
    refine h.update nofun nofun hid ?_
    rintro _ ⟨⟩
    exact .inr (h.own k _ s at_k rfl)
  | @ignored k config at_k missing =>
    refine h.update nofun nofun hid fun s hs => ?_
    rw [missing] at hs
    cases hs
  | @locked k config s at_k free current =>
    refine h.update ?_ ?_ hid
      fun _ _ => .inl ⟨k, .configuring s config, Function.update_self _ _ _, rfl⟩
    · rintro _ config' ⟨⟩ hconfig
      exact h.carried k _ config' at_k hconfig
    · rintro _ s' ⟨⟩ ⟨⟩
  | @configured k s config service at_k known =>
    have hconfig := h.carried k _ config at_k rfl
    refine h.update ?_ ?_ (fun s' hs' => hs'.update fun _ => hconfig) fun s' hs' => .inr ?_
    · rintro _ config' ⟨⟩ ⟨⟩
    · rintro _ s' ⟨⟩ ⟨⟩
    · obtain rfl := Option.some.inj ((howned.held k _ s at_k rfl).2.symm.trans hs')
      exact ⟨_, Function.update_self _ _ _, hconfig⟩
  | @restarts k s call restart next call' service service' lock at_k inside goes known restarted
      unlocks =>
    have hservices : ∀ s', Has c.services c.anonymousConfig s' → Has _ c.anonymousConfig s' :=
      fun s' hs' => hs'.replace known (CoverService.restartCover_config restarted)
    have hold : call.setting = false := by cases goes <;> rfl
    refine h.update ?_ ?_ hservices (h.current_update (hsame at_k hold) hservices)
    · rintro new config rfl hconfig
      cases goes <;> cases hconfig
    · rintro new s' rfl hs'
      cases goes with
      | restarting => cases hs'
      | _ => exact hservices s' (h.own k _ s' at_k hs')
  | @task s i event service task task' service' known ticks =>
    have hconfig : service'.config = service.config := by rw [ticks.result]
    have hservices : ∀ s', Has c.services c.anonymousConfig s' → Has _ c.anonymousConfig s' :=
      fun s' hs' => hs'.replace known hconfig
    exact ⟨h.carried, fun k call s' hcall hs' => hservices s' (h.own k call s' hcall hs'),
      fun s' hs' => (h.current s' hs').imp id (hservices s')⟩

end Followed

end CoverClient

end Cypher.Onion
