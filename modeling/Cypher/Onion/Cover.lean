import Cypher.Lib.Run
import Cypher.Onion.Bootstrap

/-!
# Cover traffic (`onion/cover.rs`, `onion/service.rs`, `api.rs`)

A connection to the gateway gets an anonymous transport of its own, whose `start` spawns a task that
sends dummy fetches until it sees that its token is cancelled; it looks at it only while it sleeps.
`set_anonymous_transport_config` stores the configuration and hands it to the transport of the last
connection, which cancels its task and spawns another; it holds the lock of `anonymous_service` all
the while, since the guard in the condition of an `if let` lives as long as the body.

Calls and tasks take turns at every `await`. A call is where it stands: what it does next is in its
constructor. Tokens are numbered within a service.
-/

namespace Cypher.Onion

inductive PowerMode where
  | desktop
  | mobileForeground
  | mobileBackground
  | batterySaver
  deriving DecidableEq

/-- The modes in which no cover traffic is sent. -/
def PowerMode.off : PowerMode → Bool
  | mobileBackground => true
  | batterySaver => true
  | _ => false

structure TorSettings where
  enabled : Bool
  bridgeLines : List Bytes
  deriving DecidableEq

structure AnonymousTransportConfig where
  powerMode : PowerMode
  targetCount : Nat
  tor : TorSettings
  deriving DecidableEq

def AnonymousTransportConfig.default : AnonymousTransportConfig :=
  ⟨.desktop, 3, ⟨true, []⟩⟩

/-- `apply_anonymous_settings` of the desktop client. -/
def AnonymousTransportConfig.ofSettings (enabled : Bool) (bridgeLines : List Bytes) :
    AnonymousTransportConfig :=
  ⟨if enabled then .desktop else .batterySaver, 3, ⟨enabled, bridgeLines⟩⟩

/-! ## One task -/

/-- Where `run` stands: at the head of its loop, asleep, inside `fetch_all`, or at its end. -/
inductive CoverPhase where
  | head
  | asleep
  | fetching
  | returned
  deriving DecidableEq

/-- A spawned `CoverTraffic`, with the token of its `run`. -/
structure CoverTraffic where
  mode : PowerMode
  cancel : Nat
  phase : CoverPhase
  /-- How often it has called `fetch_all`. -/
  fetches : Nat
  deriving DecidableEq

/-- What `run` waits for. -/
inductive CoverEvent where
  /-- The task is scheduled at the head of its loop. -/
  | scheduled
  | cancelled
  | elapsed
  | fetched

namespace CoverTraffic

def new (mode : PowerMode) (cancel : Nat) : CoverTraffic :=
  ⟨mode, cancel, .head, 0⟩

/-- One step of `run`. A sleep that begins with a cancelled token ends at once, since its timer has only
been set. If the token is cancelled during a sleep, `select!` may find the timer expired as well, and
takes either. -/
def run (task : CoverTraffic) (cancelled : Bool) : CoverEvent → Option CoverTraffic
  | .scheduled =>
    match task.phase with
    | .head => some { task with phase := if cancelled then .returned else .asleep }
    | _ => none
  | .cancelled =>
    match task.phase with
    | .asleep => if cancelled then some { task with phase := .returned } else none
    | _ => none
  | .elapsed =>
    match task.phase with
    | .asleep =>
      if task.mode.off then some { task with phase := .head }
      else some { task with phase := .fetching, fetches := task.fetches + 1 }
    | _ => none
  | .fetched =>
    match task.phase with
    | .fetching => some { task with phase := .head }
    | _ => none

end CoverTraffic

/-! ## One service -/

/-- The part of an `AnonymousTransportService` that is about cover traffic. -/
structure CoverService where
  config : AnonymousTransportConfig
  coverCancel : Option Nat
  /-- How many tokens were made. -/
  tokens : Nat
  cancelled : List Nat
  /-- The tasks spawned. -/
  tasks : List CoverTraffic

inductive Restart where
  | take
  | read
  | store (config : AnonymousTransportConfig)
  | spawn (mode : PowerMode) (token : Nat)

namespace CoverService

def new (config : AnonymousTransportConfig) : CoverService :=
  ⟨config, none, 0, [], []⟩

def running (service : CoverService) : List CoverTraffic :=
  service.tasks.filter fun task => task.phase ≠ .returned

def unstopped (service : CoverService) : List CoverTraffic :=
  service.running.filter fun task => task.cancel ∉ service.cancelled

def stepTask (service : CoverService) (i : Nat) (event : CoverEvent) : Option CoverService :=
  match service.tasks[i]? with
  | none => none
  | some task =>
    (task.run (task.cancel ∈ service.cancelled) event).map fun task =>
      { service with tasks := service.tasks.set i task }

/-- One step of `restart_cover`, and where it stands then. -/
def restartCover (service : CoverService) : Restart → CoverService × Option Restart
  | .take =>
    match service.coverCancel with
    | some token =>
      ({ service with coverCancel := none, cancelled := service.cancelled ++ [token] }, some .read)
    | none => (service, some .read)
  | .read => (service, some (.store service.config))
  | .store config =>
    ({ service with coverCancel := some service.tokens, tokens := service.tokens + 1 },
      some (.spawn config.powerMode service.tokens))
  | .spawn mode token => ({ service with tasks := service.tasks ++ [.new mode token] }, none)

end CoverService

/-! ## The client -/

abbrev ServiceId := Nat

abbrev CallId := Nat

inductive Call where
  /-- `do_connect` has the bootstrap and a copy of the configuration. -/
  | connecting (bootstrap : TransportBootstrap) (config : AnonymousTransportConfig)
  | starting (s : ServiceId) (restart : Restart)
  | started (s : ServiceId)
  /-- `set_anonymous_transport_config` waits for the lock of `anonymous_service`. -/
  | waiting (config : AnonymousTransportConfig)
  | configuring (s : ServiceId) (config : AnonymousTransportConfig)
  | restarting (s : ServiceId) (restart : Restart)

structure CoverClient where
  anonymousConfig : AnonymousTransportConfig
  anonymousService : Option ServiceId
  /-- The call that holds the lock of `anonymous_service`. -/
  lock : Option CallId
  services : ServiceId → Option CoverService
  nextService : ServiceId
  calls : CallId → Option Call
  nextCall : CallId

inductive CoverAction where
  /-- `do_connect` has got a bootstrap. -/
  | connect (bootstrap : TransportBootstrap)
  | setConfig (config : AnonymousTransportConfig)
  | advance (k : CallId)
  | task (s : ServiceId) (i : Nat) (event : CoverEvent)

namespace CoverClient

def start : CoverClient :=
  ⟨.default, none, none, fun _ => none, 0, fun _ => none, 0⟩

def begin (c : CoverClient) (call : Call) : CoverClient :=
  { c with calls := Function.update c.calls c.nextCall (some call), nextCall := c.nextCall + 1 }

def move (c : CoverClient) (k : CallId) (call : Option Call) : CoverClient :=
  { c with calls := Function.update c.calls k call }

def setService (c : CoverClient) (s : ServiceId) (service : CoverService) : CoverClient :=
  { c with services := Function.update c.services s (some service) }

def advance (c : CoverClient) (k : CallId) : Call → Option CoverClient
  | .connecting bootstrap config =>
    match AnonymousTransportService.new bootstrap with
    | .error _ => some (c.move k none)
    | .ok _ =>
      some { (c.setService c.nextService (.new config)).move k
          (some (.starting c.nextService .take)) with nextService := c.nextService + 1 }
  | .starting s restart =>
    match c.services s with
    | none => none
    | some service =>
      match service.restartCover restart with
      | (service, some restart) => some ((c.setService s service).move k (some (.starting s restart)))
      | (service, none) => some ((c.setService s service).move k (some (.started s)))
  | .started s =>
    match c.lock with
    | some _ => none
    | none => some { c.move k none with anonymousService := some s }
  | .waiting config =>
    match c.lock with
    | some _ => none
    | none =>
      match c.anonymousService with
      | none => some (c.move k none)
      | some s => some { c.move k (some (.configuring s config)) with lock := some k }
  | .configuring s config =>
    match c.services s with
    | none => none
    | some service =>
      some ((c.setService s { service with config }).move k (some (.restarting s .take)))
  | .restarting s restart =>
    match c.services s with
    | none => none
    | some service =>
      match service.restartCover restart with
      | (service, some restart) => some ((c.setService s service).move k (some (.restarting s restart)))
      | (service, none) => some { (c.setService s service).move k none with lock := none }

def step (c : CoverClient) : CoverAction → Option CoverClient
  | .connect bootstrap => some (c.begin (.connecting bootstrap c.anonymousConfig))
  | .setConfig config => some ({ c with anonymousConfig := config }.begin (.waiting config))
  | .advance k =>
    match c.calls k with
    | none => none
    | some call => c.advance k call
  | .task s i event =>
    match c.services s with
    | none => none
    | some service => (service.stepTask i event).map (c.setService s)

end CoverClient

end Cypher.Onion
