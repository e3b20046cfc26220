import TcpMonitor.Client.PeerManager

/-!
# The outbound side of the process

The peer tasks are tasks of one pool over the shared metrics.  The world around
them is the manager, the senders of configs, the shutdown signal, and the
inbound side of the process, which shares the metric families but writes no
client family.  A task can be cancelled once the manager has cancelled its
token, at every point that listens to the token.
-/

namespace TcpMonitor.PeerPool

open TcpMonitor.TransitionSystem
open TcpMonitor.TaskPool
open TcpMonitor.Runtime
open TcpMonitor.Configuration
open TcpMonitor.MetricFamilies
open TcpMonitor.ReconnectLoop
open TcpMonitor.PeerManager

/-- The metrics, the tokens that have been cancelled, and the manager. -/
structure ClientShared (F64 : Type) where
  metrics : Metrics F64
  cancelled : Finset ℕ
  manager : Manager

/-- What happens around the peer tasks. -/
inductive ClientEvent (F64 : Type) where
  | manage (input : ManagerInput)
  | send (config : Config)
  | closeSenders
  | cancelManager
  | inbound (update : Update F64)

abbrev PeerLoopTask (F64 : Type) := Task (PeerLoop F64) (Update F64)

abbrev Peers (F64 : Type) := Pool (ClientShared F64) (PeerLoop F64) (Update F64)

abbrev ClientMove (F64 : Type) := Move (Reading F64 × Completion) (ClientEvent F64)

/-- The updates that the inbound side of the process makes. -/
def isInbound {F64 : Type} : Update F64 → Bool
  | .setGauge .serverSessionActive _ _ => true
  | .setGauge _ _ _ => false
  | .setFloat .serverSessionStart _ _ | .setFloat .serverSessionDuration _ _ => true
  | .setFloat .serverLastHeartbeat _ _ => true
  | .setFloat _ _ _ => false
  | .incCounter .serverSessionsTotal _ | .incCounter .serverHeartbeatsRx _ => true
  | .incCounter _ _ => false
  | .incDisconnect .serverDisconnects _ => true
  | .incDisconnect .clientDisconnects _ => false
  | .createDisconnect _ _ => true

/-- The task has run to its end: it has returned and has no update left to
make. -/
def PeerLoopTask.done {F64 : Type} (task : PeerLoopTask F64) : Bool :=
  match task.control.point, task.pending with
  | .returned, [] => true
  | _, _ => false

/-- The join handle of a task completes. -/
def finished {F64 : Type} (pool : Peers F64) (id : ℕ) : Bool :=
  pool.tasks[id]?.any PeerLoopTask.done

section System

variable {F64 : Type} [WallClock F64]

/-- What a step of the manager does to the state that the tasks share. -/
def perform (shared : ClientShared F64) (manager : Manager) :
    Effect → ClientShared F64 × List (PeerLoop F64)
  | .nothing => ({ shared with manager := manager }, [])
  | .cancel id =>
      ({ shared with manager := manager, cancelled := insert id shared.cancelled }, [])
  | .spawn peer clientCfg =>
      ({ shared with manager := manager },
        [spawnPeerLoop peer clientCfg manager.config.node.name])

/-- The outbound side of the process. -/
def program (F64 : Type) [WallClock F64] :
    Program (ClientShared F64) (PeerLoop F64) (Update F64) (Reading F64 × Completion)
      (ClientEvent F64) where
  apply update shared := { shared with metrics := update.apply shared.metrics }
  act shared index loop input :=
    if input.2 = .cancelled ∧ index ∉ shared.cancelled then none
    else (runPeerLoop loop input.1 input.2).map fun (loop, updates) => (shared, loop, updates)
  outside pool event :=
    let shared := pool.shared
    match event with
    | .manage input =>
        (runManager (finished pool) pool.tasks.length shared.manager input).map
          fun (manager, effect) => perform shared manager effect
    | .send config =>
        if shared.manager.watch.closed then none
        else some ({ shared with manager := { shared.manager with
          watch := ⟨config, true, false⟩ } }, [])
    | .closeSenders =>
        some ({ shared with manager := { shared.manager with
          watch := { shared.manager.watch with closed := true } } }, [])
    | .cancelManager =>
        some ({ shared with manager := { shared.manager with cancel := true } }, [])
    | .inbound update =>
        if isInbound update then
          some ({ shared with metrics := update.apply shared.metrics }, [])
        else none

/-- The process right after `Metrics::new`, with the config it was started
with. -/
def start (F64 : Type) (config : Config) : Peers F64 :=
  ⟨⟨Metrics.new F64, ∅, startManager config⟩, []⟩

variable {pool next : Peers F64}

theorem act_eq_some {shared shared' : ClientShared F64} {index : ℕ} {loop loop' : PeerLoop F64}
    {input : Reading F64 × Completion} {updates : List (Update F64)}
    (hact : (program F64).act shared index loop input = some (shared', loop', updates)) :
    shared' = shared ∧ LoopStep loop input.1 input.2 (loop', updates) ∧
      (input.2 = .cancelled → index ∈ shared.cancelled) := by
  simp only [program] at hact
  split at hact
  · cases hact
  · next hallowed =>
      obtain ⟨⟨loop'', updates'⟩, hrun, heq⟩ := Option.map_eq_some_iff.mp hact
      simp only [Prod.mk.injEq] at heq
      obtain ⟨rfl, rfl, rfl⟩ := heq
      exact ⟨rfl, loopStep_of_runPeerLoop hrun, fun hcancelled =>
        Classical.not_not.mp fun hnot => hallowed ⟨hcancelled, hnot⟩⟩

theorem act_runPeerLoop {shared shared' : ClientShared F64} {index : ℕ}
    {loop loop' : PeerLoop F64} {input : Reading F64 × Completion} {updates : List (Update F64)}
    (hact : (program F64).act shared index loop input = some (shared', loop', updates)) :
    runPeerLoop loop input.1 input.2 = some (loop', updates) := by
  simp only [program] at hact
  split at hact
  · cases hact
  · obtain ⟨after, hrun, heq⟩ := Option.map_eq_some_iff.mp hact
    cases heq
    exact hrun

/-- What can happen around the tasks: a step of the manager, something that
changes only what the manager listens to, or an update of the inbound side. -/
theorem outside_cases {event : ClientEvent F64} {shared : ClientShared F64}
    {spawned : List (PeerLoop F64)}
    (houtside : (program F64).outside pool event = some (shared, spawned)) :
    (∃ manager effect,
        ManagerStep (finished pool) pool.tasks.length pool.shared.manager (manager, effect) ∧
          (shared, spawned) = perform pool.shared manager effect) ∨
      (∃ watch cancel, (watch.unseen = true ∨
            watch.unseen = pool.shared.manager.watch.unseen ∧
              watch.config = pool.shared.manager.watch.config) ∧
          shared = { pool.shared with manager := { pool.shared.manager with
            watch := watch, cancel := cancel } } ∧ spawned = []) ∨
      ∃ update, isInbound update = true ∧
        shared = { pool.shared with metrics := update.apply pool.shared.metrics } ∧
          spawned = [] := by
  cases event with
  | manage input =>
      obtain ⟨⟨manager, effect⟩, hrun, heq⟩ := Option.map_eq_some_iff.mp houtside
      exact Or.inl ⟨manager, effect, managerStep_of_runManager hrun, heq.symm⟩
  | send config =>
      simp only [program] at houtside
      split at houtside
      · cases houtside
      · cases houtside
        exact Or.inr (Or.inl ⟨⟨config, true, false⟩, _, Or.inl rfl, rfl, rfl⟩)
  | closeSenders =>
      cases houtside
      exact Or.inr (Or.inl ⟨{ pool.shared.manager.watch with closed := true }, _,
        Or.inr ⟨rfl, rfl⟩, rfl, rfl⟩)
  | cancelManager =>
      cases houtside
      exact Or.inr (Or.inl ⟨pool.shared.manager.watch, true, Or.inr ⟨rfl, rfl⟩, rfl, rfl⟩)
  | inbound update =>
      simp only [program] at houtside
      split at houtside
      · next hupdate =>
          cases houtside
          exact Or.inr (Or.inr ⟨update, hupdate, rfl, rfl⟩)
      · cases houtside

/-- The manager spawns tasks under the name of its config, for a peer whose turn
it is and with the settings of the pass. -/
theorem mem_spawned {event : ClientEvent F64} {shared : ClientShared F64}
    {spawned : List (PeerLoop F64)}
    (houtside : (program F64).outside pool event = some (shared, spawned))
    {loop : PeerLoop F64} (hmem : loop ∈ spawned) :
    ∃ input name peer clientCfg peers, event = .manage input ∧
      pool.shared.manager.point = .spawning clientCfg ((name, peer) :: peers) ∧
        name ∉ pool.shared.manager.tasks ∧
        loop = spawnPeerLoop peer clientCfg pool.shared.manager.config.node.name := by
  cases event with
  | manage input =>
      obtain ⟨⟨manager, effect⟩, hrun, heq⟩ := Option.map_eq_some_iff.mp houtside
      cases effect with
      | nothing | cancel =>
          cases heq
          cases hmem
      | spawn peer clientCfg =>
          cases heq
          obtain rfl := List.mem_singleton.mp hmem
          cases managerStep_of_runManager hrun with
          | spawn hpoint hname => exact ⟨input, _, peer, clientCfg, _, rfl, hpoint, hname, rfl⟩
  | send | inbound =>
      simp only [program] at houtside
      split at houtside <;> cases houtside
      cases hmem
  | closeSenders | cancelManager =>
      cases houtside
      cases hmem

end System

end TcpMonitor.PeerPool
