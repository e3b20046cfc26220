import Mathlib.Data.List.AList
import TcpMonitor.Core.TaskPool
import TcpMonitor.Client.ReconnectLoop

/-!
# The client manager and its peer tasks

`run_manager` as a step function between the points where it can be suspended,
and the peer tasks it spawns as tasks of one pool.  The manager hands out
cancellations, waits for join handles and spawns tasks; the configs that it
reads are sent at any time.  The iteration order of a hash map is a choice of
the environment.  Log messages are left out.
-/

namespace TcpMonitor.PeerManager

open TcpMonitor.TransitionSystem
open TcpMonitor.TaskPool
open TcpMonitor.Runtime
open TcpMonitor.Configuration
open TcpMonitor.MetricFamilies
open TcpMonitor.ReconnectLoop

/-- `HashMap<String, _>`. -/
abbrev HashMap (Value : Type) := AList fun _ : String => Value

/-- `PeerTask`; `id` is the position of the task in the pool and stands for its
cancellation token and its join handle. -/
structure PeerTask where
  peer : PeerConfig
  id : ℕ
  deriving DecidableEq

/-- The config watch channel: the last config that was sent, whether the
receiver has not seen it yet, and whether all senders are gone. -/
structure Watch where
  config : Config
  unseen : Bool
  closed : Bool

/-- Collecting peers by name; of several with one name the last one counts. -/
def collectPeers (peers : List PeerConfig) : HashMap PeerConfig :=
  peers.foldl (fun collected peer => collected.insert peer.name peer) ∅

/-- The peers of a config by name. -/
def newPeers (config : Config) : HashMap PeerConfig := collectPeers config.peers

/-- The tasks that a loop of the manager still has to stop: those of the peers
that were removed or changed, all tasks without a `[client]` section, or all
tasks at shutdown. -/
inductive Work where
  | removing (clientCfg : ClientConfig) (names : List String)
  | draining (tasks : List PeerTask)
  | shutdown (tasks : List PeerTask)
  deriving DecidableEq

/-- Where `run_manager` stands: before it reads the config, at the head of a
loop that stops tasks, waiting for the task it has cancelled, at the head of
the loop that spawns tasks, in its `select!`, past its loop, or finished. -/
inductive ManagerPoint where
  | loopHead
  | stopping (work : Work)
  | joining (task : PeerTask) (work : Work)
  | spawning (clientCfg : ClientConfig) (peers : List (String × PeerConfig))
  | parked
  | leaving
  | exited
  deriving DecidableEq

/-- The variables of `run_manager` and its point.  `previous` is a history
variable, the table as the current config was read. -/
structure Manager where
  watch : Watch
  cancel : Bool
  config : Config
  tasks : HashMap PeerTask
  point : ManagerPoint
  previous : HashMap PeerTask

/-- What a step of the manager is decided by: nothing, the iteration order of a
hash map, or the branch of the `select!`. -/
inductive ManagerInput where
  | go
  | order (names : List String)
  | changed
  | cancelled

/-- What a step of the manager does to the tasks. -/
inductive Effect where
  | nothing
  | cancel (id : ℕ)
  | spawn (peer : PeerConfig) (clientCfg : ClientConfig)

/-- The peer of a task is not configured as the task was started with. -/
def outdated (config : Config) (tasks : HashMap PeerTask) (name : String) : Bool :=
  (newPeers config).lookup name ≠ (tasks.lookup name).map PeerTask.peer

/-- `run_manager` from one point to the next. -/
def runManager (finished : ℕ → Bool) (spawnId : ℕ) (manager : Manager)
    (input : ManagerInput) : Option (Manager × Effect) :=
  let goto (point : ManagerPoint) : Manager := { manager with point := point }
  match manager.point, input with
  | .loopHead, .order names =>
      if names.Perm manager.tasks.keys then
        let config := manager.watch.config
        let manager := { manager with
          watch := { manager.watch with unseen := false }
          config := config
          previous := manager.tasks }
        match config.client with
        | none => some ({ manager with
            tasks := ∅
            point := .stopping (.draining (names.filterMap manager.tasks.lookup)) }, .nothing)
        | some clientCfg => some ({ manager with
            point := .stopping (.removing clientCfg
              (names.filter (outdated config manager.tasks))) }, .nothing)
      else none
  | .stopping (.removing clientCfg (name :: names)), .go =>
      match manager.tasks.lookup name with
      | none => some (goto (.stopping (.removing clientCfg names)), .nothing)
      | some task => some ({ manager with
          tasks := manager.tasks.erase name
          point := .joining task (.removing clientCfg names) }, .cancel task.id)
  | .stopping (.removing clientCfg []), .order names =>
      if names.Perm (newPeers manager.config).keys then
        some (goto (.spawning clientCfg (names.filterMap fun name =>
          ((newPeers manager.config).lookup name).map fun peer => (name, peer))), .nothing)
      else none
  | .stopping (.draining (task :: tasks)), .go =>
      some (goto (.joining task (.draining tasks)), .cancel task.id)
  | .stopping (.draining []), .go => some (goto .parked, .nothing)
  | .stopping (.shutdown (task :: tasks)), .go =>
      some (goto (.joining task (.shutdown tasks)), .cancel task.id)
  | .stopping (.shutdown []), .go => some (goto .exited, .nothing)
  | .joining task work, .go =>
      if finished task.id then some (goto (.stopping work), .nothing) else none
  | .spawning clientCfg ((name, peer) :: peers), .go =>
      if name ∈ manager.tasks then some (goto (.spawning clientCfg peers), .nothing)
      else some ({ manager with
        tasks := manager.tasks.insert name ⟨peer, spawnId⟩
        point := .spawning clientCfg peers }, .spawn peer clientCfg)
  | .spawning _ [], .go => some (goto .parked, .nothing)
  | .parked, .changed =>
      if manager.watch.unseen then
        some ({ manager with
          watch := { manager.watch with unseen := false }
          point := .loopHead }, .nothing)
      else if manager.watch.closed then some (goto .leaving, .nothing)
      else none
  | .parked, .cancelled => if manager.cancel then some (goto .leaving, .nothing) else none
  | .leaving, .order names =>
      if names.Perm manager.tasks.keys then
        some ({ manager with
          tasks := ∅
          point := .stopping (.shutdown (names.filterMap manager.tasks.lookup)) }, .nothing)
      else none
  | _, _ => none

/-- `run_manager` before its first line; the receiver has seen the config that
the channel was created with. -/
def startManager (config : Config) : Manager where
  watch := ⟨config, false, false⟩
  cancel := false
  config := config
  tasks := ∅
  point := .loopHead
  previous := ∅

/-- The tasks that a loop still has to stop and that are not in the table any
more. -/
def Work.tasks : Work → List PeerTask
  | .removing _ _ => []
  | .draining tasks | .shutdown tasks => tasks

/-- The tasks that the manager holds outside its table. -/
def ManagerPoint.held : ManagerPoint → List PeerTask
  | .stopping work => work.tasks
  | .joining task work => task :: work.tasks
  | _ => []

theorem collectPeers_concat (peers : List PeerConfig) (peer : PeerConfig) :
    collectPeers (peers ++ [peer]) = (collectPeers peers).insert peer.name peer := by
  rw [collectPeers, List.foldl_append]
  rfl

theorem mem_of_collectPeers {peers : List PeerConfig} {name : String} {peer : PeerConfig}
    (hlookup : (collectPeers peers).lookup name = some peer) :
    peer ∈ peers ∧ peer.name = name := by
  induction peers using List.reverseRecOn with
  | nil => cases hlookup
  | append_singleton peers last ih =>
      rw [collectPeers_concat] at hlookup
      by_cases hname : name = last.name
      · rw [hname, AList.lookup_insert] at hlookup
        cases hlookup
        exact ⟨by simp, hname.symm⟩
      · rw [AList.lookup_insert_ne hname] at hlookup
        exact ⟨List.mem_append_left _ (ih hlookup).1, (ih hlookup).2⟩

/-- With distinct names every peer is found under its own. -/
theorem collectPeers_of_mem {peers : List PeerConfig}
    (hdistinct : (peers.map PeerConfig.name).Nodup) {peer : PeerConfig} (hmem : peer ∈ peers) :
    (collectPeers peers).lookup peer.name = some peer := by
  induction peers using List.reverseRecOn with
  | nil => cases hmem
  | append_singleton peers last ih =>
      rw [List.map_append, List.nodup_append] at hdistinct
      obtain ⟨hfront, -, hother⟩ := hdistinct
      rw [collectPeers_concat]
      rcases List.mem_append.mp hmem with hold | hnew
      · have hname : peer.name ≠ last.name :=
          hother _ (List.mem_map_of_mem hold) _ (by simp)
        rw [AList.lookup_insert_ne hname]
        exact ih hfront hold
      · rw [List.mem_singleton.mp hnew, AList.lookup_insert]

theorem mem_newPeers {config : Config} (hdistinct : (config.peers.map PeerConfig.name).Nodup)
    {name : String} : name ∈ newPeers config ↔ name ∈ config.peers.map PeerConfig.name := by
  rw [← AList.lookup_isSome, Option.isSome_iff_exists]
  constructor
  · rintro ⟨peer, hlookup⟩
    obtain ⟨hmem, hname⟩ := mem_of_collectPeers hlookup
    exact List.mem_map.mpr ⟨peer, hmem, hname⟩
  · intro hname
    obtain ⟨peer, hmem, rfl⟩ := List.mem_map.mp hname
    exact ⟨peer, collectPeers_of_mem hdistinct hmem⟩

/-- Everything a step of the manager can be. -/
inductive ManagerStep (finished : ℕ → Bool) (spawnId : ℕ) (manager : Manager) :
    Manager × Effect → Prop
  | readNone {names : List String} (hpoint : manager.point = .loopHead)
      (hnames : names.Perm manager.tasks.keys) (hclient : manager.watch.config.client = none) :
      ManagerStep finished spawnId manager
        ({ manager with
          watch := { manager.watch with unseen := false }
          config := manager.watch.config
          previous := manager.tasks
          tasks := ∅
          point := .stopping (.draining (names.filterMap manager.tasks.lookup)) }, .nothing)
  | readClient {names : List String} {clientCfg} (hpoint : manager.point = .loopHead)
      (hnames : names.Perm manager.tasks.keys)
      (hclient : manager.watch.config.client = some clientCfg) :
      ManagerStep finished spawnId manager
        ({ manager with
          watch := { manager.watch with unseen := false }
          config := manager.watch.config
          previous := manager.tasks
          point := .stopping (.removing clientCfg
            (names.filter (outdated manager.watch.config manager.tasks))) }, .nothing)
  | skip {clientCfg name names}
      (hpoint : manager.point = .stopping (.removing clientCfg (name :: names)))
      (hlookup : manager.tasks.lookup name = none) :
      ManagerStep finished spawnId manager
        ({ manager with point := .stopping (.removing clientCfg names) }, .nothing)
  | remove {clientCfg name names task}
      (hpoint : manager.point = .stopping (.removing clientCfg (name :: names)))
      (hlookup : manager.tasks.lookup name = some task) :
      ManagerStep finished spawnId manager
        ({ manager with
          tasks := manager.tasks.erase name
          point := .joining task (.removing clientCfg names) }, .cancel task.id)
  | beginSpawning {clientCfg} {names : List String}
      (hpoint : manager.point = .stopping (.removing clientCfg []))
      (hnames : names.Perm (newPeers manager.config).keys) :
      ManagerStep finished spawnId manager
        ({ manager with
          point := .spawning clientCfg (names.filterMap fun name =>
            ((newPeers manager.config).lookup name).map fun peer => (name, peer)) }, .nothing)
  | drainNext {task tasks} (hpoint : manager.point = .stopping (.draining (task :: tasks))) :
      ManagerStep finished spawnId manager
        ({ manager with point := .joining task (.draining tasks) }, .cancel task.id)
  | drained (hpoint : manager.point = .stopping (.draining [])) :
      ManagerStep finished spawnId manager ({ manager with point := .parked }, .nothing)
  | shutdownNext {task tasks} (hpoint : manager.point = .stopping (.shutdown (task :: tasks))) :
      ManagerStep finished spawnId manager
        ({ manager with point := .joining task (.shutdown tasks) }, .cancel task.id)
  | exit (hpoint : manager.point = .stopping (.shutdown [])) :
      ManagerStep finished spawnId manager ({ manager with point := .exited }, .nothing)
  | joined {task work} (hpoint : manager.point = .joining task work)
      (hfinished : finished task.id = true) :
      ManagerStep finished spawnId manager ({ manager with point := .stopping work }, .nothing)
  | keep {clientCfg name peer peers}
      (hpoint : manager.point = .spawning clientCfg ((name, peer) :: peers))
      (hname : name ∈ manager.tasks) :
      ManagerStep finished spawnId manager
        ({ manager with point := .spawning clientCfg peers }, .nothing)
  | spawn {clientCfg name peer peers}
      (hpoint : manager.point = .spawning clientCfg ((name, peer) :: peers))
      (hname : name ∉ manager.tasks) :
      ManagerStep finished spawnId manager
        ({ manager with
          tasks := manager.tasks.insert name ⟨peer, spawnId⟩
          point := .spawning clientCfg peers }, .spawn peer clientCfg)
  | reconciled {clientCfg} (hpoint : manager.point = .spawning clientCfg []) :
      ManagerStep finished spawnId manager ({ manager with point := .parked }, .nothing)
  | wake (hpoint : manager.point = .parked) (hunseen : manager.watch.unseen = true) :
      ManagerStep finished spawnId manager
        ({ manager with
          watch := { manager.watch with unseen := false }
          point := .loopHead }, .nothing)
  | leave (hpoint : manager.point = .parked) :
      ManagerStep finished spawnId manager ({ manager with point := .leaving }, .nothing)
  | shutdown {names : List String} (hpoint : manager.point = .leaving)
      (hnames : names.Perm manager.tasks.keys) :
      ManagerStep finished spawnId manager
        ({ manager with
          tasks := ∅
          point := .stopping (.shutdown (names.filterMap manager.tasks.lookup)) }, .nothing)

theorem managerStep_of_runManager {finished : ℕ → Bool} {spawnId : ℕ} {manager : Manager}
    {input : ManagerInput} {after : Manager × Effect}
    (hstep : runManager finished spawnId manager input = some after) :
    ManagerStep finished spawnId manager after := by
  unfold runManager at hstep
  simp only at hstep
  split at hstep
  · next hpoint =>
      split at hstep
      · next hnames =>
          split at hstep
          · next hclient =>
              cases hstep
              exact .readNone hpoint hnames hclient
          · next hclient =>
              cases hstep
              exact .readClient hpoint hnames hclient
      · cases hstep
  · next hpoint =>
      split at hstep
      · next hlookup =>
          cases hstep
          exact .skip hpoint hlookup
      · next hlookup =>
          cases hstep
          exact .remove hpoint hlookup
  · next hpoint =>
      split at hstep
      · next hnames =>
          cases hstep
          exact .beginSpawning hpoint hnames
      · cases hstep
  · next hpoint =>
      cases hstep
      exact .drainNext hpoint
  · next hpoint =>
      cases hstep
      exact .drained hpoint
  · next hpoint =>
      cases hstep
      exact .shutdownNext hpoint
  · next hpoint =>
      cases hstep
      exact .exit hpoint
  · next hpoint =>
      split at hstep
      · next hfinished =>
          cases hstep
          exact .joined hpoint hfinished
      · cases hstep
  · next hpoint =>
      split at hstep
      · next hname =>
          cases hstep
          exact .keep hpoint hname
      · next hname =>
          cases hstep
          exact .spawn hpoint hname
  · next hpoint =>
      cases hstep
      exact .reconciled hpoint
  · next hpoint =>
      split at hstep
      · next hunseen =>
          cases hstep
          exact .wake hpoint hunseen
      · split at hstep
        · cases hstep
          exact .leave hpoint
        · cases hstep
  · next hpoint =>
      split at hstep
      · cases hstep
        exact .leave hpoint
      · cases hstep
  · next hpoint =>
      split at hstep
      · next hnames =>
          cases hstep
          exact .shutdown hpoint hnames
      · cases hstep
  · cases hstep

end TcpMonitor.PeerManager
