import TcpMonitor.Client.PeerPool
import TcpMonitor.Server.SessionPool

/-!
# The whole process

The inbound and the outbound side over the same metrics, and what `main` puts
around them: the SIGHUP handler that loads the config file, the watch channel
that carries the last config that was loaded, the task that copies the server
timeouts into the atomics, the accept loops that read them, and the shutdown.
-/

namespace TcpMonitor.WholeProcess

open TcpMonitor.TransitionSystem
open TcpMonitor.TaskPool
open TcpMonitor.Runtime
open TcpMonitor.Configuration
open TcpMonitor.MetricFamilies
open TcpMonitor.ReconnectLoop
open TcpMonitor.PeerManager
open TcpMonitor.PeerPool
open TcpMonitor.SessionPool
open TcpMonitor.InboundSession
open TcpMonitor.Handshake

/-- Separate, smaller cap for probe connections. -/
def maxProbeConnections : ℕ := 32

/-- The banner sent to probe connections. -/
def probeBanner : List UInt8 := asBytes "TCP-MONITOR OK\r\n"

/-- The bytes that one read of a probe connection asks for. -/
def drainBuffer : ℕ := 64

/-- Where the task of a probe connection stands: writing the banner, draining,
or finished. -/
inductive ProbePoint where
  | banner (unsent : List UInt8)
  | draining (deadline : Instant)
  | closed
  deriving DecidableEq

/-- The task of a connection to the probe port, with the idle timeout it was
accepted with. -/
structure Probe where
  idleSecs : UInt64
  point : ProbePoint
  deriving DecidableEq

/-- A probe connection's permit is released when its task has run to its end. -/
def Probe.holdsPermit (probe : Probe) : Bool := probe.point ≠ .closed

/-- A probe connection from one await point to the next. -/
def Probe.serve {F64 : Type} (probe : Probe) (clock : Reading F64) (completion : Completion) :
    Option Probe :=
  match probe.point, completion with
  | .banner unsent, .wrote (.ok count) =>
      if count = 0 ∨ unsent.length < count then none
      else if count = unsent.length then
        some { probe with point := .draining (clock.now + fromSecs probe.idleSecs) }
      else some { probe with point := .banner (unsent.drop count) }
  | .banner _, .wrote (.error _) => some { probe with point := .closed }
  | .draining deadline, .elapsed =>
      if deadline ≤ clock.now then some { probe with point := .closed } else none
  | .draining _, .read (.ok []) | .draining _, .read (.error _) =>
      some { probe with point := .closed }
  | .draining _, .read (.ok bytes) => if bytes.length ≤ drainBuffer then some probe else none
  | _, _ => none

/-- A probe connection keeps the idle timeout it was accepted with. -/
theorem serve_idleSecs {F64 : Type} {probe probe' : Probe} {clock : Reading F64}
    {completion : Completion} (hserve : probe.serve clock completion = some probe') :
    probe'.idleSecs = probe.idleSecs := by
  unfold Probe.serve at hserve
  split at hserve
  · split at hserve
    · cases hserve
    · split at hserve <;> cases hserve <;> rfl
  · cases hserve
    rfl
  · split at hserve <;> cases hserve
    rfl
  · cases hserve
    rfl
  · cases hserve
    rfl
  · split at hserve <;> cases hserve
    rfl
  · cases hserve

/-- Where `watch_config` stands: in its `select!`, with a config whose timeouts
it is about to store, between the two stores, or finished. -/
inductive WatcherPoint where
  | waiting
  | storingRecv (srv : ServerConfig)
  | storingIdle (srv : ServerConfig)
  | stopped
  deriving DecidableEq

/-- What a step of `watch_config` is decided by. -/
inductive WatcherInput where
  | go
  | changed
  | cancelled

/-- The state of the process.  The watch channel is the one of the manager;
`watcherUnseen` belongs to the receiver of `watch_config`.  `loaded` and
`processed` are history variables: the configs that have been loaded, and the
server section whose timeouts `watch_config` stored last. -/
structure Process (F64 : Type) where
  metrics : Metrics F64
  manager : Manager
  cancelled : Finset ℕ
  peerTasks : List (PeerLoopTask F64)
  nodeName : String
  heartbeatRecvTimeout : UInt64
  probeIdleTimeout : UInt64
  sessions : List (SessionTask F64)
  probes : List Probe
  watcher : WatcherPoint
  watcherUnseen : Bool
  handlingSighup : Bool
  loaded : List Config
  processed : ServerConfig

/-- What happens next.  `contents` is what reading the config file returns while
the SIGHUP is handled. -/
inductive ProcessEvent (F64 : Type) where
  | outbound (move : ClientMove F64)
  | inbound (move : Move (Reading F64 × Completion) (ServerEvent F64))
  | acceptProbe
  | probe (index : ℕ) (input : Reading F64 × Completion)
  | sighup (contents : Except String String)
  | sighupEnds
  | watch (input : WatcherInput)
  | shutdown
  | closeChannel

namespace Process

section Views

variable {F64 : Type}

/-- The outbound side. -/
def outbound (state : Process F64) : Peers F64 :=
  ⟨⟨state.metrics, state.cancelled, state.manager⟩, state.peerTasks⟩

def setOutbound (state : Process F64) (pool : Peers F64) : Process F64 :=
  { state with
    metrics := pool.shared.metrics
    cancelled := pool.shared.cancelled
    manager := pool.shared.manager
    peerTasks := pool.tasks }

/-- The inbound side. -/
def inbound (state : Process F64) : Sessions F64 :=
  ⟨⟨state.metrics, state.heartbeatRecvTimeout⟩, state.sessions⟩

def setInbound (state : Process F64) (pool : Sessions F64) : Process F64 :=
  { state with
    metrics := pool.shared.metrics
    heartbeatRecvTimeout := pool.shared.heartbeatRecvTimeout
    sessions := pool.tasks }

/-- The channel holds a config that no receiver has seen. -/
def publish (state : Process F64) (config : Config) : Process F64 :=
  { state with
    manager := { state.manager with
      watch := { state.manager.watch with config := config, unseen := true } }
    watcherUnseen := true }

/-- A config can be sent as long as one of the two receivers is there. -/
def received (state : Process F64) : Bool :=
  state.manager.point ≠ .exited ∨ state.watcher ≠ .stopped

end Views

section System

variable {F64 : Type} [UnicodeTables] [WallClock F64] [SocketAddrParser] [TomlParser]

/-- The steps that the outbound side takes by itself: those of the peer tasks
and of the manager. -/
def ownOutbound : ClientMove F64 → Bool
  | .outside (.manage _) | .flush _ | .act _ _ => true
  | .outside _ => false

/-- The steps that the inbound side takes by itself: those of the connections
and of the accept loop. -/
def ownInbound : Move (Reading F64 × Completion) (ServerEvent F64) → Bool
  | .outside .accept | .flush _ | .act _ _ => true
  | .outside _ => false

/-- `watch_config` from one point to the next. -/
def watchConfig (state : Process F64) : WatcherInput → Option (Process F64)
  | .changed =>
      match state.watcher with
      | .waiting =>
          if state.watcherUnseen then
            some { state with
              watcher := .storingRecv state.manager.watch.config.server
              watcherUnseen := false }
          else if state.manager.watch.closed then some { state with watcher := .stopped }
          else none
      | _ => none
  | .cancelled =>
      match state.watcher with
      | .waiting => if state.manager.cancel then some { state with watcher := .stopped } else none
      | _ => none
  | .go =>
      match state.watcher with
      | .storingRecv srv =>
          some { state with
            heartbeatRecvTimeout := srv.heartbeatRecvTimeout
            watcher := .storingIdle srv }
      | .storingIdle srv =>
          some { state with
            probeIdleTimeout := srv.probeIdleTimeout
            watcher := .waiting
            processed := srv }
      | _ => none

/-- One turn of `watch_sighup`; a failed load is only logged. -/
def watchSighup (path : String) (state : Process F64) (contents : Except String String) :
    Process F64 :=
  match load path contents with
  | .error _ => state
  | .ok config =>
      let state := { state with loaded := state.loaded ++ [config] }
      if state.received then state.publish config
      else
        -- no receiver is left to notice the end of the handler
        { state with handlingSighup := false }

/-- `main`, started with a config file at `path`. -/
def step (path : String) (state : Process F64) : ProcessEvent F64 → Option (Process F64)
  | .outbound move =>
      if ownOutbound move then
        (TaskPool.step (PeerPool.program F64) state.outbound move).map state.setOutbound
      else none
  | .inbound move =>
      if ownInbound move then
        (TaskPool.step (SessionPool.program state.nodeName) state.inbound move).map
          state.setInbound
      else none
  | .acceptProbe =>
      -- without a permit the connection is dropped
      if state.probes.countP Probe.holdsPermit < maxProbeConnections then
        some { state with
          probes := state.probes ++ [⟨state.probeIdleTimeout, .banner probeBanner⟩] }
      else some state
  | .probe index input =>
      match state.probes[index]? with
      | none => none
      | some probe =>
          (probe.serve input.1 input.2).map fun probe =>
            { state with probes := state.probes.set index probe }
  | .sighup contents =>
      if state.handlingSighup then some (state.watchSighup path contents) else none
  | .sighupEnds => some { state with handlingSighup := false }
  | .watch input => state.watchConfig input
  | .shutdown => some { state with manager := { state.manager with cancel := true } }
  | .closeChannel =>
      -- `main` drops its sender after the shutdown, the handler when it ends
      if state.manager.cancel ∧ state.handlingSighup = false then
        some { state with manager := { state.manager with
          watch := { state.manager.watch with closed := true } } }
      else none

/-- The process when its tasks have been spawned, with the config it was started
with. -/
def start (F64 : Type) (config : Config) : Process F64 where
  metrics := Metrics.new F64
  manager := startManager config
  cancelled := ∅
  peerTasks := []
  nodeName := config.node.name
  heartbeatRecvTimeout := config.server.heartbeatRecvTimeout
  probeIdleTimeout := config.server.probeIdleTimeout
  sessions := []
  probes := []
  watcher := .waiting
  watcherUnseen := false
  handlingSighup := true
  loaded := [config]
  processed := config.server

variable {state next : Process F64} {path : String}

omit [UnicodeTables] [WallClock F64] [SocketAddrParser] [TomlParser] in
theorem received_iff :
    state.received = true ↔ state.manager.point ≠ .exited ∨ state.watcher ≠ .stopped :=
  decide_eq_true_iff

/-- Everything a step of `watch_config` can be. -/
inductive WatcherStep (state : Process F64) : WatcherInput → Process F64 → Prop
  | receive (hwatcher : state.watcher = .waiting) (hunseen : state.watcherUnseen = true) :
      WatcherStep state .changed
        { state with
          watcher := .storingRecv state.manager.watch.config.server
          watcherUnseen := false }
  | ended (hwatcher : state.watcher = .waiting) (hclosed : state.manager.watch.closed = true) :
      WatcherStep state .changed { state with watcher := .stopped }
  | cancelled (hwatcher : state.watcher = .waiting) (hcancel : state.manager.cancel = true) :
      WatcherStep state .cancelled { state with watcher := .stopped }
  | storeRecv {srv} (hwatcher : state.watcher = .storingRecv srv) :
      WatcherStep state .go
        { state with
          heartbeatRecvTimeout := srv.heartbeatRecvTimeout
          watcher := .storingIdle srv }
  | storeIdle {srv} (hwatcher : state.watcher = .storingIdle srv) :
      WatcherStep state .go
        { state with
          probeIdleTimeout := srv.probeIdleTimeout
          watcher := .waiting
          processed := srv }

omit [UnicodeTables] [WallClock F64] [SocketAddrParser] [TomlParser] in
theorem watcherStep_of_watchConfig {input : WatcherInput}
    (hstep : state.watchConfig input = some next) : WatcherStep state input next := by
  cases input with
  | changed =>
      simp only [watchConfig] at hstep
      split at hstep
      · next hwatcher =>
          split at hstep
          · next hunseen =>
              cases hstep
              exact .receive hwatcher hunseen
          · split at hstep
            · next hclosed =>
                cases hstep
                exact .ended hwatcher hclosed
            · cases hstep
      · cases hstep
  | cancelled =>
      simp only [watchConfig] at hstep
      split at hstep
      · next hwatcher =>
          obtain ⟨hcancel, heq⟩ := Option.ite_none_right_eq_some.mp hstep
          cases heq
          exact .cancelled hwatcher hcancel
      · cases hstep
  | go =>
      simp only [watchConfig] at hstep
      split at hstep
      · next srv hwatcher =>
          cases hstep
          exact .storeRecv hwatcher
      · next srv hwatcher =>
          cases hstep
          exact .storeIdle hwatcher
      · cases hstep

/-- What changes neither a task nor the point of the manager. -/
structure Frame (state next : Process F64) : Prop where
  metrics : next.metrics = state.metrics
  nodeName : next.nodeName = state.nodeName
  peerTasks : next.peerTasks = state.peerTasks
  sessions : next.sessions = state.sessions
  probes : next.probes = state.probes
  config : next.manager.config = state.manager.config
  tasks : next.manager.tasks = state.manager.tasks
  point : next.manager.point = state.manager.point

/-- The steps in which `watch_config` stores a timeout. -/
def stores : ProcessEvent F64 → Bool
  | .watch .go => true
  | _ => false

/-- Everything a step of the process can be: a step of one side, of a probe
connection, a new one, or something that moves no task. -/
inductive ProcessStep (state : Process F64) : ProcessEvent F64 → Process F64 → Prop
  | outbound {move pool} (hown : ownOutbound move = true)
      (hstep : TaskPool.step (PeerPool.program F64) state.outbound move = some pool) :
      ProcessStep state (.outbound move) (state.setOutbound pool)
  | inbound {move pool} (hown : ownInbound move = true)
      (hstep : TaskPool.step (SessionPool.program state.nodeName) state.inbound move =
        some pool) :
      ProcessStep state (.inbound move) (state.setInbound pool)
  | acceptProbe :
      ProcessStep state .acceptProbe
        { state with
          probes := state.probes ++ [⟨state.probeIdleTimeout, .banner probeBanner⟩] }
  | probe {index input probe probe'} (hget : state.probes[index]? = some probe)
      (hserve : probe.serve input.1 input.2 = some probe') :
      ProcessStep state (.probe index input)
        { state with probes := state.probes.set index probe' }
  | around {event next} (hframe : Frame state next)
      (htimeouts : stores event = false →
        next.heartbeatRecvTimeout = state.heartbeatRecvTimeout ∧
          next.probeIdleTimeout = state.probeIdleTimeout) :
      ProcessStep state event next

omit [UnicodeTables] [WallClock F64] [SocketAddrParser] [TomlParser] in
theorem WatcherStep.frame {input : WatcherInput} (hstep : WatcherStep state input next) :
    Frame state next := by
  cases hstep <;> exact ⟨rfl, rfl, rfl, rfl, rfl, rfl, rfl, rfl⟩

omit [UnicodeTables] [WallClock F64] [SocketAddrParser] [TomlParser] in
theorem WatcherStep.timeouts {input : WatcherInput} (hstep : WatcherStep state input next)
    (hstore : stores (.watch input : ProcessEvent F64) = false) :
    next.heartbeatRecvTimeout = state.heartbeatRecvTimeout ∧
      next.probeIdleTimeout = state.probeIdleTimeout := by
  cases hstep with
  | receive | ended | cancelled => exact ⟨rfl, rfl⟩
  | storeRecv | storeIdle => cases hstore

omit [UnicodeTables] [WallClock F64] in
theorem frame_watchSighup (contents : Except String String) :
    Frame state (state.watchSighup path contents) ∧
      (state.watchSighup path contents).heartbeatRecvTimeout = state.heartbeatRecvTimeout ∧
      (state.watchSighup path contents).probeIdleTimeout = state.probeIdleTimeout := by
  rw [watchSighup]
  split
  · exact ⟨⟨rfl, rfl, rfl, rfl, rfl, rfl, rfl, rfl⟩, rfl, rfl⟩
  · dsimp only
    split <;> exact ⟨⟨rfl, rfl, rfl, rfl, rfl, rfl, rfl, rfl⟩, rfl, rfl⟩

theorem step_outbound {move : ClientMove F64} (hstep : step path state (.outbound move) = some next) :
    ownOutbound move = true ∧ ∃ pool,
      TaskPool.step (PeerPool.program F64) state.outbound move = some pool ∧
        next = state.setOutbound pool := by
  obtain ⟨hown, hstep⟩ := Option.ite_none_right_eq_some.mp hstep
  obtain ⟨pool, hpool, hnext⟩ := Option.map_eq_some_iff.mp hstep
  exact ⟨hown, pool, hpool, hnext.symm⟩

theorem step_inbound {move : Move (Reading F64 × Completion) (ServerEvent F64)}
    (hstep : step path state (.inbound move) = some next) :
    ownInbound move = true ∧ ∃ pool,
      TaskPool.step (SessionPool.program state.nodeName) state.inbound move = some pool ∧
        next = state.setInbound pool := by
  obtain ⟨hown, hstep⟩ := Option.ite_none_right_eq_some.mp hstep
  obtain ⟨pool, hpool, hnext⟩ := Option.map_eq_some_iff.mp hstep
  exact ⟨hown, pool, hpool, hnext.symm⟩

theorem step_probe_eq_some {index : ℕ} {input : Reading F64 × Completion} :
    step path state (.probe index input) = some next ↔
      ∃ probe probe', state.probes[index]? = some probe ∧
        probe.serve input.1 input.2 = some probe' ∧
        next = { state with probes := state.probes.set index probe' } := by
  constructor
  · intro hstep
    simp only [step] at hstep
    split at hstep
    · cases hstep
    · next probe hget =>
        obtain ⟨probe', hserve, hnext⟩ := Option.map_eq_some_iff.mp hstep
        exact ⟨probe, probe', hget, hserve, hnext.symm⟩
  · rintro ⟨probe, probe', hget, hserve, rfl⟩
    simp [step, hget, hserve]

theorem processStep_of_step {event : ProcessEvent F64}
    (hstep : step path state event = some next) : ProcessStep state event next := by
  cases event with
  | outbound move =>
      obtain ⟨hown, pool, hpool, rfl⟩ := step_outbound hstep
      exact .outbound hown hpool
  | inbound move =>
      obtain ⟨hown, pool, hpool, rfl⟩ := step_inbound hstep
      exact .inbound hown hpool
  | acceptProbe =>
      simp only [step] at hstep
      split at hstep <;> cases hstep
      · exact .acceptProbe
      · exact .around ⟨rfl, rfl, rfl, rfl, rfl, rfl, rfl, rfl⟩ fun _ => ⟨rfl, rfl⟩
  | probe index input =>
      obtain ⟨probe, probe', hget, hserve, rfl⟩ := step_probe_eq_some.mp hstep
      exact .probe hget hserve
  | sighup contents =>
      obtain ⟨-, heq⟩ := Option.ite_none_right_eq_some.mp hstep
      cases heq
      exact .around (frame_watchSighup contents).1 fun _ => (frame_watchSighup contents).2
  | watch input =>
      have hwatch := watcherStep_of_watchConfig hstep
      exact .around hwatch.frame hwatch.timeouts
  | sighupEnds | shutdown =>
      cases hstep
      exact .around ⟨rfl, rfl, rfl, rfl, rfl, rfl, rfl, rfl⟩ fun _ => ⟨rfl, rfl⟩
  | closeChannel =>
      obtain ⟨-, heq⟩ := Option.ite_none_right_eq_some.mp hstep
      cases heq
      exact .around ⟨rfl, rfl, rfl, rfl, rfl, rfl, rfl, rfl⟩ fun _ => ⟨rfl, rfl⟩

end System

end Process

end TcpMonitor.WholeProcess
