import TcpMonitor.Core.TaskPool
import TcpMonitor.Server.InboundSession

/-!
# All inbound connections at once

Every accepted connection is a task of one pool over the shared metrics.  The
world around the tasks is the accept loop, the config watcher that stores a new
receive timeout, and the outbound side of the process, which shares the metric
families but never writes a server session family.

The history of a task always follows the program text of `handle_connection`;
this one invariant carries the bookkeeping results.
-/

namespace TcpMonitor.SessionPool

open TcpMonitor.TransitionSystem
open TcpMonitor.TaskPool
open TcpMonitor.Runtime
open TcpMonitor.LabelFamily
open TcpMonitor.MetricFamilies
open TcpMonitor.InboundSession
open TcpMonitor.Handshake

/-- Hard cap on concurrent inbound heartbeat sessions. -/
def maxConnections : ℕ := 128

/-- The state that connections share; the timeout is the atomic that
`watch_config` stores and the accept loop loads. -/
structure ServerShared (F64 : Type) where
  metrics : Metrics F64
  heartbeatRecvTimeout : UInt64

/-- What happens around the connections. -/
inductive ServerEvent (F64 : Type) where
  | accept
  | storeTimeout (heartbeatRecvTimeout : UInt64)
  | outbound (update : Update F64)

section System

variable (F64 : Type) [UnicodeTables] [WallClock F64] (nodeName : String)

abbrev SessionTask := Task (Connection F64) (Update F64)

abbrev Sessions := Pool (ServerShared F64) (Connection F64) (Update F64)

/-- A connection's permit is released when its task has run to its end. -/
def holdsPermit (task : SessionTask F64) : Bool :=
  match task.control.point, task.pending with
  | .closed _, [] => false
  | _, _ => true

end System

/-- The updates that the outbound side of the process makes. -/
def isOutbound {F64 : Type} : Update F64 → Bool
  | .setGauge .serverSessionActive _ _ => false
  | .setGauge _ _ _ => true
  | .setFloat .clientSessionStart _ _ | .setFloat .clientSessionDuration _ _ => true
  | .setFloat .clientRtt _ _ | .setFloat .clientLastHeartbeat _ _ => true
  | .setFloat _ _ _ => false
  | .incCounter .serverSessionsTotal _ | .incCounter .serverHeartbeatsRx _ => false
  | .incCounter _ _ => true
  | .incDisconnect .serverDisconnects _ => false
  | .incDisconnect .clientDisconnects _ => true
  | .createDisconnect _ _ => true

section System

variable {F64 : Type} [UnicodeTables] [WallClock F64]

/-- The inbound side of the process. -/
def program (nodeName : String) :
    Program (ServerShared F64) (Connection F64) (Update F64) (Reading F64 × Completion)
      (ServerEvent F64) where
  apply update shared := { shared with metrics := update.apply shared.metrics }
  act shared _ connection input :=
    (handleConnection nodeName shared.metrics.serverPeers connection input.1 input.2).map
      fun (peers, connection, updates) =>
        ({ shared with metrics := { shared.metrics with serverPeers := peers } },
          connection, updates)
  outside pool event :=
    match event with
    | .accept =>
        -- without a permit the connection is dropped
        if pool.tasks.countP (holdsPermit F64) < maxConnections then
          some (pool.shared, [⟨pool.shared.heartbeatRecvTimeout, .accepted⟩])
        else some (pool.shared, [])
    | .storeTimeout heartbeatRecvTimeout =>
        some ({ pool.shared with heartbeatRecvTimeout := heartbeatRecvTimeout }, [])
    | .outbound update =>
        if isOutbound update then
          some ({ pool.shared with metrics := update.apply pool.shared.metrics }, [])
        else none

/-- The process right after `Metrics::new`. -/
def start (F64 : Type) (heartbeatRecvTimeout : UInt64) : Sessions F64 :=
  ⟨⟨Metrics.new F64, heartbeatRecvTimeout⟩, []⟩

/-- The names that have been registered so far. -/
def registered (pool : Sessions F64) : Finset String := pool.shared.metrics.serverPeers.seen

variable {nodeName : String} {pool next : Sessions F64}

theorem act_eq_some {shared shared' : ServerShared F64} {index : ℕ}
    {connection connection' : Connection F64} {input : Reading F64 × Completion}
    {updates : List (Update F64)}
    (hact : (program nodeName).act shared index connection input =
      some (shared', connection', updates)) :
    ∃ peers, handleConnection nodeName shared.metrics.serverPeers connection input.1 input.2 =
        some (peers, connection', updates) ∧
      shared' = { shared with metrics := { shared.metrics with serverPeers := peers } } := by
  obtain ⟨⟨peers, connection'', updates'⟩, hhandle, heq⟩ := Option.map_eq_some_iff.mp hact
  simp only [Prod.mk.injEq] at heq
  obtain ⟨rfl, rfl, rfl⟩ := heq
  exact ⟨peers, hhandle, rfl⟩

/-- Outside the connections, only outbound updates change the metrics, and only
fresh connections are spawned. -/
theorem outside_eq_some {event : ServerEvent F64} {shared : ServerShared F64}
    {spawned : List (Connection F64)}
    (houtside : (program nodeName).outside pool event = some (shared, spawned)) :
    (shared.metrics = pool.shared.metrics ∨
      ∃ update, isOutbound update = true ∧
        shared.metrics = update.apply pool.shared.metrics) ∧
    ∀ connection ∈ spawned, connection.point = .accepted := by
  cases event with
  | accept =>
      simp only [program] at houtside
      split at houtside <;> cases houtside
      · exact ⟨Or.inl rfl, by simp⟩
      · exact ⟨Or.inl rfl, by simp⟩
  | storeTimeout timeout =>
      cases houtside
      exact ⟨Or.inl rfl, by simp⟩
  | outbound update =>
      simp only [program] at houtside
      split at houtside
      · next hupdate =>
          cases houtside
          exact ⟨Or.inr ⟨update, hupdate, rfl⟩, by simp⟩
      · cases houtside

/-- Registering a connection's peer never removes another. -/
theorem seen_subset_of_act {peers peers' : ServerPeers} {connection connection' : Connection F64}
    {clock : Reading F64} {completion : Completion} {updates : List (Update F64)}
    (hhandle : handleConnection nodeName peers connection clock completion =
      some (peers', connection', updates)) : peers.seen ⊆ peers'.seen := by
  rcases handleConnection_cases hhandle with
    ⟨-, -, rfl, -⟩ | ⟨peerName, -, -, rfl, -⟩ | ⟨_, _, _, _, -, -, rfl, -⟩ |
      ⟨_, _, _, _, -, -, rfl, -⟩
  · exact Finset.Subset.refl _
  · exact ServerPeers.seen_subset_tryRegister peers peerName
  · exact Finset.Subset.refl _
  · exact Finset.Subset.refl _

/-- The registered set never shrinks in a step. -/
theorem registered_subset_of_step {move : Move (Reading F64 × Completion) (ServerEvent F64)}
    (hstep : step (program nodeName) pool move = some next) :
    registered pool ⊆ registered next := by
  cases move with
  | flush index =>
      obtain ⟨control, update, rest, made, -, rfl⟩ := step_flush_eq_some.mp hstep
      simp [registered, program]
  | act index input =>
      obtain ⟨control, made, shared, control', updates, -, hact, rfl⟩ :=
        step_act_eq_some.mp hstep
      obtain ⟨peers, hhandle, rfl⟩ := act_eq_some hact
      exact seen_subset_of_act hhandle
  | outside event =>
      obtain ⟨shared, spawned, houtside, rfl⟩ := step_outside_eq_some.mp hstep
      obtain ⟨hmetrics | ⟨update, -, hmetrics⟩, -⟩ := outside_eq_some houtside <;>
        simp [registered, hmetrics]

/-- A step changes the metric families by at most one update, made by the
outbound side or by a connection whose turn it is. -/
theorem metrics_of_step {move : Move (Reading F64 × Completion) (ServerEvent F64)}
    (hstep : step (program nodeName) pool move = some next) :
    (∃ peers, next.shared.metrics = { pool.shared.metrics with serverPeers := peers }) ∨
      ∃ update, next.shared.metrics = update.apply pool.shared.metrics ∧
        (isOutbound update = true ∨ ∃ task ∈ pool.tasks, update ∈ task.pending) := by
  cases move with
  | flush index =>
      obtain ⟨control, update, rest, made, hget, rfl⟩ := step_flush_eq_some.mp hstep
      exact Or.inr ⟨update, rfl, Or.inr ⟨_, List.mem_of_getElem? hget, List.mem_cons_self⟩⟩
  | act index input =>
      obtain ⟨control, made, shared, control', updates, -, hact, rfl⟩ :=
        step_act_eq_some.mp hstep
      obtain ⟨peers, -, rfl⟩ := act_eq_some hact
      exact Or.inl ⟨peers, rfl⟩
  | outside event =>
      obtain ⟨shared, spawned, houtside, rfl⟩ := step_outside_eq_some.mp hstep
      obtain ⟨hmetrics | ⟨update, hupdate, hmetrics⟩, -⟩ := outside_eq_some houtside
      · exact Or.inl ⟨_, hmetrics⟩
      · exact Or.inr ⟨update, hmetrics, Or.inl hupdate⟩

/-! ## The history of a connection follows its program -/

/-- An update made while echoing. -/
def IsBeat (label : PeerLabel) (update : Update F64) : Prop :=
  ∃ startTs now, update ∈ heartbeatUpdates label startTs now

/-- The history of a connection and the updates it has yet to make, at each
point of `handle_connection`. -/
def InProgram (nodeName : String) (shared : ServerShared F64) (task : SessionTask F64) :
    Prop :=
  match task.control.point with
  | .driving label startTs _ =>
      (label.node = nodeName ∧ label.peer ∈ shared.metrics.serverPeers.seen) ∧
        ∃ beats, (∀ update ∈ beats, IsBeat label update) ∧
          task.made ++ task.pending = startUpdates label startTs ++ beats
  | .closed (.ended reason) =>
      reason ∈ serverDisconnectReasons ∧ ∃ label startTs duration beats final,
        (label.node = nodeName ∧ label.peer ∈ shared.metrics.serverPeers.seen) ∧
        (∀ update ∈ beats, IsBeat label update) ∧
          task.made = startUpdates label startTs ++ beats ++ final ∧
          final ++ task.pending = endUpdates label duration reason
  | _ => task.made = [] ∧ task.pending = []

omit [UnicodeTables] in
theorem inProgram_of_point {point : Point F64} {timeout : UInt64} {shared : ServerShared F64}
    (hpoint : point.BeforeSession ∨ point.Rejected) {made pending : List (Update F64)} :
    InProgram nodeName shared ⟨⟨timeout, point⟩, pending, made⟩ ↔
      made = [] ∧ pending = [] := by
  cases point with
  | driving => simp [Point.BeforeSession, Point.Rejected] at hpoint
  | closed outcome =>
      cases outcome with
      | ended => simp [Point.BeforeSession, Point.Rejected] at hpoint
      | handshakeFailed | refused => simp [InProgram]
  | accepted | handshake | registering => simp [InProgram]

omit [UnicodeTables] in
theorem InProgram.mono {shared shared' : ServerShared F64} {task : SessionTask F64}
    (hsubset : shared.metrics.serverPeers.seen ⊆ shared'.metrics.serverPeers.seen)
    (htask : InProgram nodeName shared task) : InProgram nodeName shared' task := by
  unfold InProgram at htask ⊢
  split
  · next label startTs drive hpoint =>
      rw [hpoint] at htask
      exact ⟨⟨htask.1.1, hsubset htask.1.2⟩, htask.2⟩
  · next reason hpoint =>
      rw [hpoint] at htask
      obtain ⟨hreason, label, startTs, duration, beats, final, ⟨hnode, hpeer⟩, hrest⟩ := htask
      exact ⟨hreason, label, startTs, duration, beats, final, ⟨hnode, hsubset hpeer⟩, hrest⟩
  · next hdriving hended =>
      split at htask
      · next label startTs drive hpoint => exact absurd hpoint (hdriving label startTs drive)
      · next reason hpoint => exact absurd hpoint (hended reason)
      · exact htask

omit [UnicodeTables] in
/-- Making the next update moves it from the program ahead to the history. -/
theorem InProgram.flush {shared shared' : ServerShared F64} {connection : Connection F64}
    {update : Update F64} {rest made : List (Update F64)}
    (hseen : shared'.metrics.serverPeers = shared.metrics.serverPeers)
    (htask : InProgram nodeName shared ⟨connection, update :: rest, made⟩) :
    InProgram nodeName shared' ⟨connection, rest, made ++ [update]⟩ := by
  unfold InProgram at htask ⊢
  simp only [hseen]
  dsimp only at htask
  split
  · next label startTs drive hpoint =>
      rw [hpoint] at htask
      obtain ⟨howned, beats, hbeats, hmade⟩ := htask
      exact ⟨howned, beats, hbeats, by rw [← hmade, List.append_assoc]; rfl⟩
  · next reason hpoint =>
      rw [hpoint] at htask
      obtain ⟨hreason, label, startTs, duration, beats, final, howned, hbeats, hmade, hfinal⟩ :=
        htask
      refine ⟨hreason, label, startTs, duration, beats, final ++ [update], howned, hbeats, ?_, ?_⟩
      · rw [hmade, List.append_assoc]
      · rw [← hfinal, List.append_assoc]
        rfl
  · next hdriving hended =>
      split at htask
      · next label startTs drive hpoint => exact absurd hpoint (hdriving label startTs drive)
      · next reason hpoint => exact absurd hpoint (hended reason)
      · simp at htask

/-- Acting appends the program of the next piece of straight-line code. -/
theorem InProgram.act {shared : ServerShared F64} {peers : ServerPeers}
    {connection connection' : Connection F64} {clock : Reading F64} {completion : Completion}
    {made updates : List (Update F64)}
    (htask : InProgram nodeName shared ⟨connection, [], made⟩)
    (hhandle : handleConnection nodeName shared.metrics.serverPeers connection clock completion =
      some (peers, connection', updates)) :
    InProgram nodeName
      { shared with metrics := { shared.metrics with serverPeers := peers } }
      ⟨connection', updates, made⟩ := by
  obtain ⟨timeout, point⟩ := connection
  obtain ⟨timeout', point'⟩ := connection'
  rcases handleConnection_cases hhandle with
    ⟨hbefore, hafter, rfl, rfl⟩ | ⟨peerName, hpoint, haccepted, rfl, hpoint', rfl⟩ |
      ⟨label, startTs, drive, drive', hpoint, hpoint', rfl, hupdates⟩ |
        ⟨label, startTs, drive, reason, hpoint, hpoint', rfl, hreason, rfl⟩
  · exact (inProgram_of_point hafter).mpr ((inProgram_of_point (Or.inl hbefore)).mp htask)
  · have hbefore : point.BeforeSession := by
      dsimp only at hpoint
      rw [hpoint]
      trivial
    obtain ⟨rfl, -⟩ := (inProgram_of_point (Or.inl hbefore)).mp htask
    dsimp only at hpoint'
    simp only [InProgram, hpoint', List.nil_append]
    exact ⟨⟨trivial, ServerPeers.mem_seen_of_accepted haccepted⟩, [], by simp, by simp⟩
  · dsimp only at hpoint hpoint'
    simp only [InProgram, hpoint, hpoint', List.append_nil] at htask ⊢
    obtain ⟨howned, beats, hbeats, rfl⟩ := htask
    rcases hupdates with rfl | rfl
    · exact ⟨howned, beats, hbeats, by simp⟩
    · refine ⟨howned, beats ++ heartbeatUpdates label startTs clock.wall, ?_, by simp⟩
      intro update hmem
      rcases List.mem_append.mp hmem with hold | hnew
      · exact hbeats update hold
      · exact ⟨startTs, clock.wall, hnew⟩
  · dsimp only at hpoint hpoint'
    simp only [InProgram, hpoint, hpoint', List.append_nil] at htask ⊢
    obtain ⟨howned, beats, hbeats, rfl⟩ := htask
    exact ⟨hreason, label, startTs, clock.wall - startTs, beats, [], howned, hbeats,
      by simp, by simp⟩

theorem inProgram_invariant (nodeName : String) :
    TaskInvariant (program nodeName)
      (InProgram nodeName : ServerShared F64 → SessionTask F64 → Prop) where
  stable hstep task := InProgram.mono (registered_subset_of_step hstep)
  spawn houtside connection hmem := by
    have hpoint := (outside_eq_some houtside).2 connection hmem
    obtain ⟨timeout, point⟩ := connection
    dsimp only at hpoint
    subst hpoint
    have hbefore : (Point.accepted : Point F64).BeforeSession := trivial
    exact (inProgram_of_point (Or.inl hbefore)).mpr ⟨rfl, rfl⟩
  flush htask := htask.flush (Update.serverPeers_apply _ _)
  act htask hact := by
    obtain ⟨peers, hhandle, rfl⟩ := act_eq_some hact
    exact htask.act hhandle

theorem inProgram_of_reachable {timeout : UInt64}
    (hreach : Reachable (step (program nodeName)) (start F64 timeout) pool) :
    ∀ task ∈ pool.tasks, InProgram nodeName pool.shared task :=
  (inProgram_invariant nodeName).reachable hreach (by simp [start])

omit [UnicodeTables] in
/-- Every update of a connection belongs to the start, the heartbeats or the end
of a session whose label it owns. -/
theorem InProgram.update_cases {shared : ServerShared F64} {task : SessionTask F64}
    (htask : InProgram nodeName shared task) {update : Update F64}
    (hmem : update ∈ task.made ++ task.pending) :
    ∃ label, (label.node = nodeName ∧ label.peer ∈ shared.metrics.serverPeers.seen) ∧
      ((∃ startTs, update ∈ startUpdates label startTs) ∨ IsBeat label update ∨
        ∃ duration, ∃ reason ∈ serverDisconnectReasons,
          update ∈ endUpdates label duration reason) := by
  unfold InProgram at htask
  split at htask
  · next label startTs drive hpoint =>
      obtain ⟨howned, beats, hbeats, hmade⟩ := htask
      rw [hmade, List.mem_append] at hmem
      rcases hmem with hstart | hbeat
      · exact ⟨label, howned, Or.inl ⟨startTs, hstart⟩⟩
      · exact ⟨label, howned, Or.inr (Or.inl (hbeats update hbeat))⟩
  · next reason hpoint =>
      obtain ⟨hreason, label, startTs, duration, beats, final, howned, hbeats, hmade, hfinal⟩ :=
        htask
      rw [hmade, List.append_assoc, hfinal, List.mem_append, List.mem_append] at hmem
      rcases hmem with (hstart | hbeat) | hend
      · exact ⟨label, howned, Or.inl ⟨startTs, hstart⟩⟩
      · exact ⟨label, howned, Or.inr (Or.inl (hbeats update hbeat))⟩
      · exact ⟨label, howned, Or.inr (Or.inr ⟨duration, reason, hreason, hend⟩)⟩
  · simp [htask.1, htask.2] at hmem

omit [UnicodeTables] in
/-- Seen through a projection that ignores heartbeats, the updates of a
connection are a prefix of the start and the end of one session. -/
theorem InProgram.filterMap_session {A : Type} (project : Update F64 → Option A)
    (hbeat : ∀ label update, IsBeat label update → project update = none)
    {shared : ServerShared F64} {task : SessionTask F64}
    (htask : InProgram nodeName shared task) :
    task.made ++ task.pending = [] ∨
      ∃ label startTs duration, ∃ reason ∈ serverDisconnectReasons,
        (task.made ++ task.pending).filterMap project <+:
          (startUpdates label startTs).filterMap project ++
            (endUpdates label duration reason).filterMap project := by
  have hbeats : ∀ {label : PeerLabel} {beats : List (Update F64)},
      (∀ update ∈ beats, IsBeat label update) → beats.filterMap project = [] :=
    fun hall => List.filterMap_eq_nil_iff.mpr fun update hmem => hbeat _ update (hall update hmem)
  unfold InProgram at htask
  split at htask
  · next label startTs drive hpoint =>
      obtain ⟨-, beats, hall, hmade⟩ := htask
      refine Or.inr ⟨label, startTs, startTs, "timeout", by decide, ?_⟩
      rw [hmade, List.filterMap_append, hbeats hall, List.append_nil]
      exact List.prefix_append _ _
  · next reason hpoint =>
      obtain ⟨hreason, label, startTs, duration, beats, final, -, hall, hmade, hfinal⟩ := htask
      refine Or.inr ⟨label, startTs, duration, reason, hreason, ?_⟩
      rw [hmade, List.append_assoc, hfinal, List.filterMap_append, List.filterMap_append,
        hbeats hall, List.append_nil]
  · exact Or.inl (by rw [htask.1, htask.2, List.append_nil])

end System

/-! ## Scripts for concrete runs -/

abbrev ServerMove := Move (Reading WholeSeconds × Completion) (ServerEvent WholeSeconds)

/-- One connection acts, with both clocks at zero. -/
def act (index : ℕ) (completion : Completion) : ServerMove :=
  .act index (⟨0, ⟨0⟩⟩, completion)

/-- A new connection sends the handshake of `cli` and starts its session. -/
def connect (index : ℕ) : List ServerMove :=
  [.outside .accept, act index .ready, act index (.read (.ok [0, 0, 0, 3])),
    act index (.read (.ok [99, 108, 105])), act index .ready] ++
  List.replicate 12 (.flush index)

/-- The old session's stream ends and the session sets the gauge to 0. -/
def disconnect (index : ℕ) : List ServerMove :=
  [act index .ready, act index (.read (.ok [])), .flush index]

end TcpMonitor.SessionPool
