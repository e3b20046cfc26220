import TcpMonitor.TimerBounds

/-!
# Only validated settings are in force

Settings are copied on their way into timers: into the watch channel, into the
manager, into the arguments of a peer task, into the two atomics, and from these
into every connection.  The invariant follows each copy back to a config that
was loaded, and a config is loaded only if it passes validation.
-/

namespace TcpMonitor.SettingsInForce

open TcpMonitor.TransitionSystem
open TcpMonitor.TaskPool
open TcpMonitor.Runtime
open TcpMonitor.Configuration
open TcpMonitor.MetricFamilies
open TcpMonitor.ReconnectLoop
open TcpMonitor.PeerManager
open TcpMonitor.PeerPool hiding start program act_eq_some
open TcpMonitor.SessionPool hiding start program act_eq_some
open TcpMonitor.InboundSession
open TcpMonitor.Handshake
open TcpMonitor.WholeProcess
open TcpMonitor.WholeProcess.Process
open TcpMonitor.TimerBounds

/-! ## What the manager takes over -/

/-- The client settings that a pass of the manager goes by. -/
def clientCfg : ManagerPoint → Option ClientConfig
  | .stopping (.removing clientCfg _) | .joining _ (.removing clientCfg _) => some clientCfg
  | .spawning clientCfg _ => some clientCfg
  | _ => none

theorem clientCfg_of_spawning {point : ManagerPoint} {settings : ClientConfig}
    {peers : List (String × PeerConfig)} (hpoint : point = .spawning settings peers) :
    clientCfg point = some settings := by
  rw [hpoint]
  rfl

/-- What a step does to the settings of the manager: it keeps them or takes those
of the channel, which it does not change. -/
structure SettingsStep (manager manager' : Manager) : Prop where
  channel : manager'.watch.config = manager.watch.config
  closed : manager'.watch.closed = manager.watch.closed
  cancel : manager'.cancel = manager.cancel
  current : manager'.config = manager.config ∨ manager'.config = manager.watch.config
  pass : ∀ settings, clientCfg manager'.point = some settings →
    clientCfg manager.point = some settings ∨ manager.watch.config.client = some settings
  running : manager'.point ≠ .exited → manager.point ≠ .exited

theorem SettingsStep.refl (manager : Manager) : SettingsStep manager manager :=
  ⟨rfl, rfl, rfl, Or.inl rfl, fun _ => Or.inl, id⟩

section Manager

variable {finished : ℕ → Bool} {spawnId : ℕ} {manager manager' : Manager} {effect : Effect}

theorem managerStep_settings
    (hstep : ManagerStep finished spawnId manager (manager', effect)) :
    SettingsStep manager manager' := by
  have hrunning : manager.point ≠ .exited := by
    intro hexited
    cases hstep with
    | readNone hpoint | readClient hpoint | skip hpoint | remove hpoint | beginSpawning hpoint
    | drainNext hpoint | drained hpoint | shutdownNext hpoint | exit hpoint | joined hpoint
    | keep hpoint | spawn hpoint | reconciled hpoint | wake hpoint | leave hpoint
    | shutdown hpoint =>
        rw [hexited] at hpoint
        cases hpoint
  cases hstep with
  | readNone hpoint => exact ⟨rfl, rfl, rfl, Or.inr rfl, nofun, fun _ => hrunning⟩
  | readClient hpoint hnames hclient =>
      exact ⟨rfl, rfl, rfl, Or.inr rfl, fun settings hsettings =>
        Or.inr (hclient.trans hsettings), fun _ => hrunning⟩
  | skip hpoint | remove hpoint | beginSpawning hpoint | keep hpoint | spawn hpoint =>
      refine ⟨rfl, rfl, rfl, Or.inl rfl, fun settings hsettings => Or.inl ?_, fun _ => hrunning⟩
      rw [hpoint]
      exact hsettings
  | @joined task work hpoint =>
      refine ⟨rfl, rfl, rfl, Or.inl rfl, fun settings hsettings => Or.inl ?_, fun _ => hrunning⟩
      rw [hpoint]
      cases work <;> exact hsettings
  | drainNext | drained | shutdownNext | exit | reconciled | wake | leave | shutdown =>
      exact ⟨rfl, rfl, rfl, Or.inl rfl, nofun, fun _ => hrunning⟩

end Manager

/-! ## Where settings come from -/

section Provenance

variable {F64 : Type} [SocketAddrParser]

/-- The server section whose timeouts `watch_config` is storing. -/
def storing : WatcherPoint → Option ServerConfig
  | .storingRecv srv | .storingIdle srv => some srv
  | .waiting | .stopped => none

/-- Every copy of a setting is the one of a config that was loaded, and every
loaded config is valid. -/
structure FromLoaded (state : Process F64) : Prop where
  valid : ∀ config ∈ state.loaded, config.validate = .ok ()
  channel : state.manager.watch.config ∈ state.loaded
  current : state.manager.config ∈ state.loaded
  pass : ∀ settings, clientCfg state.manager.point = some settings →
    ∃ config ∈ state.loaded, config.client = some settings
  peerTasks : ∀ (i : ℕ) task, state.peerTasks[i]? = some task →
    ∃ config ∈ state.loaded, config.client = some task.control.clientCfg
  recv : ∃ config ∈ state.loaded,
    config.server.heartbeatRecvTimeout = state.heartbeatRecvTimeout
  idle : ∃ config ∈ state.loaded, config.server.probeIdleTimeout = state.probeIdleTimeout
  sessions : ∀ (i : ℕ) task, state.sessions[i]? = some task → ∃ config ∈ state.loaded,
    config.server.heartbeatRecvTimeout = task.control.heartbeatRecvTimeout
  probes : ∀ probe ∈ state.probes, ∃ config ∈ state.loaded,
    config.server.probeIdleTimeout = probe.idleSecs
  watcher : ∀ srv, storing state.watcher = some srv →
    ∃ config ∈ state.loaded, config.server = srv
  processed : ∃ config ∈ state.loaded, config.server = state.processed

variable [UnicodeTables] [WallClock F64]

omit [SocketAddrParser] [UnicodeTables] in
/-- In its own steps the outbound side changes settings only through the
manager. -/
theorem outbound_settings {pool next : Peers F64} {move : ClientMove F64}
    (hown : ownOutbound move = true)
    (hstep : TaskPool.step (PeerPool.program F64) pool move = some next) :
    SettingsStep pool.shared.manager next.shared.manager := by
  cases move with
  | flush index =>
      obtain ⟨control, update, rest, made, -, rfl⟩ := step_flush_eq_some.mp hstep
      exact SettingsStep.refl _
  | act index input =>
      obtain ⟨control, made, shared, control', updates, -, hact, rfl⟩ :=
        step_act_eq_some.mp hstep
      obtain ⟨rfl, -, -⟩ := PeerPool.act_eq_some hact
      exact SettingsStep.refl _
  | outside event =>
      obtain ⟨shared, spawned, houtside, rfl⟩ := step_outside_eq_some.mp hstep
      cases event with
      | manage input =>
          obtain ⟨⟨manager, effect⟩, hrun, heq⟩ := Option.map_eq_some_iff.mp houtside
          have hmanager : shared.manager = manager := by
            cases effect <;> cases heq <;> rfl
          dsimp only
          rw [hmanager]
          exact managerStep_settings (managerStep_of_runManager hrun)
      | send | closeSenders | cancelManager | inbound => cases hown

omit [SocketAddrParser] in
/-- The inbound side never stores a timeout by itself. -/
theorem inbound_timeout {nodeName : String} {pool next : Sessions F64}
    {move : Move (Reading F64 × Completion) (ServerEvent F64)} (hown : ownInbound move = true)
    (hstep : TaskPool.step (SessionPool.program nodeName) pool move = some next) :
    next.shared.heartbeatRecvTimeout = pool.shared.heartbeatRecvTimeout := by
  cases move with
  | flush index =>
      obtain ⟨control, update, rest, made, -, rfl⟩ := step_flush_eq_some.mp hstep
      rfl
  | act index input =>
      obtain ⟨control, made, shared, control', updates, -, hact, rfl⟩ :=
        step_act_eq_some.mp hstep
      obtain ⟨peers, -, rfl⟩ := SessionPool.act_eq_some hact
      rfl
  | outside event =>
      obtain ⟨shared, spawned, houtside, rfl⟩ := step_outside_eq_some.mp hstep
      cases event with
      | accept =>
          simp only [SessionPool.program] at houtside
          split at houtside <;> cases houtside <;> rfl
      | storeTimeout | outbound => cases hown

omit [SocketAddrParser] in
/-- A connection is accepted with the timeout in the atomic. -/
theorem spawned_timeout {nodeName : String} {pool : Sessions F64} {event : ServerEvent F64}
    {shared : ServerShared F64} {spawned : List (Connection F64)}
    (houtside : (SessionPool.program nodeName).outside pool event = some (shared, spawned)) :
    ∀ connection ∈ spawned,
      connection.heartbeatRecvTimeout = pool.shared.heartbeatRecvTimeout := by
  cases event with
  | accept =>
      simp only [SessionPool.program] at houtside
      split at houtside <;> cases houtside
      · simp
      · simp
  | storeTimeout timeout =>
      cases houtside
      simp
  | outbound update =>
      simp only [SessionPool.program] at houtside
      split at houtside <;> cases houtside
      simp

omit [SocketAddrParser] in
theorem act_timeout {nodeName : String} {shared shared' : ServerShared F64} {index : ℕ}
    {connection connection' : Connection F64} {input : Reading F64 × Completion}
    {updates : List (Update F64)}
    (hact : (SessionPool.program nodeName).act shared index connection input =
      some (shared', connection', updates)) :
    connection'.heartbeatRecvTimeout = connection.heartbeatRecvTimeout := by
  obtain ⟨peers, hhandle, -⟩ := SessionPool.act_eq_some hact
  exact handleConnection_timeout hhandle

variable {state next : Process F64} {path : String}

omit [UnicodeTables] [WallClock F64] in
theorem fromLoaded_start {config : Config} (hvalid : config.validate = .ok ()) :
    FromLoaded (start F64 config) where
  valid config' hmem := by
    obtain rfl := List.mem_singleton.mp hmem
    exact hvalid
  channel := List.mem_singleton_self config
  current := List.mem_singleton_self config
  pass := nofun
  peerTasks := nofun
  recv := ⟨config, List.mem_singleton_self config, rfl⟩
  idle := ⟨config, List.mem_singleton_self config, rfl⟩
  sessions := nofun
  probes := nofun
  watcher := nofun
  processed := ⟨config, List.mem_singleton_self config, rfl⟩

omit [UnicodeTables] in
theorem FromLoaded.outbound (hinv : FromLoaded state) {move : ClientMove F64} {pool : Peers F64}
    (hown : ownOutbound move = true)
    (hstep : TaskPool.step (PeerPool.program F64) state.outbound move = some pool) :
    FromLoaded (state.setOutbound pool) := by
  have htasks : ∀ (i : ℕ) task, pool.tasks[i]? = some task →
      ∃ config ∈ state.loaded, config.client = some task.control.clientCfg := by
    refine forall_control_step
      (P := fun (_ : ℕ) (loop : PeerLoop F64) =>
        ∃ config ∈ state.loaded, config.client = some loop.clientCfg)
      (fun _ hact hloop => ?_) (fun _ houtside loop hmem index hindex => ?_) hstep hinv.peerTasks
    · obtain ⟨-, hloopStep, -⟩ := PeerPool.act_eq_some hact
      rwa [hloopStep.clientCfg_eq]
    · obtain ⟨-, name, peer, settings, peers, -, hpoint, -, rfl⟩ := mem_spawned houtside hmem
      exact hinv.pass settings (clientCfg_of_spawning hpoint)
  have hsettings := outbound_settings hown hstep
  exact { hinv with
    channel := hsettings.channel ▸ hinv.channel
    current := by
      rcases hsettings.current with hkept | htaken
      · exact hkept ▸ hinv.current
      · exact htaken ▸ hinv.channel
    pass := by
      intro settings hpass
      rcases hsettings.pass settings hpass with hkept | htaken
      · exact hinv.pass settings hkept
      · exact ⟨_, hinv.channel, htaken⟩
    peerTasks := htasks }

theorem FromLoaded.inbound (hinv : FromLoaded state)
    {move : Move (Reading F64 × Completion) (ServerEvent F64)} {pool : Sessions F64}
    (hown : ownInbound move = true)
    (hstep : TaskPool.step (SessionPool.program state.nodeName) state.inbound move =
      some pool) : FromLoaded (state.setInbound pool) := by
  have htimeout := inbound_timeout hown hstep
  exact { hinv with
    recv := by
      obtain ⟨config, hmem, hrecv⟩ := hinv.recv
      exact ⟨config, hmem, hrecv.trans htimeout.symm⟩
    sessions := by
      refine forall_control_step
        (P := fun (_ : ℕ) (connection : Connection F64) => ∃ config ∈ state.loaded,
          config.server.heartbeatRecvTimeout = connection.heartbeatRecvTimeout)
        (fun _ hact hconnection => ?_) (fun _ houtside connection hmem index hindex => ?_) hstep
        hinv.sessions
      · rwa [act_timeout hact]
      · rw [spawned_timeout houtside connection hmem]
        exact hinv.recv }

omit [UnicodeTables] [WallClock F64] in
/-- A config that was loaded joins the others. -/
theorem FromLoaded.load (hinv : FromLoaded state) {config : Config}
    (hvalid : config.validate = .ok ()) :
    FromLoaded { state with loaded := state.loaded ++ [config] } := by
  have hold : ∀ {P : Config → Prop}, (∃ config ∈ state.loaded, P config) →
      ∃ config' ∈ state.loaded ++ [config], P config' :=
    fun ⟨config, hmem, hconfig⟩ => ⟨config, List.mem_append_left _ hmem, hconfig⟩
  exact {
    valid := by
      intro config' hmem
      rcases List.mem_append.mp hmem with hmem | hmem
      · exact hinv.valid config' hmem
      · rwa [List.mem_singleton.mp hmem]
    channel := List.mem_append_left _ hinv.channel
    current := List.mem_append_left _ hinv.current
    pass := fun settings hsettings => hold (hinv.pass settings hsettings)
    peerTasks := fun i task hget => hold (hinv.peerTasks i task hget)
    recv := hold hinv.recv
    idle := hold hinv.idle
    sessions := fun i task hget => hold (hinv.sessions i task hget)
    probes := fun probe hmem => hold (hinv.probes probe hmem)
    watcher := fun srv hsrv => hold (hinv.watcher srv hsrv)
    processed := hold hinv.processed }

omit [UnicodeTables] [WallClock F64] in
theorem FromLoaded.watch (hinv : FromLoaded state) {input : WatcherInput}
    (hstep : WatcherStep state input next) : FromLoaded next := by
  cases hstep with
  | receive =>
      exact { hinv with
        watcher := by
          intro srv hsrv
          cases hsrv
          exact ⟨_, hinv.channel, rfl⟩ }
  | ended | cancelled => exact { hinv with watcher := nofun }
  | @storeRecv srv hwatcher =>
      obtain ⟨config, hmem, rfl⟩ := hinv.watcher srv (by rw [hwatcher]; rfl)
      exact { hinv with
        recv := ⟨config, hmem, rfl⟩
        watcher := by
          intro srv hsrv
          cases hsrv
          exact ⟨config, hmem, rfl⟩ }
  | @storeIdle srv hwatcher =>
      obtain ⟨config, hmem, rfl⟩ := hinv.watcher srv (by rw [hwatcher]; rfl)
      exact { hinv with
        idle := ⟨config, hmem, rfl⟩
        watcher := nofun
        processed := ⟨config, hmem, rfl⟩ }

variable [TomlParser]

omit [UnicodeTables] [WallClock F64] in
theorem FromLoaded.sighup (hinv : FromLoaded state) (contents : Except String String) :
    FromLoaded (state.watchSighup path contents) := by
  rw [watchSighup]
  split
  · exact hinv
  · next config hload =>
      have hloaded := hinv.load (validate_of_load hload)
      dsimp only
      split
      · exact { hloaded with channel := List.mem_append_right _ (List.mem_singleton_self config) }
      · exact { hloaded with }

theorem fromLoaded_step {event : ProcessEvent F64} (hinv : FromLoaded state)
    (hstep : Process.step path state event = some next) : FromLoaded next := by
  cases event with
  | outbound move =>
      obtain ⟨hown, pool, hpool, rfl⟩ := step_outbound hstep
      exact hinv.outbound hown hpool
  | inbound move =>
      obtain ⟨hown, pool, hpool, rfl⟩ := step_inbound hstep
      exact hinv.inbound hown hpool
  | acceptProbe =>
      simp only [Process.step] at hstep
      split at hstep <;> cases hstep
      · exact { hinv with
          probes := by
            intro probe hmem
            rcases List.mem_append.mp hmem with hold | hnew
            · exact hinv.probes probe hold
            · rw [List.mem_singleton.mp hnew]
              exact hinv.idle }
      · exact hinv
  | probe index input =>
      obtain ⟨probe, probe', hget, hserve, rfl⟩ := step_probe_eq_some.mp hstep
      exact { hinv with
        probes := by
          intro other hmem
          rcases List.mem_or_eq_of_mem_set hmem with hold | rfl
          · exact hinv.probes other hold
          · rw [serve_idleSecs hserve]
            exact hinv.probes probe (List.mem_of_getElem? hget) }
  | sighup contents =>
      obtain ⟨-, heq⟩ := Option.ite_none_right_eq_some.mp hstep
      cases heq
      exact hinv.sighup contents
  | watch input => exact hinv.watch (watcherStep_of_watchConfig hstep)
  | sighupEnds | shutdown =>
      cases hstep
      exact { hinv with }
  | closeChannel =>
      obtain ⟨-, heq⟩ := Option.ite_none_right_eq_some.mp hstep
      cases heq
      exact { hinv with }

theorem fromLoaded_of_reachable {config : Config} (hvalid : config.validate = .ok ())
    (hreach : Reachable (Process.step path) (start F64 config) state) : FromLoaded state :=
  hreach.invariant FromLoaded (fromLoaded_start hvalid) fun _ _ _ hinv hstep =>
    fromLoaded_step hinv hstep

end Provenance

/-! ## Which config is in force -/

section Latest

variable {F64 : Type}

/-- The atomics hold the timeouts that were stored last. -/
def Stored (state : Process F64) : Prop :=
  (state.heartbeatRecvTimeout =
    match state.watcher with
    | .storingIdle srv => srv.heartbeatRecvTimeout
    | _ => state.processed.heartbeatRecvTimeout) ∧
  state.probeIdleTimeout = state.processed.probeIdleTimeout

/-- The channel carries the last config that was loaded, and `watch_config`
keeps up with it. -/
structure UpToDate (state : Process F64) : Prop where
  closed : state.manager.watch.closed = true → state.manager.cancel = true
  stopped : state.watcher = .stopped → state.manager.cancel = true
  latest : state.received = true →
    state.loaded.getLast? = some state.manager.watch.config
  stored : Stored state
  waiting : state.watcherUnseen = false → state.watcher = .waiting →
    state.processed = state.manager.watch.config.server
  storing : state.watcherUnseen = false → ∀ srv, storing state.watcher = some srv →
    srv = state.manager.watch.config.server

variable {state next : Process F64} {path : String}

theorem upToDate_start (config : Config) : UpToDate (start F64 config) where
  closed := nofun
  stopped := nofun
  latest := fun _ => rfl
  stored := ⟨rfl, rfl⟩
  waiting := fun _ _ => rfl
  storing := nofun

theorem UpToDate.watch (hinv : UpToDate state) {input : WatcherInput}
    (hstep : WatcherStep state input next) : UpToDate next := by
  have hreceived : state.received = true := by
    refine received_iff.mpr (Or.inr ?_)
    cases hstep with
    | receive hwatcher | ended hwatcher | cancelled hwatcher | storeRecv hwatcher
    | storeIdle hwatcher => simp [hwatcher]
  have hlatest := hinv.latest hreceived
  obtain ⟨hclosed, hstopped, -, ⟨hrecv, hidle⟩, hwaiting, hstoring⟩ := hinv
  cases hstep with
  | receive hwatcher =>
      rw [hwatcher] at hrecv
      refine ⟨hclosed, nofun, fun _ => hlatest, ⟨hrecv, hidle⟩, nofun, fun _ srv hsrv => ?_⟩
      cases hsrv
      rfl
  | ended hwatcher hended =>
      rw [hwatcher] at hrecv
      exact ⟨hclosed, fun _ => hclosed hended, fun _ => hlatest, ⟨hrecv, hidle⟩, nofun, nofun⟩
  | cancelled hwatcher hcancel =>
      rw [hwatcher] at hrecv
      exact ⟨hclosed, fun _ => hcancel, fun _ => hlatest, ⟨hrecv, hidle⟩, nofun, nofun⟩
  | @storeRecv srv hwatcher =>
      refine ⟨hclosed, nofun, fun _ => hlatest, ⟨rfl, hidle⟩, nofun, fun hunseen srv' hsrv => ?_⟩
      exact hstoring hunseen srv' (by rw [hwatcher]; exact hsrv)
  | @storeIdle srv hwatcher =>
      rw [hwatcher] at hrecv
      refine ⟨hclosed, nofun, fun _ => hlatest, ⟨hrecv, rfl⟩, fun hunseen _ => ?_, nofun⟩
      exact hstoring hunseen srv (by rw [hwatcher]; rfl)

variable [SocketAddrParser] [TomlParser]

theorem UpToDate.sighup (hinv : UpToDate state) (contents : Except String String) :
    UpToDate (state.watchSighup path contents) := by
  obtain ⟨hclosed, hstopped, hlatest, hstored, hwaiting, hstoring⟩ := hinv
  rw [watchSighup]
  split
  · exact ⟨hclosed, hstopped, hlatest, hstored, hwaiting, hstoring⟩
  · next config hload =>
      dsimp only
      split
      · refine ⟨hclosed, hstopped, fun _ => List.getLast?_concat, hstored, ?_, ?_⟩
        · intro hseen
          cases hseen
        · intro hseen
          cases hseen
      · next hgone =>
          exact ⟨hclosed, hstopped, fun hreceived => absurd hreceived hgone, hstored, hwaiting,
            hstoring⟩

variable [UnicodeTables] [WallClock F64]

theorem upToDate_step {event : ProcessEvent F64} (hinv : UpToDate state)
    (hstep : Process.step path state event = some next) : UpToDate next := by
  cases event with
  | outbound move =>
      obtain ⟨hown, pool, hpool, rfl⟩ := step_outbound hstep
      have hsettings := outbound_settings hown hpool
      have hserver := congrArg Config.server hsettings.channel.symm
      exact { hinv with
        closed := fun hended =>
          hsettings.cancel.trans (hinv.closed (hsettings.closed.symm.trans hended))
        stopped := fun hwatcher => hsettings.cancel.trans (hinv.stopped hwatcher)
        latest := fun hreceived => by
          have hbefore : state.received = true := received_iff.mpr
            ((received_iff.mp hreceived).imp_left hsettings.running)
          exact (hinv.latest hbefore).trans (congrArg some hsettings.channel.symm)
        waiting := fun hunseen hwatcher => (hinv.waiting hunseen hwatcher).trans hserver
        storing := fun hunseen srv hsrv => (hinv.storing hunseen srv hsrv).trans hserver }
  | inbound move =>
      obtain ⟨hown, pool, hpool, rfl⟩ := step_inbound hstep
      have htimeout := inbound_timeout hown hpool
      exact { hinv with stored := ⟨htimeout.trans hinv.stored.1, hinv.stored.2⟩ }
  | acceptProbe =>
      simp only [Process.step] at hstep
      split at hstep <;> cases hstep
      · exact { hinv with }
      · exact hinv
  | probe index input =>
      obtain ⟨probe, probe', -, -, rfl⟩ := step_probe_eq_some.mp hstep
      exact { hinv with }
  | sighup contents =>
      obtain ⟨-, heq⟩ := Option.ite_none_right_eq_some.mp hstep
      cases heq
      exact hinv.sighup contents
  | watch input => exact hinv.watch (watcherStep_of_watchConfig hstep)
  | sighupEnds =>
      cases hstep
      exact { hinv with }
  | shutdown =>
      cases hstep
      exact { hinv with closed := fun _ => rfl, stopped := fun _ => rfl }
  | closeChannel =>
      obtain ⟨⟨hcancel, -⟩, heq⟩ := Option.ite_none_right_eq_some.mp hstep
      cases heq
      exact { hinv with closed := fun _ => hcancel }

theorem upToDate_of_reachable {config : Config}
    (hreach : Reachable (Process.step path) (start F64 config) state) : UpToDate state :=
  hreach.invariant UpToDate (upToDate_start config) fun _ _ _ hinv hstep =>
    upToDate_step hinv hstep

end Latest

/-! ## Timers -/

section Timers

variable {F64 : Type}

/-- A number of seconds that a peer task or a session waits for. -/
inductive TimerSetting (state : Process F64) : UInt64 → Prop
  | heartbeatInterval {task} (hmem : task ∈ state.peerTasks) :
      TimerSetting state task.control.clientCfg.heartbeatInterval
  | reconnectDelay {task} (hmem : task ∈ state.peerTasks) :
      TimerSetting state task.control.clientCfg.reconnectDelay
  | heartbeatRecvTimeout {task} (hmem : task ∈ state.sessions) :
      TimerSetting state task.control.heartbeatRecvTimeout

/-- The reading of the clock that a step uses. -/
def clockOf : ProcessEvent F64 → Option (Reading F64)
  | .outbound (.act _ input) | .inbound (.act _ input) | .probe _ input => some input.1
  | _ => none

/-- The clock is more than a day away from its limit. -/
def Timely (event : ProcessEvent F64) : Prop :=
  ∀ clock, clockOf event = some clock → clock.now + fromSecs maxSeconds < instantLimit

/-- The clock can represent every deadline. -/
structure TimersFit (state : Process F64) : Prop where
  peerTasks : ∀ (i : ℕ) task, state.peerTasks[i]? = some task →
    ∀ deadline ∈ loopTimers task.control.point, deadline < instantLimit
  sessions : ∀ (i : ℕ) task, state.sessions[i]? = some task →
    ∀ deadline ∈ connectionTimers task.control.point, deadline < instantLimit
  probes : ∀ probe ∈ state.probes, ∀ deadline ∈ probeTimers probe.point, deadline < instantLimit

theorem timersFit_start (config : Config) : TimersFit (start F64 config) := ⟨nofun, nofun, nofun⟩

theorem lt_instantLimit {clock : Reading F64} {seconds : UInt64} {deadline : Instant}
    (hclock : clock.now + fromSecs maxSeconds < instantLimit) (hseconds : seconds ≤ maxSeconds)
    (hdeadline : deadline ≤ clock.now + fromSecs seconds) : deadline < instantLimit := by
  have hle : fromSecs seconds ≤ fromSecs maxSeconds :=
    Nat.mul_le_mul_right _ (UInt64.le_iff_toNat_le.mp hseconds)
  calc deadline ≤ clock.now + fromSecs seconds := hdeadline
    _ ≤ clock.now + fromSecs maxSeconds := Nat.add_le_add_left hle _
    _ < instantLimit := hclock

variable [SocketAddrParser] {state next : Process F64} {path : String}

theorem FromLoaded.client_bounds (hinv : FromLoaded state) {client : ClientConfig}
    (hclient : ∃ config ∈ state.loaded, config.client = some client) :
    (1 ≤ client.heartbeatInterval ∧ client.heartbeatInterval ≤ maxSeconds) ∧
      (1 ≤ client.reconnectDelay ∧ client.reconnectDelay ≤ maxSeconds) := by
  obtain ⟨config, hmem, hconfig⟩ := hclient
  exact validate_client (hinv.valid config hmem) hconfig

theorem FromLoaded.recv_bounds (hinv : FromLoaded state) {seconds : UInt64}
    (hseconds : ∃ config ∈ state.loaded, config.server.heartbeatRecvTimeout = seconds) :
    1 ≤ seconds ∧ seconds ≤ maxSeconds := by
  obtain ⟨config, hmem, rfl⟩ := hseconds
  exact (validate_server (hinv.valid config hmem)).1

theorem FromLoaded.idle_bound (hinv : FromLoaded state) {seconds : UInt64}
    (hseconds : ∃ config ∈ state.loaded, config.server.probeIdleTimeout = seconds) :
    seconds ≤ maxSeconds := by
  obtain ⟨config, hmem, rfl⟩ := hseconds
  exact (validate_server (hinv.valid config hmem)).2

/-- Whatever a task waits for is within bounds. -/
theorem FromLoaded.timerSetting (hinv : FromLoaded state) {seconds : UInt64}
    (hsetting : TimerSetting state seconds) : 1 ≤ seconds ∧ seconds ≤ maxSeconds := by
  cases hsetting with
  | heartbeatInterval hmem =>
      obtain ⟨i, hget⟩ := List.mem_iff_getElem?.mp hmem
      exact (hinv.client_bounds (hinv.peerTasks i _ hget)).1
  | reconnectDelay hmem =>
      obtain ⟨i, hget⟩ := List.mem_iff_getElem?.mp hmem
      exact (hinv.client_bounds (hinv.peerTasks i _ hget)).2
  | heartbeatRecvTimeout hmem =>
      obtain ⟨i, hget⟩ := List.mem_iff_getElem?.mp hmem
      exact hinv.recv_bounds (hinv.sessions i _ hget)

variable [UnicodeTables] [WallClock F64]

omit [UnicodeTables] in
theorem TimersFit.outbound (hfit : TimersFit state) (hinv : FromLoaded state)
    {move : ClientMove F64} {pool : Peers F64} (htimely : Timely (.outbound move))
    (hstep : TaskPool.step (PeerPool.program F64) state.outbound move = some pool) :
    TimersFit (state.setOutbound pool) := by
  have htasks : ∀ (i : ℕ) task, pool.tasks[i]? = some task →
      (task.control.clientCfg.heartbeatInterval ≤ maxSeconds ∧
        task.control.clientCfg.reconnectDelay ≤ maxSeconds) ∧
      ∀ deadline ∈ loopTimers task.control.point, deadline < instantLimit := by
    refine forall_control_step
      (P := fun (_ : ℕ) (loop : PeerLoop F64) =>
        (loop.clientCfg.heartbeatInterval ≤ maxSeconds ∧
          loop.clientCfg.reconnectDelay ≤ maxSeconds) ∧
        ∀ deadline ∈ loopTimers loop.point, deadline < instantLimit)
      (fun hmove hact hloop => ?_) (fun _ houtside loop hmem index hindex => ?_) hstep
      (fun i task hget => ?_)
    · obtain ⟨⟨hinterval, hdelay⟩, hold⟩ := hloop
      obtain ⟨-, hloopStep, -⟩ := PeerPool.act_eq_some hact
      have hrun := act_runPeerLoop hact
      have hclock := htimely _ (by rw [hmove]; rfl)
      refine ⟨by rw [hloopStep.clientCfg_eq]; exact ⟨hinterval, hdelay⟩,
        fun deadline hmem => ?_⟩
      rcases runPeerLoop_timers hrun deadline hmem with hkept | hset | hset
      · exact hold deadline hkept
      · exact lt_instantLimit hclock hinterval hset
      · exact lt_instantLimit hclock hdelay hset
    · obtain ⟨-, name, peer, settings, peers, -, hpoint, -, rfl⟩ := mem_spawned houtside hmem
      have hbounds := hinv.client_bounds (hinv.pass settings (clientCfg_of_spawning hpoint))
      exact ⟨⟨hbounds.1.2, hbounds.2.2⟩, nofun⟩
    · have hbounds := hinv.client_bounds (hinv.peerTasks i task hget)
      exact ⟨⟨hbounds.1.2, hbounds.2.2⟩, hfit.peerTasks i task hget⟩
  exact { hfit with peerTasks := fun i task hget => (htasks i task hget).2 }

theorem TimersFit.inbound (hfit : TimersFit state) (hinv : FromLoaded state)
    {move : Move (Reading F64 × Completion) (ServerEvent F64)} {pool : Sessions F64}
    (htimely : Timely (.inbound move))
    (hstep : TaskPool.step (SessionPool.program state.nodeName) state.inbound move =
      some pool) : TimersFit (state.setInbound pool) := by
  have hrecv := hinv.recv_bounds hinv.recv
  have htasks : ∀ (i : ℕ) task, pool.tasks[i]? = some task →
      task.control.heartbeatRecvTimeout ≤ maxSeconds ∧
      ∀ deadline ∈ connectionTimers task.control.point, deadline < instantLimit := by
    refine forall_control_step
      (P := fun (_ : ℕ) (connection : Connection F64) =>
        connection.heartbeatRecvTimeout ≤ maxSeconds ∧
        ∀ deadline ∈ connectionTimers connection.point, deadline < instantLimit)
      (fun hmove hact hconnection => ?_) (fun _ houtside connection hmem index hindex => ?_) hstep
      (fun i task hget => ?_)
    · obtain ⟨htimeout, hold⟩ := hconnection
      obtain ⟨peers, hhandle, -⟩ := SessionPool.act_eq_some hact
      have hclock := htimely _ (by rw [hmove]; rfl)
      refine ⟨by rw [act_timeout hact]; exact htimeout, fun deadline hmem => ?_⟩
      rcases handleConnection_timers hhandle deadline hmem with hkept | hset | hset
      · exact hold deadline hkept
      · exact lt_instantLimit hclock (by decide) hset
      · exact lt_instantLimit hclock htimeout hset
    · refine ⟨by rw [spawned_timeout houtside connection hmem]; exact hrecv.2, ?_⟩
      rw [(SessionPool.outside_eq_some houtside).2 connection hmem]
      nofun
    · exact ⟨(hinv.recv_bounds (hinv.sessions i task hget)).2, hfit.sessions i task hget⟩
  exact { hfit with sessions := fun i task hget => (htasks i task hget).2 }

theorem timersFit_step {event : ProcessEvent F64} (hfit : TimersFit state)
    (hinv : FromLoaded state) (htimely : Timely event) (hstep : ProcessStep state event next) :
    TimersFit next := by
  cases hstep with
  | outbound hown hpool => exact hfit.outbound hinv htimely hpool
  | inbound hown hpool => exact hfit.inbound hinv htimely hpool
  | acceptProbe =>
      exact { hfit with
        probes := by
          intro probe hmem
          rcases List.mem_append.mp hmem with hold | hnew
          · exact hfit.probes probe hold
          · rw [List.mem_singleton.mp hnew]
            nofun }
  | probe hget hserve =>
      have hmem := List.mem_of_getElem? hget
      have hidle := hinv.idle_bound (hinv.probes _ hmem)
      exact { hfit with
        probes := by
          intro other hother deadline hdeadline
          rcases List.mem_or_eq_of_mem_set hother with hold | rfl
          · exact hfit.probes other hold deadline hdeadline
          · rcases serve_timers hserve deadline hdeadline with hkept | hset
            · exact hfit.probes _ hmem deadline hkept
            · exact lt_instantLimit (htimely _ rfl) hidle hset }
  | around hframe =>
      exact ⟨hframe.peerTasks ▸ hfit.peerTasks, hframe.sessions ▸ hfit.sessions,
        hframe.probes ▸ hfit.probes⟩

end Timers

/-! ## The timeouts of connections -/

section Connections

variable {F64 : Type} [UnicodeTables] [WallClock F64] {state next : Process F64}
variable {event : ProcessEvent F64}

/-- A session keeps its place and its receive timeout. -/
theorem session_kept (hstep : ProcessStep state event next) {i : ℕ} {task : SessionTask F64}
    (hget : state.sessions[i]? = some task) :
    ∃ task', next.sessions[i]? = some task' ∧
      task'.control.heartbeatRecvTimeout = task.control.heartbeatRecvTimeout := by
  cases hstep with
  | inbound hown hpool =>
      exact exists_task_step Connection.heartbeatRecvTimeout (fun hact => act_timeout hact) hpool
        hget
  | outbound | acceptProbe | probe => exact ⟨task, hget, rfl⟩
  | around hframe => exact ⟨task, hframe.sessions ▸ hget, rfl⟩

/-- The atomics hold the timeouts of `srv`, and so do the connections past the
first `sessions` sessions and the first `probes` probe connections. -/
structure AcceptedWith (srv : ServerConfig) (sessions probes : ℕ) (state : Process F64) :
    Prop where
  recv : state.heartbeatRecvTimeout = srv.heartbeatRecvTimeout
  idle : state.probeIdleTimeout = srv.probeIdleTimeout
  session : ∀ (i : ℕ) task, state.sessions[i]? = some task → sessions ≤ i →
    task.control.heartbeatRecvTimeout = srv.heartbeatRecvTimeout
  probe : ∀ (i : ℕ) probe, state.probes[i]? = some probe → probes ≤ i →
    probe.idleSecs = srv.probeIdleTimeout

/-- Between two stores every new connection gets the timeouts of the last. -/
theorem acceptedWith_step {srv : ServerConfig} {sessions probes : ℕ}
    (hinv : AcceptedWith srv sessions probes state) (hstep : ProcessStep state event next)
    (hstore : stores event = false) : AcceptedWith srv sessions probes next := by
  cases hstep with
  | outbound => exact { hinv with }
  | @inbound move pool hown hpool =>
      exact { hinv with
        recv := (inbound_timeout hown hpool).trans hinv.recv
        session := by
          refine forall_control_step
            (P := fun (i : ℕ) (connection : Connection F64) => sessions ≤ i →
              connection.heartbeatRecvTimeout = srv.heartbeatRecvTimeout)
            (fun _ hact hold hle => ?_)
            (fun _ houtside connection hmem index hindex hle => ?_) hpool hinv.session
          · exact (act_timeout hact).trans (hold hle)
          · exact (spawned_timeout houtside connection hmem).trans hinv.recv }
  | acceptProbe =>
      exact { hinv with
        probe := by
          intro i probe hget hle
          rcases Nat.lt_or_ge i state.probes.length with hlt | hge
          · rw [List.getElem?_append_left hlt] at hget
            exact hinv.probe i probe hget hle
          · rw [List.getElem?_append_right hge] at hget
            rw [List.mem_singleton.mp (List.mem_of_getElem? hget)]
            exact hinv.idle }
  | @probe index input probe probe' hget hserve =>
      exact { hinv with
        probe := by
          intro i other hother hle
          rcases eq_or_ne index i with rfl | hne
          · rw [List.getElem?_set_self (List.getElem?_eq_some_iff.mp hget).1] at hother
            cases hother
            exact (serve_idleSecs hserve).trans (hinv.probe index probe hget hle)
          · rw [List.getElem?_set_ne hne] at hother
            exact hinv.probe i other hother hle }
  | around hframe htimeouts =>
      obtain ⟨hrecv, hidle⟩ := htimeouts hstore
      exact ⟨hrecv.trans hinv.recv, hidle.trans hinv.idle, hframe.sessions ▸ hinv.session,
        hframe.probes ▸ hinv.probe⟩

end Connections

/-! ## Runs -/

section Runs

variable {F64 : Type} [UnicodeTables] [WallClock F64] [SocketAddrParser] [TomlParser]
variable {state next : Process F64} {path : String} {config : Config}
variable {events : List (ProcessEvent F64)}

/-- The config that an event loads. -/
def loadedBy (path : String) : ProcessEvent F64 → Option Config
  | .sighup contents => (load path contents).toOption
  | _ => none

theorem loaded_step {event : ProcessEvent F64}
    (hstep : Process.step path state event = some next) :
    next.loaded = state.loaded ++ (loadedBy path event).toList := by
  cases event with
  | outbound move =>
      obtain ⟨-, pool, -, rfl⟩ := step_outbound hstep
      exact (List.append_nil _).symm
  | inbound move =>
      obtain ⟨-, pool, -, rfl⟩ := step_inbound hstep
      exact (List.append_nil _).symm
  | acceptProbe =>
      simp only [Process.step] at hstep
      split at hstep <;> cases hstep <;> exact (List.append_nil _).symm
  | probe index input =>
      obtain ⟨probe, probe', -, -, rfl⟩ := step_probe_eq_some.mp hstep
      exact (List.append_nil _).symm
  | sighup contents =>
      obtain ⟨-, heq⟩ := Option.ite_none_right_eq_some.mp hstep
      cases heq
      simp only [watchSighup, loadedBy]
      split
      · next hload =>
          rw [hload]
          exact (List.append_nil _).symm
      · next config hload =>
          rw [hload]
          split <;> rfl
  | watch input =>
      have hwatch : WatcherStep state input next := watcherStep_of_watchConfig hstep
      cases hwatch <;> exact (List.append_nil _).symm
  | sighupEnds | shutdown =>
      cases hstep
      exact (List.append_nil _).symm
  | closeChannel =>
      obtain ⟨-, heq⟩ := Option.ite_none_right_eq_some.mp hstep
      cases heq
      exact (List.append_nil _).symm

/-- The configs that were loaded are those that the events of a run load. -/
theorem loaded_of_run (hrun : run (Process.step path) state events = some next) :
    next.loaded = state.loaded ++ events.filterMap (loadedBy path) := by
  induction events generalizing state with
  | nil =>
      cases hrun
      exact (List.append_nil _).symm
  | cons event events ih =>
      obtain ⟨middle, hstep, hrest⟩ := run_cons_eq_some.mp hrun
      have hcons : (event :: events).filterMap (loadedBy path) =
          (loadedBy path event).toList ++ events.filterMap (loadedBy path) := by
        cases hevent : loadedBy path event <;> simp [hevent]
      rw [ih hrest, loaded_step hstep, hcons, List.append_assoc]

/-- A task waits at most until a day after the clock readings of a run. -/
theorem timersFit_of_run (hvalid : config.validate = .ok ())
    (hrun : run (Process.step path) (start F64 config) events = some state)
    (htimely : ∀ event ∈ events, Timely event) : TimersFit state := by
  have hboth := invariant_of_taken (fun state => FromLoaded state ∧ TimersFit state)
    (fun _ event => Timely event) hrun (forall_taken_of_forall htimely)
    ⟨fromLoaded_start hvalid, timersFit_start config⟩
    fun state event next hinv hstep hevent => ⟨fromLoaded_step hinv.1 hstep,
      timersFit_step hinv.2 hinv.1 hevent (processStep_of_step hstep)⟩
  exact hboth.2

/-- A session keeps its receive timeout for as long as the process runs. -/
theorem session_kept_of_reachable (hreach : Reachable (Process.step path) state next) {i : ℕ}
    {task : SessionTask F64} (hget : state.sessions[i]? = some task) :
    ∃ task', next.sessions[i]? = some task' ∧
      task'.control.heartbeatRecvTimeout = task.control.heartbeatRecvTimeout := by
  refine hreach.invariant (fun next => ∃ task', next.sessions[i]? = some task' ∧
    task'.control.heartbeatRecvTimeout = task.control.heartbeatRecvTimeout) ⟨task, hget, rfl⟩ ?_
  rintro middle event last ⟨task', hmiddle, hkept⟩ hstep
  obtain ⟨task'', hlast, hkept'⟩ := session_kept (processStep_of_step hstep) hmiddle
  exact ⟨task'', hlast, hkept'.trans hkept⟩

/-- Unless it stands between its two stores, `watch_config` has processed the
config whose timeouts the atomics hold, and until its next store every new
connection gets them. -/
theorem acceptedWith_of_reachable (hinv : UpToDate state)
    (hbetween : ∀ srv, state.watcher ≠ .storingIdle srv)
    (hreach : Reachable (restrict (fun _ event => !stores event) (Process.step path)) state next) :
    AcceptedWith state.processed state.sessions.length state.probes.length next := by
  refine hreach.invariant _ ?_ fun middle event last hmiddle hstep => ?_
  · obtain ⟨hrecv, hidle⟩ := hinv.stored
    refine ⟨?_, hidle, fun i task hget hle => ?_, fun i probe hget hle => ?_⟩
    · rw [hrecv]
      split
      · next srv hwatcher => exact absurd hwatcher (hbetween srv)
      · rfl
    · exact absurd (List.getElem?_eq_some_iff.mp hget).1 (Nat.not_lt.mpr hle)
    · exact absurd (List.getElem?_eq_some_iff.mp hget).1 (Nat.not_lt.mpr hle)
  · obtain ⟨hstore, hstep⟩ := restrict_eq_some.mp hstep
    exact acceptedWith_step hmiddle (processStep_of_step hstep) (Bool.not_eq_true' _ ▸ hstore)

/-- Only validated settings are in force, over all runs of the process from a
config that was loaded.  As long as someone receives configs, the channel
carries the last one that was loaded, and a load that fails changes nothing.
Every duration that a task waits for, and every timeout that the next connection
will get, is within bounds, so as long as the clock stays a day away from its
limit no deadline passes the limit.  A session keeps its receive timeout; and
once `watch_config` has stored the timeouts of a config, which is the one in the
channel if it has seen that, new connections get them until its next store. -/
theorem settings_in_force {contents : Except String String}
    (hload : load path contents = .ok config)
    (hrun : run (Process.step path) (start F64 config) events = some state) :
    let loaded := config :: events.filterMap (loadedBy path)
    ((state.manager.cancel = false → state.received = true) ∧
      (state.received = true → loaded.getLast? = some state.manager.watch.config)) ∧
    (∀ contents error next, load path contents = .error error →
      Process.step path state (.sighup contents) = some next → next = state) ∧
    (∀ seconds, TimerSetting state seconds → 1 ≤ seconds ∧ seconds ≤ maxSeconds) ∧
    (1 ≤ state.heartbeatRecvTimeout ∧ state.heartbeatRecvTimeout ≤ maxSeconds) ∧
    (state.probeIdleTimeout ≤ maxSeconds ∧
      ∀ probe ∈ state.probes, probe.idleSecs ≤ maxSeconds) ∧
    ((∀ event ∈ events, Timely event) → TimersFit state) ∧
    (∀ next, Reachable (Process.step path) state next →
      ∀ (i : ℕ) task, state.sessions[i]? = some task →
        ∃ task', next.sessions[i]? = some task' ∧
          task'.control.heartbeatRecvTimeout = task.control.heartbeatRecvTimeout) ∧
    ((∃ config ∈ loaded, config.server = state.processed) ∧
      (state.watcher = .waiting → state.watcherUnseen = false →
        state.processed = state.manager.watch.config.server) ∧
      ((∀ srv, state.watcher ≠ .storingIdle srv) → ∀ next,
        Reachable (restrict (fun _ event => !stores event) (Process.step path)) state next →
          AcceptedWith state.processed state.sessions.length state.probes.length next)) := by
  have hvalid := validate_of_load hload
  have hinv := fromLoaded_of_reachable hvalid (Reachable.of_run hrun)
  have hlast := upToDate_of_reachable (Reachable.of_run hrun)
  have hloaded : state.loaded = config :: events.filterMap (loadedBy path) := loaded_of_run hrun
  dsimp only
  rw [← hloaded]
  refine ⟨⟨fun hrunning => ?_, hlast.latest⟩, ?_, fun seconds => hinv.timerSetting,
    hinv.recv_bounds hinv.recv, ⟨hinv.idle_bound hinv.idle, fun probe hmem =>
      hinv.idle_bound (hinv.probes probe hmem)⟩, timersFit_of_run hvalid hrun,
    fun next hreach i task => session_kept_of_reachable hreach, hinv.processed,
    fun hwaiting hunseen => hlast.waiting hunseen hwaiting,
    fun hbetween next => acceptedWith_of_reachable hlast hbetween⟩
  · refine received_iff.mpr (Or.inr fun hstopped => ?_)
    rw [hlast.stopped hstopped] at hrunning
    cases hrunning
  · intro contents error next hfailed hstep
    obtain ⟨-, heq⟩ := Option.ite_none_right_eq_some.mp hstep
    rw [watchSighup, hfailed] at heq
    exact (Option.some.inj heq).symm

end Runs

section Witness

/-- A config file; only the receive timeout is not fixed. -/
def configFile (heartbeatRecvTimeout : String) : String :=
  "[node]\nname = \"n\"\n" ++
  "[server]\nbind = \"[::]\"\nheartbeat_port = 9700\nmetrics_port = 9701\n" ++
  "probe_port = 9702\nheartbeat_recv_timeout = " ++ heartbeatRecvTimeout ++
  "\nprobe_idle_timeout = 10\n" ++
  "[client]\nreconnect_delay = 5\n" ++
  "[[peers]]\nname = \"a\"\nhost = \"h\"\n"

/-- What the file says. -/
def configured (heartbeatRecvTimeout : UInt64) : Config where
  node := ⟨"n"⟩
  server := ⟨"[::]", 9700, 9701, 9702, heartbeatRecvTimeout, 10⟩
  client := some ⟨30, 3, 5⟩
  peers := [⟨"a", "h", 9700⟩]

/-- The one address that the files bind. -/
local instance : SocketAddrParser where
  SocketAddr := String
  parse text := if text = "[::]:0" then .ok text else .error "invalid socket address syntax"

/-- The parser on these files. -/
local instance : TomlParser where
  fromStr text :=
    if text = configFile "30" then .ok (configured 30)
    else if text = configFile "60" then .ok (configured 60)
    else if text = configFile "0" then .ok (configured 0)
    else .error "TOML parse error"

local instance : UnicodeTables := asciiTables

/-- A peer task is spawned and a session is accepted; three reloads follow, of
which only the first is valid; a second session is accepted when the timeouts
have been stored. -/
def reloads : List (ProcessEvent WholeSeconds) :=
  [.outbound (.outside (.manage (.order []))), .outbound (.outside (.manage (.order ["a"]))),
    .outbound (.outside (.manage .go)), .outbound (.outside (.manage .go)),
    .inbound (.outside .accept), .sighup (.ok (configFile "60")),
    .sighup (.ok (configFile "0")), .sighup (.error "No such file or directory"),
    .watch .changed, .watch .go, .watch .go, .inbound (.outside .accept)]

/-- The first session keeps its timeout, and every later one gets the new
one. -/
theorem settings_in_force_after_reloads :
    ∃ state, run (Process.step "config.toml") (start WholeSeconds (configured 30)) reloads =
        some state ∧
      state.sessions.map (fun task => task.control.heartbeatRecvTimeout) = [30, 60] ∧
      state.manager.watch.config = configured 60 ∧
      (∀ seconds, TimerSetting state seconds → 1 ≤ seconds ∧ seconds ≤ maxSeconds) ∧
      ∀ next, Reachable (restrict (fun _ event => !stores event) (Process.step "config.toml"))
        state next → AcceptedWith (configured 60).server 2 0 next := by
  obtain ⟨state, hrun, hview⟩ := Option.map_eq_some_iff.mp (show
    (run (Process.step "config.toml") (start WholeSeconds (configured 30)) reloads).map
        (fun state => (state.sessions.map (fun task => task.control.heartbeatRecvTimeout),
          state.probes.length, state.manager.watch.config, state.watcher, state.processed)) =
      some ([30, 60], 0, configured 60, .waiting, (configured 60).server) by decide +kernel)
  simp only [Prod.mk.injEq] at hview
  obtain ⟨hsessions, hprobes, hconfig, hwatcher, hprocessed⟩ := hview
  have hload : load "config.toml" (.ok (configFile "30")) = .ok (configured 30) := by
    decide +kernel
  obtain ⟨-, -, htimers, -, -, -, -, -, -, haccepted⟩ := settings_in_force hload hrun
  have hlength : state.sessions.length = 2 := by simpa using congrArg List.length hsessions
  refine ⟨state, hrun, hsessions, hconfig, htimers, fun next hreach => ?_⟩
  rw [← hprocessed, ← hlength, ← hprobes]
  exact haccepted (by simp [hwatcher]) next hreach

end Witness

end TcpMonitor.SettingsInForce
