import TcpMonitor.Process.TwoSides

/-!
# What the gauges of a peer tell

The client gauges of a label are set by every task that the label ever had, and
none of the tasks looks at what another one has set.  The tasks of a label follow
each other, though, so each gauge holds what the latest of them has set; while a
session is live, this is what the session itself keeps in its variables.
-/

namespace TcpMonitor.SessionGauges

open TcpMonitor.TransitionSystem
open TcpMonitor.TaskPool
open TcpMonitor.SharedRegister
open TcpMonitor.Runtime
open TcpMonitor.Configuration
open TcpMonitor.Handshake
open TcpMonitor.LabelFamily
open TcpMonitor.MetricFamilies
open TcpMonitor.Session
open TcpMonitor.ReconnectLoop
open TcpMonitor.PeerManager
open TcpMonitor.PeerPool
open TcpMonitor.Reconciliation
open TcpMonitor.SessionConservation
open TcpMonitor.WholeProcess
open TcpMonitor.SettingsInForce
open TcpMonitor.TwoSides

/-! ## The gauges as registers -/

section Registers

variable {F64 Value : Type}

/-- An entry of the metrics under a label, which only the outbound side sets. -/
structure ClientEntry (label : PeerLabel) (value : Metrics F64 → Option Value)
    (write : Update F64 → Option Value) : Prop where
  apply : ∀ update metrics, value (update.apply metrics) = (write update).or (value metrics)
  inbound : ∀ update, isInbound update = true → write update = none
  label_eq : ∀ update stored, write update = some stored → labelOf update = label

variable {label : PeerLabel}

/-- An integer gauge of the client. -/
theorem gaugeEntry (label : PeerLabel) {family : GaugeFamily}
    (hclient : family ≠ .serverSessionActive) :
    ClientEntry label (fun metrics : Metrics F64 => (metrics.gauge family).lookup label)
      (Update.gaugeWrite family label) where
  apply update metrics := Update.lookup_gauge_apply update metrics family label
  inbound update hinbound := by
    cases update with
    | setGauge family' label' value =>
        cases family' with
        | serverSessionActive => exact if_neg fun hsame => hclient hsame.1.symm
        | clientSessionActive | clientConsecutiveMissed => cases hinbound
    | setFloat | incCounter | incDisconnect | createDisconnect => rfl
  label_eq update stored hwrite := by
    rw [Update.eq_setGauge_of_gaugeWrite hwrite]
    rfl

/-- The float families of the client. -/
def clientFloats : List FloatFamily :=
  [.clientSessionStart, .clientSessionDuration, .clientRtt, .clientLastHeartbeat]

/-- A float gauge of the client. -/
theorem floatEntry (label : PeerLabel) {family : FloatFamily} (hclient : family ∈ clientFloats) :
    ClientEntry label (fun metrics : Metrics F64 => (metrics.float family).lookup label)
      (Update.floatWrite family label) where
  apply update metrics := Update.lookup_float_apply update metrics family label
  inbound update hinbound := by
    cases update with
    | setFloat family' label' value =>
        have hother : family' ≠ family := by
          rintro rfl
          simp only [clientFloats, List.mem_cons, List.not_mem_nil, or_false] at hclient
          rcases hclient with rfl | rfl | rfl | rfl <;> cases hinbound
        exact if_neg fun hsame => hother hsame.1
    | setGauge | incCounter | incDisconnect | createDisconnect => rfl
  label_eq update stored hwrite := by
    cases update with
    | setFloat family' label' value =>
        obtain ⟨hsame, -⟩ := Option.ite_none_right_eq_some.mp hwrite
        exact hsame.2
    | setGauge | incCounter | incDisconnect | createDisconnect => cases hwrite

variable [WallClock F64] {value : Metrics F64 → Option Value} {write : Update F64 → Option Value}
variable {pool : Peers F64} {config : Config}

theorem ClientEntry.register (hentry : ClientEntry label value write) :
    Register (program F64) (fun shared => value shared.metrics) write where
  apply update shared := hentry.apply update shared.metrics
  act hact := by
    obtain ⟨rfl, -, -⟩ := act_eq_some hact
    rfl
  outside houtside := by
    rcases outside_metrics houtside with hmetrics | ⟨update, hupdate, hmetrics⟩
    · rw [hmetrics]
    · rw [hmetrics, hentry.apply, hentry.inbound update hupdate, Option.none_or]

theorem outboundTask_of_reachable
    (hreach : Reachable (TaskPool.step (program F64)) (start F64 config) pool) :
    ∀ task ∈ pool.tasks, OutboundTask task :=
  (outboundTask_invariant F64).reachable hreach (by simp [start])

omit [WallClock F64] in
/-- A task that sets an entry has the label of the entry. -/
theorem ClientEntry.label_of_update (hentry : ClientEntry label value write)
    {task : PeerLoopTask F64} (htask : OutboundTask task) {update : Update F64} {stored : Value}
    (hmem : update ∈ task.made ++ task.pending) (hwrite : write update = some stored) :
    task.control.label = label :=
  (htask.updates update hmem).2.1.symm.trans (hentry.label_eq update stored hwrite)

omit [WallClock F64] in
theorem ClientEntry.label_of_written (hentry : ClientEntry label value write)
    (htasks : ∀ task ∈ pool.tasks, OutboundTask task) {index : ℕ} {stored : Value}
    (hwritten : written write pool index = some stored) :
    ∃ task, pool.tasks[index]? = some task ∧ task.control.label = label := by
  obtain ⟨task, hget, hlast⟩ := Option.bind_eq_some_iff.mp hwritten
  obtain ⟨update, hmem, hwrite⟩ := exists_update_of_lastWrite hlast
  exact ⟨task, hget, hentry.label_of_update (htasks task (List.mem_of_getElem? hget))
    (List.mem_append_left _ hmem) hwrite⟩

/-- The tasks of a label follow each other, so an entry holds what the latest of
them has set. -/
theorem ClientEntry.holdsLatest (hentry : ClientEntry label value write)
    (hreach : Reachable (TaskPool.step (program F64)) (start F64 config) pool) :
    HoldsLatest (fun shared => value shared.metrics) write pool := by
  refine hentry.register.holdsLatest_reachable (fun hstate hwrites other hlt => ?_) hreach
  refine Option.eq_none_iff_forall_ne_some.mpr fun stored hwritten => ?_
  obtain ⟨-, control, update, rest, made, hget, hwrite⟩ := hwrites
  have htasks := outboundTask_of_reachable hstate
  have hlabel := hentry.label_of_update (htasks _ (List.mem_of_getElem? hget))
    (List.mem_append_right _ List.mem_cons_self) hwrite
  obtain ⟨later, hlater, hlabel'⟩ := hentry.label_of_written htasks hwritten
  obtain ⟨-, hpending⟩ := done_of_replaced (Sound.reachable hstate) hlt hget hlater
    (hlabel.trans hlabel'.symm)
  cases hpending

end Registers

/-! ## What a session keeps -/

section Sessions

variable {F64 Value : Type} [WallClock F64]

/-- An entry that tells of the session.  `told` is what it shows for the start of
the session and the heartbeats that it has missed in a row. -/
structure SessionGauge (label : PeerLabel) (write : Update F64 → Option Value)
    (told : F64 → ℤ → Value) : Prop where
  established : ∀ startTs,
    lastWrite write (recordSessionStart label startTs) = some (told startTs 0)
  sent : write (.incCounter .clientHeartbeatsSent label) = none
  missed : ∀ startTs missed missed',
    (lastWrite write (recordMiss label missed')).or (some (told startTs missed)) =
      some (told startTs missed')
  echoed : ∀ startTs missed nowTs sendTs,
    (lastWrite write (recordEcho label startTs nowTs sendTs)).or (some (told startTs missed)) =
      some (told startTs 0)

/-- `client_session_active` tells that there is a session. -/
theorem activeGauge (label : PeerLabel) :
    SessionGauge label (Update.gaugeWrite .clientSessionActive label) fun (_ : F64) _ => 1 where
  established startTs := by simp [lastWrite_cons, recordSessionStart, Update.gaugeWrite]
  sent := rfl
  missed startTs missed missed' := by simp [lastWrite_cons, recordMiss, Update.gaugeWrite]
  echoed startTs missed nowTs sendTs := by
    cases sendTs <;> simp [lastWrite_cons, recordEcho, Update.gaugeWrite]

/-- `client_session_start` tells when it started. -/
theorem startGauge (label : PeerLabel) :
    SessionGauge label (Update.floatWrite .clientSessionStart label)
      fun (startTs : F64) _ => startTs where
  established startTs := by simp [lastWrite_cons, recordSessionStart, Update.floatWrite]
  sent := rfl
  missed startTs missed missed' := by simp [lastWrite_cons, recordMiss, Update.floatWrite]
  echoed startTs missed nowTs sendTs := by
    cases sendTs <;> simp [lastWrite_cons, recordEcho, Update.floatWrite]

/-- `client_consecutive_missed` tells how many heartbeats it has missed in a row. -/
theorem missedGauge (label : PeerLabel) :
    SessionGauge label (Update.gaugeWrite .clientConsecutiveMissed label)
      fun (_ : F64) missed => missed where
  established startTs := by simp [lastWrite_cons, recordSessionStart, Update.gaugeWrite]
  sent := rfl
  missed startTs missed missed' := by simp [lastWrite_cons, recordMiss, Update.gaugeWrite]
  echoed startTs missed nowTs sendTs := by
    cases sendTs <;> simp [lastWrite_cons, recordEcho, Update.gaugeWrite]

/-- The variables of the session of a task while it is live. -/
def sessionVars (loop : PeerLoop F64) : Option (SessionVars F64) :=
  match loop.point with
  | .session point => point.live
  | .spawned | .connecting | .reconnecting _ | .returned => none

/-- What an entry is to tell of a session, if it is live. -/
def toldOf (told : F64 → ℤ → Value) (live : Option (SessionVars F64)) : Option Value :=
  live.map fun vars => told vars.startTs vars.consecutiveMissed

variable {write : Update F64 → Option Value} {told : F64 → ℤ → Value}
variable {clock : Reading F64} {completion : Completion}

/-- Everything a step that leaves a session live can be, as far as the gauges
tell of it: the start of the session, a step that changes nothing they tell, a
heartbeat that was missed, or an echo. -/
inductive LiveStep (label : PeerLabel) (clientCfg : ClientConfig)
    (live : Option (SessionVars F64)) (vars' : SessionVars F64) : List (Update F64) → Prop
  | established (hfresh : live = none) (hmissed : vars'.consecutiveMissed = 0) :
      LiveStep label clientCfg live vars' (recordSessionStart label vars'.startTs)
  | same {vars updates} (hlive : live = some vars) (hstart : vars'.startTs = vars.startTs)
      (hmissed : vars'.consecutiveMissed = vars.consecutiveMissed)
      (hupdates : updates = [] ∨ updates = [.incCounter .clientHeartbeatsSent label]) :
      LiveStep label clientCfg live vars' updates
  | missed {vars} (hlive : live = some vars) (hstart : vars'.startTs = vars.startTs)
      (hmissed : vars'.consecutiveMissed = vars.consecutiveMissed + 1)
      (hroom : vars.consecutiveMissed + 1 < (clientCfg.maxMisses.toNat : ℤ)) :
      LiveStep label clientCfg live vars' (recordMiss label (vars.consecutiveMissed + 1))
  | echoed {vars nowTs sendTs} (hlive : live = some vars) (hstart : vars'.startTs = vars.startTs)
      (hmissed : vars'.consecutiveMissed = 0) :
      LiveStep label clientCfg live vars' (recordEcho label vars'.startTs nowTs sendTs)

theorem liveStep_of_sessionStep {nodeName peerName : String} {clientCfg : ClientConfig}
    {point : SessionPoint F64} {after : SessionPoint F64 × List (Update F64)}
    (hstep : SessionStep nodeName peerName clientCfg point clock completion after)
    (hown : ∀ vars, point.live = some vars → vars.label = ⟨nodeName, peerName⟩)
    {vars' : SessionVars F64} (hlive : after.1.live = some vars') :
    LiveStep ⟨nodeName, peerName⟩ clientCfg point.live vars' after.2 := by
  cases hstep with
  | handshakePart | handshakeError | writeError | readError | cancelled => cases hlive
  | established =>
      cases hlive
      exact .established rfl rfl
  | sleep | sendPart => exact .same hlive rfl rfl (Or.inl rfl)
  | due | wake | readPart =>
      cases hlive
      exact .same rfl rfl rfl (Or.inl rfl)
  | sent =>
      cases hlive
      refine .same rfl rfl rfl (Or.inr ?_)
      rw [hown _ rfl]
  | @deadline vars sentSeq sendTs deadline gotEcho clock hdue =>
      have hlabel := hown vars rfl
      rcases endWait_cases clientCfg vars gotEcho clock with
        ⟨-, heq⟩ | ⟨-, hroom, heq⟩ | ⟨-, -, heq⟩
      · rw [heq] at hlive ⊢
        cases hlive
        exact .same rfl rfl rfl (Or.inl rfl)
      · rw [heq] at hlive ⊢
        cases hlive
        rw [hlabel]
        exact .missed rfl rfl rfl hroom
      · rw [heq] at hlive
        cases hlive
  | @echo vars sentSeq sendTs deadline gotEcho clock outcome echoes echo hread =>
      have hlabel := hown vars rfl
      rcases readEcho_cases { vars with echoes := echoes } sentSeq sendTs deadline clock echo with
        ⟨-, heq⟩ | ⟨-, heq⟩ <;>
      · rw [heq] at hlive ⊢
        cases hlive
        rw [hlabel]
        dsimp only
        exact .echoed rfl rfl rfl

/-- A step of a live session writes what it changes, and nothing else of it. -/
theorem LiveStep.tells {label : PeerLabel} {clientCfg : ClientConfig}
    {live : Option (SessionVars F64)} {vars' : SessionVars F64} {updates : List (Update F64)}
    (hgauge : SessionGauge label write told) (hstep : LiveStep label clientCfg live vars' updates) :
    (lastWrite write updates).or (toldOf told live) =
      some (told vars'.startTs vars'.consecutiveMissed) := by
  cases hstep with
  | established hfresh hmissed => rw [hgauge.established, hmissed, Option.some_or]
  | same hlive hstart hmissed hupdates =>
      have hnone : lastWrite write updates = none := by
        rcases hupdates with rfl | rfl
        · rfl
        · rw [lastWrite_cons, lastWrite_nil, hgauge.sent, Option.none_or]
      rw [hnone, hlive, hstart, hmissed]
      rfl
  | missed hlive hstart hmissed hroom =>
      rw [hlive, hstart, hmissed]
      exact hgauge.missed ..
  | echoed hlive hstart hmissed =>
      rw [hlive, hstart, hmissed]
      exact hgauge.echoed ..

/-- A live session has missed fewer heartbeats in a row than it may. -/
def MissesBelow (clientCfg : ClientConfig) (vars : SessionVars F64) : Prop :=
  0 ≤ vars.consecutiveMissed ∧
    vars.consecutiveMissed < (max 1 clientCfg.maxMisses.toNat : ℕ)

omit [WallClock F64] in
theorem missesBelow_of_zero (clientCfg : ClientConfig) {vars : SessionVars F64}
    (hmissed : vars.consecutiveMissed = 0) : MissesBelow clientCfg vars := by
  rw [MissesBelow, hmissed]
  omega

theorem LiveStep.missesBelow {label : PeerLabel} {clientCfg : ClientConfig}
    {live : Option (SessionVars F64)} {vars' : SessionVars F64} {updates : List (Update F64)}
    (hstep : LiveStep label clientCfg live vars' updates)
    (hbelow : ∀ vars, live = some vars → MissesBelow clientCfg vars) :
    MissesBelow clientCfg vars' := by
  cases hstep with
  | established hfresh hmissed => exact missesBelow_of_zero clientCfg hmissed
  | same hlive hstart hmissed =>
      rw [MissesBelow, hmissed]
      exact hbelow _ hlive
  | missed hlive hstart hmissed hroom =>
      have hold := (hbelow _ hlive).1
      rw [MissesBelow, hmissed]
      omega
  | echoed hlive hstart hmissed => exact missesBelow_of_zero clientCfg hmissed

theorem liveStep_of_loopStep {loop : PeerLoop F64} {after : PeerLoop F64 × List (Update F64)}
    (hstep : LoopStep loop clock completion after)
    (hown : ∀ point vars, loop.point = .session point → point.live = some vars →
      vars.label = loop.label) :
    ∀ vars', sessionVars after.1 = some vars' →
      LiveStep loop.label loop.clientCfg (sessionVars loop) vars' after.2 := by
  intro vars' hlive
  cases hstep with
  | begin | connected | connectFailed | retry | cancelled => cases hlive
  | session hpoint hsession =>
      rw [sessionVars, hpoint]
      exact liveStep_of_sessionStep hsession (fun vars hvars => hown _ vars hpoint hvars) hlive
  | sessionEnded hpoint hsession =>
      simp only [sessionVars] at hlive
      split_ifs at hlive

/-- The last write of a task, made or not, is what its session keeps. -/
structure Tells (write : Update F64 → Option Value) (told : F64 → ℤ → Value) (label : PeerLabel)
    (task : PeerLoopTask F64) : Prop where
  outbound : OutboundTask task
  told : task.control.label = label → ∀ vars, sessionVars task.control = some vars →
    lastWrite write (task.made ++ task.pending) =
      some (told vars.startTs vars.consecutiveMissed)
  below : ∀ vars, sessionVars task.control = some vars →
    MissesBelow task.control.clientCfg vars

theorem tells_invariant {label : PeerLabel} (hgauge : SessionGauge label write told) :
    TaskInvariant (PeerPool.program F64) fun _ (task : PeerLoopTask F64) =>
      Tells write told label task where
  stable hstep task htask := htask
  spawn houtside loop hmem := by
    have houtbound := (outboundTask_invariant F64).spawn houtside loop hmem
    obtain ⟨-, name, peer, settings, peers, -, -, -, rfl⟩ := mem_spawned houtside hmem
    exact ⟨houtbound, nofun, nofun⟩
  flush htask := by
    obtain ⟨⟨hupdates, hlabel⟩, htold, hbelow⟩ := htask
    refine ⟨⟨?_, hlabel⟩, ?_, hbelow⟩
    · rwa [List.append_assoc]
    · rwa [List.append_assoc]
  act htask hact := by
    obtain ⟨-, hloop, -⟩ := PeerPool.act_eq_some hact
    have hlive := liveStep_of_loopStep hloop htask.outbound.label
    refine ⟨(outboundTask_invariant F64).act htask.outbound hact, ?_, ?_⟩
    · intro hlabel vars hvars
      have hsame := hloop.arguments_eq.2.symm.trans hlabel
      have hlast := (hlive vars hvars).tells (hsame ▸ hgauge)
      rw [lastWrite_append]
      rcases Option.or_eq_some_iff.mp hlast with hwrite | ⟨hnone, hkept⟩
      · rw [hwrite, Option.some_or]
      · obtain ⟨old, hold, hstored⟩ := Option.map_eq_some_iff.mp hkept
        have hmade := htask.told hsame old hold
        rw [List.append_nil, hstored] at hmade
        rw [hnone, Option.none_or, hmade]
    · intro vars hvars
      rw [hloop.clientCfg_eq]
      exact (hlive vars hvars).missesBelow htask.below

theorem tells_of_reachable {label : PeerLabel} (hgauge : SessionGauge label write told)
    {pool : Peers F64} {config : Config}
    (hreach : Reachable (TaskPool.step (PeerPool.program F64)) (PeerPool.start F64 config) pool) :
    ∀ task ∈ pool.tasks, Tells write told label task :=
  (tells_invariant hgauge).reachable hreach (by simp [PeerPool.start])

/-- A session that has made its updates is what the entry shows: no later task of
the label exists yet. -/
theorem told_of_reachable {label : PeerLabel} {value : Metrics F64 → Option Value}
    (hentry : ClientEntry label value write) (hgauge : SessionGauge label write told)
    {pool : Peers F64} {config : Config}
    (hreach : Reachable (TaskPool.step (PeerPool.program F64)) (PeerPool.start F64 config) pool)
    {task : PeerLoopTask F64} (hmem : task ∈ pool.tasks) (hlabel : task.control.label = label)
    (hsettled : task.pending = []) {vars : SessionVars F64}
    (hlive : sessionVars task.control = some vars) :
    value pool.shared.metrics = some (told vars.startTs vars.consecutiveMissed) := by
  have htells := tells_of_reachable hgauge hreach task hmem
  obtain ⟨index, hget⟩ := List.mem_iff_getElem?.mp hmem
  have hlast := htells.told hlabel vars hlive
  rw [hsettled, List.append_nil] at hlast
  refine hentry.holdsLatest hreach index _ ((written_of_getElem? hget).trans hlast) ?_
  intro other hlt
  refine Option.eq_none_iff_forall_ne_some.mpr fun stored hwritten => ?_
  obtain ⟨later, hlater, hlabel'⟩ :=
    hentry.label_of_written (outboundTask_of_reachable hreach) hwritten
  obtain ⟨hreturned, -⟩ := done_of_replaced (Sound.reachable hreach) hlt hget hlater
    (hlabel.trans hlabel'.symm)
  rw [sessionVars, hreturned] at hlive
  cases hlive

end Sessions

section Process

variable {F64 : Type} [WallClock F64] [UnicodeTables] [SocketAddrParser] [TomlParser]
variable {state : Process F64} {config : Config} {path : String}

/-- The client gauges of a label, in every reachable state of the process.  Each
holds what the latest of the tasks that have set it has set last.  While a
session of the label is live and has made its updates, they say that there is
one, when it started, and how many heartbeats it has missed in a row, which are
fewer than it may miss. -/
theorem gauges_tell_of_the_session
    (hreach : Reachable (Process.step path) (Process.start F64 config) state)
    (label : PeerLabel) :
    (∀ family, family ≠ .serverSessionActive →
        HoldsLatest (fun shared => (shared.metrics.gauge family).lookup label)
          (Update.gaugeWrite family label) state.outbound) ∧
      (∀ family ∈ clientFloats,
        HoldsLatest (fun shared => (shared.metrics.float family).lookup label)
          (Update.floatWrite family label) state.outbound) ∧
      ∀ task ∈ state.peerTasks, ∀ vars, task.control.label = label →
        sessionVars task.control = some vars → task.pending = [] →
          (state.metrics.gauge .clientSessionActive).lookup label = some 1 ∧
            (state.metrics.float .clientSessionStart).lookup label = some vars.startTs ∧
            (state.metrics.gauge .clientConsecutiveMissed).lookup label =
              some vars.consecutiveMissed ∧
            MissesBelow task.control.clientCfg vars := by
  have hview : Reachable (TaskPool.step (PeerPool.program F64)) (PeerPool.start F64 config)
      (outboundView state) :=
    (follows_outbound F64 config.node.name path).reachable (sided_start config) hreach
  refine ⟨?_, ?_, ?_⟩
  · intro family hclient
    have hlatest := (gaugeEntry label hclient).holdsLatest hview
    exact hlatest
  · intro family hclient
    have hlatest := (floatEntry label hclient).holdsLatest hview
    exact hlatest
  intro task hmem vars hlabel hlive hsettled
  refine ⟨?_, ?_, ?_, ?_⟩
  · exact told_of_reachable (gaugeEntry label (by decide)) (activeGauge label) hview hmem hlabel
      hsettled hlive
  · exact told_of_reachable (floatEntry label (by decide)) (startGauge label) hview hmem hlabel
      hsettled hlive
  · exact told_of_reachable (gaugeEntry label (by decide)) (missedGauge label) hview hmem hlabel
      hsettled hlive
  · exact (tells_of_reachable (activeGauge label) hview task hmem).below vars hlive

end Process

section Witness

local instance : SocketAddrParser := anyAddress

local instance : TomlParser := configFiles

local instance : UnicodeTables := asciiTables

/-- A session starts at second 7, and its first heartbeat is not echoed. -/
def missHeartbeat : List (ClientMove WholeSeconds) :=
  [.outside (.manage (.order [])), .outside (.manage (.order ["a"])), .outside (.manage .go),
    .outside (.manage .go), .act 0 (⟨0, ⟨7⟩⟩, .ready)] ++ List.replicate 9 (.flush 0) ++
  [.act 0 (⟨0, ⟨7⟩⟩, .connected (.ok ())), .act 0 (⟨0, ⟨7⟩⟩, .wrote (.ok 5))] ++
    List.replicate 4 (.flush 0) ++
  [.act 0 (⟨0, ⟨7⟩⟩, .ready), .act 0 (⟨0, ⟨7⟩⟩, .wrote (.ok 16)), .flush 0,
    .act 0 (⟨fromSecs 30, ⟨37⟩⟩, .elapsed), .flush 0, .flush 0]

/-- The gauges tell of the session and of its missed heartbeat. -/
theorem gauges_tell_of_the_session_missed_heartbeat :
    ∃ state, run (Process.step "config.toml") (Process.start WholeSeconds (configured 30))
        (missHeartbeat.map .outbound) = some state ∧
      (state.metrics.gauge .clientSessionActive).lookup ⟨"n", "a"⟩ = some 1 ∧
      (state.metrics.float .clientSessionStart).lookup ⟨"n", "a"⟩ = some ⟨7⟩ ∧
      (state.metrics.gauge .clientConsecutiveMissed).lookup ⟨"n", "a"⟩ = some 1 := by
  obtain ⟨state, hrun, hview⟩ := Option.map_eq_some_iff.mp (show
    (run (Process.step "config.toml") (Process.start WholeSeconds (configured 30))
      (missHeartbeat.map .outbound)).map (fun state => state.peerTasks.map fun task =>
        (task.control.label, toldOf Prod.mk (sessionVars task.control), task.pending.length)) =
      some [(⟨"n", "a"⟩, some (⟨7⟩, 1), 0)] by decide +kernel)
  obtain ⟨task, htasks, htask⟩ := List.map_eq_singleton_iff.mp hview
  simp only [Prod.mk.injEq] at htask
  obtain ⟨hlabel, htold, hsettled⟩ := htask
  obtain ⟨vars, hlive, hvars⟩ := Option.map_eq_some_iff.mp htold
  obtain ⟨hstart, hmissed⟩ := Prod.mk.inj hvars
  have hmem : task ∈ state.peerTasks := htasks ▸ List.mem_singleton_self task
  obtain ⟨-, -, hgauges⟩ := gauges_tell_of_the_session (Reachable.of_run hrun) ⟨"n", "a"⟩
  obtain ⟨hactive, hstarted, hcount, -⟩ :=
    hgauges task hmem vars hlabel hlive (List.length_eq_zero_iff.mp hsettled)
  exact ⟨state, hrun, hactive, hstarted.trans (congrArg some hstart),
    hcount.trans (congrArg some hmissed)⟩

end Witness

end TcpMonitor.SessionGauges
