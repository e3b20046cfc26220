import Mathlib.Algebra.Order.BigOperators.Group.Finset
import TcpMonitor.Process.TwoSides

/-!
# The time series of the process

Every entry of a metric family is a time series that Prometheus stores, and no
family ever loses one.  A series exists because some task has accessed it, so it
belongs either to an inbound peer that was registered or to a peer that a loaded
config asks for.  This bounds the number of series, and a series never vanishes
and a counter never goes back as long as the process runs.
-/

namespace TcpMonitor.TimeSeries

open TcpMonitor.TransitionSystem
open TcpMonitor.TaskPool
open TcpMonitor.Simulation
open TcpMonitor.Runtime
open TcpMonitor.Configuration
open TcpMonitor.MetricFamilies
open TcpMonitor.ReconnectLoop
open TcpMonitor.PeerManager
open TcpMonitor.Reconciliation
open TcpMonitor.PeerPool hiding start program act_eq_some
open TcpMonitor.SessionPool hiding start program act_eq_some
open TcpMonitor.InboundSession
open TcpMonitor.Handshake
open TcpMonitor.WholeProcess
open TcpMonitor.WholeProcess.Process
open TcpMonitor.SettingsInForce
open TcpMonitor.TwoSides

/-! ## Series -/

/-- A family and the labels of one of its entries. -/
inductive Series where
  | gauge (family : GaugeFamily) (label : PeerLabel)
  | float (family : FloatFamily) (label : PeerLabel)
  | counter (family : CounterFamily) (label : PeerLabel)
  | disconnects (family : DisconnectFamily) (label : DisconnectLabel)
  deriving DecidableEq

namespace Series

variable {F64 : Type}

/-- The series is exported. -/
def Exported (metrics : Metrics F64) : Series → Prop
  | gauge family label => label ∈ metrics.gauge family
  | float family label => label ∈ metrics.float family
  | counter family label => label ∈ metrics.counter family
  | disconnects family label => label ∈ metrics.disconnects family

/-- The series that an update accesses. -/
def accessed : Update F64 → Series
  | .setGauge family label _ => gauge family label
  | .setFloat family label _ => float family label
  | .incCounter family label => counter family label
  | .incDisconnect family label | .createDisconnect family label => disconnects family label

/-- An update exports the series that it accesses and no other. -/
theorem exported_apply {update : Update F64} {metrics : Metrics F64} {series : Series} :
    Exported (update.apply metrics) series ↔
      series = accessed update ∨ Exported metrics series := by
  cases series with
  | gauge family label =>
      rw [Exported, Update.mem_gauge_apply]
      cases update <;> simp [accessed, Exported, eq_comm]
  | float family label =>
      rw [Exported, Update.mem_float_apply]
      cases update <;> simp [accessed, Exported, eq_comm]
  | counter family label =>
      rw [Exported, Update.mem_counter_apply]
      cases update <;> simp [accessed, Exported, eq_comm]
  | disconnects family label =>
      rw [Exported, Update.mem_disconnects_apply]
      cases update <;> simp [accessed, Exported, eq_comm]

/-- The peer label under which a series is exported. -/
def under : Series → PeerLabel
  | gauge _ label | float _ label | counter _ label => label
  | disconnects _ label => ⟨label.node, label.peer⟩

theorem under_accessed (update : Update F64) : (accessed update).under = labelOf update := by
  cases update <;> rfl

/-- The disconnect counters of both sides. -/
def ofDisconnects (label : PeerLabel) : List Series :=
  (serverDisconnectReasons.map fun reason =>
    disconnects .serverDisconnects ⟨label.node, label.peer, reason⟩) ++
  clientDisconnectReasons.map fun reason =>
    disconnects .clientDisconnects ⟨label.node, label.peer, reason⟩

/-- The series that an inbound session accesses under its label. -/
def inbound (label : PeerLabel) : List Series :=
  [gauge .serverSessionActive label, float .serverSessionStart label,
    float .serverSessionDuration label, float .serverLastHeartbeat label,
    counter .serverSessionsTotal label, counter .serverHeartbeatsRx label] ++ ofDisconnects label

/-- The series that a peer task accesses under its label. -/
def outbound (label : PeerLabel) : List Series :=
  [gauge .clientSessionActive label, gauge .clientConsecutiveMissed label,
    float .clientSessionStart label, float .clientSessionDuration label,
    float .clientRtt label, float .clientLastHeartbeat label,
    counter .clientSessionsTotal label, counter .clientHeartbeatsSent label,
    counter .clientHeartbeatsRx label, counter .clientHeartbeatsMissed label] ++
  ofDisconnects label

theorem accessed_mem_ofDisconnects {update : Update F64} {family : DisconnectFamily}
    {label : DisconnectLabel} (haccessed : accessed update = disconnects family label)
    (hlisted : reasonListed update = true) :
    accessed update ∈ ofDisconnects (labelOf update) := by
  have hmem : label.reason ∈ LabelGrowth.reasonsOf family := by
    cases update with
    | incDisconnect | createDisconnect =>
        cases haccessed
        exact of_decide_eq_true hlisted
    | setGauge | setFloat | incCounter => cases haccessed
  have hlabel : labelOf update = ⟨label.node, label.peer⟩ := by
    rw [← under_accessed, haccessed, under]
  rw [haccessed, hlabel]
  cases family with
  | serverDisconnects => exact List.mem_append_left _ (List.mem_map.mpr ⟨_, hmem, rfl⟩)
  | clientDisconnects => exact List.mem_append_right _ (List.mem_map.mpr ⟨_, hmem, rfl⟩)

theorem accessed_mem_outbound {update : Update F64} {label : PeerLabel}
    (hupdate : OutboundUnder label update) : accessed update ∈ outbound label := by
  obtain ⟨houtbound, rfl, hlisted⟩ := hupdate
  cases update with
  | setGauge family label value =>
      cases family with
      | serverSessionActive => cases houtbound
      | clientSessionActive | clientConsecutiveMissed => simp [accessed, outbound, labelOf]
  | setFloat family label value =>
      cases family with
      | serverSessionStart | serverSessionDuration | serverLastHeartbeat => cases houtbound
      | clientSessionStart | clientSessionDuration | clientRtt | clientLastHeartbeat =>
          simp [accessed, outbound, labelOf]
  | incCounter family label =>
      cases family with
      | serverSessionsTotal | serverHeartbeatsRx => cases houtbound
      | clientSessionsTotal | clientHeartbeatsSent | clientHeartbeatsRx | clientHeartbeatsMissed =>
          simp [accessed, outbound, labelOf]
  | incDisconnect | createDisconnect =>
      exact List.mem_append_right _ (accessed_mem_ofDisconnects rfl hlisted)

theorem accessed_mem_inbound {update : Update F64} {label : PeerLabel}
    (hupdate : InboundUnder label update) : accessed update ∈ inbound label := by
  obtain ⟨hinbound, rfl, hlisted⟩ := hupdate
  cases update with
  | setGauge family label value =>
      cases family with
      | serverSessionActive => simp [accessed, inbound, labelOf]
      | clientSessionActive | clientConsecutiveMissed => cases hinbound
  | setFloat family label value =>
      cases family with
      | serverSessionStart | serverSessionDuration | serverLastHeartbeat =>
          simp [accessed, inbound, labelOf]
      | clientSessionStart | clientSessionDuration | clientRtt | clientLastHeartbeat =>
          cases hinbound
  | incCounter family label =>
      cases family with
      | serverSessionsTotal | serverHeartbeatsRx => simp [accessed, inbound, labelOf]
      | clientSessionsTotal | clientHeartbeatsSent | clientHeartbeatsRx | clientHeartbeatsMissed =>
          cases hinbound
  | incDisconnect | createDisconnect =>
      exact List.mem_append_right _ (accessed_mem_ofDisconnects rfl hlisted)

end Series

/-! ## Where series come from -/

/-- The labels of the sessions that configs ask for. -/
def configuredLabels (configs : List Config) : Finset PeerLabel :=
  (configs.flatMap fun config =>
    (servedPeers config).map fun peer => PeerLabel.mk config.node.name peer.name).toFinset

theorem mem_configuredLabels {configs : List Config} {label : PeerLabel} :
    label ∈ configuredLabels configs ↔
      ∃ config ∈ configs, ∃ peer ∈ servedPeers config, ⟨config.node.name, peer.name⟩ = label := by
  simp only [configuredLabels, List.mem_toFinset, List.mem_flatMap, List.mem_map]

/-- The labels of the inbound peers that have been registered. -/
def registeredLabels (nodeName : String) (peers : ServerPeers) : Finset PeerLabel :=
  peers.seen.image (PeerLabel.mk nodeName)

/-- Every series that can exist. -/
def allSeries (registered configured : Finset PeerLabel) : Finset Series :=
  (registered.biUnion fun label => (Series.inbound label).toFinset) ∪
    configured.biUnion fun label => (Series.outbound label).toFinset

theorem card_allSeries_le (registered configured : Finset PeerLabel) :
    (allSeries registered configured).card ≤ 15 * registered.card + 19 * configured.card := by
  have hinbound : (registered.biUnion fun label => (Series.inbound label).toFinset).card ≤
      registered.card * 15 :=
    Finset.card_biUnion_le_card_mul _ _ _ fun label _ => List.toFinset_card_le _
  have houtbound : (configured.biUnion fun label => (Series.outbound label).toFinset).card ≤
      configured.card * 19 :=
    Finset.card_biUnion_le_card_mul _ _ _ fun label _ => List.toFinset_card_le _
  calc
    (allSeries registered configured).card ≤
        (registered.biUnion fun label => (Series.inbound label).toFinset).card +
          (configured.biUnion fun label => (Series.outbound label).toFinset).card :=
      Finset.card_union_le _ _
    _ ≤ registered.card * 15 + configured.card * 19 := Nat.add_le_add hinbound houtbound
    _ = 15 * registered.card + 19 * configured.card := by
      rw [Nat.mul_comm, Nat.mul_comm configured.card]

theorem card_registeredLabels_le (nodeName : String) (peers : ServerPeers) :
    (registeredLabels nodeName peers).card ≤ maxUniqueServerPeers :=
  Finset.card_image_le.trans peers.within_cap

section Steps

variable {F64 : Type} [UnicodeTables] [WallClock F64] [SocketAddrParser] [TomlParser]
variable {state next : Process F64} {nodeName path : String} {event : ProcessEvent F64}

/-- What was loaded stays loaded. -/
theorem loaded_subset (hstep : Process.step path state event = some next) :
    state.loaded ⊆ next.loaded := by
  rw [loaded_step hstep]
  exact List.subset_append_left _ _

omit [UnicodeTables] [WallClock F64] [SocketAddrParser] [TomlParser] in
theorem configuredLabels_mono {configs configs' : List Config} (hsubset : configs ⊆ configs') :
    configuredLabels configs ⊆ configuredLabels configs' := by
  intro label hmem
  obtain ⟨config, hconfig, hpeer⟩ := mem_configuredLabels.mp hmem
  exact mem_configuredLabels.mpr ⟨config, hsubset hconfig, hpeer⟩

/-- What a step can do to the metrics: nothing but register a peer, or make one
update, of a peer task or of a connection. -/
structure MetricsStep (state next : Process F64) : Prop where
  registered : state.metrics.serverPeers.seen ⊆ next.metrics.serverPeers.seen
  update : withoutPeers next.metrics = withoutPeers state.metrics ∨
    ∃ update, next.metrics = update.apply state.metrics ∧
      ((∃ task ∈ state.peerTasks, OutboundUnder task.control.label update) ∨
        ∃ label ∈ registeredLabels state.nodeName state.metrics.serverPeers,
          InboundUnder label update)

omit [SocketAddrParser] [TomlParser] in
theorem metricsStep (hsided : Sided nodeName state) (hstep : ProcessStep state event next) :
    MetricsStep state next := by
  obtain rfl := hsided.name
  cases hstep with
  | outbound hown hpool =>
      refine ⟨serverPeers_of_outbound hown hpool ▸ Finset.Subset.refl _, ?_⟩
      rcases outbound_metrics hown hpool with hsame | ⟨task, htask, update, hupdate, happly⟩
      · exact Or.inl (congrArg withoutPeers hsame)
      · exact Or.inr ⟨update, happly, Or.inl ⟨task, htask,
          (hsided.peerTasks task htask).updates update (List.mem_append_right _ hupdate)⟩⟩
  | inbound hown hpool =>
      refine ⟨registered_subset_of_step hpool, ?_⟩
      rcases inbound_metrics hown hpool with hsame | ⟨task, htask, update, hupdate, happly⟩
      · exact Or.inl hsame
      · obtain ⟨label, hnode, hseen, hinbound⟩ := inboundTask_of_inProgram
          (hsided.sessions task htask) update (List.mem_append_right _ hupdate)
        refine Or.inr ⟨update, happly, Or.inr ⟨label, ?_, hinbound⟩⟩
        exact Finset.mem_image.mpr ⟨label.peer, hseen, by rw [← hnode]⟩
  | acceptProbe | probe => exact ⟨Finset.Subset.refl _, Or.inl rfl⟩
  | around hframe =>
      exact ⟨hframe.metrics ▸ Finset.Subset.refl _, Or.inl (congrArg withoutPeers hframe.metrics)⟩

omit [UnicodeTables] [WallClock F64] [SocketAddrParser] [TomlParser] in
theorem exported_withoutPeers {metrics : Metrics F64} {series : Series} :
    series.Exported (withoutPeers metrics) ↔ series.Exported metrics := by
  cases series <;> exact Iff.rfl

/-- Every peer task works for a peer of a loaded config, and every series belongs
to one of these peers or to a registered one. -/
structure Origins (state : Process F64) : Prop where
  tasks : ∀ (i : ℕ) task, state.peerTasks[i]? = some task →
    task.control.label ∈ configuredLabels state.loaded
  series : ∀ series : Series, series.Exported state.metrics →
    series ∈ allSeries (registeredLabels state.nodeName state.metrics.serverPeers)
      (configuredLabels state.loaded)

omit [UnicodeTables] [WallClock F64] [SocketAddrParser] [TomlParser] in
theorem origins_start (config : Config) : Origins (start F64 config) where
  tasks := nofun
  series series hexported := by
    cases series <;> cases hexported

omit [UnicodeTables] [WallClock F64] [SocketAddrParser] [TomlParser] in
theorem allSeries_mono {registered registered' configured configured' : Finset PeerLabel}
    (hregistered : registered ⊆ registered') (hconfigured : configured ⊆ configured') :
    allSeries registered configured ⊆ allSeries registered' configured' :=
  Finset.union_subset_union (Finset.biUnion_subset_biUnion_of_subset_left _ hregistered)
    (Finset.biUnion_subset_biUnion_of_subset_left _ hconfigured)

omit [UnicodeTables] [WallClock F64] [SocketAddrParser] [TomlParser] in
/-- A task that the manager spawns works for a peer of the manager's config. -/
theorem label_of_spawned {manager : Manager} (hconsistent : Consistent manager) {name : String}
    {peer : PeerConfig} {clientCfg : ClientConfig} {peers : List (String × PeerConfig)}
    (hpoint : manager.point = .spawning clientCfg ((name, peer) :: peers)) {configs : List Config}
    (hconfig : manager.config ∈ configs) :
    ⟨manager.config.node.name, peer.name⟩ ∈ configuredLabels configs := by
  have hphase := hconsistent.phase
  rw [Phase, hpoint] at hphase
  obtain ⟨hclient, -, hentries, -⟩ := hphase
  obtain ⟨hpeer, -⟩ := mem_of_collectPeers (hentries _ List.mem_cons_self)
  refine mem_configuredLabels.mpr ⟨manager.config, hconfig, peer, ?_, rfl⟩
  rwa [servedPeers, hclient]

theorem Origins.step (horigins : Origins state) (hsided : Sided nodeName state)
    (hconsistent : Consistent state.manager) (hconfig : state.manager.config ∈ state.loaded)
    (hstep : Process.step path state event = some next) : Origins next := by
  have hprocess := processStep_of_step hstep
  have hloaded := configuredLabels_mono (loaded_subset hstep)
  have hmetrics := metricsStep hsided hprocess
  have hname : next.nodeName = state.nodeName := by
    cases hprocess with
    | outbound | inbound | acceptProbe | probe => rfl
    | around hframe => exact hframe.nodeName
  have hregistered : registeredLabels state.nodeName state.metrics.serverPeers ⊆
      registeredLabels next.nodeName next.metrics.serverPeers := by
    rw [registeredLabels, registeredLabels, hname]
    exact Finset.image_subset_image hmetrics.registered
  have hall := allSeries_mono hregistered hloaded
  constructor
  case tasks =>
    intro i task hget
    refine hloaded ?_
    cases hprocess with
    | @outbound move pool hown hpool =>
        refine forall_control_step
          (P := fun (_ : ℕ) (loop : PeerLoop F64) => loop.label ∈ configuredLabels state.loaded)
          (fun _ hact hlabel => ?_) (fun _ houtside loop hmem index _ => ?_) hpool horigins.tasks
          i task hget
        · obtain ⟨-, hloop, -⟩ := PeerPool.act_eq_some hact
          rwa [hloop.arguments_eq.2]
        · obtain ⟨-, name, peer, settings, peers, -, hpoint, -, rfl⟩ := mem_spawned houtside hmem
          exact label_of_spawned hconsistent hpoint hconfig
    | inbound | acceptProbe | probe => exact horigins.tasks i task hget
    | around hframe =>
        rw [hframe.peerTasks] at hget
        exact horigins.tasks i task hget
  case series =>
    intro series hexported
    rcases hmetrics.update with hsame | ⟨update, happly, hupdate⟩
    · rw [← exported_withoutPeers, hsame, exported_withoutPeers] at hexported
      exact hall (horigins.series series hexported)
    · rw [happly, Series.exported_apply] at hexported
      rcases hexported with rfl | hold
      · refine hall ?_
        rcases hupdate with ⟨task, htask, houtbound⟩ | ⟨label, hlabel, hinbound⟩
        · obtain ⟨i, hget⟩ := List.mem_iff_getElem?.mp htask
          refine Finset.mem_union_right _ (Finset.mem_biUnion.mpr
            ⟨_, horigins.tasks i task hget, ?_⟩)
          exact List.mem_toFinset.mpr (Series.accessed_mem_outbound houtbound)
        · refine Finset.mem_union_left _ (Finset.mem_biUnion.mpr ⟨label, hlabel, ?_⟩)
          exact List.mem_toFinset.mpr (Series.accessed_mem_inbound hinbound)
      · exact hall (horigins.series series hold)

theorem origins_of_reachable {config : Config} (hvalid : config.validate = .ok ())
    (hreach : Reachable (Process.step path) (start F64 config) state) : Origins state := by
  refine hreach.invariant_of_reachable Origins (origins_start config) ?_
  intro before event after hbefore horigins hstep
  have hsound := Sound.reachable (process_refines_both_sides hbefore).1
  exact horigins.step (sided_of_reachable hbefore) hsound.consistent
    (fromLoaded_of_reachable hvalid hbefore).current hstep

/-- The name that the accept loop holds is the one of the first config. -/
theorem name_of_reachable {config : Config}
    (hreach : Reachable (Process.step path) (start F64 config) state) :
    state.nodeName = config.node.name :=
  (sided_of_reachable hreach).name

omit [UnicodeTables] [WallClock F64] [SocketAddrParser] [TomlParser] in
theorem Series.under_of_mem {series : Series} {label : PeerLabel}
    (hmem : series ∈ Series.inbound label ∨ series ∈ Series.outbound label) :
    series.under = label := by
  have hall : ∀ found ∈ Series.inbound label ++ Series.outbound label, found.under = label := by
    simp [Series.inbound, Series.outbound, Series.ofDisconnects, Series.under,
      serverDisconnectReasons, clientDisconnectReasons]
  exact hall series (List.mem_append.mpr hmem)

/-- In every run of the process, whatever connects to it and whatever is
reloaded: each series is one of the 15 of an inbound peer that was registered, of
which there are at most 512, or one of the 19 of a peer that some config loaded in
this run asks for. -/
theorem series_bounded {config : Config} (hvalid : config.validate = .ok ())
    {events : List (ProcessEvent F64)}
    (hrun : run (Process.step path) (start F64 config) events = some state) :
    let registered := registeredLabels config.node.name state.metrics.serverPeers
    let configured := configuredLabels (config :: events.filterMap (loadedBy path))
    (∀ series : Series, series.Exported state.metrics →
      (series.under ∈ registered ∧ series ∈ Series.inbound series.under) ∨
        (series.under ∈ configured ∧ series ∈ Series.outbound series.under)) ∧
    registered.card ≤ maxUniqueServerPeers ∧
    ∀ exported : Finset Series, (∀ series ∈ exported, series.Exported state.metrics) →
      exported.card ≤ 15 * registered.card + 19 * configured.card := by
  have hreach := Reachable.of_run hrun
  have horigins := (origins_of_reachable hvalid hreach).series
  have hloaded : state.loaded = config :: events.filterMap (loadedBy path) := loaded_of_run hrun
  rw [name_of_reachable hreach, hloaded] at horigins
  refine ⟨?_, card_registeredLabels_le _ _, ?_⟩
  · intro series hexported
    rcases Finset.mem_union.mp (horigins series hexported) with hinbound | houtbound
    · obtain ⟨label, hlabel, hmem⟩ := Finset.mem_biUnion.mp hinbound
      have hseries := List.mem_toFinset.mp hmem
      obtain rfl := Series.under_of_mem (Or.inl hseries)
      exact Or.inl ⟨hlabel, hseries⟩
    · obtain ⟨label, hlabel, hmem⟩ := Finset.mem_biUnion.mp houtbound
      have hseries := List.mem_toFinset.mp hmem
      obtain rfl := Series.under_of_mem (Or.inr hseries)
      exact Or.inr ⟨hlabel, hseries⟩
  · intro exported hall
    exact (Finset.card_le_card fun series hmem => horigins series (hall series hmem)).trans
      (card_allSeries_le _ _)

/-! ## Series and counters only grow -/

/-- What Prometheus relies on between two scrapes of one process. -/
structure Grows (metrics later : Metrics F64) : Prop where
  series : ∀ series : Series, series.Exported metrics → series.Exported later
  counter : ∀ family label,
    (metrics.counter family).valueOr 0 label ≤ (later.counter family).valueOr 0 label
  disconnects : ∀ family label,
    (metrics.disconnects family).valueOr 0 label ≤ (later.disconnects family).valueOr 0 label

omit [UnicodeTables] [WallClock F64] [SocketAddrParser] [TomlParser] in
theorem Grows.apply (update : Update F64) (metrics : Metrics F64) :
    Grows metrics (update.apply metrics) where
  series series hexported := Series.exported_apply.mpr (Or.inr hexported)
  counter family label := by
    rw [Update.counter_apply]
    exact Nat.le_add_right _ _
  disconnects family label := by
    rw [Update.disconnects_apply]
    exact Nat.le_add_right _ _

omit [UnicodeTables] [WallClock F64] [SocketAddrParser] [TomlParser] in
theorem Grows.trans {metrics middle later : Metrics F64} (hfront : Grows metrics middle)
    (hback : Grows middle later) : Grows metrics later where
  series series hexported := hback.series series (hfront.series series hexported)
  counter family label := (hfront.counter family label).trans (hback.counter family label)
  disconnects family label :=
    (hfront.disconnects family label).trans (hback.disconnects family label)

omit [UnicodeTables] [WallClock F64] [SocketAddrParser] [TomlParser] in
theorem Grows.of_withoutPeers {metrics later : Metrics F64}
    (hsame : withoutPeers later = withoutPeers metrics) : Grows metrics later := by
  have hcounter : later.counter = metrics.counter := congrArg (fun held => held.counter) hsame
  have hdisconnects : later.disconnects = metrics.disconnects :=
    congrArg (fun held => held.disconnects) hsame
  refine ⟨fun series hexported => ?_, fun family label => ?_, fun family label => ?_⟩
  · rwa [← exported_withoutPeers, hsame, exported_withoutPeers]
  · rw [hcounter]
  · rw [hdisconnects]

end Steps

section Witness

local instance : SocketAddrParser := anyAddress

local instance : TomlParser := configFiles

local instance : UnicodeTables := asciiTables

/-- The peer task of the reloads creates its disconnect counters. -/
def createCounters : List (ProcessEvent WholeSeconds) :=
  reloads ++ .outbound (.act 0 (⟨0, ⟨0⟩⟩, .ready)) :: List.replicate 9 (.outbound (.flush 0))

/-- The first attempt to connect fails. -/
def failToConnect : List (ProcessEvent WholeSeconds) :=
  [.outbound (.act 0 (⟨1, ⟨1⟩⟩, .connected (.error .other))), .outbound (.flush 0)]

theorem validate_configured : (configured 30).validate = .ok () := by decide +kernel

/-- One peer is configured and none has registered, so 19 series can exist. -/
theorem series_bounded_one_peer :
    ∃ state, run (Process.step "config.toml") (start WholeSeconds (configured 30))
        createCounters = some state ∧
      (Series.disconnects .clientDisconnects ⟨"n", "a", "connect_failed"⟩).Exported
        state.metrics ∧
      ∀ exported : Finset Series, (∀ series ∈ exported, series.Exported state.metrics) →
        exported.card ≤ 19 := by
  obtain ⟨state, hrun, hview⟩ := Option.map_eq_some_iff.mp (show
    (run (Process.step "config.toml") (start WholeSeconds (configured 30)) createCounters).map
        (fun state => (decide ((⟨"n", "a", "connect_failed"⟩ : DisconnectLabel) ∈
          state.metrics.disconnects .clientDisconnects),
          (registeredLabels "n" state.metrics.serverPeers).card)) = some (true, 0) by
      decide +kernel)
  obtain ⟨hexported, hnone⟩ := Prod.mk.inj hview
  have hone : (configuredLabels (configured 30 ::
      createCounters.filterMap (loadedBy "config.toml"))).card = 1 := by decide +kernel
  have hbound := (series_bounded validate_configured hrun).2.2
  rw [show (configured 30).node.name = "n" from rfl, hnone, hone] at hbound
  have hmem : (⟨"n", "a", "connect_failed"⟩ : DisconnectLabel) ∈
      state.metrics.disconnects .clientDisconnects := of_decide_eq_true hexported
  exact ⟨state, hrun, hmem, hbound⟩

end Witness

end TcpMonitor.TimeSeries
