import Mathlib.Data.Finset.Prod
import TcpMonitor.Server.SessionPool
import TcpMonitor.Server.SessionBookkeeping

/-!
# Inbound label growth

The set of registered peers is the only guard against unboundedly many labels,
but entries are created in four other places.  Each of them is reached only by
a connection whose peer is registered, so the set bounds every family that
inbound sessions write.
-/

namespace TcpMonitor.LabelGrowth

open TcpMonitor.TransitionSystem
open TcpMonitor.TaskPool
open TcpMonitor.Runtime
open TcpMonitor.LabelFamily
open TcpMonitor.MetricFamilies
open TcpMonitor.InboundSession
open TcpMonitor.Handshake
open TcpMonitor.SessionPool
open TcpMonitor.SessionBookkeeping

/-- The `FloatGauge` families of server sessions. -/
def serverFloats : List FloatFamily :=
  [.serverSessionStart, .serverSessionDuration, .serverLastHeartbeat]

/-- The counter families of server sessions. -/
def serverCounters : List CounterFamily := [.serverSessionsTotal, .serverHeartbeatsRx]

/-- The reasons `init_disconnect_labels` creates in a disconnect family. -/
def reasonsOf : DisconnectFamily → List String
  | .serverDisconnects => serverDisconnectReasons
  | .clientDisconnects => clientDisconnectReasons

section Labels

variable {F64 : Type}

/-- Every label of a server session family is allowed. -/
structure ServerLabelsWithin (metrics : Metrics F64) (allowed : PeerLabel → Prop) : Prop where
  gauge : ∀ label ∈ metrics.gauge .serverSessionActive, allowed label
  float : ∀ family ∈ serverFloats, ∀ label ∈ metrics.float family, allowed label
  counter : ∀ family ∈ serverCounters, ∀ label ∈ metrics.counter family, allowed label

/-- The label under which an update writes a server session family. -/
def serverLabel : Update F64 → Option PeerLabel
  | .setGauge .serverSessionActive label _ => some label
  | .setFloat family label _ => if family ∈ serverFloats then some label else none
  | .incCounter family label => if family ∈ serverCounters then some label else none
  | _ => none

theorem ServerLabelsWithin.mono {metrics : Metrics F64} {allowed allowed' : PeerLabel → Prop}
    (hwithin : ServerLabelsWithin metrics allowed)
    (hallowed : ∀ label, allowed label → allowed' label) :
    ServerLabelsWithin metrics allowed' where
  gauge label hmem := hallowed label (hwithin.gauge label hmem)
  float family hfamily label hmem := hallowed label (hwithin.float family hfamily label hmem)
  counter family hfamily label hmem :=
    hallowed label (hwithin.counter family hfamily label hmem)

theorem ServerLabelsWithin.apply {metrics : Metrics F64} {allowed : PeerLabel → Prop}
    {update : Update F64} (hwithin : ServerLabelsWithin metrics allowed)
    (hupdate : ∀ label, serverLabel update = some label → allowed label) :
    ServerLabelsWithin (update.apply metrics) allowed where
  gauge label hmem := by
    rcases Update.mem_gauge_apply.mp hmem with ⟨value, rfl⟩ | hold
    · exact hupdate label rfl
    · exact hwithin.gauge label hold
  float family hfamily label hmem := by
    rcases Update.mem_float_apply.mp hmem with ⟨value, rfl⟩ | hold
    · exact hupdate label (if_pos hfamily)
    · exact hwithin.float family hfamily label hold
  counter family hfamily label hmem := by
    rcases Update.mem_counter_apply.mp hmem with rfl | hold
    · exact hupdate label (if_pos hfamily)
    · exact hwithin.counter family hfamily label hold

theorem serverLabel_of_isOutbound {update : Update F64} (hupdate : isOutbound update = true) :
    serverLabel update = none := by
  cases update with
  | setGauge family | setFloat family | incCounter family =>
      cases family <;> first | rfl | simp [isOutbound] at hupdate
  | incDisconnect | createDisconnect => rfl

/-- The label of a disconnect counter that an update touches. -/
def disconnectLabel (family : DisconnectFamily) : Update F64 → Option DisconnectLabel
  | .incDisconnect family' label | .createDisconnect family' label =>
      if family' = family then some label else none
  | _ => none

/-- The labels that inbound connections have touched in a disconnect family. -/
def inboundDisconnects (family : DisconnectFamily) (pool : Sessions F64) :
    Finset DisconnectLabel :=
  (pool.tasks.flatMap fun task => task.made.filterMap (disconnectLabel family)).toFinset

/-- A label of this node and a registered peer. -/
def Owned (nodeName : String) (shared : ServerShared F64) (label : PeerLabel) : Prop :=
  label.node = nodeName ∧ label.peer ∈ shared.metrics.serverPeers.seen

variable {nodeName : String}

/-- A family whose labels are all owned has at most as many entries as the set
may hold. -/
theorem length_keys_le_of_owned {Value : Type} {shared : ServerShared F64}
    {family : Family PeerLabel Value}
    (howned : ∀ label ∈ family, Owned nodeName shared label) :
    family.keys.length ≤ maxUniqueServerPeers := by
  have hsubset : ∀ label ∈ family,
      label ∈ shared.metrics.serverPeers.seen.image (PeerLabel.mk nodeName) := by
    intro label hmem
    obtain ⟨hnode, hpeer⟩ := howned label hmem
    exact Finset.mem_image.mpr ⟨label.peer, hpeer, by rw [← hnode]⟩
  calc
    family.keys.length ≤ (shared.metrics.serverPeers.seen.image (PeerLabel.mk nodeName)).card :=
      Family.length_keys_le hsubset
    _ ≤ shared.metrics.serverPeers.seen.card := Finset.card_image_le
    _ ≤ maxUniqueServerPeers := shared.metrics.serverPeers.within_cap

variable [WallClock F64]

/-- A connection writes server families only under a label it owns. -/
theorem owned_of_serverLabel {shared : ServerShared F64} {task : SessionTask F64}
    (htask : InProgram nodeName shared task) {update : Update F64} {label : PeerLabel}
    (hmem : update ∈ task.made ++ task.pending) (hlabel : serverLabel update = some label) :
    Owned nodeName shared label := by
  obtain ⟨label', howned, hupdate⟩ := htask.update_cases hmem
  suffices hsame : label' = label from hsame ▸ howned
  rcases hupdate with ⟨startTs, hstart⟩ | ⟨startTs, now, hbeat⟩ | ⟨duration, reason, -, hend⟩
  · simp only [startUpdates, initDisconnectLabels, List.mem_append, List.mem_map, List.mem_cons,
      List.not_mem_nil, or_false] at hstart
    rcases hstart with (⟨_, -, rfl⟩ | ⟨_, -, rfl⟩) | rfl | rfl | rfl
    · cases hlabel
    · cases hlabel
    · exact Option.some.inj hlabel
    · exact Option.some.inj hlabel
    · exact Option.some.inj hlabel
  · simp only [heartbeatUpdates, List.mem_cons, List.not_mem_nil, or_false] at hbeat
    rcases hbeat with rfl | rfl | rfl <;> exact Option.some.inj hlabel
  · simp only [endUpdates, List.mem_cons, List.not_mem_nil, or_false] at hend
    rcases hend with rfl | rfl | rfl
    · exact Option.some.inj hlabel
    · exact Option.some.inj hlabel
    · cases hlabel

/-- A connection touches disconnect counters only under a label it owns, and
only for the listed reasons. -/
theorem owned_of_disconnectLabel {shared : ServerShared F64} {task : SessionTask F64}
    (htask : InProgram nodeName shared task) {update : Update F64} {family : DisconnectFamily}
    {label : DisconnectLabel} (hmem : update ∈ task.made ++ task.pending)
    (hlabel : disconnectLabel family update = some label) :
    Owned nodeName shared ⟨label.node, label.peer⟩ ∧ label.reason ∈ reasonsOf family := by
  obtain ⟨label', howned, hupdate⟩ := htask.update_cases hmem
  suffices hsame : label' = ⟨label.node, label.peer⟩ ∧ label.reason ∈ reasonsOf family from
    ⟨hsame.1 ▸ howned, hsame.2⟩
  rcases hupdate with
    ⟨startTs, hstart⟩ | ⟨startTs, now, hbeat⟩ | ⟨duration, reason, hreason, hend⟩
  · simp only [startUpdates, initDisconnectLabels, List.mem_append, List.mem_map, List.mem_cons,
      List.not_mem_nil, or_false] at hstart
    rcases hstart with (⟨reason, hreason, rfl⟩ | ⟨reason, hreason, rfl⟩) | rfl | rfl | rfl
    · obtain ⟨rfl, rfl⟩ : .serverDisconnects = family ∧ _ = label := by
        simpa [disconnectLabel] using hlabel
      exact ⟨rfl, hreason⟩
    · obtain ⟨rfl, rfl⟩ : .clientDisconnects = family ∧ _ = label := by
        simpa [disconnectLabel] using hlabel
      exact ⟨rfl, hreason⟩
    · cases hlabel
    · cases hlabel
    · cases hlabel
  · simp only [heartbeatUpdates, List.mem_cons, List.not_mem_nil, or_false] at hbeat
    rcases hbeat with rfl | rfl | rfl <;> cases hlabel
  · simp only [endUpdates, List.mem_cons, List.not_mem_nil, or_false] at hend
    rcases hend with rfl | rfl | rfl
    · cases hlabel
    · cases hlabel
    · obtain ⟨rfl, rfl⟩ : .serverDisconnects = family ∧ _ = label := by
        simpa [disconnectLabel] using hlabel
      exact ⟨rfl, hreason⟩

/-! ## All connections -/

variable [UnicodeTables] {timeout : UInt64} {pool : Sessions F64}

/-- The set never shrinks along a run. -/
theorem registered_subset {later : Sessions F64}
    (hreach : Reachable (step (program nodeName)) pool later) :
    registered pool ⊆ registered later :=
  hreach.invariant (fun later => registered pool ⊆ registered later)
    (Finset.Subset.refl _)
    fun _ _ _ hsubset hstep => hsubset.trans (registered_subset_of_step hstep)

theorem serverLabelsWithin_owned
    (hreach : Reachable (step (program nodeName)) (start F64 timeout) pool) :
    ServerLabelsWithin pool.shared.metrics (Owned nodeName pool.shared) := by
  have hboth := hreach.invariant
    (fun pool => (∀ task ∈ pool.tasks, InProgram nodeName pool.shared task) ∧
      ServerLabelsWithin pool.shared.metrics (Owned nodeName pool.shared)) ?_ ?_
  · exact hboth.2
  · refine ⟨by simp [start], ?_⟩
    constructor <;> simp [start, Metrics.new]
  · rintro pool move next ⟨htasks, hwithin⟩ hstep
    refine ⟨(inProgram_invariant nodeName).step htasks hstep, ?_⟩
    have hsubset := registered_subset_of_step hstep
    have howned : ∀ label, Owned nodeName pool.shared label → Owned nodeName next.shared label :=
      fun label howned => ⟨howned.1, hsubset howned.2⟩
    have hkept := hwithin.mono howned
    rcases metrics_of_step hstep with ⟨peers, hmetrics⟩ | ⟨update, hmetrics, hsource⟩
    · rw [hmetrics]
      exact ⟨hkept.gauge, hkept.float, hkept.counter⟩
    · rw [hmetrics]
      refine hkept.apply fun label hlabel => ?_
      rcases hsource with houtbound | ⟨task, hmem, hpending⟩
      · rw [serverLabel_of_isOutbound houtbound] at hlabel
        cases hlabel
      · exact howned label (owned_of_serverLabel (htasks task hmem)
          (List.mem_append_right _ hpending) hlabel)

theorem inboundDisconnects_subset
    (hreach : Reachable (step (program nodeName)) (start F64 timeout) pool)
    (family : DisconnectFamily) :
    inboundDisconnects family pool ⊆
      (registered pool ×ˢ (reasonsOf family).toFinset).image
        fun pair => ⟨nodeName, pair.1, pair.2⟩ := by
  intro label hmem
  simp only [inboundDisconnects, List.mem_toFinset, List.mem_flatMap, List.mem_filterMap] at hmem
  obtain ⟨task, htask, update, hupdate, hlabel⟩ := hmem
  obtain ⟨⟨hnode, hpeer⟩, hreason⟩ := owned_of_disconnectLabel
    (inProgram_of_reachable hreach task htask) (List.mem_append_left _ hupdate) hlabel
  refine Finset.mem_image.mpr ⟨(label.peer, label.reason), ?_, ?_⟩
  · exact Finset.mem_product.mpr ⟨hpeer, List.mem_toFinset.mpr hreason⟩
  · rw [← hnode]

theorem card_inboundDisconnects_le
    (hreach : Reachable (step (program nodeName)) (start F64 timeout) pool)
    (family : DisconnectFamily) :
    (inboundDisconnects family pool).card ≤
      (reasonsOf family).length * maxUniqueServerPeers := by
  calc
    (inboundDisconnects family pool).card
        ≤ ((registered pool ×ˢ (reasonsOf family).toFinset).image
            fun pair => (⟨nodeName, pair.1, pair.2⟩ : DisconnectLabel)).card :=
      Finset.card_le_card (inboundDisconnects_subset hreach family)
    _ ≤ (registered pool ×ˢ (reasonsOf family).toFinset).card := Finset.card_image_le
    _ = (registered pool).card * (reasonsOf family).toFinset.card := Finset.card_product _ _
    _ ≤ maxUniqueServerPeers * (reasonsOf family).length :=
      Nat.mul_le_mul pool.shared.metrics.serverPeers.within_cap (List.toFinset_card_le _)
    _ = (reasonsOf family).length * maxUniqueServerPeers := Nat.mul_comm _ _

/-! ## One attempt to register -/

/-- The connection was refused by `try_register`. -/
def Refused (pool : Sessions F64) (index : ℕ) : Prop :=
  ∃ task, pool.tasks[index]? = some task ∧ task.control.point = .closed .refused

/-- A connection that is about to register its peer. -/
def Registering (pool : Sessions F64) (index : ℕ) (peer : String) : Prop :=
  ∃ task, pool.tasks[index]? = some task ∧ task.control.point = .registering peer

theorem registering_step {next : Sessions F64} {index : ℕ} {peer : String}
    {input : Reading F64 × Completion} (hregistering : Registering pool index peer)
    (hstep : step (program nodeName) pool (.act index input) = some next) :
    (Refused next index ↔ (pool.shared.metrics.serverPeers.tryRegister peer).1 = false) ∧
      next.shared.metrics =
        { pool.shared.metrics with
          serverPeers := (pool.shared.metrics.serverPeers.tryRegister peer).2 } ∧
      next.shared.heartbeatRecvTimeout = pool.shared.heartbeatRecvTimeout := by
  obtain ⟨connection, made, shared, connection', updates, hget, hact, rfl⟩ :=
    step_act_eq_some.mp hstep
  obtain ⟨hindex, -⟩ := List.getElem?_eq_some_iff.mp hget
  obtain ⟨task, htask, hpoint⟩ := hregistering
  obtain rfl : task = ⟨connection, [], made⟩ := Option.some.inj (htask.symm.trans hget)
  obtain ⟨peers, hhandle, rfl⟩ := act_eq_some hact
  obtain ⟨rfl, hpoint'⟩ := handleConnection_registering hpoint hhandle
  refine ⟨?_, rfl, rfl⟩
  rw [← hpoint']
  simp [Refused, hindex]

/-- How an attempt to register may end, now and for ever after. -/
structure AttemptSettled (nodeName peer : String) (pool next : Sessions F64) (index : ℕ) :
    Prop where
  refused_iff : Refused next index ↔
    peer ∉ registered pool ∧ (registered pool).card = maxUniqueServerPeers
  refused_unchanged : Refused next index → next.shared = pool.shared
  accepted_for_ever : ¬ Refused next index →
    ∀ later, Reachable (step (program nodeName)) next later →
      later.shared.metrics.serverPeers.tryRegister peer =
        (true, later.shared.metrics.serverPeers)

theorem attemptSettled {next : Sessions F64} {index : ℕ} {peer : String}
    {input : Reading F64 × Completion} (hregistering : Registering pool index peer)
    (hstep : step (program nodeName) pool (.act index input) = some next) :
    AttemptSettled nodeName peer pool next index := by
  obtain ⟨hrefused, hmetrics, htimeout⟩ := registering_step hregistering hstep
  have hiff := ServerPeers.tryRegister_refused_iff pool.shared.metrics.serverPeers peer
  constructor
  · exact hrefused.trans hiff
  · intro hnext
    have hsame := ServerPeers.tryRegister_refused (hrefused.mp hnext)
    obtain ⟨⟨metrics, heartbeatRecvTimeout⟩, tasks⟩ := next
    obtain rfl : heartbeatRecvTimeout = pool.shared.heartbeatRecvTimeout := htimeout
    obtain rfl : metrics = pool.shared.metrics := by
      rw [hsame] at hmetrics
      exact hmetrics
    rfl
  · intro hnext later hlater
    have haccepted : (pool.shared.metrics.serverPeers.tryRegister peer).1 = true := by
      rw [hrefused, Bool.not_eq_false] at hnext
      exact hnext
    have hmem : peer ∈ registered next := by
      rw [registered, hmetrics]
      exact ServerPeers.mem_seen_of_accepted haccepted
    exact ServerPeers.tryRegister_of_mem (registered_subset hlater hmem)

/-- The bounds on inbound labels in one state. -/
structure LabelsBounded (nodeName : String) (pool : Sessions F64) : Prop where
  registered_le : (registered pool).card ≤ maxUniqueServerPeers
  server_owned : ServerLabelsWithin pool.shared.metrics (Owned nodeName pool.shared)
  disconnect_owned : ∀ task ∈ pool.tasks, ∀ update ∈ task.made, ∀ family label,
    disconnectLabel family update = some label →
      Owned nodeName pool.shared ⟨label.node, label.peer⟩ ∧ label.reason ∈ reasonsOf family
  gauge_le :
    (pool.shared.metrics.gauge .serverSessionActive).keys.length ≤ maxUniqueServerPeers
  float_le : ∀ family ∈ serverFloats,
    (pool.shared.metrics.float family).keys.length ≤ maxUniqueServerPeers
  counter_le : ∀ family ∈ serverCounters,
    (pool.shared.metrics.counter family).keys.length ≤ maxUniqueServerPeers
  serverDisconnects_le :
    (inboundDisconnects .serverDisconnects pool).card ≤ 4 * maxUniqueServerPeers
  clientDisconnects_le :
    (inboundDisconnects .clientDisconnects pool).card ≤ 5 * maxUniqueServerPeers
  refused_silent : ∀ task ∈ pool.tasks, task.control.point = .closed .refused →
    task.made = [] ∧ task.pending = []

theorem labelsBounded (hreach : Reachable (step (program nodeName)) (start F64 timeout) pool) :
    LabelsBounded nodeName pool := by
  have hwithin := serverLabelsWithin_owned hreach
  have htasks := inProgram_of_reachable hreach
  exact {
    registered_le := pool.shared.metrics.serverPeers.within_cap
    server_owned := hwithin
    disconnect_owned := fun task htask update hupdate family label hlabel =>
      owned_of_disconnectLabel (htasks task htask) (List.mem_append_left _ hupdate) hlabel
    gauge_le := length_keys_le_of_owned hwithin.gauge
    float_le := fun family hfamily => length_keys_le_of_owned (hwithin.float family hfamily)
    counter_le := fun family hfamily => length_keys_le_of_owned (hwithin.counter family hfamily)
    serverDisconnects_le := card_inboundDisconnects_le hreach .serverDisconnects
    clientDisconnects_le := card_inboundDisconnects_le hreach .clientDisconnects
    refused_silent := by
      rintro ⟨⟨timeout', point⟩, pending, made⟩ htask rfl
      have hrejected : (Point.closed .refused : Point F64).Rejected := trivial
      exact (inProgram_of_point (Or.inr hrejected)).mp (htasks _ htask) }

/-- Inbound label growth is bounded for ever: the registered set never shrinks
and never exceeds its cap, it bounds every label that inbound connections
create, and an attempt to register is refused exactly for a new name at the
cap, without any effect. -/
theorem inbound_labels_bounded
    (hreach : Reachable (step (program nodeName)) (start F64 timeout) pool) :
    LabelsBounded nodeName pool ∧
      (∀ later, Reachable (step (program nodeName)) pool later →
        registered pool ⊆ registered later) ∧
      ∀ index peer input next, Registering pool index peer →
        step (program nodeName) pool (.act index input) = some next →
          AttemptSettled nodeName peer pool next index :=
  ⟨labelsBounded hreach, fun _ hlater => registered_subset hlater,
    fun _ _ _ _ hregistering hstep => attemptSettled hregistering hstep⟩

end Labels

section Witness

local instance : UnicodeTables := asciiTables

/-- Two connections announce one name; the second one is about to register. -/
theorem inbound_labels_bounded_second_connection :
    ∃ pool : Sessions WholeSeconds, registered pool = {"cli"} ∧
      LabelsBounded "srv" pool ∧ ∃ next, AttemptSettled "srv" "cli" pool next 1 := by
  obtain ⟨pool, hrun, hview⟩ := Option.map_eq_some_iff.mp (show
    (run (step (program "srv")) (start WholeSeconds 15)
      (connect 0 ++ (connect 1).take 4)).map (fun pool =>
        (registered pool,
          pool.tasks[1]?.map fun task => task.control.point.announced,
          (step (program "srv") pool (act 1 .ready)).isSome)) =
      some ({"cli"}, some (some "cli"), true) by decide)
  obtain ⟨hregistered, hview⟩ := Prod.mk.inj hview
  obtain ⟨hpoint, hnext⟩ := Prod.mk.inj hview
  obtain ⟨next, hstep⟩ := Option.isSome_iff_exists.mp hnext
  obtain ⟨hbounded, -, hattempt⟩ := inbound_labels_bounded (Reachable.of_run hrun)
  obtain ⟨task, hget, htask⟩ := Option.map_eq_some_iff.mp hpoint
  exact ⟨pool, hregistered, hbounded, next, hattempt 1 "cli" _ next
    ⟨task, hget, Point.announced_eq_some.mp htask⟩ hstep⟩

end Witness

end TcpMonitor.LabelGrowth
