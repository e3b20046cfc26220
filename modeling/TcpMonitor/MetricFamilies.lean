import Mathlib.Algebra.GroupWithZero.Nat
import Mathlib.Logic.Function.Basic
import TcpMonitor.Core.LabelFamily

/-!
# Metric families and the inbound peer set

The metrics of the source are families of gauges and counters that every task
shares.  Each access `family.get_or_create(&label)` followed by `set` or `inc`
is one atomic update, so the straight-line code of a task between two await
points is modelled by the list of its updates in program order.
-/

namespace TcpMonitor.MetricFamilies

open TcpMonitor.LabelFamily

/-- Hard cap on distinct inbound peer names that may allocate metric label
entries. -/
def maxUniqueServerPeers : ℕ := 512

/-- Disconnect reasons a server session can end with. -/
def serverDisconnectReasons : List String :=
  ["remote_close", "connection_reset", "timeout", "local_error"]

/-- Disconnect reasons a client session can end with. -/
def clientDisconnectReasons : List String :=
  ["remote_close", "connection_reset", "timeout", "local_error", "connect_failed"]

/-- Labels on per-session metrics. -/
structure PeerLabel where
  node : String
  peer : String
  deriving DecidableEq

/-- Labels on disconnect counters. -/
structure DisconnectLabel where
  node : String
  peer : String
  reason : String
  deriving DecidableEq

/-! ## The set of inbound peers -/

/-- The set of inbound peer names that have metric label entries. -/
structure ServerPeers where
  seen : Finset String
  within_cap : seen.card ≤ maxUniqueServerPeers

namespace ServerPeers

def empty : ServerPeers := ⟨∅, by simp⟩

/-- Returns whether the peer may proceed, and the set afterwards.  The source
holds the mutex for the whole body, so this is one atomic step. -/
def tryRegister (peers : ServerPeers) (peer : String) : Bool × ServerPeers :=
  if peer ∈ peers.seen then (true, peers)
  else if hfull : peers.seen.card ≥ maxUniqueServerPeers then (false, peers)
  else (true, ⟨insert peer peers.seen,
    (Finset.card_insert_le peer peers.seen).trans (by omega)⟩)

/-- A known name is accepted, whether the set is full or not. -/
theorem tryRegister_of_mem {peers : ServerPeers} {peer : String}
    (hmem : peer ∈ peers.seen) : peers.tryRegister peer = (true, peers) := by
  rw [tryRegister, if_pos hmem]

/-- A name is refused exactly when it is new and the set is full. -/
theorem tryRegister_refused_iff (peers : ServerPeers) (peer : String) :
    (peers.tryRegister peer).1 = false ↔
      peer ∉ peers.seen ∧ peers.seen.card = maxUniqueServerPeers := by
  have hcap := peers.within_cap
  by_cases hmem : peer ∈ peers.seen
  · simp [tryRegister, hmem]
  · by_cases hfull : peers.seen.card ≥ maxUniqueServerPeers
    · have hcard : peers.seen.card = maxUniqueServerPeers := by omega
      simp [tryRegister, hmem, hcard]
    · have hcard : peers.seen.card ≠ maxUniqueServerPeers := by omega
      simp [tryRegister, hmem, hfull, hcard]

theorem tryRegister_refused {peers : ServerPeers} {peer : String}
    (hrefused : (peers.tryRegister peer).1 = false) :
    (peers.tryRegister peer).2 = peers := by
  obtain ⟨hnew, hfull⟩ := (tryRegister_refused_iff peers peer).mp hrefused
  simp [tryRegister, hnew, hfull]

theorem mem_seen_of_accepted {peers : ServerPeers} {peer : String}
    (haccepted : (peers.tryRegister peer).1 = true) :
    peer ∈ (peers.tryRegister peer).2.seen := by
  by_cases hmem : peer ∈ peers.seen
  · rw [tryRegister_of_mem hmem]
    exact hmem
  · by_cases hfull : peers.seen.card ≥ maxUniqueServerPeers
    · simp [tryRegister, hmem, hfull] at haccepted
    · simp [tryRegister, hmem, hfull]

/-- The set never shrinks. -/
theorem seen_subset_tryRegister (peers : ServerPeers) (peer : String) :
    peers.seen ⊆ (peers.tryRegister peer).2.seen := by
  by_cases hmem : peer ∈ peers.seen
  · rw [tryRegister_of_mem hmem]
  · by_cases hfull : peers.seen.card ≥ maxUniqueServerPeers
    · simp [tryRegister, hmem, hfull]
    · simp [tryRegister, hmem, hfull]

end ServerPeers

/-! ## The families -/

/-- The families of integer gauges labelled by peer. -/
inductive GaugeFamily where
  | serverSessionActive
  | clientSessionActive
  | clientConsecutiveMissed
  deriving DecidableEq

/-- The families of `FloatGauge`s labelled by peer. -/
inductive FloatFamily where
  | serverSessionStart
  | serverSessionDuration
  | serverLastHeartbeat
  | clientSessionStart
  | clientSessionDuration
  | clientRtt
  | clientLastHeartbeat
  deriving DecidableEq

/-- The families of counters labelled by peer. -/
inductive CounterFamily where
  | serverSessionsTotal
  | serverHeartbeatsRx
  | clientSessionsTotal
  | clientHeartbeatsSent
  | clientHeartbeatsRx
  | clientHeartbeatsMissed
  deriving DecidableEq

/-- The families of counters labelled by peer and reason. -/
inductive DisconnectFamily where
  | serverDisconnects
  | clientDisconnects
  deriving DecidableEq

/-- Every metric family, grouped by type, and the inbound peer set. -/
structure Metrics (F64 : Type) where
  gauge : GaugeFamily → Family PeerLabel ℤ
  float : FloatFamily → Family PeerLabel F64
  counter : CounterFamily → Family PeerLabel ℕ
  disconnects : DisconnectFamily → Family DisconnectLabel ℕ
  serverPeers : ServerPeers

/-- `Metrics::new`. -/
def Metrics.new (F64 : Type) : Metrics F64 where
  gauge _ := ∅
  float _ := ∅
  counter _ := ∅
  disconnects _ := ∅
  serverPeers := ServerPeers.empty

/-- One atomic access to a family. -/
inductive Update (F64 : Type) where
  | setGauge (family : GaugeFamily) (label : PeerLabel) (value : ℤ)
  | setFloat (family : FloatFamily) (label : PeerLabel) (value : F64)
  | incCounter (family : CounterFamily) (label : PeerLabel)
  | incDisconnect (family : DisconnectFamily) (label : DisconnectLabel)
  | createDisconnect (family : DisconnectFamily) (label : DisconnectLabel)
  deriving DecidableEq

/-- `Metrics::init_disconnect_labels`. -/
def initDisconnectLabels (F64 : Type) (node peer : String) : List (Update F64) :=
  serverDisconnectReasons.map (fun reason =>
    .createDisconnect .serverDisconnects ⟨node, peer, reason⟩) ++
  clientDisconnectReasons.map (fun reason =>
    .createDisconnect .clientDisconnects ⟨node, peer, reason⟩)

namespace Update

variable {F64 : Type}

def apply (update : Update F64) (metrics : Metrics F64) : Metrics F64 :=
  match update with
  | setGauge family label value =>
      { metrics with
        gauge := Function.update metrics.gauge family ((metrics.gauge family).set label value) }
  | setFloat family label value =>
      { metrics with
        float := Function.update metrics.float family ((metrics.float family).set label value) }
  | incCounter family label =>
      { metrics with
        counter := Function.update metrics.counter family
          ((metrics.counter family).update 0 (· + 1) label) }
  | incDisconnect family label =>
      { metrics with
        disconnects := Function.update metrics.disconnects family
          ((metrics.disconnects family).update 0 (· + 1) label) }
  | createDisconnect family label =>
      { metrics with
        disconnects := Function.update metrics.disconnects family
          ((metrics.disconnects family).getOrCreate 0 label) }

/-- The updates of a piece of straight-line code, in program order. -/
def applyAll (updates : List (Update F64)) (metrics : Metrics F64) : Metrics F64 :=
  updates.foldl (fun current update => update.apply current) metrics

@[simp]
theorem serverPeers_apply (update : Update F64) (metrics : Metrics F64) :
    (update.apply metrics).serverPeers = metrics.serverPeers := by
  cases update <;> rfl

/-! The entries that an update creates. -/

theorem mem_gauge_apply {update : Update F64} {metrics : Metrics F64} {family : GaugeFamily}
    {label : PeerLabel} :
    label ∈ (update.apply metrics).gauge family ↔
      (∃ value, update = setGauge family label value) ∨ label ∈ metrics.gauge family := by
  cases update with
  | setGauge family' label' value =>
      by_cases hfamily : family' = family
      · subst hfamily
        simp [apply, eq_comm]
      · simp [apply, hfamily, Ne.symm hfamily]
  | setFloat | incCounter | incDisconnect | createDisconnect => simp [apply]

theorem mem_float_apply {update : Update F64} {metrics : Metrics F64} {family : FloatFamily}
    {label : PeerLabel} :
    label ∈ (update.apply metrics).float family ↔
      (∃ value, update = setFloat family label value) ∨ label ∈ metrics.float family := by
  cases update with
  | setFloat family' label' value =>
      by_cases hfamily : family' = family
      · subst hfamily
        simp [apply, eq_comm]
      · simp [apply, hfamily, Ne.symm hfamily]
  | setGauge | incCounter | incDisconnect | createDisconnect => simp [apply]

theorem mem_counter_apply {update : Update F64} {metrics : Metrics F64}
    {family : CounterFamily} {label : PeerLabel} :
    label ∈ (update.apply metrics).counter family ↔
      update = incCounter family label ∨ label ∈ metrics.counter family := by
  cases update with
  | incCounter family' label' =>
      by_cases hfamily : family' = family
      · subst hfamily
        simp [apply, eq_comm]
      · simp [apply, hfamily, Ne.symm hfamily]
  | setGauge | setFloat | incDisconnect | createDisconnect => simp [apply]

theorem mem_disconnects_apply {update : Update F64} {metrics : Metrics F64}
    {family : DisconnectFamily} {label : DisconnectLabel} :
    label ∈ (update.apply metrics).disconnects family ↔
      update = incDisconnect family label ∨ update = createDisconnect family label ∨
        label ∈ metrics.disconnects family := by
  cases update with
  | incDisconnect family' label' | createDisconnect family' label' =>
      by_cases hfamily : family' = family
      · subst hfamily
        simp [apply, eq_comm]
      · simp [apply, hfamily, Ne.symm hfamily]
  | setGauge | setFloat | incCounter => simp [apply]

/-- The value an update stores in one entry of a gauge family. -/
def gaugeWrite (family : GaugeFamily) (label : PeerLabel) : Update F64 → Option ℤ
  | setGauge family' label' value => if family' = family ∧ label' = label then some value else none
  | _ => none

theorem eq_setGauge_of_gaugeWrite {update : Update F64} {family : GaugeFamily}
    {label : PeerLabel} {value : ℤ} (hwrite : update.gaugeWrite family label = some value) :
    update = setGauge family label value := by
  cases update with
  | setGauge family' label' value' =>
      obtain ⟨⟨rfl, rfl⟩, rfl⟩ : (family' = family ∧ label' = label) ∧ value' = value := by
        simpa [gaugeWrite] using hwrite
      rfl
  | setFloat | incCounter | incDisconnect | createDisconnect => cases hwrite

theorem lookup_gauge_apply (update : Update F64) (metrics : Metrics F64)
    (family : GaugeFamily) (label : PeerLabel) :
    ((update.apply metrics).gauge family).lookup label =
      (update.gaugeWrite family label).or ((metrics.gauge family).lookup label) := by
  cases update with
  | setGauge family' label' value =>
      by_cases hfamily : family' = family
      · subst hfamily
        by_cases hlabel : label' = label
        · subst hlabel
          simp [apply, gaugeWrite, Family.lookup_set]
        · simp [apply, gaugeWrite, Family.lookup_set, hlabel, Ne.symm hlabel]
      · simp [apply, gaugeWrite, hfamily, Ne.symm hfamily]
  | setFloat | incCounter | incDisconnect | createDisconnect => rfl

/-- A list of updates leaves its last write in the entry. -/
theorem lookup_gauge_applyAll (updates : List (Update F64)) (metrics : Metrics F64)
    (family : GaugeFamily) (label : PeerLabel) :
    ((applyAll updates metrics).gauge family).lookup label =
      (updates.filterMap (gaugeWrite family label)).getLast?.or
        ((metrics.gauge family).lookup label) := by
  induction updates using List.reverseRecOn with
  | nil => rfl
  | append_singleton updates update ih =>
      have happly : applyAll (updates ++ [update]) metrics =
          update.apply (applyAll updates metrics) := by
        rw [applyAll, List.foldl_append]
        rfl
      rw [happly, lookup_gauge_apply, ih, List.filterMap_append]
      cases hwrite : gaugeWrite family label update with
      | none => simp [hwrite]
      | some stored => simp [hwrite]

/-- The value an update stores in one entry of a float family. -/
def floatWrite (family : FloatFamily) (label : PeerLabel) : Update F64 → Option F64
  | setFloat family' label' value => if family' = family ∧ label' = label then some value else none
  | _ => none

theorem lookup_float_apply (update : Update F64) (metrics : Metrics F64)
    (family : FloatFamily) (label : PeerLabel) :
    ((update.apply metrics).float family).lookup label =
      (update.floatWrite family label).or ((metrics.float family).lookup label) := by
  cases update with
  | setFloat family' label' value =>
      by_cases hfamily : family' = family
      · subst hfamily
        by_cases hlabel : label' = label
        · subst hlabel
          simp [apply, floatWrite, Family.lookup_set]
        · simp [apply, floatWrite, Family.lookup_set, hlabel, Ne.symm hlabel]
      · simp [apply, floatWrite, hfamily, Ne.symm hfamily]
  | setGauge | incCounter | incDisconnect | createDisconnect => rfl

/-- How much an update adds to one counter. -/
def counterWeight (family : CounterFamily) (label : PeerLabel) : Update F64 → ℕ
  | incCounter family' label' => if family' = family ∧ label' = label then 1 else 0
  | _ => 0

theorem counter_apply (update : Update F64) (metrics : Metrics F64)
    (family : CounterFamily) (label : PeerLabel) :
    ((update.apply metrics).counter family).valueOr 0 label =
      (metrics.counter family).valueOr 0 label + update.counterWeight family label := by
  cases update with
  | incCounter family' label' =>
      by_cases hfamily : family' = family
      · subst hfamily
        by_cases hlabel : label' = label
        · subst hlabel
          simp [apply, counterWeight, Family.valueOr_update]
        · simp [apply, counterWeight, Family.valueOr_update, hlabel, Ne.symm hlabel]
      · simp [apply, counterWeight, hfamily, Ne.symm hfamily]
  | setGauge | setFloat | incDisconnect | createDisconnect => rfl

theorem counter_applyAll (updates : List (Update F64)) (metrics : Metrics F64)
    (family : CounterFamily) (label : PeerLabel) :
    ((applyAll updates metrics).counter family).valueOr 0 label =
      (metrics.counter family).valueOr 0 label +
        (updates.map (counterWeight family label)).sum := by
  induction updates generalizing metrics with
  | nil => rfl
  | cons update updates ih =>
      have hrest := ih (update.apply metrics)
      rw [counter_apply, Nat.add_assoc] at hrest
      exact hrest

/-- How much an update adds to one disconnect counter. -/
def disconnectWeight (family : DisconnectFamily) (label : DisconnectLabel) :
    Update F64 → ℕ
  | incDisconnect family' label' => if family' = family ∧ label' = label then 1 else 0
  | _ => 0

theorem disconnects_apply (update : Update F64) (metrics : Metrics F64)
    (family : DisconnectFamily) (label : DisconnectLabel) :
    ((update.apply metrics).disconnects family).valueOr 0 label =
      (metrics.disconnects family).valueOr 0 label +
        update.disconnectWeight family label := by
  cases update with
  | incDisconnect family' label' =>
      by_cases hfamily : family' = family
      · subst hfamily
        by_cases hlabel : label' = label
        · subst hlabel
          simp [apply, disconnectWeight, Family.valueOr_update]
        · simp [apply, disconnectWeight, Family.valueOr_update, hlabel, Ne.symm hlabel]
      · simp [apply, disconnectWeight, hfamily, Ne.symm hfamily]
  | createDisconnect family' label' =>
      by_cases hfamily : family' = family
      · subst hfamily
        simp [apply, disconnectWeight]
      · simp [apply, disconnectWeight, Ne.symm hfamily]
  | setGauge | setFloat | incCounter => rfl

end Update

end TcpMonitor.MetricFamilies
