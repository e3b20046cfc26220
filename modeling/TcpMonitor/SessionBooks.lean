import Mathlib.Algebra.BigOperators.Group.List.Basic
import TcpMonitor.MetricFamilies

/-!
# The books of sessions

Both sides of the process keep the same books: a gauge that is 1 while a
session with a peer is live, the number of sessions that have started, and the
number of those that have ended, by reason.  What an update records about the
sessions of one label is an entry, and each of the two counters is a sum over
entries.
-/

namespace TcpMonitor.SessionBooks

open TcpMonitor.LabelFamily
open TcpMonitor.MetricFamilies

/-- The families in which one side keeps its books, and the reasons with which
a session that has started is counted as ended. -/
structure Books where
  active : GaugeFamily
  total : CounterFamily
  disconnects : DisconnectFamily
  reasons : List String
  reasons_nodup : reasons.Nodup

/-- The books of inbound sessions. -/
def serverBooks : Books where
  active := .serverSessionActive
  total := .serverSessionsTotal
  disconnects := .serverDisconnects
  reasons := serverDisconnectReasons
  reasons_nodup := by decide

/-- The books of outbound sessions.  A failed connect is not the end of a
session. -/
def clientBooks : Books where
  active := .clientSessionActive
  total := .clientSessionsTotal
  disconnects := .clientDisconnects
  reasons := ["remote_close", "connection_reset", "timeout", "local_error"]
  reasons_nodup := by decide

/-- What the books record about a session. -/
inductive Entry where
  | active (value : ℤ)
  | counted
  | disconnected (reason : String)
  deriving DecidableEq

/-- What an entry stores in the gauge. -/
def Entry.stored : Entry → Option ℤ
  | .active value => some value
  | .counted | .disconnected _ => none

/-- What an entry adds to the number of sessions. -/
def Entry.total : Entry → ℕ
  | .counted => 1
  | .active _ | .disconnected _ => 0

/-- What an entry adds to the sum of the disconnects. -/
def Entry.disconnects : Entry → ℕ
  | .disconnected _ => 1
  | .active _ | .counted => 0

variable {F64 : Type}

/-- What an update records about the sessions of a label. -/
def entry (books : Books) (label : PeerLabel) : Update F64 → Option Entry
  | .setGauge family label' value =>
      if family = books.active ∧ label' = label then some (.active value) else none
  | .incCounter family label' =>
      if family = books.total ∧ label' = label then some .counted else none
  | .incDisconnect family label' =>
      if family = books.disconnects ∧ label' = ⟨label.node, label.peer, label'.reason⟩ ∧
        label'.reason ∈ books.reasons then some (.disconnected label'.reason)
      else none
  | .setFloat _ _ _ | .createDisconnect _ _ => none

/-- How many sessions of a label have started. -/
def sessionsTotal (books : Books) (label : PeerLabel) (metrics : Metrics F64) : ℕ :=
  (metrics.counter books.total).valueOr 0 label

/-- The sum of the disconnects of a label over the reasons of ended sessions. -/
def disconnectsTotal (books : Books) (label : PeerLabel) (metrics : Metrics F64) : ℕ :=
  (books.reasons.map fun reason =>
    (metrics.disconnects books.disconnects).valueOr 0 ⟨label.node, label.peer, reason⟩).sum

/-- How much an update adds to the number of sessions. -/
def totalWeight (books : Books) (label : PeerLabel) : Update F64 → ℕ :=
  Update.counterWeight books.total label

/-- How much an update adds to the sum of the disconnects. -/
def disconnectsWeight (books : Books) (label : PeerLabel) (update : Update F64) : ℕ :=
  (books.reasons.map fun reason =>
    update.disconnectWeight books.disconnects ⟨label.node, label.peer, reason⟩).sum

variable {books : Books} {label : PeerLabel}

theorem sessionsTotal_apply (update : Update F64) (metrics : Metrics F64) :
    sessionsTotal books label (update.apply metrics) =
      sessionsTotal books label metrics + totalWeight books label update :=
  Update.counter_apply update metrics _ label

theorem disconnectsTotal_apply (update : Update F64) (metrics : Metrics F64) :
    disconnectsTotal books label (update.apply metrics) =
      disconnectsTotal books label metrics + disconnectsWeight books label update := by
  simp only [disconnectsTotal, Update.disconnects_apply, List.sum_map_add, disconnectsWeight]

theorem gaugeWrite_eq (update : Update F64) :
    update.gaugeWrite books.active label = (entry books label update).bind Entry.stored := by
  cases update with
  | setGauge family label' value =>
      simp only [Update.gaugeWrite, entry]
      split <;> rfl
  | incCounter | incDisconnect =>
      simp only [Update.gaugeWrite, entry]
      split <;> rfl
  | setFloat | createDisconnect => rfl

theorem totalWeight_eq (update : Update F64) :
    totalWeight books label update = (entry books label update).elim 0 Entry.total := by
  cases update with
  | incCounter family label' =>
      simp only [totalWeight, Update.counterWeight, entry]
      split <;> rfl
  | setGauge | incDisconnect =>
      simp only [totalWeight, Update.counterWeight, entry]
      split <;> rfl
  | setFloat | createDisconnect => rfl

theorem disconnectsWeight_eq (update : Update F64) :
    disconnectsWeight books label update =
      (entry books label update).elim 0 Entry.disconnects := by
  cases update with
  | incDisconnect family label' =>
      obtain ⟨node, peer, reason⟩ := label'
      have hother : ∀ listed ≠ reason, listed ∈ books.reasons →
          (Update.incDisconnect family ⟨node, peer, reason⟩ : Update F64).disconnectWeight
            books.disconnects ⟨label.node, label.peer, listed⟩ = 0 := by
        intro listed hne _
        simp [Update.disconnectWeight, hne.symm]
      rw [disconnectsWeight, List.sum_map_eq_nsmul_single reason _ hother,
        List.Nodup.count books.reasons_nodup]
      by_cases hlisted : reason ∈ books.reasons
      · simp only [Update.disconnectWeight, entry, hlisted, if_true, one_nsmul, and_true]
        split <;> rfl
      · simp [entry, hlisted]
  | incCounter | setGauge =>
      simp only [disconnectsWeight, Update.disconnectWeight, entry]
      split <;> simp [Entry.disconnects]
  | setFloat | createDisconnect => simp [disconnectsWeight, Update.disconnectWeight, entry]

/-- Only the entries of a history count. -/
theorem sum_map_weight {weight : Update F64 → ℕ} {share : Entry → ℕ}
    (hweight : ∀ update, weight update = (entry books label update).elim 0 share)
    (updates : List (Update F64)) :
    (updates.map weight).sum = ((updates.filterMap (entry books label)).map share).sum := by
  induction updates with
  | nil => rfl
  | cons update updates ih =>
      rw [List.map_cons, List.sum_cons, ih, hweight]
      cases hentry : entry books label update with
      | none => simp [hentry]
      | some found => simp [hentry]

/-- What a history has stored in the gauge is read off its entries. -/
theorem filterMap_gaugeWrite (updates : List (Update F64)) :
    updates.filterMap (Update.gaugeWrite books.active label) =
      (updates.filterMap (entry books label)).filterMap Entry.stored := by
  rw [List.filterMap_filterMap]
  exact List.filterMap_congr fun update _ => gaugeWrite_eq update

end TcpMonitor.SessionBooks
