import TcpMonitor.Core.SharedRegister
import TcpMonitor.Server.SessionPool

/-!
# The gauge of inbound sessions

`server_session_active` is one register per peer label, which every session
with that label sets to 1 when it starts and to 0 when it ends.  It tells
whether a session is live as long as sessions that share a label end one at a
time; a session that ends while another one with its label is live hides the
other.
-/

namespace TcpMonitor.SessionGauge

open TcpMonitor.TransitionSystem
open TcpMonitor.TaskPool
open TcpMonitor.SharedRegister
open TcpMonitor.Runtime
open TcpMonitor.MetricFamilies
open TcpMonitor.InboundSession
open TcpMonitor.Handshake
open TcpMonitor.SessionPool

section Gauge

variable {F64 : Type} {nodeName : String} {pool next : Sessions F64} {label : PeerLabel}

/-- The entry of `server_session_active`, if there is one. -/
def sessionActive (label : PeerLabel) (shared : ServerShared F64) : Option ℤ :=
  (shared.metrics.gauge .serverSessionActive).lookup label

/-- The value an update stores in that entry. -/
abbrev activeWrite (label : PeerLabel) : Update F64 → Option ℤ :=
  Update.gaugeWrite .serverSessionActive label

/-- The connection has set the gauge of `label` to 1 and not to 0 since. -/
def Live (pool : Sessions F64) (label : PeerLabel) (index : ℕ) : Prop :=
  written (activeWrite label) pool index = some 1

/-- The gauge is 1 exactly while a session is live, and 0 or absent
otherwise. -/
def GaugeTracksSessions (pool : Sessions F64) (label : PeerLabel) : Prop :=
  (sessionActive label pool.shared = some 1 ↔ ∃ index, Live pool label index) ∧
    ((¬ ∃ index, Live pool label index) →
      sessionActive label pool.shared = none ∨ sessionActive label pool.shared = some 0)

/-- A connection sets the gauge to 0 while another session with its label is
live. -/
def EndsBesideLiveSession (pool : Sessions F64)
    (move : Move (Reading F64 × Completion) (ServerEvent F64)) (label : PeerLabel) : Prop :=
  ∃ index, Writes (activeWrite label) pool move index 0 ∧
    ∃ other, other ≠ index ∧ Live pool label other

/-- The outbound side of the process writes no server gauge. -/
theorem activeWrite_of_isOutbound {update : Update F64} (hupdate : isOutbound update = true) :
    activeWrite label update = none := by
  cases update with
  | setGauge family label' value =>
      cases family with
      | serverSessionActive => simp [isOutbound] at hupdate
      | clientSessionActive | clientConsecutiveMissed => simp [Update.gaugeWrite]
  | setFloat | incCounter | incDisconnect | createDisconnect => rfl

theorem activeWrite_of_isBeat {update : Update F64} [WallClock F64] {label' : PeerLabel}
    (hbeat : IsBeat label' update) : activeWrite label update = none := by
  obtain ⟨startTs, now, hmem⟩ := hbeat
  simp only [heartbeatUpdates, List.mem_cons, List.not_mem_nil, or_false] at hmem
  rcases hmem with rfl | rfl | rfl <;> rfl

theorem filterMap_activeWrite_startUpdates (label label' : PeerLabel) (startTs : F64) :
    (startUpdates label' startTs).filterMap (activeWrite label) =
      if label' = label then [1] else [] := by
  have hcreate : (initDisconnectLabels F64 label'.node label'.peer).filterMap
      (activeWrite label) = [] := by
    simp [initDisconnectLabels, Update.gaugeWrite]
  rw [startUpdates, List.filterMap_append, hcreate]
  by_cases hlabel : label' = label <;> simp [Update.gaugeWrite, hlabel]

theorem filterMap_activeWrite_endUpdates (label label' : PeerLabel) (duration : F64)
    (reason : String) :
    (endUpdates label' duration reason).filterMap (activeWrite label) =
      if label' = label then [0] else [] := by
  by_cases hlabel : label' = label <;>
    simp [endUpdates, Update.gaugeWrite, hlabel]

/-- A connection sets the gauge to 1 and then to 0, and to nothing else. -/
theorem activeWrites_of_session [WallClock F64] {shared : ServerShared F64} {task : SessionTask F64}
    (htask : InProgram nodeName shared task) (label : PeerLabel) :
    (task.made ++ task.pending).filterMap (activeWrite label) <+: [1, 0] := by
  rcases htask.filterMap_session (activeWrite label) fun _ _ => activeWrite_of_isBeat
    with hnone | ⟨label', startTs, duration, reason, -, hinitial⟩
  · rw [hnone]
    exact List.nil_prefix
  · refine hinitial.trans ?_
    rw [filterMap_activeWrite_startUpdates, filterMap_activeWrite_endUpdates]
    split <;> simp

/-- A connection whose last write is 1 has written 1 and not 0; any other last
write is 0. -/
theorem lastWrite_cases [WallClock F64] {shared : ServerShared F64} {task : SessionTask F64}
    (htask : InProgram nodeName shared task) {stored : ℤ}
    (hlast : lastWrite (activeWrite label) task.made = some stored) :
    (stored = 1 ∧ .setGauge .serverSessionActive label 1 ∈ task.made ∧
      .setGauge .serverSessionActive label 0 ∉ task.made) ∨ stored = 0 := by
  have hinitial : task.made.filterMap (activeWrite label) <+: [1, 0] :=
    ((List.prefix_append _ task.pending).filterMap _).trans (activeWrites_of_session htask label)
  have hmem : ∀ value : ℤ, value ∈ task.made.filterMap (activeWrite label) ↔
      .setGauge .serverSessionActive label value ∈ task.made := by
    intro value
    rw [List.mem_filterMap]
    constructor
    · rintro ⟨update, hupdate, hwrite⟩
      rwa [← Update.eq_setGauge_of_gaugeWrite hwrite]
    · intro hset
      exact ⟨_, hset, by simp [Update.gaugeWrite]⟩
  rw [← hmem, ← hmem]
  rw [lastWrite] at hlast
  generalize task.made.filterMap (activeWrite label) = writes at hinitial hlast
  rcases writes with _ | ⟨first, _ | ⟨second, rest⟩⟩
  · cases hlast
  · obtain ⟨rfl, -⟩ := List.cons_prefix_cons.mp hinitial
    left
    simpa using hlast.symm
  · obtain ⟨-, hrest⟩ := List.cons_prefix_cons.mp hinitial
    obtain ⟨rfl, hnil⟩ := List.cons_prefix_cons.mp hrest
    obtain rfl := List.prefix_nil.mp hnil
    right
    simpa using hlast.symm

variable [UnicodeTables] [WallClock F64]

/-- The gauge is a register that only the connections write. -/
theorem activeRegister (nodeName : String) (label : PeerLabel) :
    Register (program nodeName) (sessionActive label : ServerShared F64 → Option ℤ)
      (activeWrite label) where
  apply update shared := Update.lookup_gauge_apply update shared.metrics _ label
  act hact := by
    obtain ⟨peers, -, rfl⟩ := act_eq_some hact
    rfl
  outside houtside := by
    obtain ⟨hmetrics | ⟨update, hupdate, hmetrics⟩, -⟩ := outside_eq_some houtside
    · rw [sessionActive, hmetrics]
      rfl
    · have hnone : update.gaugeWrite .serverSessionActive label = none :=
        activeWrite_of_isOutbound hupdate
      rw [sessionActive, hmetrics, Update.lookup_gauge_apply, hnone, Option.none_or]
      rfl

omit [UnicodeTables] [WallClock F64] in
theorem gaugeTracksSessions_iff_shows :
    GaugeTracksSessions pool label ↔
      Shows (sessionActive label) (activeWrite label) 1 0 pool :=
  ⟨fun htracks => ⟨htracks.1, htracks.2⟩, fun hshows => ⟨hshows.on_iff, hshows.off_otherwise⟩⟩

/-- In a step from a reachable state where the gauge is right, it stays right
unless the step ends a session beside another live one. -/
theorem gaugeTracksSessions_step {timeout : UInt64}
    {move : Move (Reading F64 × Completion) (ServerEvent F64)}
    (hreach : Reachable (step (program nodeName)) (start F64 timeout) pool)
    (htracks : GaugeTracksSessions pool label)
    (hstep : step (program nodeName) pool move = some next) :
    GaugeTracksSessions next label ↔ ¬ EndsBesideLiveSession pool move label := by
  rw [gaugeTracksSessions_iff_shows] at htracks ⊢
  refine (activeRegister nodeName label).shows_iff (by decide) ?_ htracks hstep
  rintro index stored ⟨-, control, update, rest, made, hget, hwrite⟩
  have hinitial :=
    activeWrites_of_session (inProgram_of_reachable hreach _ (List.mem_of_getElem? hget)) label
  have hstored : stored ∈ [1, 0] :=
    hinitial.subset (List.mem_filterMap.mpr ⟨update, by simp, hwrite⟩)
  simpa using hstored

/-- Along a run, the gauge of a peer tells exactly whether a session with it is
live, as long as no session ends while another one with its label is live, and
not beyond. -/
theorem session_gauge_tracks_sessions_iff (nodeName : String) (timeout : UInt64)
    (moves : List (Move (Reading F64 × Completion) (ServerEvent F64))) (peer : String) :
    (∀ pool ∈ visited (step (program nodeName)) (start F64 timeout) moves,
        GaugeTracksSessions pool ⟨nodeName, peer⟩) ↔
      ∀ move ∈ taken (step (program nodeName)) (start F64 timeout) moves,
        ¬ EndsBesideLiveSession move.1 move.2 ⟨nodeName, peer⟩ := by
  refine forall_visited_iff
    (fun pool => GaugeTracksSessions pool ⟨nodeName, peer⟩)
    (fun pool move => ¬ EndsBesideLiveSession pool move ⟨nodeName, peer⟩) ?_ ?_ moves
  · have hidle : ¬ ∃ index, Live (start F64 timeout) ⟨nodeName, peer⟩ index := by
      rintro ⟨index, hlive⟩
      simp [Live, written, start] at hlive
    have habsent : sessionActive ⟨nodeName, peer⟩ (start F64 timeout).shared = none := rfl
    exact ⟨iff_of_false (by simp [habsent]) hidle, fun _ => Or.inl habsent⟩
  · intro pool move next hreach htracks hstep
    exact gaugeTracksSessions_step hreach htracks hstep

end Gauge

/-! ## A client that reconnects before its old session ends -/

section Reconnect

local instance : UnicodeTables := asciiTables

/-- The second session with `cli` is live, but the gauge says 0. -/
theorem session_gauge_hides_live_session :
    ¬ ∀ pool, Reachable (step (program "srv")) (start WholeSeconds 15) pool →
      GaugeTracksSessions pool ⟨"srv", "cli"⟩ := by
  intro htracks
  obtain ⟨pool, hrun, hview⟩ := Option.map_eq_some_iff.mp (show
    (run (step (program "srv")) (start WholeSeconds 15)
      (connect 0 ++ connect 1 ++ disconnect 0)).map (fun pool =>
        (sessionActive ⟨"srv", "cli"⟩ pool.shared,
          written (activeWrite ⟨"srv", "cli"⟩) pool 1)) = some (some 0, some 1) by decide)
  obtain ⟨hgauge, hlive⟩ := Prod.mk.inj hview
  have hone := (htracks pool (Reachable.of_run hrun)).1.mpr ⟨1, hlive⟩
  rw [hgauge] at hone
  exact absurd hone (by decide)

end Reconnect

end TcpMonitor.SessionGauge
