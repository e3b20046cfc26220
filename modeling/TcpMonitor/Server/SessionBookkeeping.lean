import TcpMonitor.Core.SharedRegister
import TcpMonitor.SessionBooks
import TcpMonitor.Server.SessionPool
import TcpMonitor.Server.SessionGauge

/-!
# The counters of inbound sessions

Every session is counted in `server_sessions_total` when it starts and in one
of the four `server_disconnects` counters when it ends.  What a connection has
contributed to the two is read off its history, which is a prefix of the start
and the end of one session; the conservation law adds these up over all
connections.
-/

namespace TcpMonitor.SessionBookkeeping

open TcpMonitor.TransitionSystem
open TcpMonitor.TaskPool
open TcpMonitor.SharedRegister
open TcpMonitor.Runtime
open TcpMonitor.LabelFamily
open TcpMonitor.MetricFamilies
open TcpMonitor.SessionBooks (Entry entry serverBooks totalWeight disconnectsWeight)
open TcpMonitor.InboundSession
open TcpMonitor.Handshake
open TcpMonitor.SessionPool
open TcpMonitor.SessionGauge

section Counters

variable {F64 : Type}

/-- `server_sessions_total` of a label. -/
def sessionsTotal (label : PeerLabel) (shared : ServerShared F64) : ℕ :=
  SessionBooks.sessionsTotal serverBooks label shared.metrics

/-- The sum of `server_disconnects` of a label over the listed reasons. -/
def disconnectsTotal (label : PeerLabel) (shared : ServerShared F64) : ℕ :=
  SessionBooks.disconnectsTotal serverBooks label shared.metrics

/-- The session has been counted in the total and not yet in the disconnects. -/
def InProgress (label : PeerLabel) (task : SessionTask F64) : Bool :=
  let entries := task.made.filterMap (entry serverBooks label)
  entries.any (· = .counted) && entries.all (·.disconnects = 0)

theorem entry_of_isOutbound {update : Update F64} (hupdate : isOutbound update = true)
    (label : PeerLabel) : entry serverBooks label update = none := by
  cases update with
  | setGauge family label' | incCounter family label' | incDisconnect family label' =>
      cases family <;> simp [isOutbound, entry, serverBooks] at hupdate ⊢
  | setFloat | createDisconnect => rfl

theorem filterMap_entry_startUpdates (label label' : PeerLabel) (startTs : F64) :
    (startUpdates label' startTs).filterMap (entry serverBooks label) =
      if label' = label then [.active 1, .counted] else [] := by
  have hcreate : (initDisconnectLabels F64 label'.node label'.peer).filterMap
      (entry serverBooks label) = [] := by
    simp [initDisconnectLabels, entry, Function.comp_def]
  rw [startUpdates, List.filterMap_append, hcreate]
  by_cases hlabel : label' = label <;>
    simp [List.filterMap_cons, entry, serverBooks, hlabel]

theorem filterMap_entry_endUpdates (label label' : PeerLabel) (duration : F64)
    {reason : String} (hreason : reason ∈ serverDisconnectReasons) :
    (endUpdates label' duration reason).filterMap (entry serverBooks label) =
      if label' = label then [.active 0, .disconnected reason] else [] := by
  obtain ⟨node, peer⟩ := label
  obtain ⟨node', peer'⟩ := label'
  by_cases hlabel : node' = node ∧ peer' = peer <;>
    simp [endUpdates, List.filterMap_cons, entry, serverBooks, hlabel, hreason]

/-! ## What one connection contributes -/

variable [WallClock F64] {nodeName : String}

theorem entry_of_isBeat {label label' : PeerLabel} {update : Update F64}
    (hbeat : IsBeat label' update) : entry serverBooks label update = none := by
  obtain ⟨startTs, now, hmem⟩ := hbeat
  simp only [heartbeatUpdates, List.mem_cons, List.not_mem_nil, or_false] at hmem
  rcases hmem with rfl | rfl | rfl <;> simp [entry, serverBooks]

/-- The entries of a connection are a prefix of those of one session. -/
theorem entries_of_session {shared : ServerShared F64} {task : SessionTask F64}
    (htask : InProgram nodeName shared task) (label : PeerLabel) :
    ∃ reason, task.made.filterMap (entry serverBooks label) <+:
      [.active 1, .counted, .active 0, .disconnected reason] := by
  have hfront : task.made.filterMap (entry serverBooks label) <+:
      (task.made ++ task.pending).filterMap (entry serverBooks label) :=
    (List.prefix_append _ _).filterMap _
  rcases htask.filterMap_session (entry serverBooks label) fun _ _ => entry_of_isBeat with
    hnone | ⟨label', startTs, duration, reason, hreason, hinitial⟩
  · exact ⟨"timeout", by simp [(List.append_eq_nil_iff.mp hnone).1]⟩
  · refine ⟨reason, hfront.trans (hinitial.trans ?_)⟩
    rw [filterMap_entry_startUpdates, filterMap_entry_endUpdates _ _ _ hreason]
    split <;> simp

/-- A connection has added as much to the total as to the disconnects, and one
more while its session is in progress. -/
theorem share_eq {shared : ServerShared F64} {task : SessionTask F64}
    (htask : InProgram nodeName shared task) (label : PeerLabel) :
    (task.made.map (totalWeight serverBooks label)).sum =
      (if InProgress label task then 1 else 0) +
        (task.made.map (disconnectsWeight serverBooks label)).sum := by
  rw [SessionBooks.sum_map_weight SessionBooks.totalWeight_eq,
    SessionBooks.sum_map_weight SessionBooks.disconnectsWeight_eq, InProgress]
  obtain ⟨reason, hinitial⟩ := entries_of_session htask label
  generalize task.made.filterMap (entry serverBooks label) = entries at hinitial
  rw [← List.mem_inits] at hinitial
  simp only [List.inits, List.map_cons, List.map_nil, List.mem_cons, List.not_mem_nil,
    or_false] at hinitial
  rcases hinitial with rfl | rfl | rfl | rfl | rfl <;> rfl

/-! ## The two counters of the pool -/

variable [UnicodeTables]

theorem sessionsTotal_counter (nodeName : String) (label : PeerLabel) :
    Counter (program nodeName) (sessionsTotal label : ServerShared F64 → ℕ)
      (totalWeight serverBooks label) where
  apply update shared := SessionBooks.sessionsTotal_apply update shared.metrics
  act hact := by
    obtain ⟨peers, -, rfl⟩ := act_eq_some hact
    rfl
  outside houtside := by
    obtain ⟨hmetrics | ⟨update, hupdate, hmetrics⟩, -⟩ := outside_eq_some houtside
    · rw [sessionsTotal, hmetrics]
      rfl
    · rw [sessionsTotal, hmetrics, SessionBooks.sessionsTotal_apply,
        SessionBooks.totalWeight_eq, entry_of_isOutbound hupdate]
      rfl

theorem disconnectsTotal_counter (nodeName : String) (label : PeerLabel) :
    Counter (program nodeName) (disconnectsTotal label : ServerShared F64 → ℕ)
      (disconnectsWeight serverBooks label) where
  apply update shared := SessionBooks.disconnectsTotal_apply update shared.metrics
  act hact := by
    obtain ⟨peers, -, rfl⟩ := act_eq_some hact
    rfl
  outside houtside := by
    obtain ⟨hmetrics | ⟨update, hupdate, hmetrics⟩, -⟩ := outside_eq_some houtside
    · rw [disconnectsTotal, hmetrics]
      rfl
    · rw [disconnectsTotal, hmetrics, SessionBooks.disconnectsTotal_apply,
        SessionBooks.disconnectsWeight_eq, entry_of_isOutbound hupdate]
      rfl

variable {timeout : UInt64} {pool : Sessions F64}

/-- The total of a label is the number of its sessions in progress plus its
disconnects. -/
theorem sessionsTotal_eq (hreach : Reachable (step (program nodeName)) (start F64 timeout) pool)
    (label : PeerLabel) :
    sessionsTotal label pool.shared =
      pool.tasks.countP (InProgress label) + disconnectsTotal label pool.shared := by
  have htasks := inProgram_of_reachable hreach
  have htotal := (sessionsTotal_counter nodeName label).reachable hreach
  have hdisconnects := (disconnectsTotal_counter nodeName label).reachable hreach
  have hshares : madeTotal (totalWeight serverBooks label) pool.tasks =
      pool.tasks.countP (InProgress label) +
        madeTotal (disconnectsWeight serverBooks label) pool.tasks :=
    sum_map_eq_countP_add fun task hmem => share_eq (htasks task hmem) label
  have hzero : sessionsTotal label (start F64 timeout).shared = 0 ∧
      disconnectsTotal label (start F64 timeout).shared = 0 := by
    constructor <;> rfl
  rw [htotal, hdisconnects]
  simp only [start] at hzero
  omega

/-! ## The labels of the disconnect counters -/

omit [UnicodeTables] in
/-- A disconnect is about to be counted under a label that the same connection
created at its start. -/
theorem createDisconnect_mem_made {shared : ServerShared F64} {connection : Connection F64}
    {family : DisconnectFamily} {label : DisconnectLabel} {rest made : List (Update F64)}
    (htask : InProgram nodeName shared
      ⟨connection, .incDisconnect family label :: rest, made⟩) :
    .createDisconnect family label ∈ made := by
  unfold InProgram at htask
  split at htask
  · next label' startTs drive hpoint =>
      obtain ⟨-, beats, hall, hmade⟩ := htask
      have hmem : Update.incDisconnect family label ∈ startUpdates label' startTs ++ beats :=
        hmade ▸ by simp
      rcases List.mem_append.mp hmem with hstart | hbeat
      · simp [startUpdates, initDisconnectLabels] at hstart
      · obtain ⟨startTs', now, hupdates⟩ := hall _ hbeat
        simp [heartbeatUpdates] at hupdates
  · next reason hpoint =>
      obtain ⟨hreason, label', startTs, duration, beats, final, -, -, rfl, hfinal⟩ := htask
      have hmem : Update.incDisconnect family label ∈ endUpdates label' duration reason :=
        hfinal ▸ by simp
      obtain ⟨rfl, rfl⟩ : family = .serverDisconnects ∧
          label = ⟨label'.node, label'.peer, reason⟩ := by
        simpa [endUpdates] using hmem
      simp [startUpdates, initDisconnectLabels, hreason]
  · simp at htask

/-- The labels a connection has created stay in the families. -/
theorem created_invariant (nodeName : String) :
    TaskInvariant (program nodeName) fun (shared : ServerShared F64) task =>
      ∀ family label, .createDisconnect family label ∈ task.made →
        label ∈ shared.metrics.disconnects family where
  stable hstep task htask family label hmade := by
    have hold := htask family label hmade
    rcases metrics_of_step hstep with ⟨peers, hmetrics⟩ | ⟨update, hmetrics, -⟩
    · rw [hmetrics]
      exact hold
    · rw [hmetrics]
      exact Update.mem_disconnects_apply.mpr (Or.inr (Or.inr hold))
  spawn _ _ _ family label hmade := by simp [Task.start] at hmade
  flush htask family label hmade := by
    rcases List.mem_append.mp hmade with hold | hnew
    · exact Update.mem_disconnects_apply.mpr (Or.inr (Or.inr (htask family label hold)))
    · exact Update.mem_disconnects_apply.mpr
        (Or.inr (Or.inl (List.mem_singleton.mp hnew).symm))
  act htask hact family label hmade := by
    obtain ⟨peers, -, rfl⟩ := act_eq_some hact
    exact htask family label hmade

/-! ## Connections without a session -/

/-- The step that closes a connection without a session leaves everything that
connections share as it was. -/
theorem shared_eq_of_rejected {index : ℕ} {input : Reading F64 × Completion}
    {next : Sessions F64} {task : SessionTask F64}
    (hstep : step (program nodeName) pool (.act index input) = some next)
    (hget : next.tasks[index]? = some task) (hrejected : task.control.point.Rejected) :
    next.shared = pool.shared := by
  obtain ⟨connection, made, shared, connection', updates, hold, hact, rfl⟩ :=
    step_act_eq_some.mp hstep
  obtain ⟨hindex, -⟩ := List.getElem?_eq_some_iff.mp hold
  obtain rfl : task = ⟨connection', updates, made⟩ := by
    simpa [hindex, eq_comm] using hget
  obtain ⟨peers, hhandle, rfl⟩ := act_eq_some hact
  rcases handleConnection_cases hhandle with
    ⟨-, -, rfl, -⟩ | ⟨peerName, -, -, -, hpoint, -⟩ | ⟨_, _, _, _, -, hpoint, -, -⟩ |
      ⟨_, _, _, _, -, hpoint, -, -, -⟩
  · rfl
  · simp [hpoint, Point.Rejected] at hrejected
  · simp [hpoint, Point.Rejected] at hrejected
  · simp [hpoint, Point.Rejected] at hrejected

/-- Once every session has set the gauge back, it is 0 or absent. -/
theorem sessionActive_of_all_ended
    (hreach : Reachable (step (program nodeName)) (start F64 timeout) pool)
    {label : PeerLabel}
    (hended : ∀ task ∈ pool.tasks, .setGauge .serverSessionActive label 1 ∈ task.made →
      .setGauge .serverSessionActive label 0 ∈ task.made) :
    sessionActive label pool.shared = none ∨ sessionActive label pool.shared = some 0 := by
  cases hactive : sessionActive label pool.shared with
  | none => exact Or.inl rfl
  | some stored =>
      right
      obtain ⟨index, hwritten⟩ :=
        (activeRegister nodeName label).exists_written rfl hreach hactive
      obtain ⟨task, hget, hlast⟩ := Option.bind_eq_some_iff.mp hwritten
      have hmem := List.mem_of_getElem? hget
      rcases lastWrite_cases (inProgram_of_reachable hreach task hmem) hlast with
        ⟨rfl, hset, hunset⟩ | rfl
      · exact absurd (hended task hmem hset) hunset
      · rfl

/-- The bookkeeping of inbound sessions in every reachable state: the total is
the sessions in progress plus the four disconnect counters; a disconnect is
only counted under a label that exists; a connection without a session changes
nothing; and a gauge that every session has set back is 0 or absent. -/
theorem session_bookkeeping_conserved
    (hreach : Reachable (step (program nodeName)) (start F64 timeout) pool) (peer : String) :
    sessionsTotal ⟨nodeName, peer⟩ pool.shared =
        pool.tasks.countP (InProgress ⟨nodeName, peer⟩) +
          disconnectsTotal ⟨nodeName, peer⟩ pool.shared ∧
      (∀ task ∈ pool.tasks, ∀ family label rest,
        task.pending = .incDisconnect family label :: rest →
          .createDisconnect family label ∈ task.made ∧
            label ∈ pool.shared.metrics.disconnects family) ∧
      (∀ task ∈ pool.tasks, task.control.point.BeforeSession ∨ task.control.point.Rejected →
        task.made = [] ∧ task.pending = []) ∧
      (∀ index input next task, step (program nodeName) pool (.act index input) = some next →
        next.tasks[index]? = some task → task.control.point.Rejected →
          next.shared = pool.shared) ∧
      ((∀ task ∈ pool.tasks,
          .setGauge .serverSessionActive ⟨nodeName, peer⟩ 1 ∈ task.made →
            .setGauge .serverSessionActive ⟨nodeName, peer⟩ 0 ∈ task.made) →
        sessionActive ⟨nodeName, peer⟩ pool.shared = none ∨
          sessionActive ⟨nodeName, peer⟩ pool.shared = some 0) := by
  have htasks := inProgram_of_reachable hreach
  refine ⟨sessionsTotal_eq hreach ⟨nodeName, peer⟩, ?_, ?_, ?_, ?_⟩
  · rintro ⟨connection, pending, made⟩ hmem family label rest rfl
    have hcreated := createDisconnect_mem_made (htasks _ hmem)
    exact ⟨hcreated, (created_invariant nodeName).reachable hreach (by simp [start]) _ hmem
      family label hcreated⟩
  · rintro ⟨⟨timeout', point⟩, pending, made⟩ hmem hpoint
    exact (inProgram_of_point hpoint).mp (htasks _ hmem)
  · intro index input next task hstep hget hrejected
    exact shared_eq_of_rejected hstep hget hrejected
  · exact sessionActive_of_all_ended hreach

end Counters

section Witness

local instance : UnicodeTables := asciiTables

/-- Two sessions of one name, the first of which has ended. -/
theorem session_bookkeeping_conserved_reconnect :
    ∃ pool : Sessions WholeSeconds,
      sessionsTotal ⟨"srv", "cli"⟩ pool.shared = 2 ∧
        pool.tasks.countP (InProgress ⟨"srv", "cli"⟩) = 1 ∧
        sessionsTotal ⟨"srv", "cli"⟩ pool.shared =
          pool.tasks.countP (InProgress ⟨"srv", "cli"⟩) +
            disconnectsTotal ⟨"srv", "cli"⟩ pool.shared := by
  obtain ⟨pool, hrun, hview⟩ := Option.map_eq_some_iff.mp (show
    (run (step (program "srv")) (start WholeSeconds 15)
      (connect 0 ++ connect 1 ++ disconnect 0 ++ [.flush 0, .flush 0])).map (fun pool =>
        (sessionsTotal ⟨"srv", "cli"⟩ pool.shared,
          pool.tasks.countP (InProgress ⟨"srv", "cli"⟩))) = some (2, 1) by decide)
  obtain ⟨htotal, hprogress⟩ := Prod.mk.inj hview
  exact ⟨pool, htotal, hprogress,
    (session_bookkeeping_conserved (Reachable.of_run hrun) "cli").1⟩

end Witness

end TcpMonitor.SessionBookkeeping
