import TcpMonitor.Client.AttemptPacing
import TcpMonitor.Process.ConnectionSlots

/-!
# A peer is not hammered

The whole process on its clock, whatever the order and the instants of its
steps are.  Between any two instants of a run the attempts that the metrics show
for a peer grow by at most what the reconnect delay has room for, for each task
of the peer that was not done at the first of them, and a reload is the only way
to get another task.
-/

namespace TcpMonitor.ReconnectPacing

open TcpMonitor.TransitionSystem
open TcpMonitor.TaskPool
open TcpMonitor.ClockedSystem
open TcpMonitor.Runtime
open TcpMonitor.Configuration
open TcpMonitor.MetricFamilies
open TcpMonitor.SessionBooks
open TcpMonitor.ReconnectLoop
open TcpMonitor.PeerManager
open TcpMonitor.PeerPool hiding start program
open TcpMonitor.Reconciliation (done_iff)
open TcpMonitor.SessionConservation
open TcpMonitor.Handshake
open TcpMonitor.WholeProcess
open TcpMonitor.WholeProcess.Process
open TcpMonitor.SettingsInForce
open TcpMonitor.TwoSides
open TcpMonitor.ConnectionSlots
open TcpMonitor.AttemptAccounting
open TcpMonitor.AttemptPacing

/-! ## What a task can add -/

section Window

variable {F64 : Type}

/-- What is known of a task: it has made its updates under its own label, its
last step recorded at most one attempt, and it has kept the pace since an
instant at which it had `base` attempts. -/
structure KeepsPace (since now : Instant) (base : ℕ) (task : PeerLoopTask F64) : Prop where
  pending : task.pending.countP recordsAttempt ≤ 1
  paced : ∃ count, attemptsOf task = base + count ∧
    Paced (fromSecs task.control.clientCfg.reconnectDelay) since now count task.control.point

/-- The attempts that a position of the list of tasks starts with. -/
def baseOf (tasks : List (PeerLoopTask F64)) (i : ℕ) : ℕ := (tasks[i]?.map attemptsOf).getD 0

variable {since now later : Instant} {base : ℕ} {task : PeerLoopTask F64}

theorem KeepsPace.wait (htask : KeepsPace since now base task) (hlater : now ≤ later) :
    KeepsPace since later base task := by
  obtain ⟨count, hcount, hpaced⟩ := htask.paced
  exact ⟨htask.pending, count, hcount, hpaced.wait hlater⟩

theorem KeepsPace.flush {control : PeerLoop F64} {update : Update F64}
    {rest made : List (Update F64)}
    (htask : KeepsPace since now base ⟨control, update :: rest, made⟩) :
    KeepsPace since now base ⟨control, rest, made ++ [update]⟩ := by
  obtain ⟨hpending, count, hcount, hpaced⟩ := htask
  refine ⟨?_, count, ?_, hpaced⟩
  · rw [List.countP_cons] at hpending
    exact Nat.le_trans (Nat.le_add_right _ _) hpending
  · rw [← hcount, attemptsOf, attemptsOf, List.append_assoc]
    rfl

variable [WallClock F64]

theorem KeepsPace.act {loop loop' : PeerLoop F64} {clock : Reading F64} {completion : Completion}
    {updates made : List (Update F64)} (htask : KeepsPace since clock.now base ⟨loop, [], made⟩)
    (hrun : runPeerLoop loop clock completion = some (loop', updates)) :
    KeepsPace since clock.now base ⟨loop', updates, made⟩ := by
  have hstep := attemptStep_of_runPeerLoop hrun
  have hkept : loop'.clientCfg = loop.clientCfg := (loopStep_of_runPeerLoop hrun).clientCfg_eq
  obtain ⟨-, count, hcount, hpaced⟩ := htask
  refine ⟨hstep.le_one, count + updates.countP recordsAttempt, ?_, ?_⟩
  · rw [attemptsOf, List.append_nil] at hcount
    rw [attemptsOf, List.countP_append, hcount, Nat.add_assoc]
  · rw [hkept]
    exact hpaced.step hstep

omit [WallClock F64] in
/-- From any instant on a task starts to count anew. -/
theorem KeepsPace.restart (htask : KeepsPace since now base task) :
    KeepsPace now now (attemptsOf task) task := by
  obtain ⟨count, -, hpaced⟩ := htask.paced
  refine ⟨htask.pending, 0, rfl, paced_now fun deadline hpoint => ?_⟩
  rw [hpoint] at hpaced
  exact hpaced.1

omit [WallClock F64] in
theorem keepsPace_spawned {peer : PeerConfig} {clientCfg : ClientConfig} {nodeName : String}
    (hsince : since ≤ now) :
    KeepsPace since now 0 (Task.start (spawnPeerLoop peer clientCfg nodeName) :
      PeerLoopTask F64) := by
  refine ⟨Nat.zero_le _, 0, rfl, ?_⟩
  exact Nat.le_trans (Nat.le_of_eq (by rw [Nat.zero_mul, Nat.add_zero])) hsince

end Window

/-! ## The tasks of the process -/

section Tasks

variable {F64 : Type} {olds : List (PeerLoopTask F64)} {since now later : Instant}
variable {state next : Process F64}

/-- The tasks since an instant at which they were `olds`: all of them keep the
pace, and those that were done have stayed as they were. -/
structure PacedSince (olds : List (PeerLoopTask F64)) (since : Instant) (state : Process F64)
    (now : Instant) : Prop where
  since_le : since ≤ now
  paced : ∀ (i : ℕ) task, state.peerTasks[i]? = some task →
    KeepsPace since now (baseOf olds i) task
  kept : ∀ (i : ℕ) old, olds[i]? = some old → ∃ task, state.peerTasks[i]? = some task ∧
    task.control.label = old.control.label ∧ (old.done = true → task = old)

theorem PacedSince.wait (hsince : PacedSince olds since state now) (hlater : now ≤ later) :
    PacedSince olds since state later where
  since_le := Nat.le_trans hsince.since_le hlater
  paced i task hget := (hsince.paced i task hget).wait hlater
  kept := hsince.kept

theorem PacedSince.restart (hsince : PacedSince olds since state now) :
    PacedSince state.peerTasks now state now where
  since_le := Nat.le_refl now
  paced i task hget := by
    rw [baseOf, hget]
    exact (hsince.paced i task hget).restart
  kept i old hget := ⟨old, hget, rfl, fun _ => rfl⟩

/-- A position past the end of the list of tasks starts from nothing. -/
theorem PacedSince.baseOf_eq (hsince : PacedSince olds since state now) {i : ℕ}
    (hindex : state.peerTasks.length ≤ i) : baseOf olds i = 0 := by
  rw [baseOf]
  cases hold : olds[i]? with
  | none => rfl
  | some old =>
      obtain ⟨task, hget, -⟩ := hsince.kept i old hold
      exact absurd (List.getElem?_eq_some_iff.mp hget).1 (Nat.not_lt.mpr hindex)

theorem pacedSince_start (config : Config) : PacedSince [] now (start F64 config) now :=
  ⟨Nat.le_refl now, nofun, nofun⟩

variable [WallClock F64]

/-- A task that is done takes no step. -/
theorem done_kept {pool pool' : Peers F64} {move : ClientMove F64} {i : ℕ}
    {task : PeerLoopTask F64}
    (hstep : TaskPool.step (PeerPool.program F64) pool move = some pool')
    (hget : pool.tasks[i]? = some task) (hdone : task.done = true) :
    pool'.tasks[i]? = some task := by
  obtain ⟨hreturned, hpending⟩ := done_iff.mp hdone
  rcases task_step_cases hstep hget with ⟨update, rest, -, hflush, -⟩ |
    ⟨input, shared, control, updates, -, -, hact, -⟩ | ⟨-, -, hsame⟩
  · rw [hpending] at hflush
    cases hflush
  · exact absurd hreturned (PeerPool.act_eq_some hact).2.1.not_returned
  · exact hsame

theorem PacedSince.outbound (hsince : PacedSince olds since state now) {move : ClientMove F64}
    {pool : Peers F64}
    (hstep : TaskPool.step (PeerPool.program F64) state.outbound move = some pool)
    (hreads : ∀ instant, readingOf (.outbound move : ProcessEvent F64) = some instant →
      instant = now) :
    PacedSince olds since (state.setOutbound pool) now where
  since_le := hsince.since_le
  paced := by
    refine forall_task_step (P := fun i task => KeepsPace since now (baseOf olds i) task)
      (fun htask => htask.flush) (fun hmove hact htask => ?_)
      (fun houtside loop hmem i hindex => ?_) hstep hsince.paced
    · obtain rfl := hreads _ (by rw [hmove]; rfl)
      exact htask.act (act_runPeerLoop hact)
    · obtain ⟨-, name, peer, settings, peers, -, -, -, rfl⟩ := mem_spawned houtside hmem
      rw [hsince.baseOf_eq hindex]
      exact keepsPace_spawned hsince.since_le
  kept i old hget := by
    obtain ⟨task, htask, hlabel, hsame⟩ := hsince.kept i old hget
    obtain ⟨task', htask', hlabel'⟩ := exists_task_step PeerLoop.label
      (fun hact => (PeerPool.act_eq_some hact).2.1.arguments_eq.2) hstep htask
    refine ⟨task', htask', hlabel'.trans hlabel, fun hdone => ?_⟩
    obtain rfl := hsame hdone
    exact Option.some.inj (htask'.symm.trans (done_kept hstep htask hdone))

variable [UnicodeTables]

theorem PacedSince.step {event : ProcessEvent F64} (hsince : PacedSince olds since state now)
    (hstep : ProcessStep state event next)
    (hreads : ∀ instant, readingOf event = some instant → instant = now) :
    PacedSince olds since next now := by
  cases hstep with
  | outbound hown hpool => exact hsince.outbound hpool hreads
  | inbound | acceptProbe | probe => exact ⟨hsince.since_le, hsince.paced, hsince.kept⟩
  | around hframe =>
      exact ⟨hsince.since_le, hframe.peerTasks ▸ hsince.paced, hframe.peerTasks ▸ hsince.kept⟩

variable [SocketAddrParser] [TomlParser] {path : String} {waits : Process F64 → Instant → Bool}

theorem pacedSince_of_reachable {first last : Clocked (Process F64)}
    (hfirst : PacedSince olds since first.state first.now)
    (hreach : Reachable (ClockedSystem.step (Process.step path) readingOf waits) first last) :
    PacedSince olds since last.state last.now :=
  ClockedSystem.invariant (PacedSince olds since) hreach hfirst
    (fun _ _ _ _ hsince hlater _ => hsince.wait hlater)
    fun _ _ _ _ _ hsince hreads hstep => hsince.step (processStep_of_step hstep) hreads

end Tasks

/-! ## What the metrics show -/

section Metrics

variable {F64 : Type} [WallClock F64] {label : PeerLabel}

omit [WallClock F64] in
/-- The inbound side records no attempts. -/
theorem recordsAttempt_of_isInbound {update : Update F64} (hinbound : isInbound update = true) :
    recordsAttempt update = false := by
  cases update with
  | incCounter family => cases family <;> first | rfl | cases hinbound
  | incDisconnect family => cases family <;> first | rfl | cases hinbound
  | setGauge | setFloat | createDisconnect => rfl

theorem attemptsCounter (label : PeerLabel) :
    Counter (PeerPool.program F64) (fun shared => attempts label shared.metrics)
      (attemptWeight label) where
  apply update shared := attempts_apply update shared.metrics
  act hact := by
    obtain ⟨rfl, -, -⟩ := PeerPool.act_eq_some hact
    rfl
  outside houtside := by
    rcases outside_metrics houtside with hmetrics | ⟨update, hupdate, hmetrics⟩
    · rw [hmetrics]
    · rw [hmetrics, attempts_apply, attemptWeight_eq, recordsAttempt_of_isInbound hupdate]
      rfl

variable [UnicodeTables] [SocketAddrParser] [TomlParser] {path : String} {config : Config}
variable {state : Process F64}

/-- The attempts of a label are those that the tasks have recorded. -/
theorem attempts_eq_madeTotal
    (hreach : Reachable (Process.step path) (start F64 config) state) (label : PeerLabel) :
    attempts label state.metrics = madeTotal (attemptWeight label) state.peerTasks := by
  have hview := (follows_outbound F64 config.node.name path).reachable (sided_start config) hreach
  have hcounted := (attemptsCounter label).reachable hview
  exact hcounted.trans (Nat.zero_add _)

/-- The attempts of a label that a task may add to those at an earlier moment: one
that was under way, and as many as the delay has room for.  A task that was done
adds none. -/
def allowance (tasks : List (PeerLoopTask F64)) (label : PeerLabel) (elapsed : Duration) (i : ℕ)
    (task : PeerLoopTask F64) : ℕ :=
  if task.control.label = label ∧ ¬(tasks[i]?.any PeerLoopTask.done = true) then
    elapsed / fromSecs task.control.clientCfg.reconnectDelay + 2
  else 0

variable {olds : List (PeerLoopTask F64)} {since now : Instant}

omit [WallClock F64] [UnicodeTables] [SocketAddrParser] [TomlParser] in
/-- What a task has recorded since. -/
theorem made_le_allowance (hsince : PacedSince olds since state now)
    (holds : ∀ old ∈ olds, OutboundTask old ∧ old.pending.countP recordsAttempt ≤ 1)
    {i : ℕ} {task : PeerLoopTask F64} (hget : state.peerTasks[i]? = some task)
    (htask : OutboundTask task)
    (hdelay : 0 < fromSecs task.control.clientCfg.reconnectDelay) :
    (task.made.map (attemptWeight label)).sum ≤
      (olds[i]?.map fun old => (old.made.map (attemptWeight label)).sum).getD 0 +
        allowance olds label (now - since) i task := by
  have hmade : ∀ task : PeerLoopTask F64, OutboundTask task →
      (task.made.map (attemptWeight label)).sum =
        if task.control.label = label then task.made.countP recordsAttempt else 0 :=
    fun task htask => sum_attemptWeight fun update hmem =>
      (htask.updates update (List.mem_append_left _ hmem)).2.1
  rw [hmade task htask]
  by_cases hlabel : task.control.label = label
  swap
  · rw [if_neg hlabel]
    exact Nat.zero_le _
  obtain ⟨-, count, hcount, hpaced⟩ := hsince.paced i task hget
  have hroom := hpaced.count_le hsince.since_le hdelay
  have hrecorded : task.made.countP recordsAttempt ≤ baseOf olds i + count := by
    rw [← hcount, attemptsOf, List.countP_append]
    exact Nat.le_add_right _ _
  rw [if_pos hlabel]
  cases hold : olds[i]? with
  | none =>
      rw [baseOf, hold] at hrecorded
      simp only [allowance, hlabel, hold, Option.map_none, Option.getD_none, Option.any_none,
        Bool.false_eq_true, not_false_eq_true, and_self, if_true] at hrecorded ⊢
      omega
  | some old =>
      obtain ⟨holdTask, hpending⟩ := holds old (List.mem_of_getElem? hold)
      obtain ⟨task', hget', hsame, hdone⟩ := hsince.kept i old hold
      obtain rfl : task = task' := Option.some.inj (hget.symm.trans hget')
      rw [Option.map_some, Option.getD_some, hmade old holdTask, if_pos (hsame.symm.trans hlabel)]
      cases holdDone : old.done with
      | true =>
          rw [hdone holdDone]
          exact Nat.le_add_right _ _
      | false =>
          have hbase : baseOf olds i ≤ old.made.countP recordsAttempt + 1 := by
            rw [baseOf, hold, Option.map_some, Option.getD_some, attemptsOf, List.countP_append]
            exact Nat.add_le_add_left hpending _
          simp only [allowance, hlabel, hold, Option.any_some, holdDone, Bool.false_eq_true,
            not_false_eq_true, and_self, if_true]
          omega

/-- A peer is not hammered.  In every run of the process, whatever the order and
the instants of its steps are, the attempts that the metrics show for a label
(`client_sessions_total` and the failed connects) grow between two instants by
at most two, and one for each reconnect delay that has passed, for each task of
the label that was not done at the first of them. -/
theorem reconnects_paced {waits : Process F64 → Instant → Bool} {opened : Instant}
    {contents : Except String String} {first last : Clocked (Process F64)}
    (hload : load path contents = .ok config)
    (hfirst : Reachable (ClockedSystem.step (Process.step path) readingOf waits)
      ⟨start F64 config, opened⟩ first)
    (hlast : Reachable (ClockedSystem.step (Process.step path) readingOf waits) first last)
    (label : PeerLabel) :
    attempts label last.state.metrics ≤ attempts label first.state.metrics +
      (last.state.peerTasks.mapIdx
        (allowance first.state.peerTasks label (last.now - first.now))).sum := by
  have hbefore := reachable_state hfirst
  have hafter := reachable_state (hfirst.trans hlast)
  have hpaced := pacedSince_of_reachable (pacedSince_start config) hfirst
  have hsince := pacedSince_of_reachable hpaced.restart hlast
  have hloaded := fromLoaded_of_reachable (validate_of_load hload) hafter
  rw [attempts_eq_madeTotal hafter, attempts_eq_madeTotal hbefore]
  refine sum_map_le_add_mapIdx fun i task hget => ?_
  have hmem := List.mem_of_getElem? hget
  refine made_le_allowance hsince (fun old hold => ?_) hget
    ((sided_of_reachable hafter).peerTasks task hmem) ?_
  · obtain ⟨j, hj⟩ := List.mem_iff_getElem?.mp hold
    exact ⟨(sided_of_reachable hbefore).peerTasks old hold, (hpaced.paced j old hj).pending⟩
  · have hdelay := (hloaded.timerSetting (.reconnectDelay hmem)).1
    exact Nat.mul_pos (UInt64.le_iff_toNat_le.mp hdelay) (by decide)

end Metrics

section Witness

local instance : SocketAddrParser := anyAddress

local instance : TomlParser := configFiles

local instance : UnicodeTables := asciiTables

/-- The first peer task runs on. -/
def runAt (now : Instant) (completion : Completion) : ClockedLabel (ProcessEvent WholeSeconds) :=
  .act (.outbound (.act 0 (⟨now, ⟨0⟩⟩, completion)))

/-- It makes updates. -/
def flushes (count : ℕ) : List (ClockedLabel (ProcessEvent WholeSeconds)) :=
  List.replicate count (.act (.outbound (.flush 0)))

/-- A peer task is spawned, and its first connect fails. -/
def firstAttempt : List (ClockedLabel (ProcessEvent WholeSeconds)) :=
  ([.order [], .order ["a"], .go, .go].map fun input => .act (.outbound (.outside (.manage input))))
    ++ [runAt 0 .ready] ++ flushes 9 ++
    [runAt 0 (.connected (.error .other))] ++ flushes 1

/-- The second fails as well, and the third starts a session. -/
def nextAttempts : List (ClockedLabel (ProcessEvent WholeSeconds)) :=
  [.tick (fromSecs 5), runAt (fromSecs 5) .elapsed,
      runAt (fromSecs 5) (.connected (.error .other))] ++ flushes 1 ++
    [.tick (fromSecs 10), runAt (fromSecs 10) .elapsed, runAt (fromSecs 10) (.connected (.ok ())),
      runAt (fromSecs 10) (.wrote (.ok 5))] ++ flushes 4

/-- With a delay of five seconds two more attempts are recorded in ten seconds. -/
theorem reconnects_paced_two_more :
    ∃ first last,
      run (ClockedSystem.step (Process.step "config.toml") readingOf fun _ _ => true)
          ⟨start WholeSeconds (configured 30), 0⟩ firstAttempt = some first ∧
        run (ClockedSystem.step (Process.step "config.toml") readingOf fun _ _ => true)
          first nextAttempts = some last ∧
        (attempts ⟨"n", "a"⟩ first.state.metrics = 1 ∧
          attempts ⟨"n", "a"⟩ last.state.metrics = 3 ∧ last.now = first.now + fromSecs 10) ∧
        attempts ⟨"n", "a"⟩ last.state.metrics ≤ attempts ⟨"n", "a"⟩ first.state.metrics +
          (last.state.peerTasks.mapIdx
            (allowance first.state.peerTasks ⟨"n", "a"⟩ (last.now - first.now))).sum := by
  obtain ⟨first, hfirst, hview⟩ := Option.map_eq_some_iff.mp (show
    (run (ClockedSystem.step (Process.step "config.toml") readingOf fun _ _ => true)
        ⟨start WholeSeconds (configured 30), 0⟩ firstAttempt).map
        (fun clocked => (attempts ⟨"n", "a"⟩ clocked.state.metrics, clocked.now)) =
      some (1, 0) by decide +kernel)
  obtain ⟨last, hboth, hview'⟩ := Option.map_eq_some_iff.mp (show
    (run (ClockedSystem.step (Process.step "config.toml") readingOf fun _ _ => true)
        ⟨start WholeSeconds (configured 30), 0⟩ (firstAttempt ++ nextAttempts)).map
        (fun clocked => (attempts ⟨"n", "a"⟩ clocked.state.metrics, clocked.now)) =
      some (3, fromSecs 10) by decide +kernel)
  obtain ⟨middle, hmiddle, hlast⟩ := run_append_eq_some.mp hboth
  obtain rfl : first = middle := Option.some.inj (hfirst.symm.trans hmiddle)
  simp only [Prod.mk.injEq] at hview hview'
  have hload : load "config.toml" (.ok (configFile "30")) = .ok (configured 30) := by
    decide +kernel
  refine ⟨first, last, hfirst, hlast, ⟨hview.1, hview'.1, ?_⟩,
    reconnects_paced hload (Reachable.of_run hfirst) (Reachable.of_run hlast) _⟩
  rw [hview.2, hview'.2, Nat.zero_add]

end Witness

end TcpMonitor.ReconnectPacing
