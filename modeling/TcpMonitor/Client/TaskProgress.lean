import Mathlib.Data.Prod.Lex
import TcpMonitor.Core.Liveness
import TcpMonitor.Client.Reconciliation

/-!
# A cancelled task finishes

The manager waits for a task that it has cancelled, so its passes end only if
cancelled tasks do.  On a fair schedule a task comes to a point that listens to
its token, or has returned; the one wait that nothing can cut off is the write
of the handshake.
-/

namespace TcpMonitor.TaskProgress

open TcpMonitor.TransitionSystem
open TcpMonitor.TaskPool
open TcpMonitor.Liveness
open TcpMonitor.Runtime
open TcpMonitor.Configuration
open TcpMonitor.MetricFamilies
open TcpMonitor.Session
open TcpMonitor.ReconnectLoop
open TcpMonitor.PeerManager
open TcpMonitor.PeerPool
open TcpMonitor.Reconciliation

/-! ## Fair schedules -/

section Schedules

variable {F64 : Type}

/-- The outbound side at all instants. -/
abbrev Schedule (F64 : Type) [WallClock F64] := Execution (TaskPool.step (program F64))

/-- A step of the manager. -/
def managing : ClientMove F64 → Prop
  | .outside (.manage _) => True
  | .outside _ | .flush _ | .act _ _ => False

/-- Something that the manager listens to: a config, the end of the senders, or
the shutdown signal. -/
def requesting : ClientMove F64 → Prop
  | .outside (.send _) | .outside .closeSenders | .outside .cancelManager => True
  | .outside _ | .flush _ | .act _ _ => False

/-- The manager takes the branch of the shutdown signal. -/
def leaving (move : ClientMove F64) : Prop := move = .outside (.manage .cancelled)

/-- A task makes its next update. -/
def updating (index : ℕ) (move : ClientMove F64) : Prop := move = .flush index

/-- A task goes on where it has nothing to wait for. -/
def goingOn (index : ℕ) (move : ClientMove F64) : Prop :=
  ∃ clock, move = .act index (clock, .ready)

/-- A task takes the branch of its token. -/
def stopping (index : ℕ) (move : ClientMove F64) : Prop :=
  ∃ clock, move = .act index (clock, .cancelled)

/-- A task is writing its handshake, outside of any `select!`. -/
def InHandshake (index : ℕ) (pool : Peers F64) : Prop :=
  ∃ task unsent, pool.tasks[index]? = some task ∧
    task.control.point = .session (.handshake unsent)

/-- What the runtime promises: the manager and the tasks go on when they can, a
`select!` that is entered again and again takes a branch that is ready again and
again, and no handshake stays unwritten for ever. -/
structure Fair [WallClock F64] (schedule : Schedule F64) : Prop where
  manages : schedule.WeaklyFair managing
  leaves : schedule.StronglyFair leaving
  updates : ∀ index, schedule.WeaklyFair (updating index)
  goesOn : ∀ index, schedule.WeaklyFair (goingOn index)
  stops : ∀ index, schedule.StronglyFair (stopping index)
  handshakes : ∀ index time, ∃ later ≥ time, ¬InHandshake index (schedule.state later)

end Schedules

/-! ## A cancelled task returns -/

section Loops

variable {F64 : Type} [WallClock F64]

/-- A point that listens to the token of the task. -/
def Interruptible : LoopPoint F64 → Prop
  | .connecting | .reconnecting _ => True
  | .session point => point.interruptible.isSome = true
  | .spawned | .returned => False

/-- How many more points come before one that listens to the token. -/
def stage : LoopPoint F64 → ℕ
  | .session (.handshake _) => 2
  | .spawned | .session (.loopHead _) => 1
  | .connecting | .session _ | .reconnecting _ | .returned => 0

/-- The loop leaves the session that has returned with the same step. -/
def Proper (loop : PeerLoop F64) : Prop := ∀ reason, loop.point ≠ .session (.returned reason)

variable {loop : PeerLoop F64} {clock : Reading F64} {completion : Completion}
variable {after : PeerLoop F64 × List (Update F64)}

theorem proper_step (hstep : LoopStep loop clock completion after) : Proper after.1 := by
  intro reason hreturned
  cases hstep with
  | begin | connected | connectFailed | retry | cancelled => cases hreturned
  | session hpoint hsession hgoes =>
      cases hreturned
      exact hgoes reason rfl
  | sessionEnded =>
      dsimp only at hreturned
      split at hreturned <;> cases hreturned

/-- Before the first point that listens to the token, every step is one towards
it, except for a part of the handshake. -/
theorem session_stage {nodeName peerName : String} {clientCfg : ClientConfig}
    {point : SessionPoint F64} {after : SessionPoint F64 × List (Update F64)}
    (hstep : SessionStep nodeName peerName clientCfg point clock completion after)
    (hpoint : point.interruptible = none) :
    stage (.session after.1) < stage (.session point) ∨
      (∃ unsent, point = .handshake unsent) ∧ (∃ unsent, after.1 = .handshake unsent) ∧
        after.2 = [] := by
  cases hstep with
  | handshakePart => exact Or.inr ⟨⟨_, rfl⟩, ⟨_, rfl⟩, rfl⟩
  | established => exact Or.inl (Nat.lt_succ_self 1)
  | handshakeError => exact Or.inl Nat.zero_lt_two
  | sleep | due => exact Or.inl Nat.zero_lt_one
  | wake | sendPart | sent | writeError | deadline | readPart | readError | echo => cases hpoint
  | cancelled hother =>
      rw [hother] at hpoint
      cases hpoint

theorem stage_step (hstep : LoopStep loop clock completion after)
    (hpoint : ¬Interruptible loop.point) :
    stage after.1.point < stage loop.point ∨
      (∃ unsent, loop.point = .session (.handshake unsent)) ∧
        (∃ unsent, after.1.point = .session (.handshake unsent)) ∧ after.2 = [] := by
  cases hstep with
  | begin hspawned =>
      rw [hspawned]
      exact Or.inl Nat.zero_lt_one
  | connected hother | connectFailed hother | retry hother =>
      rw [hother] at hpoint
      exact absurd trivial hpoint
  | cancelled hcompletion hother =>
      rcases hother with hother | ⟨deadline, hother⟩ <;>
      · rw [hother] at hpoint
        exact absurd trivial hpoint
  | session hsession hstep hgoes =>
      rw [hsession] at hpoint ⊢
      rcases session_stage hstep (Option.not_isSome_iff_eq_none.mp hpoint) with
        hlower | ⟨⟨unsent, rfl⟩, ⟨rest, hrest⟩, hnone⟩
      · exact Or.inl hlower
      · exact Or.inr ⟨⟨unsent, rfl⟩, ⟨rest, congrArg LoopPoint.session hrest⟩, hnone⟩
  | sessionEnded hsession hstep =>
      rw [hsession] at hpoint ⊢
      rcases session_stage hstep (Option.not_isSome_iff_eq_none.mp hpoint) with
        hlower | ⟨-, ⟨rest, hrest⟩, -⟩
      · refine Or.inl (Nat.lt_of_le_of_lt ?_ hlower)
        dsimp only
        split <;> exact Nat.zero_le _
      · cases hrest

/-- A task that takes the branch of its token returns. -/
theorem returned_of_cancelled (hrun : runPeerLoop loop clock .cancelled = some after) :
    after.1.point = .returned := by
  unfold runPeerLoop at hrun
  simp only at hrun
  cases hloop : loop.point with
  | spawned | returned => simp [hloop] at hrun
  | connecting | reconnecting =>
      rw [hloop] at hrun
      cases hrun
      rfl
  | session point =>
      cases point with
      | handshake | loopHead | returned => simp [hloop, runSession] at hrun
      | sleeping vars | sending vars | waiting vars =>
          rw [hloop] at hrun
          cases hrun
          rfl

/-- Cancelling is possible at every point that listens to the token. -/
theorem runPeerLoop_cancelled (clock : Reading F64) (hpoint : Interruptible loop.point) :
    ∃ after, runPeerLoop loop clock .cancelled = some after := by
  unfold runPeerLoop
  simp only
  cases hloop : loop.point with
  | spawned | returned =>
      rw [hloop] at hpoint
      exact hpoint.elim
  | connecting | reconnecting => exact ⟨_, rfl⟩
  | session point =>
      rw [hloop] at hpoint
      cases point with
      | handshake | loopHead | returned => cases hpoint
      | sleeping vars | sending vars | waiting vars =>
          exact ⟨_, rfl⟩

/-- Where a task has nothing to wait for, it goes on. -/
theorem runPeerLoop_ready (clock : Reading F64) (hstage : stage loop.point = 1) :
    ∃ after, runPeerLoop loop clock .ready = some after := by
  unfold runPeerLoop
  simp only
  cases hloop : loop.point with
  | spawned => exact ⟨_, rfl⟩
  | connecting | reconnecting | returned =>
      rw [hloop] at hstage
      cases hstage
  | session point =>
      rw [hloop] at hstage
      cases point with
      | loopHead vars =>
          by_cases hearly : vars.nextSend > clock.now
          · exact ⟨({ loop with point := .session (.sleeping vars) }, []), by
              simp [runSession, hearly]⟩
          · exact ⟨({ loop with point := .session (startRound loop.clientCfg vars clock) }, []), by
              simp [runSession, hearly, startRound]⟩
      | handshake | sleeping | sending | waiting | returned => cases hstage

theorem stage_of_ready (hrun : runPeerLoop loop clock .ready = some after) :
    stage loop.point = 1 := by
  unfold runPeerLoop at hrun
  simp only at hrun
  cases hloop : loop.point with
  | spawned => rfl
  | connecting | reconnecting | returned => simp [hloop] at hrun
  | session point =>
      cases point with
      | loopHead => rfl
      | handshake | sleeping | sending | waiting | returned => simp [hloop, runSession] at hrun

theorem completion_of_ready (hrun : runPeerLoop loop clock completion = some after)
    (hstage : stage loop.point = 1) : completion = .ready := by
  unfold runPeerLoop at hrun
  simp only at hrun
  cases hloop : loop.point with
  | spawned => cases completion <;> simp [hloop] at hrun ⊢
  | connecting | reconnecting | returned =>
      rw [hloop] at hstage
      cases hstage
  | session point =>
      rw [hloop] at hstage
      cases point with
      | loopHead vars => cases completion <;> simp [hloop, runSession] at hrun ⊢
      | handshake | sleeping | sending | waiting | returned => cases hstage

end Loops

/-! ## The tasks of the pool -/

section Tasks

variable {F64 : Type} [WallClock F64] {pool next : Peers F64} {move : ClientMove F64}
variable {index : ℕ}

/-- The task returns in the `select!` that it is in, or has returned, and has no
update left to make. -/
def AtSelect (index : ℕ) (pool : Peers F64) : Prop :=
  ∃ task, pool.tasks[index]? = some task ∧ task.pending = [] ∧
    (Interruptible task.control.point ∨ task.control.point = .returned)

/-- How far a task is from a `select!`: points first, then updates. -/
def distance (index : ℕ) (pool : Peers F64) : ℕ ×ₗ ℕ :=
  match pool.tasks[index]? with
  | some task => toLex (stage task.control.point, task.pending.length)
  | none => toLex (0, 0)

omit [WallClock F64] in
theorem distance_of_get {task : PeerLoopTask F64} (hget : pool.tasks[index]? = some task) :
    distance index pool = toLex (stage task.control.point, task.pending.length) := by
  rw [distance, hget]

theorem enabled_flush {control : PeerLoop F64} {update : Update F64} {rest made}
    (hget : pool.tasks[index]? = some ⟨control, update :: rest, made⟩) :
    Enabled (TaskPool.step (program F64)) (updating index) pool :=
  ⟨.flush index, _, rfl, step_flush_eq_some.mpr ⟨control, update, rest, made, hget, rfl⟩⟩

/-- What the code of a task can do, the pool can do. -/
theorem enabled_act {loop : PeerLoop F64} {made : List (Update F64)} {clock : Reading F64}
    {completion : Completion} {after : PeerLoop F64 × List (Update F64)}
    (hget : pool.tasks[index]? = some ⟨loop, [], made⟩)
    (hrun : runPeerLoop loop clock completion = some after)
    (hallowed : completion = .cancelled → index ∈ pool.shared.cancelled)
    {kind : ClientMove F64 → Prop} (hkind : kind (.act index (clock, completion))) :
    Enabled (TaskPool.step (program F64)) kind pool := by
  refine ⟨.act index (clock, completion), _, hkind, step_act_eq_some.mpr
    ⟨loop, made, pool.shared, after.1, after.2, hget, ?_, rfl⟩⟩
  have hnot : ¬(completion = .cancelled ∧ index ∉ pool.shared.cancelled) :=
    fun hboth => hboth.2 (hallowed hboth.1)
  simp only [program, hnot, if_false, hrun, Option.map_some]

/-- The step of the pool that makes a task's next update. -/
theorem flush_step {control : PeerLoop F64} {update : Update F64} {rest made}
    (hget : pool.tasks[index]? = some ⟨control, update :: rest, made⟩)
    (hstep : TaskPool.step (program F64) pool move = some next) :
    next.tasks[index]? = some ⟨control, update :: rest, made⟩ ∨
      next.tasks[index]? = some ⟨control, rest, made ++ [update]⟩ ∧ updating index move := by
  rcases task_step_cases hstep hget with ⟨update', rest', hmove, hpending, hnext⟩ |
    ⟨input, shared, control', updates, -, hpending, -⟩ | ⟨-, -, hnext⟩
  · cases hpending
    exact Or.inr ⟨hnext, hmove⟩
  · cases hpending
  · exact Or.inl hnext

/-- The steps of the pool that concern a task without an update to make. -/
theorem act_step {loop : PeerLoop F64} {made : List (Update F64)}
    (hget : pool.tasks[index]? = some ⟨loop, [], made⟩)
    (hstep : TaskPool.step (program F64) pool move = some next) :
    next.tasks[index]? = some ⟨loop, [], made⟩ ∨
      ∃ clock completion after, move = .act index (clock, completion) ∧
        runPeerLoop loop clock completion = some after ∧
        next.tasks[index]? = some ⟨after.1, after.2, made⟩ := by
  rcases task_step_cases hstep hget with ⟨update', rest', -, hpending, -⟩ |
    ⟨⟨clock, completion⟩, shared, control', updates, hmove, -, hact, hnext⟩ | ⟨-, -, hnext⟩
  · cases hpending
  · exact Or.inr ⟨clock, completion, (control', updates), hmove, act_runPeerLoop hact, hnext⟩
  · exact Or.inl hnext

/-- A task that has been spawned stays in the pool. -/
theorem length_step (hstep : TaskPool.step (program F64) pool move = some next) :
    pool.tasks.length ≤ next.tasks.length := by
  cases move with
  | flush index =>
      obtain ⟨control, update, rest, made, -, rfl⟩ := step_flush_eq_some.mp hstep
      simp
  | act index input =>
      obtain ⟨control, made, shared, control', updates, -, -, rfl⟩ :=
        step_act_eq_some.mp hstep
      simp
  | outside event =>
      obtain ⟨shared, spawned, -, rfl⟩ := step_outside_eq_some.mp hstep
      simp

/-- A token that has been cancelled stays cancelled. -/
theorem cancelled_step (hstep : TaskPool.step (program F64) pool move = some next) :
    pool.shared.cancelled ⊆ next.shared.cancelled := by
  cases move with
  | flush index =>
      obtain ⟨control, update, rest, made, -, rfl⟩ := step_flush_eq_some.mp hstep
      exact Finset.Subset.refl _
  | act index input =>
      obtain ⟨control, made, shared, control', updates, -, hact, rfl⟩ :=
        step_act_eq_some.mp hstep
      rw [(act_eq_some hact).1]
  | outside event =>
      obtain ⟨shared, spawned, houtside, rfl⟩ := step_outside_eq_some.mp hstep
      rcases outside_cases houtside with ⟨manager, effect, -, hperform⟩ |
        ⟨watch, cancel, -, rfl, -⟩ | ⟨update, -, rfl, -⟩
      · have hcancelled := congrArg (fun result => result.1.cancelled) hperform
        dsimp only at hcancelled ⊢
        rw [hcancelled, perform_cancelled]
        cases effect with
        | nothing | spawn => exact Finset.Subset.refl _
        | cancel id => exact Finset.subset_insert _ _
      · exact Finset.Subset.refl _
      · exact Finset.Subset.refl _

/-- A task that has finished stays finished. -/
theorem finished_step (hstep : TaskPool.step (program F64) pool move = some next)
    (hfinished : finished pool index = true) : finished next index = true := by
  obtain ⟨⟨loop, pending, made⟩, hget, hreturned, rfl⟩ := finished_iff.mp hfinished
  rcases act_step hget hstep with hnext | ⟨clock, completion, after, -, hrun, -⟩
  · exact finished_iff.mpr ⟨_, hnext, hreturned, rfl⟩
  · exact absurd hreturned (loopStep_of_runPeerLoop hrun).not_returned

/-- A task that has returned only makes the updates that it has left. -/
theorem returned_step (hstep : TaskPool.step (program F64) pool move = some next)
    {task : PeerLoopTask F64} (hget : pool.tasks[index]? = some task)
    (hreturned : task.control.point = .returned) :
    ∃ task', next.tasks[index]? = some task' ∧ task'.control.point = .returned := by
  obtain ⟨loop, _ | ⟨update, rest⟩, made⟩ := task
  · rcases act_step hget hstep with hnext | ⟨clock, completion, after, -, hrun, -⟩
    · exact ⟨_, hnext, hreturned⟩
    · exact absurd hreturned (loopStep_of_runPeerLoop hrun).not_returned
  · rcases flush_step hget hstep with hnext | ⟨hnext, -⟩
    · exact ⟨_, hnext, hreturned⟩
    · exact ⟨_, hnext, hreturned⟩

/-- No task is left at the end of a session. -/
theorem proper_of_reachable {config : Config}
    (hreach : Reachable (TaskPool.step (program F64)) (start F64 config) pool) :
    ∀ (index : ℕ) task, pool.tasks[index]? = some task → Proper task.control := by
  refine hreach.invariant
    (fun pool => ∀ (index : ℕ) task, pool.tasks[index]? = some task → Proper task.control)
    (fun index task hget => by cases hget) ?_
  intro pool move next hall hstep
  refine forall_control_step (P := fun _ => Proper) ?_ ?_ hstep hall
  · rintro shared index control input shared' control' updates - hact -
    exact proper_step (act_eq_some hact).2.1
  · rintro event shared spawned - houtside control hcontrol index -
    obtain ⟨input, name, peer, clientCfg, peers, -, -, -, rfl⟩ := mem_spawned houtside hcontrol
    intro reason hpoint
    cases hpoint

end Tasks

/-! ## Tasks on a fair schedule -/

section Stopping

variable {F64 : Type} [WallClock F64] {schedule : Schedule F64} {index time : ℕ}

/-- A task at this position. -/
def Spawned (index : ℕ) (pool : Peers F64) : Prop := index < pool.tasks.length

theorem spawned_of_le {later : ℕ} (hspawned : Spawned index (schedule.state time))
    (hle : time ≤ later) : Spawned index (schedule.state later) := by
  refine Execution.always hspawned ?_ later hle
  rintro latest - hlatest
  rcases schedule.step_cases latest with ⟨-, hsame⟩ | ⟨move, -, hstep⟩
  · rwa [hsame]
  · exact Nat.lt_of_lt_of_le hlatest (length_step hstep)

theorem cancelled_of_le {later : ℕ} (hcancelled : index ∈ (schedule.state time).shared.cancelled)
    (hle : time ≤ later) : index ∈ (schedule.state later).shared.cancelled := by
  induction later, hle using Nat.le_induction with
  | base => exact hcancelled
  | succ later hle ih =>
      rcases schedule.step_cases later with ⟨-, hsame⟩ | ⟨move, -, hstep⟩
      · rwa [hsame]
      · exact cancelled_step hstep ih

theorem finished_of_le {later : ℕ} (hfinished : finished (schedule.state time) index = true)
    (hle : time ≤ later) : finished (schedule.state later) index = true := by
  induction later, hle using Nat.le_induction with
  | base => exact hfinished
  | succ later hle ih =>
      rcases schedule.step_cases later with ⟨-, hsame⟩ | ⟨move, -, hstep⟩
      · rwa [hsame]
      · exact finished_step hstep ih

theorem returned_of_le {later : ℕ} {task : PeerLoopTask F64}
    (hget : (schedule.state time).tasks[index]? = some task)
    (hreturned : task.control.point = .returned) (hle : time ≤ later) :
    ∃ task', (schedule.state later).tasks[index]? = some task' ∧
      task'.control.point = .returned := by
  induction later, hle using Nat.le_induction with
  | base => exact ⟨task, hget, hreturned⟩
  | succ later hle ih =>
      obtain ⟨task', hget', hreturned'⟩ := ih
      rcases schedule.step_cases later with ⟨-, hsame⟩ | ⟨move, -, hstep⟩
      · rw [hsame]
        exact ⟨task', hget', hreturned'⟩
      · exact returned_step hstep hget' hreturned'

/-- A task that has an update to make makes it. -/
theorem closer_of_pending (hfair : Fair schedule) {control : PeerLoop F64} {update : Update F64}
    {rest made} (hget : (schedule.state time).tasks[index]? = some ⟨control, update :: rest, made⟩) :
    ∃ later ≥ time, distance index (schedule.state later) < distance index (schedule.state time) := by
  obtain ⟨later, hle, hlater, htakes⟩ := (hfair.updates index).taken
    (P := fun pool => pool.tasks[index]? = some ⟨control, update :: rest, made⟩) hget
    (fun _ _ => enabled_flush) (by
      rintro later - hlater hidle
      rcases schedule.step_cases later with ⟨-, hsame⟩ | ⟨move, hlabel, hstep⟩
      · rwa [hsame]
      · rcases flush_step hlater hstep with hnext | ⟨-, hmove⟩
        · exact hnext
        · exact absurd ⟨move, hlabel, hmove⟩ hidle)
  obtain ⟨move, rfl, hstep⟩ := htakes.performed
  obtain ⟨control', update', rest', made', hold, hnext⟩ := step_flush_eq_some.mp hstep
  rw [hlater] at hold
  cases hold
  refine ⟨later + 1, Nat.le_succ_of_le hle, ?_⟩
  have hafter : (schedule.state (later + 1)).tasks[index]? =
      some ⟨control, rest, made ++ [update]⟩ := by
    rw [hnext]
    exact List.getElem?_set_self (List.getElem?_eq_some_iff.mp hlater).1
  rw [distance_of_get hafter, distance_of_get hget, Prod.Lex.toLex_lt_toLex]
  exact Or.inr ⟨rfl, Nat.lt_succ_self _⟩

/-- A task that has come to an earlier stage is closer. -/
theorem closer_of_stage {later : ℕ} {loop loop' : PeerLoop F64}
    {updates made made' : List (Update F64)}
    (hget : (schedule.state time).tasks[index]? = some ⟨loop, [], made⟩)
    (hnext : (schedule.state later).tasks[index]? = some ⟨loop', updates, made'⟩)
    (hlower : stage loop'.point < stage loop.point) :
    distance index (schedule.state later) < distance index (schedule.state time) := by
  rw [distance_of_get hnext, distance_of_get hget, Prod.Lex.toLex_lt_toLex]
  exact Or.inl hlower

/-- A task that has nothing to wait for goes on. -/
theorem closer_of_ready [Inhabited F64] (hfair : Fair schedule) {loop : PeerLoop F64} {made}
    (hget : (schedule.state time).tasks[index]? = some ⟨loop, [], made⟩)
    (hstage : stage loop.point = 1) (hpoint : ¬Interruptible loop.point) :
    ∃ later ≥ time, distance index (schedule.state later) < distance index (schedule.state time) := by
  obtain ⟨later, hle, hlater, htakes⟩ := (hfair.goesOn index).taken
    (P := fun pool => pool.tasks[index]? = some ⟨loop, [], made⟩) hget
    (fun later _ hlater => by
      obtain ⟨after, hrun⟩ := runPeerLoop_ready ⟨0, default⟩ hstage
      exact enabled_act hlater hrun nofun ⟨_, rfl⟩) (by
      rintro later - hlater hidle
      rcases schedule.step_cases later with ⟨-, hsame⟩ | ⟨move, hlabel, hstep⟩
      · rwa [hsame]
      · rcases act_step hlater hstep with hnext | ⟨clock, completion, after, rfl, hrun, -⟩
        · exact hnext
        · obtain rfl := completion_of_ready hrun hstage
          exact absurd ⟨_, hlabel, clock, rfl⟩ hidle)
  obtain ⟨move, ⟨clock, rfl⟩, hstep⟩ := htakes.performed
  obtain ⟨loop', made', shared, loop'', updates, hold, hact, hnext⟩ := step_act_eq_some.mp hstep
  rw [hlater] at hold
  cases hold
  have hafter : (schedule.state (later + 1)).tasks[index]? = some ⟨loop'', updates, made⟩ := by
    rw [hnext]
    exact List.getElem?_set_self (List.getElem?_eq_some_iff.mp hlater).1
  refine ⟨later + 1, Nat.le_succ_of_le hle, closer_of_stage hget hafter ?_⟩
  rcases stage_step (act_eq_some hact).2.1 hpoint with hlower | ⟨⟨unsent, hhandshake⟩, -⟩
  · exact hlower
  · rw [hhandshake] at hstage
    cases hstage

/-- The handshake is written, or its write fails. -/
theorem closer_of_handshake (hfair : Fair schedule) {loop : PeerLoop F64} {made}
    (hget : (schedule.state time).tasks[index]? = some ⟨loop, [], made⟩)
    {unsent : List UInt8} (hpoint : loop.point = .session (.handshake unsent)) :
    ∃ later ≥ time, distance index (schedule.state later) < distance index (schedule.state time) := by
  obtain ⟨later, hle, ⟨task, hlater, hnone, unsent', hhandshake⟩, hends⟩ :=
    Execution.exists_end (P := fun pool : Peers F64 => ∃ task, pool.tasks[index]? = some task ∧
        task.pending = [] ∧ ∃ unsent, task.control.point = .session (.handshake unsent))
      ⟨_, hget, rfl, unsent, hpoint⟩ (by
        obtain ⟨later, hle, hwritten⟩ := hfair.handshakes index time
        refine ⟨later, hle, ?_⟩
        rintro ⟨task, hlater, -, unsent, hhandshake⟩
        exact hwritten ⟨task, unsent, hlater, hhandshake⟩)
  obtain ⟨loop', pending, made'⟩ := task
  obtain rfl : pending = [] := hnone
  refine ⟨later + 1, Nat.le_succ_of_le hle, ?_⟩
  rcases schedule.step_cases later with ⟨-, hsame⟩ | ⟨move, -, hstep⟩
  · rw [hsame] at hends
    exact absurd ⟨_, hlater, rfl, unsent', hhandshake⟩ hends
  · rcases act_step hlater hstep with hnext | ⟨clock, completion, after, -, hrun, hnext⟩
    · exact absurd ⟨_, hnext, rfl, unsent', hhandshake⟩ hends
    · have hinside : ¬Interruptible loop'.point := by
        rw [hhandshake]
        exact Bool.false_ne_true
      rcases stage_step (loopStep_of_runPeerLoop hrun) hinside with
        hlower | ⟨-, ⟨rest, hrest⟩, hnone⟩
      · refine closer_of_stage hget hnext ?_
        rw [hpoint]
        rwa [hhandshake] at hlower
      · exact absurd ⟨_, hnext, hnone, rest, hrest⟩ hends

/-- Every task comes to a `select!` that listens to its token, or has returned. -/
theorem atSelect_eventually [Inhabited F64] {config : Config}
    (hstart : schedule.state 0 = start F64 config) (hfair : Fair schedule)
    (hspawned : Spawned index (schedule.state time)) :
    ∃ later ≥ time, AtSelect index (schedule.state later) := by
  refine Execution.eventually_of_rank (distance index) fun later hle hnot => ?_
  have hproper := proper_of_reachable (hstart ▸ schedule.reachable_of_le (Nat.zero_le later))
  have hlater := spawned_of_le hspawned hle
  obtain ⟨⟨loop, pending, made⟩, hget⟩ : ∃ task, (schedule.state later).tasks[index]? = some task :=
    ⟨_, List.getElem?_eq_getElem hlater⟩
  have hcloser : ∃ latest ≥ later,
      distance index (schedule.state latest) < distance index (schedule.state later) := by
    cases pending with
    | cons update rest => exact closer_of_pending hfair hget
    | nil =>
        have hpoint : ¬Interruptible loop.point := fun hpoint =>
          hnot ⟨_, hget, rfl, Or.inl hpoint⟩
        have hrunning : loop.point ≠ .returned := fun hreturned =>
          hnot ⟨_, hget, rfl, Or.inr hreturned⟩
        cases hloop : loop.point with
        | spawned => exact closer_of_ready hfair hget (by rw [hloop]; rfl) hpoint
        | connecting | reconnecting =>
            rw [hloop] at hpoint
            exact absurd trivial hpoint
        | returned => exact absurd hloop hrunning
        | session point =>
            cases point with
            | handshake unsent => exact closer_of_handshake hfair hget hloop
            | loopHead vars => exact closer_of_ready hfair hget (by rw [hloop]; rfl) hpoint
            | sleeping | sending | waiting =>
                rw [hloop] at hpoint
                exact absurd rfl hpoint
            | returned reason => exact absurd hloop (hproper index _ hget reason)
  obtain ⟨latest, hlatest, hlower⟩ := hcloser
  exact ⟨latest, hlatest, Or.inr hlower⟩

/-- A task whose token has been cancelled finishes. -/
theorem finished_eventually [Inhabited F64] {config : Config}
    (hstart : schedule.state 0 = start F64 config) (hfair : Fair schedule)
    (hspawned : Spawned index (schedule.state time))
    (hcancelled : index ∈ (schedule.state time).shared.cancelled) :
    ∃ later ≥ time, finished (schedule.state later) index = true := by
  -- some day the task has returned: as long as it has not, it can be stopped again and again
  obtain ⟨returns, hreturns, task, hget, hreturned⟩ : ∃ later ≥ time, ∃ task,
      (schedule.state later).tasks[index]? = some task ∧ task.control.point = .returned := by
    by_contra hnever
    obtain ⟨later, hle, htakes⟩ := hfair.stops index time fun later hle => by
      obtain ⟨latest, hlatest, ⟨loop, pending, made⟩, hget, rfl, hpoint⟩ :=
        atSelect_eventually hstart hfair (spawned_of_le hspawned hle)
      have hbetween := Nat.le_trans hle hlatest
      refine ⟨latest, hlatest, ?_⟩
      rcases hpoint with hpoint | hreturned
      · obtain ⟨after, hrun⟩ := runPeerLoop_cancelled ⟨0, default⟩ hpoint
        exact enabled_act hget hrun (fun _ => cancelled_of_le hcancelled hbetween) ⟨_, rfl⟩
      · exact absurd ⟨latest, hbetween, _, hget, hreturned⟩ hnever
    obtain ⟨move, ⟨clock, rfl⟩, hstep⟩ := htakes.performed
    obtain ⟨loop, made, shared, loop', updates, hget, hact, hnext⟩ :=
      step_act_eq_some.mp hstep
    refine hnever ⟨later + 1, Nat.le_succ_of_le hle, ⟨loop', updates, made⟩, ?_, ?_⟩
    · rw [hnext]
      exact List.getElem?_set_self (List.getElem?_eq_some_iff.mp hget).1
    · exact returned_of_cancelled (act_runPeerLoop hact)
  obtain ⟨later, hle, task', hget', hnone, hpoint⟩ :=
    atSelect_eventually hstart hfair (spawned_of_le hspawned hreturns)
  obtain ⟨task'', hget'', hreturned''⟩ := returned_of_le hget hreturned hle
  rw [hget'] at hget''
  cases hget''
  exact ⟨later, Nat.le_trans hreturns hle, finished_iff.mpr ⟨task', hget', hreturned'', hnone⟩⟩

end Stopping

end TcpMonitor.TaskProgress
