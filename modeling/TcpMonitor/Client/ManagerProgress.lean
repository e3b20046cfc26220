import TcpMonitor.Client.SessionConservation
import TcpMonitor.Client.TaskProgress

/-!
# Every pass of the manager comes to its end

On a fair schedule the manager comes to its `select!` or to its end, since the
tasks that it waits for finish.  Two results follow: what the last config asks
for is served from some instant on, and a shutdown stops every task.
-/

namespace TcpMonitor.ManagerProgress

open TcpMonitor.TransitionSystem
open TcpMonitor.TaskPool
open TcpMonitor.Liveness
open TcpMonitor.Runtime
open TcpMonitor.Configuration
open TcpMonitor.MetricFamilies
open TcpMonitor.ReconnectLoop
open TcpMonitor.PeerManager
open TcpMonitor.PeerPool
open TcpMonitor.Reconciliation
open TcpMonitor.SessionBooks
open TcpMonitor.SessionConservation
open TcpMonitor.TaskProgress

/-! ## One pass of the manager -/

section Passes

variable {finished : ℕ → Bool} {spawnId : ℕ} {manager manager' : Manager} {effect : Effect}

/-- How many tasks or names a loop has before it. -/
def workLength : Work → ℕ
  | .removing _ names => names.length
  | .draining tasks | .shutdown tasks => tasks.length

/-- How far the manager is from its `select!` or from its end: loops first, then
their rounds, and a round with a task to wait for counts twice. -/
def remaining : ManagerPoint → ℕ ×ₗ ℕ
  | .loopHead | .leaving => toLex (3, 0)
  | .stopping work => toLex (2, 2 * workLength work)
  | .joining _ work => toLex (2, 2 * workLength work + 1)
  | .spawning _ peers => toLex (1, peers.length)
  | .parked | .exited => toLex (0, 0)

/-- Outside its `select!` every step of the manager brings it closer to it. -/
theorem remaining_step (hstep : ManagerStep finished spawnId manager (manager', effect))
    (hpoint : manager.point ≠ .parked) :
    remaining manager'.point < remaining manager.point := by
  cases hstep with
  | wake hparked | leave hparked => exact absurd hparked hpoint
  | readNone hother | readClient hother | skip hother | remove hother | beginSpawning hother
  | drainNext hother | drained hother | shutdownNext hother | exit hother | joined hother
  | keep hother | spawn hother | reconciled hother | shutdown hother =>
      rw [hother]
      simp [remaining, workLength, Prod.Lex.toLex_lt_toLex, Nat.mul_succ]

/-- The manager has left its loop. -/
def Departed : ManagerPoint → Prop
  | .leaving | .stopping (.shutdown _) | .joining _ (.shutdown _) | .exited => True
  | _ => False

/-- The manager does not come back to its loop. -/
theorem departed_step (hstep : ManagerStep finished spawnId manager (manager', effect))
    (hdeparted : Departed manager.point) : Departed manager'.point := by
  cases hstep with
  | readNone hpoint | readClient hpoint | skip hpoint | remove hpoint | beginSpawning hpoint
  | drainNext hpoint | drained hpoint | keep hpoint | spawn hpoint | reconciled hpoint
  | wake hpoint =>
      rw [hpoint] at hdeparted
      exact hdeparted.elim
  | shutdownNext | exit | leave | shutdown => trivial
  | @joined task work hpoint =>
      rw [hpoint] at hdeparted
      cases work with
      | removing | draining => exact hdeparted.elim
      | shutdown => trivial

/-- The manager can go on unless it waits: in its `select!`, for a task that it
has cancelled, or for nothing any more. -/
theorem runManager_isSome (hparked : manager.point ≠ .parked) (hexited : manager.point ≠ .exited)
    (hjoin : ∀ task work, manager.point = .joining task work → finished task.id = true) :
    ∃ input after, runManager finished spawnId manager input = some after := by
  unfold runManager
  simp only
  cases hpoint : manager.point with
  | loopHead =>
      refine ⟨.order manager.tasks.keys, ?_⟩
      dsimp only
      rw [if_pos (List.Perm.refl _)]
      cases manager.watch.config.client <;> exact ⟨_, rfl⟩
  | stopping work =>
      cases work with
      | removing clientCfg names =>
          cases names with
          | nil =>
              refine ⟨.order (newPeers manager.config).keys, ?_⟩
              dsimp only
              rw [if_pos (List.Perm.refl _)]
              exact ⟨_, rfl⟩
          | cons name names =>
              refine ⟨.go, ?_⟩
              dsimp only
              cases manager.tasks.lookup name <;> exact ⟨_, rfl⟩
      | draining tasks => cases tasks <;> exact ⟨.go, _, rfl⟩
      | shutdown tasks => cases tasks <;> exact ⟨.go, _, rfl⟩
  | joining task work =>
      refine ⟨.go, ?_⟩
      dsimp only
      rw [if_pos (hjoin task work hpoint)]
      exact ⟨_, rfl⟩
  | spawning clientCfg peers =>
      refine ⟨.go, ?_⟩
      cases peers with
      | nil => exact ⟨_, rfl⟩
      | cons entry peers =>
          dsimp only
          split <;> exact ⟨_, rfl⟩
  | parked => exact absurd hpoint hparked
  | exited => exact absurd hpoint hexited
  | leaving =>
      refine ⟨.order manager.tasks.keys, ?_⟩
      dsimp only
      rw [if_pos (List.Perm.refl _)]
      exact ⟨_, rfl⟩

end Passes

/-! ## The manager on a fair schedule -/

section Managing

variable {F64 : Type} [WallClock F64] {pool next : Peers F64} {move : ClientMove F64}

/-- The shutdown has been requested, or nobody can send a config any more. -/
def Requested (manager : Manager) : Prop :=
  manager.cancel = true ∨ manager.watch.closed = true

/-- What a step of the pool does to the manager: it is one of its own, a request
that it listens to, or none of its business. -/
theorem manager_cases (hstep : TaskPool.step (program F64) pool move = some next) :
    (∃ input effect, move = .outside (.manage input) ∧
        runManager (finished pool) pool.tasks.length pool.shared.manager input =
          some (next.shared.manager, effect)) ∨
      (requesting move ∧
        (∃ watch cancel, next.shared.manager =
            { pool.shared.manager with watch := watch, cancel := cancel } ∧
          (pool.shared.manager.cancel = true → cancel = true) ∧
          (pool.shared.manager.watch.closed = true →
            watch.closed = true ∧ watch.unseen = pool.shared.manager.watch.unseen) ∧
          (pool.shared.manager.watch.unseen = true → watch.unseen = true))) ∨
      (¬managing move ∧ next.shared.manager = pool.shared.manager) := by
  cases move with
  | flush index =>
      obtain ⟨control, update, rest, made, -, rfl⟩ := step_flush_eq_some.mp hstep
      exact Or.inr (Or.inr ⟨id, rfl⟩)
  | act index input =>
      obtain ⟨control, made, shared, control', updates, -, hact, rfl⟩ :=
        step_act_eq_some.mp hstep
      obtain ⟨rfl, -⟩ := act_eq_some hact
      exact Or.inr (Or.inr ⟨id, rfl⟩)
  | outside event =>
      obtain ⟨shared, spawned, houtside, rfl⟩ := step_outside_eq_some.mp hstep
      cases event with
      | manage input =>
          obtain ⟨⟨manager, effect⟩, hrun, heq⟩ := Option.map_eq_some_iff.mp houtside
          have hmanager := congrArg (fun result => result.1.manager) heq
          dsimp only at hmanager
          rw [perform_manager] at hmanager
          refine Or.inl ⟨input, effect, rfl, ?_⟩
          rw [hrun, hmanager]
      | send config =>
          obtain ⟨hopen, heq⟩ := Option.ite_none_left_eq_some.mp houtside
          cases heq
          exact Or.inr (Or.inl ⟨trivial, _, _, rfl, id,
            fun hclosed => absurd hclosed hopen, fun _ => rfl⟩)
      | closeSenders =>
          cases houtside
          exact Or.inr (Or.inl ⟨trivial, _, _, rfl, id, fun _ => ⟨rfl, rfl⟩, id⟩)
      | cancelManager =>
          cases houtside
          exact Or.inr (Or.inl ⟨trivial, _, _, rfl, fun _ => rfl,
            fun hclosed => ⟨hclosed, rfl⟩, id⟩)
      | inbound update =>
          obtain ⟨-, heq⟩ := Option.ite_none_right_eq_some.mp houtside
          cases heq
          exact Or.inr (Or.inr ⟨id, rfl⟩)

omit [WallClock F64] in
theorem not_managing_of_requesting (hrequesting : requesting move) : ¬managing move := by
  cases move with
  | flush | act => exact id
  | outside event =>
      cases event with
      | manage => exact hrequesting.elim
      | send | closeSenders | cancelManager | inbound => exact id

section Manager

variable {finished : ℕ → Bool} {spawnId : ℕ} {manager manager' : Manager} {effect : Effect}
variable {input : ManagerInput}

/-- A step of the manager changes neither the shutdown signal nor the channel,
except that it may see the config. -/
theorem managerStep_watch
    (hstep : ManagerStep finished spawnId manager (manager', effect)) :
    manager'.cancel = manager.cancel ∧ manager'.watch.closed = manager.watch.closed ∧
      manager'.watch.config = manager.watch.config ∧
      (manager.watch.unseen = false → manager'.watch.unseen = false) := by
  cases hstep with
  | readNone | readClient | wake => exact ⟨rfl, rfl, rfl, fun _ => rfl⟩
  | skip | remove | beginSpawning | drainNext | drained | shutdownNext | exit | joined | keep
  | spawn | reconciled | leave | shutdown => exact ⟨rfl, rfl, rfl, id⟩

theorem runManager_cancelled (hparked : manager.point = .parked) (hcancel : manager.cancel = true) :
    ∃ after, runManager finished spawnId manager .cancelled = some after := by
  unfold runManager
  simp only [hparked, hcancel, if_true]
  exact ⟨_, rfl⟩

theorem runManager_changed (hparked : manager.point = .parked)
    (hready : manager.watch.unseen = true ∨ manager.watch.closed = true) :
    ∃ after, runManager finished spawnId manager .changed = some after := by
  unfold runManager
  simp only [hparked]
  split
  · exact ⟨_, rfl⟩
  · next hseen =>
      rw [if_pos (hready.resolve_left hseen)]
      exact ⟨_, rfl⟩

/-- The branch of the signal leads out of the loop. -/
theorem leaving_of_cancelled
    (hrun : runManager finished spawnId manager .cancelled = some (manager', effect)) :
    manager'.point = .leaving := by
  cases hpoint : manager.point with
  | parked =>
      unfold runManager at hrun
      simp only [hpoint] at hrun
      split at hrun <;> cases hrun
      rfl
  | loopHead | stopping | joining | spawning | leaving | exited =>
      simp [runManager, hpoint] at hrun

/-- The two ways out of the `select!`: the next pass, over a config that has not
been seen, and the end. -/
theorem parked_cases (hparked : manager.point = .parked)
    (hrun : runManager finished spawnId manager input = some (manager', effect)) :
    (manager.watch.unseen = true ∧ manager'.point = .loopHead ∧ manager'.watch.unseen = false) ∨
      (Requested manager ∧ manager'.point = .leaving) := by
  unfold runManager at hrun
  simp only [hparked] at hrun
  cases input with
  | go | order => cases hrun
  | changed =>
      dsimp only at hrun
      split at hrun
      · next hunseen =>
          cases hrun
          exact Or.inl ⟨hunseen, rfl, rfl⟩
      · split at hrun <;> cases hrun
        next hclosed => exact Or.inr ⟨Or.inr hclosed, rfl⟩
  | cancelled =>
      dsimp only at hrun
      split at hrun <;> cases hrun
      next hcancel => exact Or.inr ⟨Or.inl hcancel, rfl⟩

/-- The manager leaves its loop from its `select!` only. -/
theorem departed_of_step (hstep : ManagerStep finished spawnId manager (manager', effect))
    (hdeparted : Departed manager'.point) :
    Departed manager.point ∨ manager.point = .parked := by
  cases hstep with
  | readNone | readClient | skip | remove | beginSpawning | drainNext | drained | keep | spawn
  | reconciled | wake => exact hdeparted.elim
  | shutdownNext hpoint | exit hpoint | shutdown hpoint =>
      rw [hpoint]
      exact Or.inl trivial
  | leave hpoint => exact Or.inr hpoint
  | @joined task work hpoint =>
      rw [hpoint]
      cases work with
      | removing | draining => exact hdeparted.elim
      | shutdown => exact Or.inl trivial

/-- When the manager is at its end, its table is empty. -/
theorem tasks_of_exited (hconsistent : Consistent manager)
    (hstep : ManagerStep finished spawnId manager (manager', effect))
    (hexited : manager'.point = .exited) : manager'.tasks = ∅ := by
  cases hstep with
  | exit hpoint =>
      have hphase := hconsistent.phase
      rw [Phase, hpoint] at hphase
      exact hphase
  | readNone | readClient | skip | remove | beginSpawning | drainNext | drained | shutdownNext
  | joined | keep | spawn | reconciled | wake | leave | shutdown => cases hexited

end Manager

/-- What the manager can do, the pool can do. -/
theorem enabled_of_runManager {input : ManagerInput} {after : Manager × Effect}
    (hrun : runManager (finished pool) pool.tasks.length pool.shared.manager input = some after)
    {kind : ClientMove F64 → Prop} (hkind : kind (.outside (.manage input))) :
    Enabled (TaskPool.step (program F64)) kind pool := by
  refine ⟨.outside (.manage input), _, hkind, step_outside_eq_some.mpr
    ⟨(perform pool.shared after.1 after.2).1, (perform pool.shared after.1 after.2).2, ?_, rfl⟩⟩
  simp only [program, hrun, Option.map_some]

theorem enabled_managing (hparked : pool.shared.manager.point ≠ .parked)
    (hexited : pool.shared.manager.point ≠ .exited)
    (hjoin : ∀ task work, pool.shared.manager.point = .joining task work →
      finished pool task.id = true) :
    Enabled (TaskPool.step (program F64)) managing pool := by
  obtain ⟨input, after, hrun⟩ := runManager_isSome hparked hexited hjoin
  exact enabled_of_runManager hrun trivial

/-- What the manager never does: leave its loop without a request, or end with
tasks in its table. -/
structure Orderly (manager : Manager) : Prop where
  requested : Departed manager.point → Requested manager
  empty : manager.point = .exited → manager.tasks = ∅

theorem orderly_of_reachable {config : Config}
    (hreach : Reachable (TaskPool.step (program F64)) (start F64 config) pool) :
    Orderly pool.shared.manager := by
  refine hreach.invariant_of_reachable (fun pool => Orderly pool.shared.manager)
    ⟨False.elim, nofun⟩ ?_
  intro pool move next hreach horderly hstep
  rcases manager_cases hstep with
    ⟨input, effect, -, hrun⟩ | ⟨-, watch, cancel, hsame, hcancel, hclosed, -⟩ | ⟨-, hsame⟩
  · have hmanaged := managerStep_of_runManager hrun
    refine ⟨fun hdeparted => ?_, tasks_of_exited (Sound.reachable hreach).consistent hmanaged⟩
    have hrequested : Requested pool.shared.manager := by
      rcases departed_of_step hmanaged hdeparted with hbefore | hparked
      · exact horderly.requested hbefore
      · rcases parked_cases hparked hrun with ⟨-, hhead, -⟩ | ⟨hrequested, -⟩
        · rw [hhead] at hdeparted
          exact hdeparted.elim
        · exact hrequested
    obtain ⟨hcancel, hclosed, -⟩ := managerStep_watch hmanaged
    rwa [Requested, hcancel, hclosed]
  · rw [hsame]
    refine ⟨fun hdeparted => ?_, horderly.empty⟩
    exact (horderly.requested hdeparted).imp hcancel fun hold => (hclosed hold).1
  · rw [hsame]
    exact horderly

end Managing

section Managed

variable {F64 : Type} [WallClock F64] [Inhabited F64] {schedule : Schedule F64} {time : ℕ}
variable {config : Config}

/-- The manager goes on outside its `select!`, also when it waits for a task. -/
theorem closer_to_select (hstart : schedule.state 0 = start F64 config) (hfair : Fair schedule)
    (hparked : (schedule.state time).shared.manager.point ≠ .parked)
    (hexited : (schedule.state time).shared.manager.point ≠ .exited) :
    ∃ later ≥ time, remaining (schedule.state later).shared.manager.point <
      remaining (schedule.state time).shared.manager.point := by
  by_contra hnever
  have hsame : ∀ later ≥ time, (schedule.state later).shared.manager.point =
      (schedule.state time).shared.manager.point := by
    intro later hle
    induction later, hle using Nat.le_induction with
    | base => rfl
    | succ later hle ih =>
        rcases schedule.step_cases later with ⟨-, hstill⟩ | ⟨move, -, hstep⟩
        · rw [hstill, ih]
        · rcases manager_cases hstep with
            ⟨input, effect, -, hrun⟩ | ⟨-, watch, cancel, heq, -⟩ | ⟨-, heq⟩
          · have hlower := remaining_step (managerStep_of_runManager hrun) (by rwa [ih])
            rw [ih] at hlower
            exact absurd ⟨later + 1, Nat.le_succ_of_le hle, hlower⟩ hnever
          · rw [heq]
            exact ih
          · rw [heq, ih]
  obtain ⟨ready, hready, hjoin⟩ : ∃ ready ≥ time, ∀ task work,
      (schedule.state time).shared.manager.point = .joining task work →
        finished (schedule.state ready) task.id = true := by
    by_cases hjoining : ∃ task work, (schedule.state time).shared.manager.point = .joining task work
    · obtain ⟨task, work, hpoint⟩ := hjoining
      have hsound := Sound.reachable (hstart ▸ schedule.reachable_of_le (Nat.zero_le time))
      have hstarted := hsound.owned.held task (by
        rw [hpoint]
        exact List.mem_cons_self)
      obtain ⟨later, hle, hfinished⟩ := finished_eventually hstart hfair hstarted.lt
        (hsound.owned.joining task work hpoint)
      refine ⟨later, hle, ?_⟩
      intro task' work' hpoint'
      rw [hpoint] at hpoint'
      cases hpoint'
      exact hfinished
    · exact ⟨time, Nat.le_refl time, fun task work hpoint => absurd ⟨task, work, hpoint⟩ hjoining⟩
  obtain ⟨later, hle, htakes⟩ := hfair.manages ready fun later hle => by
    have hpoint := hsame later (Nat.le_trans hready hle)
    refine enabled_managing (by rwa [hpoint]) (by rwa [hpoint]) fun task work hjoining => ?_
    exact finished_of_le (hjoin task work (hpoint ▸ hjoining)) hle
  obtain ⟨move, hmanaging, hstep⟩ := htakes.performed
  have hafter := Nat.le_trans hready hle
  rcases manager_cases hstep with ⟨input, effect, -, hrun⟩ | ⟨hrequesting, -⟩ | ⟨hother, -⟩
  · have hlower := remaining_step (managerStep_of_runManager hrun) (by rwa [hsame later hafter])
    rw [hsame later hafter] at hlower
    exact hnever ⟨later + 1, Nat.le_succ_of_le hafter, hlower⟩
  · exact not_managing_of_requesting hrequesting hmanaging
  · exact hother hmanaging

/-- The manager is in its `select!` or at its end. -/
def AtRest (pool : Peers F64) : Prop :=
  pool.shared.manager.point = .parked ∨ pool.shared.manager.point = .exited

theorem atRest_eventually (hstart : schedule.state 0 = start F64 config) (hfair : Fair schedule)
    (time : ℕ) : ∃ later ≥ time, AtRest (schedule.state later) := by
  refine Execution.eventually_of_rank
    (fun pool : Peers F64 => remaining pool.shared.manager.point) fun later _ hnot => ?_
  obtain ⟨hparked, hexited⟩ := not_or.mp hnot
  obtain ⟨latest, hle, hlower⟩ := closer_to_select hstart hfair hparked hexited
  exact ⟨latest, hle, Or.inr hlower⟩

omit [Inhabited F64] in
theorem departed_of_le {later : ℕ}
    (hdeparted : Departed (schedule.state time).shared.manager.point) (hle : time ≤ later) :
    Departed (schedule.state later).shared.manager.point := by
  induction later, hle using Nat.le_induction with
  | base => exact hdeparted
  | succ later hle ih =>
      rcases schedule.step_cases later with ⟨-, hsame⟩ | ⟨move, -, hstep⟩
      · rwa [hsame]
      · rcases manager_cases hstep with
          ⟨input, effect, -, hrun⟩ | ⟨-, watch, cancel, hsame, -⟩ | ⟨-, hsame⟩
        · exact departed_step (managerStep_of_runManager hrun) ih
        · rwa [hsame]
        · rwa [hsame]

omit [Inhabited F64] in
/-- The signal is not taken back. -/
theorem cancel_of_le {later : ℕ} (hcancel : (schedule.state time).shared.manager.cancel = true)
    (hle : time ≤ later) : (schedule.state later).shared.manager.cancel = true := by
  induction later, hle using Nat.le_induction with
  | base => exact hcancel
  | succ later hle ih =>
      rcases schedule.step_cases later with ⟨-, hsame⟩ | ⟨move, -, hstep⟩
      · rwa [hsame]
      · rcases manager_cases hstep with
          ⟨input, effect, -, hrun⟩ | ⟨-, watch, cancel, hsame, hkept, -⟩ | ⟨-, hsame⟩
        · rwa [(managerStep_watch (managerStep_of_runManager hrun)).1]
        · rw [hsame]
          exact hkept ih
        · rwa [hsame]

omit [Inhabited F64] in
/-- The senders do not come back. -/
theorem closed_of_le {later : ℕ}
    (hclosed : (schedule.state time).shared.manager.watch.closed = true) (hle : time ≤ later) :
    (schedule.state later).shared.manager.watch.closed = true := by
  induction later, hle using Nat.le_induction with
  | base => exact hclosed
  | succ later hle ih =>
      rcases schedule.step_cases later with ⟨-, hsame⟩ | ⟨move, -, hstep⟩
      · rwa [hsame]
      · rcases manager_cases hstep with
          ⟨input, effect, -, hrun⟩ | ⟨-, watch, cancel, hsame, -, hkept, -⟩ | ⟨-, hsame⟩
        · rwa [(managerStep_watch (managerStep_of_runManager hrun)).2.1]
        · rw [hsame]
          exact (hkept ih).1
        · rwa [hsame]

omit [Inhabited F64] in
/-- As long as nothing is sent, a config that has been seen is the last one. -/
theorem seen_of_le {later : ℕ}
    (hquiet : ∀ later ≥ time, (schedule.state later).shared.manager.watch.closed = true ∨
      ¬schedule.Takes requesting later)
    (hseen : (schedule.state time).shared.manager.watch.unseen = false) (hle : time ≤ later) :
    (schedule.state later).shared.manager.watch.unseen = false := by
  induction later, hle using Nat.le_induction with
  | base => exact hseen
  | succ later hle ih =>
      rcases schedule.step_cases later with ⟨-, hsame⟩ | ⟨move, hlabel, hstep⟩
      · rwa [hsame]
      · rcases manager_cases hstep with
          ⟨input, effect, -, hrun⟩ | ⟨hrequest, watch, cancel, hsame, -, hkept, -⟩ | ⟨-, hsame⟩
        · exact (managerStep_watch (managerStep_of_runManager hrun)).2.2.2 ih
        · rcases hquiet later hle with hclosed | hidle
          · rw [hsame]
            exact (hkept hclosed).2.trans ih
          · exact absurd ⟨move, hlabel, hrequest⟩ hidle
        · rwa [hsame]

/-- After the signal the manager leaves its loop, whatever is sent meanwhile. -/
theorem departed_of_cancel (hstart : schedule.state 0 = start F64 config) (hfair : Fair schedule)
    (hcancel : (schedule.state time).shared.manager.cancel = true) :
    ∃ later ≥ time, Departed (schedule.state later).shared.manager.point := by
  by_contra hnever
  obtain ⟨later, hle, htakes⟩ := hfair.leaves time fun later hle => by
    obtain ⟨latest, hlatest, hrest⟩ := atRest_eventually hstart hfair later
    have hbetween := Nat.le_trans hle hlatest
    refine ⟨latest, hlatest, ?_⟩
    rcases hrest with hparked | hexited
    · obtain ⟨after, hrun⟩ := runManager_cancelled hparked (cancel_of_le hcancel hbetween)
      exact enabled_of_runManager hrun rfl
    · refine absurd ⟨latest, hbetween, ?_⟩ hnever
      rw [hexited]
      trivial
  obtain ⟨move, rfl, hstep⟩ := htakes.performed
  rcases manager_cases hstep with ⟨input, effect, heq, hrun⟩ | ⟨hrequesting, -⟩ | ⟨hother, -⟩
  · cases heq
    refine hnever ⟨later + 1, Nat.le_succ_of_le hle, ?_⟩
    rw [leaving_of_cancelled hrun]
    trivial
  · exact hrequesting
  · exact hother trivial

omit [Inhabited F64] in
/-- The manager does not stay in a `select!` with a config to read or with no
senders left. -/
theorem select_eventually (hfair : Fair schedule)
    (hparked : (schedule.state time).shared.manager.point = .parked)
    (hready : (schedule.state time).shared.manager.watch.unseen = true ∨
      (schedule.state time).shared.manager.watch.closed = true) :
    ∃ later ≥ time,
      ((schedule.state later).shared.manager.watch.unseen = true ∧
          (schedule.state (later + 1)).shared.manager.watch.unseen = false) ∨
        Requested (schedule.state later).shared.manager ∧
          Departed (schedule.state (later + 1)).shared.manager.point := by
  obtain ⟨later, hle, ⟨hlater, -⟩, htakes⟩ := hfair.manages.taken
    (P := fun pool : Peers F64 => pool.shared.manager.point = .parked ∧
      (pool.shared.manager.watch.unseen = true ∨ pool.shared.manager.watch.closed = true))
    ⟨hparked, hready⟩
    (fun later _ hlater => by
      obtain ⟨after, hrun⟩ := runManager_changed hlater.1 hlater.2
      exact enabled_of_runManager hrun trivial) (by
      rintro later - ⟨hparked, hready⟩ hidle
      rcases schedule.step_cases later with ⟨-, hsame⟩ | ⟨move, hlabel, hstep⟩
      · rw [hsame]
        exact ⟨hparked, hready⟩
      · rcases manager_cases hstep with
          ⟨input, effect, rfl, -⟩ | ⟨-, watch, cancel, hsame, -, hclosed, hunseen⟩ | ⟨-, hsame⟩
        · exact absurd ⟨_, hlabel, trivial⟩ hidle
        · rw [hsame]
          exact ⟨hparked, hready.imp hunseen fun hold => (hclosed hold).1⟩
        · rw [hsame]
          exact ⟨hparked, hready⟩)
  refine ⟨later, hle, ?_⟩
  obtain ⟨move, hmanaging, hstep⟩ := htakes.performed
  rcases manager_cases hstep with ⟨input, effect, -, hrun⟩ | ⟨hrequesting, -⟩ | ⟨hother, -⟩
  · rcases parked_cases hlater hrun with ⟨hunseen, -, hseen⟩ | ⟨hrequested, hleaving⟩
    · exact Or.inl ⟨hunseen, hseen⟩
    · refine Or.inr ⟨hrequested, ?_⟩
      rw [hleaving]
      trivial
  · exact absurd hmanaging (not_managing_of_requesting hrequesting)
  · exact absurd hmanaging hother

/-- Without senders the manager leaves its loop or reads a config that it has not
seen yet. -/
theorem departed_or_reads (hstart : schedule.state 0 = start F64 config) (hfair : Fair schedule)
    (hclosed : (schedule.state time).shared.manager.watch.closed = true) :
    (∃ later ≥ time, Departed (schedule.state later).shared.manager.point) ∨
      ∃ later ≥ time, (schedule.state later).shared.manager.watch.unseen = true ∧
        (schedule.state (later + 1)).shared.manager.watch.unseen = false := by
  obtain ⟨rests, hrests, hparked | hexited⟩ := atRest_eventually hstart hfair time
  · obtain ⟨later, hle, hreads | ⟨-, hdeparted⟩⟩ :=
      select_eventually hfair hparked (Or.inr (closed_of_le hclosed hrests))
    · exact Or.inr ⟨later, Nat.le_trans hrests hle, hreads⟩
    · exact Or.inl ⟨later + 1, Nat.le_succ_of_le (Nat.le_trans hrests hle), hdeparted⟩
  · refine Or.inl ⟨rests, hrests, ?_⟩
    rw [hexited]
    trivial

theorem departed_of_closed (hstart : schedule.state 0 = start F64 config) (hfair : Fair schedule)
    (hclosed : (schedule.state time).shared.manager.watch.closed = true) :
    ∃ later ≥ time, Departed (schedule.state later).shared.manager.point := by
  rcases departed_or_reads hstart hfair hclosed with hdeparted | ⟨reads, hreads, -, hseen⟩
  · exact hdeparted
  · have hafter := Nat.le_succ_of_le hreads
    rcases departed_or_reads hstart hfair (closed_of_le hclosed hafter) with
      ⟨later, hle, hdeparted⟩ | ⟨later, hle, hunseen, -⟩
    · exact ⟨later, Nat.le_trans hafter hle, hdeparted⟩
    · -- nothing has been sent since the last read
      have hstill := seen_of_le (fun latest hlatest =>
        Or.inl (closed_of_le hclosed (Nat.le_trans hafter hlatest))) hseen hle
      rw [hunseen] at hstill
      cases hstill

omit [Inhabited F64] in
/-- The manager that has come to its end stays there. -/
theorem exited_of_le {later : ℕ}
    (hexited : (schedule.state time).shared.manager.point = .exited) (hle : time ≤ later) :
    (schedule.state later).shared.manager.point = .exited := by
  induction later, hle using Nat.le_induction with
  | base => exact hexited
  | succ later hle ih =>
      rcases schedule.step_cases later with ⟨-, hsame⟩ | ⟨move, -, hstep⟩
      · rwa [hsame]
      · rcases manager_cases hstep with
          ⟨input, effect, -, hrun⟩ | ⟨-, watch, cancel, hsame, -⟩ | ⟨-, hsame⟩
        · have hlower := remaining_step (managerStep_of_runManager hrun) (by simp [ih])
          rw [ih] at hlower
          simp [remaining, Prod.Lex.lt_iff] at hlower
        · rwa [hsame]
        · rwa [hsame]

/-- The outbound side has stopped: all tasks have finished, only requests and the
inbound side still make steps, no session is live in any gauge, and every session
that was counted is counted as ended. -/
structure Stopped (pool : Peers F64) : Prop where
  exited : pool.shared.manager.point = .exited
  finished : ∀ index < pool.tasks.length, finished pool index = true
  still : ∀ move next, TaskPool.step (program F64) pool move = some next →
    requesting move ∨ ∃ update, move = .outside (.inbound update)
  gauges : ∀ label, sessionActive label pool.shared = none ∨ sessionActive label pool.shared = some 0
  books : ∀ label, sessionsTotal clientBooks label pool.shared.metrics =
    disconnectsTotal clientBooks label pool.shared.metrics +
      (pool.tasks.map (cancelledSessions label)).sum

omit [Inhabited F64] in
/-- When the manager is at its end, every task has finished. -/
theorem finished_of_exited {pool : Peers F64}
    (hreach : Reachable (TaskPool.step (program F64)) (start F64 config) pool)
    (hexited : pool.shared.manager.point = .exited) {index : ℕ}
    (hspawned : Spawned index pool) : finished pool index = true := by
  have hsound := Sound.reachable hreach
  let task : PeerTask := ⟨pool.tasks[index].control.peer, index⟩
  have hstarted : Started pool task := ⟨_, List.getElem?_eq_getElem hspawned, rfl⟩
  rcases hsound.owned.accounted task hstarted with hin | hmem | ⟨-, hfinished⟩
  · rw [(orderly_of_reachable hreach).empty hexited] at hin
    cases hin
  · rw [hexited] at hmem
    cases hmem
  · exact hfinished

omit [Inhabited F64] in
theorem stopped_of_exited {pool : Peers F64}
    (hreach : Reachable (TaskPool.step (program F64)) (start F64 config) pool)
    (hexited : pool.shared.manager.point = .exited) : Stopped pool := by
  have hdone : ∀ task ∈ pool.tasks, task.control.point = .returned ∧ task.pending = [] := by
    intro task hmem
    obtain ⟨index, hget⟩ := List.mem_iff_getElem?.mp hmem
    obtain ⟨task', hget', hdone⟩ := finished_iff.mp
      (finished_of_exited hreach hexited (List.getElem?_eq_some_iff.mp hget).1)
    rw [hget] at hget'
    cases hget'
    exact hdone
  have hidle : ∀ label, ¬∃ task ∈ pool.tasks, Live label task := by
    rintro label ⟨task, hmem, hlive⟩
    exact not_live_of_done (hdone task hmem).1 (hdone task hmem).2 hlive
  constructor
  case exited => exact hexited
  case finished => exact fun index hspawned => finished_of_exited hreach hexited hspawned
  case still =>
    intro move next hstep
    cases move with
    | flush index =>
        obtain ⟨control, update, rest, made, hget, -⟩ := step_flush_eq_some.mp hstep
        have hpending := (hdone _ (List.mem_of_getElem? hget)).2
        cases hpending
    | act index input =>
        obtain ⟨loop, made, shared, loop', updates, hget, hact, -⟩ :=
          step_act_eq_some.mp hstep
        exact absurd (hdone _ (List.mem_of_getElem? hget)).1 (act_eq_some hact).2.1.not_returned
    | outside event =>
        cases event with
        | manage input =>
            rcases manager_cases hstep with ⟨input, effect, -, hrun⟩ | ⟨hrequest, -⟩ | ⟨hother, -⟩
            · have hlower := remaining_step (managerStep_of_runManager hrun) (by simp [hexited])
              rw [hexited] at hlower
              simp [remaining, Prod.Lex.lt_iff] at hlower
            · exact Or.inl hrequest
            · exact absurd trivial hother
        | send | closeSenders | cancelManager => exact Or.inl trivial
        | inbound update => exact Or.inr ⟨update, rfl⟩
  case gauges =>
    intro label
    exact (shows_reachable hreach).off_otherwise fun hwritten =>
      hidle label ((written_iff_live hreach label).mp hwritten)
  case books =>
    intro label
    have hsettled : ∀ task ∈ pool.tasks, ¬PartWay label task := by
      intro task hmem hpending
      rw [PartWay, (hdone task hmem).2] at hpending
      exact hpending rfl
    rw [sessionsTotal_eq hreach hsettled, if_neg (hidle label), Nat.zero_add]

/-- A shutdown comes to its end.  On a fair schedule, once the shutdown has been
requested or the senders of configs are gone, the manager ends whatever is sent
meanwhile, and from then on the outbound side has stopped. -/
theorem shutdown_completes (hstart : schedule.state 0 = start F64 config) (hfair : Fair schedule)
    (hrequested : Requested (schedule.state time).shared.manager) :
    ∃ ended ≥ time, ∀ later ≥ ended, Stopped (schedule.state later) := by
  obtain ⟨departs, hdeparts, hdeparted⟩ :
      ∃ later ≥ time, Departed (schedule.state later).shared.manager.point := by
    rcases hrequested with hcancel | hclosed
    · exact departed_of_cancel hstart hfair hcancel
    · exact departed_of_closed hstart hfair hclosed
  obtain ⟨ended, hended, hrest⟩ := atRest_eventually hstart hfair departs
  have hexited : (schedule.state ended).shared.manager.point = .exited := by
    refine hrest.resolve_left fun hparked => ?_
    have hstill := departed_of_le hdeparted hended
    rw [hparked] at hstill
    exact hstill
  refine ⟨ended, Nat.le_trans hdeparts hended, fun later hle => ?_⟩
  exact stopped_of_exited (hstart ▸ schedule.reachable_of_le (Nat.zero_le later))
    (exited_of_le hexited hle)

section Quiet

variable (hquiet : ∀ later ≥ time, ¬schedule.Takes requesting later)
variable (hopen : ¬Requested (schedule.state time).shared.manager)

omit [Inhabited F64] in
include hquiet in
/-- Without requests the channel keeps its config, and no shutdown begins. -/
theorem watch_of_quiet {later : ℕ} (hle : time ≤ later) :
    (schedule.state later).shared.manager.watch.config =
        (schedule.state time).shared.manager.watch.config ∧
      (Requested (schedule.state later).shared.manager ↔
        Requested (schedule.state time).shared.manager) := by
  induction later, hle using Nat.le_induction with
  | base => exact ⟨rfl, Iff.rfl⟩
  | succ later hle ih =>
      rcases schedule.step_cases later with ⟨-, hsame⟩ | ⟨move, hlabel, hstep⟩
      · rwa [hsame]
      · rcases manager_cases hstep with ⟨input, effect, -, hrun⟩ | ⟨hrequest, -⟩ | ⟨-, hsame⟩
        · obtain ⟨hcancel, hclosed, hconfig, -⟩ := managerStep_watch (managerStep_of_runManager hrun)
          rw [hconfig, Requested, hcancel, hclosed]
          exact ih
        · exact absurd ⟨move, hlabel, hrequest⟩ (hquiet later hle)
        · rwa [hsame]

include hquiet hopen in
/-- Without requests the manager comes to its `select!` again. -/
theorem parked_eventually (hstart : schedule.state 0 = start F64 config) (hfair : Fair schedule)
    {asked : ℕ} (hasked : time ≤ asked) :
    ∃ later ≥ asked, (schedule.state later).shared.manager.point = .parked := by
  obtain ⟨later, hle, hrest⟩ := atRest_eventually hstart hfair asked
  refine ⟨later, hle, hrest.resolve_right fun hexited => hopen ?_⟩
  rw [← (watch_of_quiet hquiet (Nat.le_trans hasked hle)).2]
  refine (orderly_of_reachable (hstart ▸ schedule.reachable_of_le (Nat.zero_le later))).requested ?_
  rw [hexited]
  trivial

include hquiet hopen in
/-- Without requests the manager comes to its `select!` with nothing to read. -/
theorem seen_eventually (hstart : schedule.state 0 = start F64 config) (hfair : Fair schedule) :
    ∃ later ≥ time, (schedule.state later).shared.manager.point = .parked ∧
      (schedule.state later).shared.manager.watch.unseen = false := by
  obtain ⟨parks, hparks, hparked⟩ :=
    parked_eventually hquiet hopen hstart hfair (Nat.le_refl time)
  cases hunseen : (schedule.state parks).shared.manager.watch.unseen with
  | false => exact ⟨parks, hparks, hparked, hunseen⟩
  | true =>
      obtain ⟨reads, hreads, ⟨-, hseen⟩ | ⟨hrequested, -⟩⟩ :=
        select_eventually hfair hparked (Or.inl hunseen)
      · have hafter := Nat.le_succ_of_le (Nat.le_trans hparks hreads)
        obtain ⟨later, hle, hagain⟩ := parked_eventually hquiet hopen hstart hfair hafter
        have hstill := seen_of_le
          (fun latest hlatest => Or.inr (hquiet latest (Nat.le_trans hafter hlatest))) hseen hle
        exact ⟨later, Nat.le_trans hafter hle, hagain, hstill⟩
      · rw [(watch_of_quiet hquiet (Nat.le_trans hparks hreads)).2] at hrequested
        exact absurd hrequested hopen

omit [Inhabited F64] in
include hquiet hopen in
/-- A manager with nothing to read stays in its `select!`. -/
theorem parked_of_le {settled later : ℕ} (hsettled : time ≤ settled)
    (hparked : (schedule.state settled).shared.manager.point = .parked)
    (hseen : (schedule.state settled).shared.manager.watch.unseen = false)
    (hle : settled ≤ later) :
    (schedule.state later).shared.manager.point = .parked ∧
      (schedule.state later).shared.manager.watch.unseen = false := by
  induction later, hle using Nat.le_induction with
  | base => exact ⟨hparked, hseen⟩
  | succ later hle ih =>
      have hbetween := Nat.le_trans hsettled hle
      rcases schedule.step_cases later with ⟨-, hsame⟩ | ⟨move, hlabel, hstep⟩
      · rwa [hsame]
      · rcases manager_cases hstep with ⟨input, effect, -, hrun⟩ | ⟨hrequest, -⟩ | ⟨-, hsame⟩
        · rcases parked_cases ih.1 hrun with ⟨hunseen, -⟩ | ⟨hrequested, -⟩
          · rw [ih.2] at hunseen
            cases hunseen
          · rw [(watch_of_quiet hquiet hbetween).2] at hrequested
            exact absurd hrequested hopen
        · exact absurd ⟨move, hlabel, hrequest⟩ (hquiet later hbetween)
        · rwa [hsame]

end Quiet

/-- A reload takes effect.  On a fair schedule, when nothing more is sent and no
shutdown has been requested, the manager comes to its `select!` and stays there,
serving exactly the peers of the last config that was sent: every other task that
was ever spawned has finished. -/
theorem reload_takes_effect (hstart : schedule.state 0 = start F64 config) (hfair : Fair schedule)
    (hquiet : ∀ later ≥ time, ¬schedule.Takes requesting later)
    (hopen : ¬Requested (schedule.state time).shared.manager)
    (hdistinct : ((schedule.state time).shared.manager.watch.config.peers.map
      PeerConfig.name).Nodup) :
    ∃ settled ≥ time, ∀ later ≥ settled,
      (schedule.state later).shared.manager.point = .parked ∧
        (schedule.state later).shared.manager.watch.unseen = false ∧
          Serves (schedule.state later)
            (servedPeers (schedule.state time).shared.manager.watch.config) := by
  obtain ⟨settled, hsettled, hparked, hseen⟩ := seen_eventually hquiet hopen hstart hfair
  refine ⟨settled, hsettled, fun later hle => ?_⟩
  obtain ⟨hstays, hstill⟩ := parked_of_le hquiet hopen hsettled hparked hseen hle
  have hconfig := (watch_of_quiet hquiet (Nat.le_trans hsettled hle)).1
  have hsound := Sound.reachable (hstart ▸ schedule.reachable_of_le (Nat.zero_le later))
  rw [← hconfig] at hdistinct ⊢
  exact ⟨hstays, hstill, hsound.serves hstays hstill hdistinct⟩

end Managed

end TcpMonitor.ManagerProgress
