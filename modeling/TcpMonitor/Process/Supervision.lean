import TcpMonitor.Process.FairRuns

/-!
# Supervision and exit

`main` waits for a signal and for its three tasks, and `server::run` for the
shutdown and for its own three.  Any of these tasks can fail at any moment, and
the `select!`s poll one branch after the other while the tasks go on.  No join
handle is polled again once it has given its result, and the exit code says
whether a signal ended the process and both tasks that were joined returned.
-/

namespace TcpMonitor.Supervision

open TcpMonitor.TransitionSystem
open TcpMonitor.TaskPool
open TcpMonitor.Simulation
open TcpMonitor.Runtime
open TcpMonitor.Configuration
open TcpMonitor.MetricFamilies
open TcpMonitor.Handshake
open TcpMonitor.PeerManager
open TcpMonitor.PeerPool
open TcpMonitor.ManagerProgress
open TcpMonitor.WholeProcess
open TcpMonitor.WholeProcess.Process
open TcpMonitor.SettingsInForce
open TcpMonitor.TwoSides
open TcpMonitor.FairRuns

/-! ## Handles and tasks -/

/-- How a task has ended; it has failed if its handle gives a `JoinError`. -/
inductive Ending where
  | returned
  | failed
  deriving DecidableEq

/-- A join handle: its task runs, has ended, or has ended and the handle has
given the result. -/
inductive Handle where
  | running
  | ended (ending : Ending)
  | taken (ending : Ending)
  deriving DecidableEq

def Handle.ending : Handle → Option Ending
  | running => none
  | ended ending | taken ending => some ending

/-- The tasks that `main` holds a handle to. -/
inductive MainTask where
  | server
  | clientManager
  | metricsServer
  deriving DecidableEq

/-- The tasks that `server::run` spawns. -/
inductive Child where
  | heartbeatLoop
  | probeLoop
  | configWatcher
  deriving DecidableEq

/-- A branch of the `select!` in `server::run`. -/
inductive Branch where
  | cancelled
  | ended (child : Child)
  deriving DecidableEq

/-- The branches in the order in which a pass polls them. -/
def branches : List Branch :=
  [.cancelled, .ended .heartbeatLoop, .ended .probeLoop, .ended .configWatcher]

/-- What `main` knows once it has left its `select!`: the task that stopped
early, the tasks it has still to go through, and the exit code so far, which is
success if `exit` is true. -/
structure Leaving where
  early : Option (MainTask × Ending)
  waiting : List MainTask
  exit : Bool
  deriving DecidableEq

/-- Another task was joined; the exit code stays a success if it returned. -/
def Leaving.joined (leaving : Leaving) (rest : List MainTask) (ending : Ending) : Leaving where
  early := leaving.early
  waiting := rest
  exit := leaving.exit && decide (ending = .returned)

/-- Where `main` stands; it has crashed if it polled a handle once too often. -/
inductive MainPoint where
  | selecting
  | leaving (leaving : Leaving)
  | exited (leaving : Leaving)
  | crashed
  deriving DecidableEq

/-- The process is there as long as `main` is. -/
def MainPoint.runs : MainPoint → Bool
  | selecting | .leaving _ => true
  | exited _ | crashed => false

/-- The process and who watches over it.  `unpolled` are the branches that the
current pass of `server::run` has not polled yet.  `report` and `misused` are
history variables: the task that `server::run` has reported, and whether a handle
was polled after it had given its result. -/
structure Supervised (F64 : Type) where
  process : Process F64
  handle : MainTask → Handle
  child : Child → Handle
  unpolled : List Branch
  main : MainPoint
  report : Option (Child × Ending)
  misused : Bool

/-- What happens next: a step of the process, the end of a task, one poll of
`server::run`, a signal, or `main` looks at a handle. -/
inductive SupervisedEvent (F64 : Type) where
  | process (event : ProcessEvent F64)
  | childEnds (child : Child) (ending : Ending)
  | taskEnds (task : MainTask) (ending : Ending)
  | pollServer
  | signal
  | stoppedEarly (task : MainTask)
  | join

namespace Supervised

section Views

variable {F64 : Type}

def setHandle (state : Supervised F64) (task : MainTask) (handle : Handle) : Supervised F64 :=
  { state with handle := Function.update state.handle task handle }

def setChild (state : Supervised F64) (child : Child) (handle : Handle) : Supervised F64 :=
  { state with child := Function.update state.child child handle }

/-- The task of this step still runs; only `main` cancels. -/
def runs (state : Supervised F64) : ProcessEvent F64 → Bool
  | .shutdown => false
  | .outbound (.outside (.manage _)) => state.handle .clientManager = .running
  | .inbound (.outside .accept) => state.child .heartbeatLoop = .running
  | .acceptProbe => state.child .probeLoop = .running
  | .watch _ => state.child .configWatcher = .running
  | _ => true

/-- The accept loops return when they are cancelled, and `watch_config` at its
end. -/
def childReturns (state : Supervised F64) : Child → Bool
  | .heartbeatLoop | .probeLoop => state.process.manager.cancel
  | .configWatcher => state.process.watcher = .stopped

/-- `server::run` returns from its `select!` only, and `axum::serve` may return
at any time. -/
def taskReturns (state : Supervised F64) : MainTask → Bool
  | .server => false
  | .clientManager => state.process.manager.point = .exited
  | .metricsServer => true

/-- One poll in `server::run`; between two polls the tasks go on. -/
def pollServer (state : Supervised F64) : Option (Supervised F64) :=
  if state.handle .server = .running then
    match state.unpolled with
    | [] => some { state with unpolled := branches }
    | .cancelled :: rest =>
        if state.process.manager.cancel then some (state.setHandle .server (.ended .returned))
        else some { state with unpolled := rest }
    | .ended child :: rest =>
        match state.child child with
        | .running => some { state with unpolled := rest }
        | .ended ending =>
            let state := { state with report := some (child, ending) }
            some ((state.setChild child (.taken ending)).setHandle .server (.ended .returned))
        | .taken _ => some ({ state with misused := true }.setHandle .server (.ended .failed))
  else none

/-- The loop over the handles after the shutdown; a task that stopped early is
not awaited again. -/
def joinNext (state : Supervised F64) (leaving : Leaving) : Option (Supervised F64) :=
  match leaving.waiting with
  | [] => some { state with main := .exited leaving }
  | task :: rest =>
      if leaving.early.map Prod.fst = some task then
        some { state with main := .leaving { leaving with waiting := rest } }
      else
        match state.handle task with
        | .running => none
        | .ended ending =>
            some ({ state with main := .leaving (leaving.joined rest ending) }.setHandle task
              (.taken ending))
        | .taken _ => some { state with main := .crashed, misused := true }

end Views

section System

variable {F64 : Type} [UnicodeTables] [WallClock F64] [SocketAddrParser] [TomlParser]

/-- `main` after its `select!`: it cancels and drops its sender.  The metrics
server, which it aborts, is one that may end at any time. -/
def shutDown (path : String) (state : Supervised F64) (early : Option (MainTask × Ending)) :
    Option (Supervised F64) :=
  (Process.step path state.process .shutdown).map fun process =>
    { state with
      process := process
      main := .leaving ⟨early, [.server, .clientManager], early.isNone⟩ }

/-- `main` looks at a handle in its `select!`. -/
def stoppedEarly (path : String) (state : Supervised F64) (task : MainTask) :
    Option (Supervised F64) :=
  match state.handle task with
  | .running => none
  | .ended ending => (state.setHandle task (.taken ending)).shutDown path (some (task, ending))
  | .taken _ => some { state with main := .crashed, misused := true }

/-- `main` and `server::run` around the process. -/
def step (path : String) (state : Supervised F64) (event : SupervisedEvent F64) :
    Option (Supervised F64) :=
  if state.main.runs then
    match event with
    | .process event =>
        if state.runs event then
          (Process.step path state.process event).map fun process =>
            { state with process := process }
        else none
    | .childEnds child ending =>
        if state.child child = .running ∧
            (ending = .returned → state.childReturns child = true) then
          some (state.setChild child (.ended ending))
        else none
    | .taskEnds task ending =>
        if state.handle task = .running ∧
            (ending = .returned → state.taskReturns task = true) then
          some (state.setHandle task (.ended ending))
        else none
    | .pollServer => state.pollServer
    | .signal => if state.main = .selecting then state.shutDown path none else none
    | .stoppedEarly task => if state.main = .selecting then state.stoppedEarly path task else none
    | .join =>
        match state.main with
        | .leaving leaving => state.joinNext leaving
        | _ => none
  else none

/-- All tasks have been spawned. -/
def start (F64 : Type) (config : Config) : Supervised F64 where
  process := Process.start F64 config
  handle := fun _ => .running
  child := fun _ => .running
  unpolled := branches
  main := .selecting
  report := none
  misused := false

end System

end Supervised

/-! ## What a step can be -/

section Steps

variable {F64 : Type} [UnicodeTables] [WallClock F64] [SocketAddrParser] [TomlParser]
variable {state next : Supervised F64} {path : String}

open Supervised

/-- Everything a step can be. -/
inductive SupervisedStep (path : String) (state : Supervised F64) : Supervised F64 → Prop
  | process {event process} (hruns : state.runs event = true)
      (hstep : Process.step path state.process event = some process) :
      SupervisedStep path state { state with process := process }
  | childEnds {child ending} (hrunning : state.child child = .running)
      (hreturned : ending = .returned → state.childReturns child = true) :
      SupervisedStep path state (state.setChild child (.ended ending))
  | taskEnds {task ending} (hrunning : state.handle task = .running)
      (hreturned : ending = .returned → state.taskReturns task = true) :
      SupervisedStep path state (state.setHandle task (.ended ending))
  | polled {unpolled} : SupervisedStep path state { state with unpolled := unpolled }
  | cancelled (hrunning : state.handle .server = .running)
      (hcancel : state.process.manager.cancel = true) :
      SupervisedStep path state (state.setHandle .server (.ended .returned))
  | reports {child ending} (hrunning : state.handle .server = .running)
      (hended : state.child child = .ended ending) :
      SupervisedStep path state
        (({ state with report := some (child, ending) }.setChild child (.taken ending)).setHandle
          .server (.ended .returned))
  | polledAgain {child ending} (hrunning : state.handle .server = .running)
      (htaken : state.child child = .taken ending) :
      SupervisedStep path state ({ state with misused := true }.setHandle .server (.ended .failed))
  | signalled {process} (hselecting : state.main = .selecting)
      (hstep : Process.step path state.process .shutdown = some process) :
      SupervisedStep path state { state with
        process := process
        main := .leaving ⟨none, [.server, .clientManager], true⟩ }
  | stoppedEarly {task ending process} (hselecting : state.main = .selecting)
      (hended : state.handle task = .ended ending)
      (hstep : Process.step path state.process .shutdown = some process) :
      SupervisedStep path state { state.setHandle task (.taken ending) with
        process := process
        main := .leaving ⟨some (task, ending), [.server, .clientManager], false⟩ }
  | awaitedAgain {task ending} (htaken : state.handle task = .taken ending)
      (hopen : state.main = .selecting ∨ ∃ leaving rest, state.main = .leaving leaving ∧
        leaving.waiting = task :: rest ∧ leaving.early.map Prod.fst ≠ some task) :
      SupervisedStep path state { state with main := .crashed, misused := true }
  | exits {leaving} (hmain : state.main = .leaving leaving) (hdone : leaving.waiting = []) :
      SupervisedStep path state { state with main := .exited leaving }
  | skips {leaving task rest} (hmain : state.main = .leaving leaving)
      (hwaiting : leaving.waiting = task :: rest)
      (hearly : leaving.early.map Prod.fst = some task) :
      SupervisedStep path state { state with main := .leaving { leaving with waiting := rest } }
  | joins {leaving task rest ending} (hmain : state.main = .leaving leaving)
      (hwaiting : leaving.waiting = task :: rest)
      (hearly : leaving.early.map Prod.fst ≠ some task)
      (hended : state.handle task = .ended ending) :
      SupervisedStep path state
        ({ state with main := .leaving (leaving.joined rest ending) }.setHandle task
          (.taken ending))

theorem supervisedStep_of_pollServer (hstep : state.pollServer = some next) :
    SupervisedStep path state next := by
  obtain ⟨hrunning, hpoll⟩ := Option.ite_none_right_eq_some.mp hstep
  split at hpoll
  · cases hpoll
    exact .polled
  · split at hpoll
    · next hcancel =>
        cases hpoll
        exact .cancelled hrunning hcancel
    · cases hpoll
      exact .polled
  · split at hpoll
    · cases hpoll
      exact .polled
    · next hended =>
        cases hpoll
        exact .reports hrunning hended
    · next htaken =>
        cases hpoll
        exact .polledAgain hrunning htaken

theorem supervisedStep_of_joinNext {leaving : Leaving} (hmain : state.main = .leaving leaving)
    (hstep : state.joinNext leaving = some next) : SupervisedStep path state next := by
  unfold joinNext at hstep
  split at hstep
  · next hdone =>
      cases hstep
      exact .exits hmain hdone
  · next task rest hwaiting =>
      split at hstep
      · next hearly =>
          cases hstep
          exact .skips hmain hwaiting hearly
      · next hearly =>
          split at hstep
          · cases hstep
          · next hended =>
              cases hstep
              exact .joins hmain hwaiting hearly hended
          · next htaken =>
              cases hstep
              exact .awaitedAgain htaken (Or.inr ⟨leaving, rest, hmain, hwaiting, hearly⟩)

theorem supervisedStep_of_step {event : SupervisedEvent F64}
    (hstep : Supervised.step path state event = some next) : SupervisedStep path state next := by
  obtain ⟨-, hstep⟩ := Option.ite_none_right_eq_some.mp hstep
  cases event with
  | process event =>
      obtain ⟨hruns, hstep⟩ := Option.ite_none_right_eq_some.mp hstep
      obtain ⟨process, hprocess, rfl⟩ := Option.map_eq_some_iff.mp hstep
      exact .process hruns hprocess
  | childEnds child ending =>
      obtain ⟨⟨hrunning, hreturned⟩, heq⟩ := Option.ite_none_right_eq_some.mp hstep
      cases heq
      exact .childEnds hrunning hreturned
  | taskEnds task ending =>
      obtain ⟨⟨hrunning, hreturned⟩, heq⟩ := Option.ite_none_right_eq_some.mp hstep
      cases heq
      exact .taskEnds hrunning hreturned
  | pollServer => exact supervisedStep_of_pollServer hstep
  | signal =>
      obtain ⟨hselecting, hstep⟩ := Option.ite_none_right_eq_some.mp hstep
      obtain ⟨process, hprocess, rfl⟩ := Option.map_eq_some_iff.mp hstep
      exact .signalled hselecting hprocess
  | stoppedEarly task =>
      obtain ⟨hselecting, hstep⟩ := Option.ite_none_right_eq_some.mp hstep
      unfold Supervised.stoppedEarly at hstep
      split at hstep
      · cases hstep
      · next hended =>
          obtain ⟨process, hprocess, rfl⟩ := Option.map_eq_some_iff.mp hstep
          exact .stoppedEarly hselecting hended hprocess
      · next htaken =>
          cases hstep
          exact .awaitedAgain htaken (Or.inl hselecting)
  | join =>
      dsimp only at hstep
      split at hstep
      · next hmain => exact supervisedStep_of_joinNext hmain hstep
      · cases hstep

/-! ## The process under supervision -/

/-- The process makes a step of its own or none. -/
theorem follows_process (F64 : Type) [WallClock F64] (path : String) :
    Follows (Supervised.step path) (Process.step path) (fun _ : Supervised F64 => True)
      Supervised.process where
  keeps _ _ := trivial
  follows {state label next} _ hstep := by
    have hcases : SupervisedStep path state next := supervisedStep_of_step hstep
    cases hcases with
    | process _ hprocess => exact Or.inr ⟨_, hprocess⟩
    | signalled _ hprocess => exact Or.inr ⟨_, hprocess⟩
    | stoppedEarly _ _ hprocess => exact Or.inr ⟨_, hprocess⟩
    | childEnds | taskEnds | polled | cancelled | reports | polledAgain | awaitedAgain | exits
    | skips | joins => exact Or.inl rfl

theorem process_of_reachable {config : Config}
    (hreach : Reachable (Supervised.step path) (Supervised.start F64 config) state) :
    Reachable (Process.step path) (Process.start F64 config) state.process :=
  (follows_process F64 path).reachable trivial hreach

/-- A manager that has returned was told to. -/
theorem cancel_of_exited {config : Config} {process : Process F64}
    (hreach : Reachable (Process.step path) (Process.start F64 config) process)
    (hexited : process.manager.point = .exited) : process.manager.cancel = true := by
  have hview := (follows_outbound F64 config.node.name path).reachable (sided_start config) hreach
  have hdeparted : Departed (outboundView process).shared.manager.point := by
    rw [show (outboundView process).shared.manager.point = .exited from hexited]
    trivial
  rcases (orderly_of_reachable hview).requested hdeparted with hcancel | hclosed
  · exact hcancel
  · exact (upToDate_of_reachable hreach).closed hclosed

/-- Only `main` cancels, and a manager that has returned does not come back. -/
theorem process_kept {event : ProcessEvent F64} {process : Process F64}
    (hruns : state.runs event = true)
    (hstep : Process.step path state.process event = some process) :
    process.manager.cancel = state.process.manager.cancel ∧
      (state.process.manager.point = .exited → process.manager.point = .exited) := by
  cases event with
  | outbound move =>
      obtain ⟨hown, pool, hpool, rfl⟩ := step_outbound hstep
      have hsettings := outbound_settings hown hpool
      refine ⟨hsettings.cancel, fun hexited => ?_⟩
      by_contra hrunning
      exact hsettings.running hrunning hexited
  | inbound move =>
      obtain ⟨-, pool, -, rfl⟩ := step_inbound hstep
      exact ⟨rfl, id⟩
  | shutdown => cases hruns
  | acceptProbe =>
      simp only [Process.step] at hstep
      split at hstep <;> cases hstep <;> exact ⟨rfl, id⟩
  | probe index input =>
      obtain ⟨probe, probe', -, -, rfl⟩ := step_probe_eq_some.mp hstep
      exact ⟨rfl, id⟩
  | sighup contents =>
      obtain ⟨-, heq⟩ := Option.ite_none_right_eq_some.mp hstep
      cases heq
      have hframe := (@frame_watchSighup _ _ _ state.process path contents).1
      refine ⟨?_, fun hexited => hframe.point.trans hexited⟩
      rw [watchSighup]
      split
      · rfl
      · dsimp only
        split <;> rfl
  | sighupEnds =>
      cases hstep
      exact ⟨rfl, id⟩
  | watch input =>
      have hwatch := watcherStep_of_watchConfig hstep
      cases hwatch <;> exact ⟨rfl, id⟩
  | closeChannel =>
      obtain ⟨-, heq⟩ := Option.ite_none_right_eq_some.mp hstep
      cases heq
      exact ⟨rfl, id⟩

end Steps

/-! ## What supervision keeps -/

section Invariant

variable {F64 : Type} {state next : Supervised F64} {leaving : Leaving}

open Supervised

/-- Why a task can have stopped before the shutdown: the manager has failed, and
the server has failed or reported a task of its own that has. -/
def Cause (state : Supervised F64) : MainTask → Ending → Prop
  | .clientManager, ending => ending = .failed
  | .server, .returned => ∃ child, state.report = some (child, .failed)
  | .server, .failed | .metricsServer, _ => True

/-- The loop over the handles: it has `done` some, and the others have not given
their results yet, save that of the task that stopped early. -/
structure Leaves (state : Supervised F64) (leaving : Leaving) : Prop where
  early : ∀ task ending, leaving.early = some (task, ending) →
    state.handle task = .taken ending ∧ Cause state task ending
  waiting : ∀ task ∈ leaving.waiting, leaving.early.map Prod.fst ≠ some task →
    ∀ ending, state.handle task ≠ .taken ending
  done : ∃ done, [.server, .clientManager] = done ++ leaving.waiting ∧
    (∀ task ∈ done, ∃ ending, state.handle task = .taken ending) ∧
    (leaving.exit = true ↔
      leaving.early = none ∧ ∀ task ∈ done, state.handle task = .taken .returned)

/-- What holds of the handles where `main` stands. -/
def MainSound (state : Supervised F64) : MainPoint → Prop
  | .selecting => ∀ task ending, state.handle task ≠ .taken ending
  | .leaving leaving => Leaves state leaving
  | .exited leaving => Leaves state leaving ∧ leaving.waiting = []
  | .crashed => False

/-- The invariant of supervision. -/
structure Supervises (state : Supervised F64) : Prop where
  misused : state.misused = false
  cancel : state.process.manager.cancel = true ↔ state.main ≠ .selecting
  childReturned : ∀ child, (state.child child).ending = some .returned →
    state.process.manager.cancel = true
  childTaken : ∀ child ending, state.child child = .taken ending →
    (state.handle .server).ending ≠ none
  report : ∀ child, state.report = some (child, .returned) → state.process.manager.cancel = true
  serverReturned : (state.handle .server).ending = some .returned →
    state.process.manager.cancel = true ∨ ∃ child, state.report = some (child, .failed)
  managerReturned : (state.handle .clientManager).ending = some .returned →
    state.process.manager.point = .exited
  main : MainSound state state.main

/-- The same handles have given their results. -/
structure SameTaken (state next : Supervised F64) : Prop where
  taken : ∀ task ending, next.handle task = .taken ending ↔ state.handle task = .taken ending
  report : ∀ ending, state.handle .server = .taken ending → next.report = state.report

theorem Leaves.of_sameTaken (hleaves : Leaves state leaving) (hsame : SameTaken state next) :
    Leaves next leaving where
  early task ending hearly := by
    obtain ⟨htaken, hcause⟩ := hleaves.early task ending hearly
    refine ⟨(hsame.taken task ending).mpr htaken, ?_⟩
    cases task with
    | clientManager => exact hcause
    | metricsServer => trivial
    | server =>
        cases ending with
        | failed => trivial
        | returned =>
            obtain ⟨child, hreport⟩ := hcause
            exact ⟨child, (hsame.report _ htaken).trans hreport⟩
  waiting task hmem hearly ending htaken :=
    hleaves.waiting task hmem hearly ending ((hsame.taken task ending).mp htaken)
  done := by
    simpa only [hsame.taken] using hleaves.done

theorem MainSound.of_sameTaken {point : MainPoint} (hmain : MainSound state point)
    (hsame : SameTaken state next) : MainSound next point := by
  cases point with
  | selecting =>
      intro task ending htaken
      exact hmain task ending ((hsame.taken task ending).mp htaken)
  | leaving leaving => exact Leaves.of_sameTaken hmain hsame
  | exited leaving => exact ⟨hmain.1.of_sameTaken hsame, hmain.2⟩
  | crashed => exact hmain

/-- A task that ends gives no result yet. -/
theorem sameTaken_setHandle {task : MainTask} {ending : Ending}
    (hrunning : state.handle task = .running) :
    SameTaken state (state.setHandle task (.ended ending)) where
  taken task' ending' := by
    by_cases htask : task' = task
    · subst htask
      simp [setHandle, hrunning]
    · simp [setHandle, htask]
  report _ _ := rfl

/-- What a handle says about the end of its task. -/
theorem ending_setHandle (state : Supervised F64) (task task' : MainTask) (handle : Handle) :
    ((state.setHandle task handle).handle task').ending =
      if task' = task then handle.ending else (state.handle task').ending := by
  by_cases htask : task' = task
  · subst htask
    simp [setHandle]
  · simp [setHandle, htask]

theorem ending_setChild (state : Supervised F64) (child child' : Child) (handle : Handle) :
    ((state.setChild child handle).child child').ending =
      if child' = child then handle.ending else (state.child child').ending := by
  by_cases hchild : child' = child
  · subst hchild
    simp [setChild]
  · simp [setChild, hchild]

/-- The task that stopped early has given its result, and the loop has all
handles before it. -/
theorem leaves_first {early : Option (MainTask × Ending)}
    (hearly : ∀ task ending, early = some (task, ending) →
      state.handle task = .taken ending ∧ Cause state task ending)
    (hothers : ∀ task, early.map Prod.fst ≠ some task →
      ∀ ending, state.handle task ≠ .taken ending) :
    Leaves state ⟨early, [.server, .clientManager], early.isNone⟩ where
  early := hearly
  waiting task _ := hothers task
  done := ⟨[], rfl, nofun, by simp⟩

theorem Leaves.skip (hleaves : Leaves state leaving) {task : MainTask} {rest : List MainTask}
    (hwaiting : leaving.waiting = task :: rest) (hearly : leaving.early.map Prod.fst = some task) :
    Leaves state { leaving with waiting := rest } where
  early := hleaves.early
  waiting task' hmem := hleaves.waiting task' (hwaiting ▸ List.mem_cons_of_mem task hmem)
  done := by
    obtain ⟨done, hsplit, hdone, hexit⟩ := hleaves.done
    obtain ⟨⟨task', ending⟩, heq, rfl⟩ := Option.map_eq_some_iff.mp hearly
    obtain ⟨htaken, -⟩ := hleaves.early task' ending heq
    refine ⟨done ++ [task'], ?_, ?_, ?_⟩
    · rw [hsplit, hwaiting, List.append_assoc]
      rfl
    · intro other hmem
      rcases List.mem_append.mp hmem with hbefore | hlast
      · exact hdone other hbefore
      · rw [List.mem_singleton.mp hlast]
        exact ⟨ending, htaken⟩
    · -- the exit code is a failure already
      rw [hexit, heq]
      simp

theorem Leaves.join (hleaves : Leaves state leaving) {task : MainTask} {rest : List MainTask}
    (ending : Ending) (hwaiting : leaving.waiting = task :: rest)
    (hearly : leaving.early.map Prod.fst ≠ some task) :
    Leaves (state.setHandle task (.taken ending)) (leaving.joined rest ending) := by
  obtain ⟨done, hsplit, hdone, hexit⟩ := hleaves.done
  rw [hwaiting] at hsplit
  have hnodup : (done ++ task :: rest).Nodup := by
    rw [← hsplit]
    decide
  have hrest : task ∉ rest := (List.nodup_cons.mp hnodup.of_append_right).1
  have hbefore : ∀ other ∈ done, other ≠ task := by
    rintro other hmem rfl
    exact List.disjoint_of_nodup_append hnodup hmem List.mem_cons_self
  have hsame : ∀ other, other ≠ task →
      (state.setHandle task (.taken ending)).handle other = state.handle other := fun other hne =>
    Function.update_of_ne hne _ _
  have htaken : (state.setHandle task (.taken ending)).handle task = .taken ending :=
    Function.update_self _ _ _
  constructor
  case early =>
    intro other ending' heq
    have hne : other ≠ task := by
      rintro rfl
      exact hearly (by rw [show leaving.early = some (other, ending') from heq]; rfl)
    obtain ⟨hother, hcause⟩ := hleaves.early other ending' heq
    refine ⟨(hsame other hne).trans hother, ?_⟩
    cases other <;> cases ending' <;> exact hcause
  case waiting =>
    intro other hmem hother ending' heq
    have hne : other ≠ task := fun heq => hrest (heq ▸ hmem)
    rw [hsame other hne] at heq
    exact hleaves.waiting other (hwaiting ▸ List.mem_cons_of_mem task hmem) hother ending' heq
  case done =>
    refine ⟨done ++ [task], ?_, ?_, ?_⟩
    · rw [hsplit, List.append_assoc]
      rfl
    · intro other hmem
      rcases List.mem_append.mp hmem with hmem | hlast
      · obtain ⟨ending', hother⟩ := hdone other hmem
        exact ⟨ending', (hsame other (hbefore other hmem)).trans hother⟩
      · rw [List.mem_singleton.mp hlast]
        exact ⟨ending, htaken⟩
    · have hall : (∀ other ∈ done ++ [task],
          (state.setHandle task (.taken ending)).handle other = .taken .returned) ↔
            (∀ other ∈ done, state.handle other = .taken .returned) ∧ ending = .returned := by
        rw [List.forall_mem_append, List.forall_mem_singleton, htaken, Handle.taken.injEq]
        refine and_congr_left fun _ => forall_congr' fun other => forall_congr' fun hmem => ?_
        rw [hsame other (hbefore other hmem)]
      rw [hall, Leaving.joined, Bool.and_eq_true, hexit, decide_eq_true_iff, and_assoc]

/-- Taking a result changes nothing about how the tasks have ended. -/
theorem ending_take {task : MainTask} {ending : Ending} (hended : state.handle task = .ended ending)
    (task' : MainTask) : ((state.setHandle task (.taken ending)).handle task').ending =
      (state.handle task').ending := by
  rw [ending_setHandle]
  split
  · next heq =>
      rw [heq, hended]
      rfl
  · rfl

theorem supervises_start (config : Config) : Supervises (Supervised.start F64 config) where
  misused := rfl
  cancel := by simp [Supervised.start, Process.start, startManager]
  childReturned := nofun
  childTaken := nofun
  report := nofun
  serverReturned := nofun
  managerReturned := nofun
  main := nofun

/-- Steps in which no task ends: what they have to show is where `main` stands. -/
theorem Supervises.of_endings (hinv : Supervises state) (hmisused : next.misused = state.misused)
    (hchild : next.child = state.child) (hreport : next.report = state.report)
    (hendings : ∀ task, (next.handle task).ending = (state.handle task).ending)
    (hkept : state.process.manager.cancel = true → next.process.manager.cancel = true)
    (hexited : state.process.manager.point = .exited → next.process.manager.point = .exited)
    (hcancel : next.process.manager.cancel = true ↔ next.main ≠ .selecting)
    (hmain : MainSound next next.main) : Supervises next where
  misused := hmisused.trans hinv.misused
  cancel := hcancel
  childReturned child hended := hkept (hinv.childReturned child (hchild ▸ hended))
  childTaken child ending heq := by
    rw [hendings]
    exact hinv.childTaken child ending (hchild ▸ heq)
  report child heq := hkept (hinv.report child (hreport.symm.trans heq))
  serverReturned hended := by
    rw [hendings] at hended
    rw [hreport]
    exact (hinv.serverReturned hended).imp_left hkept
  managerReturned hended := by
    rw [hendings] at hended
    exact hexited (hinv.managerReturned hended)
  main := hmain

/-- The end of a task, if there is a reason for it to return. -/
theorem Supervises.ends (hinv : Supervises state) {task : MainTask} {ending : Ending}
    (hrunning : state.handle task = .running)
    (hserver : task = .server → ending = .returned →
      state.process.manager.cancel = true ∨ ∃ child, state.report = some (child, .failed))
    (hmanager : task = .clientManager → ending = .returned →
      state.process.manager.point = .exited) :
    Supervises (state.setHandle task (.ended ending)) where
  misused := hinv.misused
  cancel := hinv.cancel
  childReturned := hinv.childReturned
  childTaken child ending' heq := by
    rw [ending_setHandle]
    split
    · exact nofun
    · exact hinv.childTaken child ending' heq
  report := hinv.report
  serverReturned hended := by
    rw [ending_setHandle] at hended
    split at hended
    · next heq => exact hserver heq.symm (Option.some.inj hended)
    · exact hinv.serverReturned hended
  managerReturned hended := by
    rw [ending_setHandle] at hended
    split at hended
    · next heq => exact hmanager heq.symm (Option.some.inj hended)
    · exact hinv.managerReturned hended
  main := hinv.main.of_sameTaken (sameTaken_setHandle hrunning)

theorem Supervises.childEnds (hinv : Supervises state) {child : Child} {ending : Ending}
    (hrunning : state.child child = .running)
    (hreturned : ending = .returned → state.process.manager.cancel = true) :
    Supervises (state.setChild child (.ended ending)) where
  misused := hinv.misused
  cancel := hinv.cancel
  childReturned child' hended := by
    rw [ending_setChild] at hended
    split at hended
    · exact hreturned (Option.some.inj hended)
    · exact hinv.childReturned child' hended
  childTaken child' ending' heq := by
    refine hinv.childTaken child' ending' ?_
    by_cases hsame : child' = child
    · subst hsame
      simp [setChild] at heq
    · simpa [setChild, hsame] using heq
  report := hinv.report
  serverReturned := hinv.serverReturned
  managerReturned := hinv.managerReturned
  main := hinv.main.of_sameTaken ⟨fun _ _ => Iff.rfl, fun _ _ => rfl⟩

/-- `server::run` reports a task.  It is one that has failed, or the shutdown has
begun between two polls. -/
theorem Supervises.reports (hinv : Supervises state) {child : Child} {ending : Ending}
    (hrunning : state.handle .server = .running) (hended : state.child child = .ended ending) :
    Supervises (({ state with report := some (child, ending) }.setChild child
      (.taken ending)).setHandle .server (.ended .returned)) where
  misused := hinv.misused
  cancel := hinv.cancel
  childReturned child' hended' := by
    refine hinv.childReturned child' ?_
    rw [show ∀ state : Supervised F64, (state.setHandle .server (.ended .returned)).child =
      state.child from fun _ => rfl, ending_setChild] at hended'
    split at hended'
    · next heq =>
        rw [heq, hended]
        exact hended'
    · exact hended'
  childTaken _ _ _ := by
    rw [ending_setHandle, if_pos rfl]
    exact nofun
  report child' heq := by
    cases heq
    exact hinv.childReturned child (by rw [hended]; rfl)
  serverReturned _ := by
    cases ending with
    | returned => exact Or.inl (hinv.childReturned child (by rw [hended]; rfl))
    | failed => exact Or.inr ⟨child, rfl⟩
  managerReturned := hinv.managerReturned
  main := by
    refine hinv.main.of_sameTaken ⟨(sameTaken_setHandle hrunning).taken, ?_⟩
    intro ending' htaken
    rw [hrunning] at htaken
    cases htaken

/-- When `main` has left its loop, both handles have given their results, and the
exit code is a success if nothing stopped early and both tasks returned. -/
theorem Leaves.exit_iff (hleaves : Leaves state leaving) (hdone : leaving.waiting = []) :
    (∃ server manager, state.handle .server = .taken server ∧
        state.handle .clientManager = .taken manager) ∧
      (leaving.exit = true ↔ leaving.early = none ∧ state.handle .server = .taken .returned ∧
        state.handle .clientManager = .taken .returned) := by
  obtain ⟨done, hsplit, htaken, hexit⟩ := hleaves.done
  rw [hdone, List.append_nil] at hsplit
  subst hsplit
  obtain ⟨server, hserver⟩ := htaken .server (by simp)
  obtain ⟨manager, hmanager⟩ := htaken .clientManager (by simp)
  exact ⟨⟨server, manager, hserver, hmanager⟩, by simpa using hexit⟩

/-- What stops while nobody has cancelled has failed, or lost a task of its own. -/
theorem Supervises.cause (hinv : Supervises state) (hselecting : state.main = .selecting)
    (hmanager : state.process.manager.point = .exited → state.process.manager.cancel = true)
    {task : MainTask} {ending : Ending} (hended : state.handle task = .ended ending) :
    Cause state task ending := by
  have hopen : ¬state.process.manager.cancel = true := fun hcancel =>
    hinv.cancel.mp hcancel hselecting
  have hending : (state.handle task).ending = some ending := by
    rw [hended]
    rfl
  cases ending with
  | failed => cases task <;> trivial
  | returned =>
      cases task with
      | metricsServer => trivial
      | server => exact (hinv.serverReturned hending).resolve_left hopen
      | clientManager => exact absurd (hmanager (hinv.managerReturned hending)) hopen

variable [UnicodeTables] [WallClock F64] [SocketAddrParser] [TomlParser] {path : String}

/-- The shutdown cancels and does nothing else. -/
theorem shutdown_eq {process process' : Process F64}
    (hstep : Process.step path process .shutdown = some process') :
    process'.manager.cancel = true ∧ process'.manager.point = process.manager.point := by
  cases hstep
  exact ⟨rfl, rfl⟩

theorem supervises_step (hinv : Supervises state)
    (hwatcher : state.process.watcher = .stopped → state.process.manager.cancel = true)
    (hmanager : state.process.manager.point = .exited → state.process.manager.cancel = true)
    (hstep : SupervisedStep path state next) : Supervises next := by
  have hmain := hinv.main
  cases hstep with
  | @process event process hruns hprocess =>
      obtain ⟨hkept, hexited⟩ := process_kept hruns hprocess
      refine hinv.of_endings rfl rfl rfl (fun _ => rfl) hkept.trans hexited ?_ ?_
      · rw [hkept]
        exact hinv.cancel
      · exact hmain.of_sameTaken ⟨fun _ _ => Iff.rfl, fun _ _ => rfl⟩
  | @childEnds child ending hrunning hreturns =>
      refine hinv.childEnds hrunning fun heq => ?_
      -- the accept loops return on the shutdown, `watch_config` at its end
      have hreturn := hreturns heq
      cases child with
      | heartbeatLoop | probeLoop => exact hreturn
      | configWatcher => exact hwatcher (of_decide_eq_true hreturn)
  | @taskEnds task ending hrunning hreturns =>
      refine hinv.ends hrunning ?_ ?_
      · rintro rfl heq
        cases hreturns heq
      · rintro rfl heq
        exact of_decide_eq_true (hreturns heq)
  | polled =>
      exact hinv.of_endings rfl rfl rfl (fun _ => rfl) id id hinv.cancel
        (hmain.of_sameTaken ⟨fun _ _ => Iff.rfl, fun _ _ => rfl⟩)
  | cancelled hrunning hcancelled =>
      exact hinv.ends hrunning (fun _ _ => Or.inl hcancelled) nofun
  | reports hrunning hended => exact hinv.reports hrunning hended
  | @polledAgain child ending hrunning hagain =>
      exact absurd (by rw [hrunning]; rfl) (hinv.childTaken child ending hagain)
  | @signalled process hselecting hprocess =>
      obtain ⟨hsignal, hpoint⟩ := shutdown_eq hprocess
      rw [hselecting] at hmain
      refine hinv.of_endings rfl rfl rfl (fun _ => rfl) (fun _ => hsignal) hpoint.trans ?_ ?_
      · exact iff_of_true hsignal nofun
      · exact leaves_first nofun fun task _ => hmain task
  | @stoppedEarly task ending process hselecting hended hprocess =>
      obtain ⟨hsignal, hpoint⟩ := shutdown_eq hprocess
      rw [hselecting] at hmain
      refine hinv.of_endings rfl rfl rfl (ending_take hended) (fun _ => hsignal) hpoint.trans ?_ ?_
      · exact iff_of_true hsignal nofun
      · refine leaves_first ?_ ?_
        · rintro task' ending' heq
          cases heq
          exact ⟨Function.update_self _ _ _, hinv.cause hselecting hmanager hended⟩
        · intro task' hearly ending' htaken
          have hne : task' ≠ task := by
            rintro rfl
            exact hearly rfl
          exact hmain task' ending' ((Function.update_of_ne hne _ _).symm.trans htaken)
  | @awaitedAgain task ending hagain hopen =>
      rcases hopen with hselecting | ⟨leaving, rest, hpoint, hwaiting, hearly⟩
      · rw [hselecting] at hmain
        exact absurd hagain (hmain task ending)
      · rw [hpoint] at hmain
        have hmem : task ∈ leaving.waiting := hwaiting ▸ List.mem_cons_self
        exact absurd hagain (hmain.waiting task hmem hearly ending)
  | @exits leaving hpoint hdone =>
      rw [hpoint] at hmain
      refine hinv.of_endings rfl rfl rfl (fun _ => rfl) id id ?_ ?_
      · simp [hinv.cancel, hpoint]
      · exact ⟨Leaves.of_sameTaken hmain ⟨fun _ _ => Iff.rfl, fun _ _ => rfl⟩, hdone⟩
  | @skips leaving task rest hpoint hwaiting hearly =>
      rw [hpoint] at hmain
      refine hinv.of_endings rfl rfl rfl (fun _ => rfl) id id ?_ ?_
      · simp [hinv.cancel, hpoint]
      · exact (hmain.skip hwaiting hearly).of_sameTaken ⟨fun _ _ => Iff.rfl, fun _ _ => rfl⟩
  | @joins leaving task rest ending hpoint hwaiting hearly hended =>
      rw [hpoint] at hmain
      refine hinv.of_endings rfl rfl rfl (ending_take hended) id id ?_ ?_
      · simp [setHandle, hinv.cancel, hpoint]
      · exact (hmain.join ending hwaiting hearly).of_sameTaken
          ⟨fun _ _ => Iff.rfl, fun _ _ => rfl⟩

theorem supervises_of_reachable {config : Config}
    (hreach : Reachable (Supervised.step path) (Supervised.start F64 config) state) :
    Supervises state := by
  refine hreach.invariant_of_reachable Supervises (supervises_start config) ?_
  intro state event next hreach hinv hstep
  have hprocess := process_of_reachable hreach
  exact supervises_step hinv (upToDate_of_reachable hprocess).stopped (cancel_of_exited hprocess)
    (supervisedStep_of_step hstep)

/-- Supervision of the process, whatever fails and in whatever order the tasks
step: no handle is polled again once it has given its result; nothing but `main`
cancels, when it leaves its `select!`; what stopped before that is a task that
failed, the metrics server, or the server after it has reported a failed task of
its own; a task that returns is reported only if the shutdown has begun meanwhile.
At the exit both handles have given their results, the exit code is a success
exactly after a signal with both tasks returned, and if the manager returned the
outbound side has stopped with its books balanced. -/
theorem supervised_to_the_exit {config : Config}
    (hreach : Reachable (Supervised.step path) (Supervised.start F64 config) state) :
    (state.misused = false ∧ state.main ≠ .crashed) ∧
      (state.process.manager.cancel = true ↔ state.main ≠ .selecting) ∧
      (∀ child, state.report = some (child, .returned) →
        state.process.manager.cancel = true) ∧
      (∀ leaving task ending, state.main = .leaving leaving ∨ state.main = .exited leaving →
        leaving.early = some (task, ending) → Cause state task ending) ∧
      ∀ leaving, state.main = .exited leaving →
        (∃ server manager, state.handle .server = .taken server ∧
          state.handle .clientManager = .taken manager) ∧
        (leaving.exit = true ↔ leaving.early = none ∧ state.handle .server = .taken .returned ∧
          state.handle .clientManager = .taken .returned) ∧
        (state.handle .clientManager = .taken .returned →
          Stopped (outboundView state.process)) := by
  have hinv := supervises_of_reachable hreach
  have hmain := hinv.main
  refine ⟨⟨hinv.misused, ?_⟩, hinv.cancel, hinv.report, ?_, ?_⟩
  · intro hcrashed
    rw [hcrashed] at hmain
    exact hmain
  · rintro leaving task ending (hpoint | hpoint) hearly
    · rw [hpoint] at hmain
      exact (hmain.early task ending hearly).2
    · rw [hpoint] at hmain
      exact (hmain.1.early task ending hearly).2
  · intro leaving hpoint
    rw [hpoint] at hmain
    obtain ⟨htaken, hexit⟩ := hmain.1.exit_iff hmain.2
    refine ⟨htaken, hexit, fun hreturned => ?_⟩
    have hended : (state.handle .clientManager).ending = some .returned := by
      rw [hreturned]
      rfl
    have hview := (follows_outbound F64 config.node.name path).reachable (sided_start config)
      (process_of_reachable hreach)
    exact stopped_of_exited hview (hinv.managerReturned hended)

end Invariant

/-! ## An exit -/

section Witness

local instance : SocketAddrParser := anyAddress

local instance : TomlParser := configFiles

local instance : UnicodeTables := asciiTables

/-- With a live session the signal arrives just after `server::run` has polled the
shutdown; the accept loop returns, and is the next that it polls. -/
def signalBetweenPolls : List (SupervisedEvent WholeSeconds) :=
  liveSession.map (fun move => .process (.outbound move)) ++
  [.pollServer, .signal, .childEnds .heartbeatLoop .returned, .pollServer]

/-- The manager stops the session while `main` waits for it. -/
def joinBoth : List (SupervisedEvent WholeSeconds) :=
  [.join] ++ shutDown.map .process ++
  [.taskEnds .clientManager .returned, .join, .join]

/-- A task is reported as stopped unexpectedly, and the exit is a success. -/
theorem supervised_to_the_exit_signal_between_polls :
    ∃ state, run (Supervised.step "config.toml")
        (Supervised.start WholeSeconds (configured 30)) (signalBetweenPolls ++ joinBoth) =
          some state ∧
      state.report = some (.heartbeatLoop, .returned) ∧
      state.main = .exited ⟨none, [], true⟩ ∧
      Stopped (outboundView state.process) := by
  obtain ⟨state, hrun, hview⟩ := Option.map_eq_some_iff.mp (show
    (run (Supervised.step "config.toml") (Supervised.start WholeSeconds (configured 30))
      (signalBetweenPolls ++ joinBoth)).map (fun state => (state.report, state.main)) =
        some (some (.heartbeatLoop, .returned), .exited ⟨none, [], true⟩) by decide +kernel)
  simp only [Prod.mk.injEq] at hview
  obtain ⟨hreport, hmain⟩ := hview
  obtain ⟨-, -, -, -, hexits⟩ := supervised_to_the_exit (Reachable.of_run hrun)
  obtain ⟨-, hexit, hstopped⟩ := hexits _ hmain
  exact ⟨state, hrun, hreport, hmain, hstopped (hexit.mp rfl).2.2⟩

end Witness

end TcpMonitor.Supervision
