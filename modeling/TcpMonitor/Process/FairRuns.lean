import TcpMonitor.Client.ManagerProgress
import TcpMonitor.Process.TwoSides
import TcpMonitor.Validation

/-!
# What the process comes to

Fair schedules of the whole process are fair to its outbound side, so what the
manager comes to alone it comes to in the process.  Together with the progress of
`watch_config` this says when a reload is in force everywhere, and what a
shutdown leaves behind.
-/

namespace TcpMonitor.FairRuns

open TcpMonitor.TransitionSystem
open TcpMonitor.TaskPool
open TcpMonitor.Simulation
open TcpMonitor.Liveness
open TcpMonitor.Runtime
open TcpMonitor.Configuration
open TcpMonitor.MetricFamilies
open TcpMonitor.PeerManager
open TcpMonitor.PeerPool
open TcpMonitor.Reconciliation
open TcpMonitor.TaskProgress
open TcpMonitor.ManagerProgress
open TcpMonitor.Handshake
open TcpMonitor.Validation
open TcpMonitor.WholeProcess
open TcpMonitor.WholeProcess.Process
open TcpMonitor.SettingsInForce
open TcpMonitor.TwoSides

/-! ## Fair schedules of the process -/

section Schedules

/-- The process at all instants. -/
abbrev ProcessSchedule (F64 : Type) [UnicodeTables] [WallClock F64] [SocketAddrParser]
    [TomlParser] (path : String) :=
  Execution (Process.step path : Process F64 → ProcessEvent F64 → Option (Process F64))

variable {F64 : Type}

/-- A step of the outbound side of this kind. -/
def onOutbound (kind : ClientMove F64 → Prop) (event : ProcessEvent F64) : Prop :=
  ∃ move, event = .outbound move ∧ kind move

/-- A step of `watch_config`. -/
def watching (event : ProcessEvent F64) : Prop := ∃ input, event = .watch input

/-- `watch_config` takes the branch of the shutdown signal. -/
def unwatching (event : ProcessEvent F64) : Prop := event = .watch .cancelled

variable [UnicodeTables] [WallClock F64] [SocketAddrParser] [TomlParser]
variable {path : String} {schedule : ProcessSchedule F64 path} {state : Process F64}

/-- What the runtime promises to the outbound side and to `watch_config`. -/
structure FairProcess (schedule : ProcessSchedule F64 path) : Prop where
  manages : schedule.WeaklyFair (onOutbound managing)
  leaves : schedule.StronglyFair (onOutbound leaving)
  updates : ∀ index, schedule.WeaklyFair (onOutbound (updating index))
  goesOn : ∀ index, schedule.WeaklyFair (onOutbound (goingOn index))
  stops : ∀ index, schedule.StronglyFair (onOutbound (stopping index))
  handshakes : ∀ index time, ∃ later ≥ time,
    ¬InHandshake index (schedule.state later).outbound
  watches : schedule.WeaklyFair watching
  unwatches : schedule.StronglyFair unwatching

omit [UnicodeTables] [SocketAddrParser] [TomlParser] in
/-- The outbound side can make the same steps whether or not it sees the set of
inbound peers. -/
theorem step_of_hidePeers {pool next : Peers F64} {move : ClientMove F64}
    (hstep : TaskPool.step (PeerPool.program F64) (hidePeers pool) move = some next) :
    ∃ next', TaskPool.step (PeerPool.program F64) pool move = some next' := by
  cases move with
  | flush index =>
      obtain ⟨control, update, rest, made, hget, -⟩ := step_flush_eq_some.mp hstep
      exact ⟨_, step_flush_eq_some.mpr ⟨control, update, rest, made, hget, rfl⟩⟩
  | act index input =>
      obtain ⟨control, made, shared, control', updates, hget, hact, -⟩ :=
        step_act_eq_some.mp hstep
      obtain ⟨-, -, hallowed⟩ := PeerPool.act_eq_some hact
      have hrun := act_runPeerLoop hact
      have hnot : ¬(input.2 = .cancelled ∧ index ∉ pool.shared.cancelled) :=
        fun hrefused => hrefused.2 (hallowed hrefused.1)
      refine ⟨_, step_act_eq_some.mpr
        ⟨control, made, pool.shared, control', updates, hget, ?_, rfl⟩⟩
      simp only [PeerPool.program, if_neg hnot, hrun, Option.map_some]
  | outside event =>
      obtain ⟨shared, spawned, houtside, -⟩ := step_outside_eq_some.mp hstep
      have hresult : ∃ result, (PeerPool.program F64).outside pool event = some result := by
        cases event with
        | manage input =>
            obtain ⟨after, hrun, -⟩ := Option.map_eq_some_iff.mp houtside
            exact ⟨_, Option.map_eq_some_iff.mpr ⟨after, hrun, rfl⟩⟩
        | send config =>
            obtain ⟨hopen, -⟩ := Option.ite_none_left_eq_some.mp houtside
            exact ⟨_, Option.ite_none_left_eq_some.mpr ⟨hopen, rfl⟩⟩
        | closeSenders | cancelManager => exact ⟨_, rfl⟩
        | inbound update =>
            obtain ⟨hinbound, -⟩ := Option.ite_none_right_eq_some.mp houtside
            exact ⟨_, Option.ite_none_right_eq_some.mpr ⟨hinbound, rfl⟩⟩
      obtain ⟨⟨shared', spawned'⟩, hresult⟩ := hresult
      exact ⟨_, step_outside_eq_some.mpr ⟨shared', spawned', hresult, rfl⟩⟩

/-- What the outbound side can do by itself, the process can do. -/
theorem enabled_of_view {kind : ClientMove F64 → Prop}
    (hown : ∀ move, kind move → ownOutbound move = true)
    (henabled : Enabled (TaskPool.step (PeerPool.program F64)) kind (outboundView state)) :
    Enabled (Process.step path) (onOutbound kind) state := by
  obtain ⟨move, next, hkind, hstep⟩ := henabled
  obtain ⟨pool, hpool⟩ := step_of_hidePeers hstep
  refine ⟨.outbound move, state.setOutbound pool, ⟨move, rfl, hkind⟩, ?_⟩
  simp only [Process.step, hown move hkind, if_true, hpool, Option.map_some]

/-- The outbound side of the process at all instants. -/
def outboundSchedule (schedule : ProcessSchedule F64 path) {config : Config}
    (hstart : schedule.state 0 = Process.start F64 config) : Schedule F64 :=
  schedule.seen outboundView (outboundMove path) fun time event hevent => by
    rcases schedule.step_cases time with ⟨hnone, -⟩ | ⟨event', hlabel, hstep⟩
    · rw [hevent] at hnone
      cases hnone
    · rw [hevent] at hlabel
      cases hlabel
      exact outbound_seenAs
        (sided_of_reachable (hstart ▸ schedule.reachable_of_le (Nat.zero_le time))) hstep

variable {config : Config}

theorem fair_outboundSchedule (hstart : schedule.state 0 = Process.start F64 config)
    (hfair : FairProcess schedule) : Fair (outboundSchedule schedule hstart) := by
  have himage : ∀ {kind : ClientMove F64 → Prop} state event, onOutbound kind event →
      ∃ move, outboundMove path state event = some move ∧ kind move := by
    rintro kind state event ⟨move, rfl, hkind⟩
    exact ⟨move, rfl, hkind⟩
  constructor
  case manages =>
    refine hfair.manages.seen himage fun time => enabled_of_view ?_
    intro move hmanaging
    cases move with
    | flush | act => rfl
    | outside event =>
        cases event with
        | manage => rfl
        | send | closeSenders | cancelManager | inbound => exact hmanaging.elim
  case leaves =>
    refine hfair.leaves.seen himage fun time => enabled_of_view ?_
    rintro move rfl
    rfl
  case updates =>
    refine fun index => (hfair.updates index).seen himage fun time => enabled_of_view ?_
    rintro move rfl
    rfl
  case goesOn =>
    refine fun index => (hfair.goesOn index).seen himage fun time => enabled_of_view ?_
    rintro move ⟨clock, rfl⟩
    rfl
  case stops =>
    refine fun index => (hfair.stops index).seen himage fun time => enabled_of_view ?_
    rintro move ⟨clock, rfl⟩
    rfl
  case handshakes => exact hfair.handshakes

/-- What can change the config that is to be served: a reload that succeeds, the
shutdown, or the end of the channel. -/
def interrupting (path : String) : ProcessEvent F64 → Prop
  | .sighup contents => ∃ config, load path contents = .ok config
  | .shutdown | .closeChannel => True
  | _ => False

/-- The manager is asked for something only when this happens. -/
theorem interrupting_of_requesting (hstart : schedule.state 0 = Process.start F64 config) {time : ℕ}
    (htakes : (outboundSchedule schedule hstart).Takes requesting time) :
    schedule.Takes (interrupting path) time := by
  obtain ⟨move, hmove, hrequest⟩ := htakes
  obtain ⟨event, hevent, himage⟩ := Option.bind_eq_some_iff.mp hmove
  refine ⟨event, hevent, ?_⟩
  obtain ⟨event', hlabel, hstep⟩ := (schedule.step_cases time).resolve_left fun hidle => by
    rw [hevent] at hidle
    cases hidle.1
  rw [hevent] at hlabel
  cases hlabel
  cases event with
  | outbound move' =>
      cases himage
      have hown := (step_outbound hstep).1
      cases move with
      | flush | act => exact hrequest.elim
      | outside event =>
          cases event with
          | manage | inbound => exact hrequest.elim
          | send | closeSenders | cancelManager => cases hown
  | inbound move' =>
      cases move' with
      | flush index =>
          simp only [outboundMove] at himage
          split at himage <;> cases himage
          exact hrequest
      | act | outside => cases himage
  | sighup contents =>
      simp only [outboundMove] at himage
      split at himage
      · next config hload => exact ⟨config, hload⟩
      · cases himage
  | shutdown | closeChannel => trivial
  | acceptProbe | probe | sighupEnds | watch => cases himage

end Schedules

/-! ## The progress of `watch_config` -/

section Watcher

variable {F64 : Type} [UnicodeTables] [WallClock F64] [SocketAddrParser] [TomlParser]
variable {path : String} {schedule : ProcessSchedule F64 path} {state next : Process F64}
variable {time : ℕ}

/-- How many stores `watch_config` has before it. -/
def storesLeft : WatcherPoint → ℕ
  | .storingRecv _ => 2
  | .storingIdle _ => 1
  | .waiting | .stopped => 0

/-- How far `watch_config` is behind the channel. -/
def behind (state : Process F64) : ℕ :=
  storesLeft state.watcher + if state.watcherUnseen then 3 else 0

/-- What a step of the process does to `watch_config`: it is one of its own, or
at most makes a config known to it. -/
theorem watcher_cases {event : ProcessEvent F64}
    (hstep : Process.step path state event = some next) :
    (∃ input, event = .watch input ∧ WatcherStep state input next) ∨
      ¬watching event ∧ next.watcher = state.watcher ∧
        (next.watcherUnseen = state.watcherUnseen ∨ interrupting path event) := by
  cases event with
  | outbound move =>
      obtain ⟨-, pool, -, rfl⟩ := step_outbound hstep
      exact Or.inr ⟨by simp [watching], rfl, Or.inl rfl⟩
  | inbound move =>
      obtain ⟨-, pool, -, rfl⟩ := step_inbound hstep
      exact Or.inr ⟨by simp [watching], rfl, Or.inl rfl⟩
  | acceptProbe =>
      simp only [Process.step] at hstep
      split at hstep <;> cases hstep <;> exact Or.inr ⟨by simp [watching], rfl, Or.inl rfl⟩
  | probe index input =>
      obtain ⟨probe, probe', -, -, rfl⟩ := step_probe_eq_some.mp hstep
      exact Or.inr ⟨by simp [watching], rfl, Or.inl rfl⟩
  | sighup contents =>
      obtain ⟨-, heq⟩ := Option.ite_none_right_eq_some.mp hstep
      cases heq
      rw [watchSighup]
      split
      · exact Or.inr ⟨by simp [watching], rfl, Or.inl rfl⟩
      · next config hload =>
          dsimp only
          split <;> exact Or.inr ⟨by simp [watching], rfl, Or.inr ⟨config, hload⟩⟩
  | watch input => exact Or.inl ⟨input, rfl, watcherStep_of_watchConfig hstep⟩
  | sighupEnds | shutdown =>
      cases hstep
      exact Or.inr ⟨by simp [watching], rfl, Or.inl rfl⟩
  | closeChannel =>
      obtain ⟨-, heq⟩ := Option.ite_none_right_eq_some.mp hstep
      cases heq
      exact Or.inr ⟨by simp [watching], rfl, Or.inl rfl⟩

/-- While it has something to do, `watch_config` can go on. -/
theorem enabled_watching (hrunning : state.watcher ≠ .stopped) (hbehind : behind state ≠ 0) :
    Enabled (Process.step path) watching state := by
  cases hwatcher : state.watcher with
  | storingRecv srv =>
      exact ⟨.watch .go, _, ⟨_, rfl⟩, by simp only [Process.step, watchConfig, hwatcher]; rfl⟩
  | storingIdle srv =>
      exact ⟨.watch .go, _, ⟨_, rfl⟩, by simp only [Process.step, watchConfig, hwatcher]; rfl⟩
  | stopped => exact absurd hwatcher hrunning
  | waiting =>
      have hunseen : state.watcherUnseen = true := by
        by_contra hseen
        exact hbehind (by simp [behind, hwatcher, storesLeft, hseen])
      exact ⟨.watch .changed, _, ⟨_, rfl⟩, by
        simp only [Process.step, watchConfig, hwatcher, hunseen, if_true]
        rfl⟩

omit [UnicodeTables] [WallClock F64] [SocketAddrParser] [TomlParser] in
/-- A step of `watch_config` without a shutdown lets it catch up. -/
theorem behind_watcherStep {input : WatcherInput} (hstep : WatcherStep state input next)
    (hcancel : state.manager.cancel = false) (hclosed : state.manager.watch.closed = false) :
    behind next < behind state := by
  cases hstep with
  | receive hwatcher hunseen => simp [behind, storesLeft, hwatcher, hunseen]
  | ended hwatcher hended =>
      rw [hclosed] at hended
      cases hended
  | cancelled hwatcher hleaves =>
      rw [hcancel] at hleaves
      cases hleaves
  | storeRecv hwatcher | storeIdle hwatcher => simp [behind, storesLeft, hwatcher]

omit [UnicodeTables] [WallClock F64] [SocketAddrParser] [TomlParser] in
theorem storesLeft_watcherStep {input : WatcherInput} (hstep : WatcherStep state input next)
    (hstores : storesLeft state.watcher ≠ 0) :
    storesLeft next.watcher < storesLeft state.watcher := by
  cases hstep with
  | receive hwatcher | ended hwatcher | cancelled hwatcher =>
      rw [hwatcher] at hstores
      exact absurd rfl hstores
  | storeRecv hwatcher | storeIdle hwatcher => simp [storesLeft, hwatcher]

omit [UnicodeTables] [WallClock F64] [SocketAddrParser] [TomlParser] in
theorem watcher_ne_stopped {input : WatcherInput} (hstep : WatcherStep state input next) :
    state.watcher ≠ .stopped := by
  cases hstep with
  | receive hwatcher | ended hwatcher | cancelled hwatcher | storeRecv hwatcher
  | storeIdle hwatcher => simp [hwatcher]

/-- `watch_config` has made its stores. -/
def Rests (state : Process F64) : Prop := storesLeft state.watcher = 0

theorem rests_eventually (hfair : FairProcess schedule) (time : ℕ) :
    ∃ later ≥ time, Rests (schedule.state later) := by
  refine Execution.eventually_of_rank (fun state : Process F64 => storesLeft state.watcher)
    fun later _ hstores => ?_
  have hrunning : (schedule.state later).watcher ≠ .stopped := by
    intro hstopped
    rw [Rests, hstopped] at hstores
    exact hstores rfl
  obtain ⟨latest, hle, hsame, htakes⟩ := hfair.watches.taken
    (P := fun state : Process F64 => state.watcher = (schedule.state later).watcher) rfl
    (fun latest _ hsame => by
      refine enabled_watching (by rwa [hsame]) fun hdone => hstores ?_
      rw [Rests, ← hsame]
      exact (Nat.add_eq_zero_iff.mp hdone).1) (by
      rintro latest - hsame hidle
      rcases schedule.step_cases latest with ⟨-, hstill⟩ | ⟨event, hlabel, hstep⟩
      · rwa [hstill]
      · rcases watcher_cases hstep with ⟨input, rfl, -⟩ | ⟨-, hkept, -⟩
        · exact absurd ⟨_, hlabel, input, rfl⟩ hidle
        · rw [hkept, hsame])
  refine ⟨latest + 1, Nat.le_succ_of_le hle, Or.inr ?_⟩
  obtain ⟨event, hwatching, hstep⟩ := htakes.performed
  obtain ⟨input, -, hwatch⟩ := (watcher_cases hstep).resolve_right fun hother =>
    hother.1 hwatching
  rw [Rests, ← hsame] at hstores
  rw [← hsame]
  exact storesLeft_watcherStep hwatch hstores

/-- `watch_config` that has stopped makes no further step. -/
theorem stopped_of_le {later : ℕ} (hstopped : (schedule.state time).watcher = .stopped)
    (hle : time ≤ later) : (schedule.state later).watcher = .stopped := by
  induction later, hle using Nat.le_induction with
  | base => exact hstopped
  | succ later hle ih =>
      rcases schedule.step_cases later with ⟨-, hstill⟩ | ⟨event, -, hstep⟩
      · rwa [hstill]
      · rcases watcher_cases hstep with ⟨input, -, hwatch⟩ | ⟨-, hkept, -⟩
        · exact absurd ih (watcher_ne_stopped hwatch)
        · rw [hkept, ih]

theorem watcher_of_cancelled (hstep : Process.step path state (.watch .cancelled) = some next) :
    next.watcher = .stopped := by
  have hwatch : state.watchConfig .cancelled = some next := hstep
  cases watcherStep_of_watchConfig hwatch with
  | cancelled => rfl

/-- After the signal `watch_config` stops. -/
theorem stopped_eventually (hfair : FairProcess schedule)
    (hcancel : ∀ later ≥ time, (schedule.state later).manager.cancel = true) :
    ∃ later ≥ time, (schedule.state later).watcher = .stopped := by
  by_contra hnever
  obtain ⟨later, hle, htakes⟩ := hfair.unwatches time fun later hle => by
    obtain ⟨latest, hlatest, hrests⟩ := rests_eventually hfair later
    have hbetween := Nat.le_trans hle hlatest
    refine ⟨latest, hlatest, .watch .cancelled,
      { schedule.state latest with watcher := .stopped }, rfl, ?_⟩
    cases hwatcher : (schedule.state latest).watcher with
    | waiting =>
        simp only [Process.step, watchConfig, hwatcher, hcancel latest hbetween, if_true]
    | storingRecv | storingIdle =>
        rw [Rests, hwatcher] at hrests
        cases hrests
    | stopped => exact absurd ⟨latest, hbetween, hwatcher⟩ hnever
  obtain ⟨event, hevent, hstep⟩ := htakes.performed
  rw [unwatching] at hevent
  subst hevent
  exact hnever ⟨later + 1, Nat.le_succ_of_le hle, watcher_of_cancelled hstep⟩

/-- The channel is open and nobody has asked for a shutdown. -/
def Open (state : Process F64) : Prop := ¬Requested state.manager

/-- `watch_config` is not behind the channel. -/
def Abreast (state : Process F64) : Prop := behind state = 0

/-- `watch_config` has nothing to do. -/
def CaughtUp (state : Process F64) : Prop := state.watcher = .waiting ∧ state.watcherUnseen = false

section Quiet

variable (hopen : ∀ later ≥ time, Open (schedule.state later))
variable (hrunning : ∀ later ≥ time, (schedule.state later).watcher ≠ .stopped)
variable (hquiet : ∀ later ≥ time, ¬schedule.Takes (interrupting path) later)

include hopen in
theorem behind_lt_of_watch {later : ℕ} (hle : time ≤ later) {input : WatcherInput}
    (hwatch : WatcherStep (schedule.state later) input (schedule.state (later + 1))) :
    behind (schedule.state (later + 1)) < behind (schedule.state later) := by
  obtain ⟨hcancel, hclosed⟩ := not_or.mp (hopen later hle)
  exact behind_watcherStep hwatch (Bool.not_eq_true _ ▸ hcancel) (Bool.not_eq_true _ ▸ hclosed)

include hquiet in
/-- Without reloads only `watch_config` changes how far it is behind. -/
theorem watcher_kept {later : ℕ} (hle : time ≤ later) :
    (∃ input, schedule.Takes watching later ∧
        WatcherStep (schedule.state later) input (schedule.state (later + 1))) ∨
      ¬schedule.Takes watching later ∧
        behind (schedule.state (later + 1)) = behind (schedule.state later) := by
  rcases schedule.step_cases later with ⟨hnone, hstill⟩ | ⟨event, hlabel, hstep⟩
  · refine Or.inr ⟨?_, by rw [hstill]⟩
    rintro ⟨event, hlabel, -⟩
    rw [hnone] at hlabel
    cases hlabel
  · rcases watcher_cases hstep with ⟨input, rfl, hwatch⟩ | ⟨hother, hwatcher, hunseen⟩
    · exact Or.inl ⟨input, ⟨_, hlabel, input, rfl⟩, hwatch⟩
    · refine Or.inr ⟨?_, ?_⟩
      · rintro ⟨event', hlabel', hwatching⟩
        rw [hlabel] at hlabel'
        cases hlabel'
        exact hother hwatching
      · rcases hunseen with hsame | hinterrupts
        · rw [behind, behind, hwatcher, hsame]
        · exact absurd ⟨event, hlabel, hinterrupts⟩ (hquiet later hle)

include hopen hrunning hquiet in
/-- As long as it is behind, `watch_config` catches up. -/
theorem behind_lowers (hfair : FairProcess schedule) {asked : ℕ} (hasked : time ≤ asked)
    (hbehind : behind (schedule.state asked) ≠ 0) :
    ∃ later ≥ asked, behind (schedule.state later) < behind (schedule.state asked) := by
  by_contra hnever
  have hsame : ∀ later ≥ asked,
      behind (schedule.state later) = behind (schedule.state asked) := by
    intro later hle
    induction later, hle using Nat.le_induction with
    | base => rfl
    | succ later hle ih =>
        have hbetween := Nat.le_trans hasked hle
        rcases watcher_kept hquiet hbetween with ⟨input, -, hwatch⟩ | ⟨-, hkept⟩
        · have hlower := behind_lt_of_watch hopen hbetween hwatch
          rw [ih] at hlower
          exact absurd ⟨later + 1, Nat.le_succ_of_le hle, hlower⟩ hnever
        · rw [hkept, ih]
  obtain ⟨later, hle, htakes⟩ := hfair.watches asked fun later hle =>
    enabled_watching (hrunning later (Nat.le_trans hasked hle)) (by rwa [hsame later hle])
  have hbetween := Nat.le_trans hasked hle
  rcases watcher_kept hquiet hbetween with ⟨input, -, hwatch⟩ | ⟨hidle, -⟩
  · have hlower := behind_lt_of_watch hopen hbetween hwatch
    rw [hsame later hle] at hlower
    exact hnever ⟨later + 1, Nat.le_succ_of_le hle, hlower⟩
  · exact hidle htakes

include hopen hrunning hquiet in
/-- Without reloads `watch_config` catches up with the channel and has nothing
to do from then on. -/
theorem caughtUp_eventually (hfair : FairProcess schedule) :
    ∃ settled ≥ time, ∀ later ≥ settled, CaughtUp (schedule.state later) := by
  obtain ⟨settled, hsettled, hzero⟩ :
      ∃ settled ≥ time, Abreast (schedule.state settled) := by
    refine Execution.eventually_of_rank behind fun later hle hbehind => ?_
    obtain ⟨latest, hlatest, hlower⟩ := behind_lowers hopen hrunning hquiet hfair hle hbehind
    exact ⟨latest, hlatest, Or.inr hlower⟩
  refine ⟨settled, hsettled, fun later hle => ?_⟩
  have hstays : behind (schedule.state later) = 0 := by
    induction later, hle using Nat.le_induction with
    | base => exact hzero
    | succ later hle ih =>
        have hbetween := Nat.le_trans hsettled hle
        rcases watcher_kept hquiet hbetween with ⟨input, -, hwatch⟩ | ⟨-, hkept⟩
        · have hlower := behind_lt_of_watch hopen hbetween hwatch
          rw [ih] at hlower
          exact absurd hlower (Nat.not_lt_zero _)
        · rw [hkept, ih]
  obtain ⟨hstored, hseen⟩ := Nat.add_eq_zero_iff.mp hstays
  refine ⟨?_, by simpa using hseen⟩
  cases hwatcher : (schedule.state later).watcher with
  | waiting => rfl
  | storingRecv | storingIdle =>
      rw [hwatcher] at hstored
      cases hstored
  | stopped => exact absurd hwatcher (hrunning later (Nat.le_trans hsettled hle))

end Quiet

end Watcher

/-! ## What the process comes to -/

section Process

variable {F64 : Type} [UnicodeTables] [WallClock F64] [Inhabited F64] [SocketAddrParser]
variable [TomlParser] {path : String} {schedule : ProcessSchedule F64 path} {time : ℕ}
variable {initial config : Config}

/-- A config is in force everywhere: the manager serves exactly its peers, and
`watch_config` has stored its timeouts for the next connections. -/
structure InForce (state : Process F64) (config : Config) : Prop where
  parked : state.manager.point = .parked
  serves : Serves (outboundView state) (servedPeers config)
  watching : state.watcher = .waiting
  heartbeatRecvTimeout : state.heartbeatRecvTimeout = config.server.heartbeatRecvTimeout
  probeIdleTimeout : state.probeIdleTimeout = config.server.probeIdleTimeout

/-- A reload comes into force everywhere.  On a fair schedule of the process, when
the last config that was loaded is not followed by another one or by a shutdown,
it is in force from some instant on for ever: in the manager, which then runs
exactly one task for each peer and none besides, and in the timeouts that new
connections get. -/
theorem reload_comes_into_force {contents : Except String String}
    (hload : load path contents = .ok initial)
    (hstart : schedule.state 0 = Process.start F64 initial) (hfair : FairProcess schedule)
    (hlast : (schedule.state time).loaded.getLast? = some config)
    (hcancel : (schedule.state time).manager.cancel = false)
    (hquiet : ∀ later ≥ time, ¬schedule.Takes (interrupting path) later) :
    ∃ settled ≥ time, ∀ later ≥ settled, InForce (schedule.state later) config := by
  have hreach : ∀ later, Reachable (Process.step path) (Process.start F64 initial)
      (schedule.state later) := fun later => hstart ▸ schedule.reachable_of_le (Nat.zero_le later)
  have hinv : ∀ later, UpToDate (schedule.state later) := fun later =>
    upToDate_of_reachable (hreach later)
  let outer := outboundSchedule schedule hstart
  have houter : outer.state 0 = PeerPool.start F64 initial := congrArg outboundView hstart
  have hnone : ∀ later ≥ time, ¬outer.Takes requesting later := fun later hle htakes =>
    hquiet later hle (interrupting_of_requesting hstart htakes)
  have hopen : ∀ later ≥ time, Open (schedule.state later) := by
    intro later hle hrequested
    have hearlier : Requested (schedule.state time).manager :=
      (watch_of_quiet hnone hle).2.mp hrequested
    have hshutdown := hearlier.elim id (hinv time).closed
    rw [hcancel] at hshutdown
    cases hshutdown
  have hrunning : ∀ later ≥ time, (schedule.state later).watcher ≠ .stopped :=
    fun later hle hstopped => hopen later hle (Or.inl ((hinv later).stopped hstopped))
  have hconfig : (schedule.state time).manager.watch.config = config := by
    have hreceived : (schedule.state time).received = true :=
      received_iff.mpr (Or.inr (hrunning time (Nat.le_refl time)))
    have hchannel := (hinv time).latest hreceived
    rw [hlast] at hchannel
    exact (Option.some.inj hchannel).symm
  have hvalid := (fromLoaded_of_reachable (validate_of_load hload) (hreach time)).valid config
    (List.mem_of_getLast? hlast)
  have hdistinct : (config.peers.map PeerConfig.name).Nodup :=
    ((validate_eq_ok_iff config).mp hvalid).2.distinct
  obtain ⟨serves, hserves, hserved⟩ := reload_takes_effect houter
    (fair_outboundSchedule hstart hfair) hnone (hopen time (Nat.le_refl time)) (by
      rw [show (outer.state time).shared.manager.watch.config = config from hconfig]
      exact hdistinct)
  obtain ⟨stores, hstores, hstored⟩ := caughtUp_eventually hopen hrunning hquiet hfair
  refine ⟨max serves stores, Nat.le_trans hserves (Nat.le_max_left _ _), fun later hle => ?_⟩
  obtain ⟨hparked, -, hpeers⟩ := hserved later (Nat.le_trans (Nat.le_max_left _ _) hle)
  obtain ⟨hwaiting, hseen⟩ := hstored later (Nat.le_trans (Nat.le_max_right _ _) hle)
  have hbetween := Nat.le_trans hserves (Nat.le_trans (Nat.le_max_left _ _) hle)
  have hprocessed : (schedule.state later).processed = config.server := by
    rw [(hinv later).waiting hseen hwaiting, ← hconfig]
    exact congrArg Config.server (watch_of_quiet hnone hbetween).1
  obtain ⟨hrecv, hidle⟩ := (hinv later).stored
  rw [hwaiting] at hrecv
  constructor
  case parked => exact hparked
  case serves =>
    rw [← hconfig]
    exact hpeers
  case watching => exact hwaiting
  case heartbeatRecvTimeout => rw [hrecv, hprocessed]
  case probeIdleTimeout => rw [hidle, hprocessed]

/-- A shutdown comes to its end.  On a fair schedule of the process, once it has
been requested, the outbound side has stopped from some instant on for ever,
whatever is reloaded meanwhile, and so has `watch_config`; a SIGHUP that is
handled then changes nothing but the end of its handler. -/
theorem shutdown_comes_to_its_end (hstart : schedule.state 0 = Process.start F64 initial)
    (hfair : FairProcess schedule) (hcancel : (schedule.state time).manager.cancel = true) :
    ∃ ended ≥ time, ∀ later ≥ ended,
      Stopped (outboundView (schedule.state later)) ∧
        (schedule.state later).watcher = .stopped ∧
          (schedule.state later).received = false := by
  let outer := outboundSchedule schedule hstart
  have houter : outer.state 0 = PeerPool.start F64 initial := congrArg outboundView hstart
  have hsignal : (outer.state time).shared.manager.cancel = true := hcancel
  obtain ⟨ends, hends, hstopped⟩ := shutdown_completes houter
    (fair_outboundSchedule hstart hfair) (Or.inl hsignal)
  obtain ⟨stops, hstops, hwatcher⟩ := stopped_eventually hfair fun later hle =>
    cancel_of_le hsignal hle
  refine ⟨max ends stops, Nat.le_trans hends (Nat.le_max_left _ _), fun later hle => ?_⟩
  have hended := hstopped later (Nat.le_trans (Nat.le_max_left _ _) hle)
  have hunwatched := stopped_of_le hwatcher (Nat.le_trans (Nat.le_max_right _ _) hle)
  have hexited : (schedule.state later).manager.point = .exited := hended.exited
  refine ⟨hended, hunwatched, ?_⟩
  rw [Bool.eq_false_iff, Ne, received_iff]
  simp [hexited, hunwatched]

end Process

/-! ## Runs that come to rest -/

section Rest

variable {F64 : Type} [WallClock F64] {pool next : Peers F64} {move : ClientMove F64}

/-- The task waits for its connection, a deadline or its token, or has returned,
and none of them has come. -/
def Waits (cancelled : Finset ℕ) (index : ℕ) (task : PeerLoopTask F64) : Prop :=
  task.pending.length = 0 ∧ stage task.control.point = 0 ∧
    (index ∈ cancelled → task.done = true)

instance {cancelled : Finset ℕ} {index : ℕ} {task : PeerLoopTask F64} :
    Decidable (Waits cancelled index task) := by
  unfold Waits
  infer_instance

/-- Neither the manager nor a task can go on by itself. -/
structure Idle (pool : Peers F64) : Prop where
  manager : ∀ input,
    runManager (finished pool) pool.tasks.length pool.shared.manager input = none
  tasks : ∀ index (hlt : index < pool.tasks.length),
    Waits pool.shared.cancelled index pool.tasks[index]

omit [WallClock F64] in
theorem Idle.waits (hidle : Idle pool) {index : ℕ} {task : PeerLoopTask F64}
    (hget : pool.tasks[index]? = some task) : Waits pool.shared.cancelled index task := by
  obtain ⟨hlt, rfl⟩ := List.getElem?_eq_some_iff.mp hget
  exact hidle.tasks index hlt

theorem Idle.not_managing (hidle : Idle pool)
    (hstep : TaskPool.step (PeerPool.program F64) pool move = some next) : ¬managing move := by
  intro hmanaging
  rcases manager_cases hstep with ⟨input, effect, -, hgoes⟩ | ⟨hrequest, -⟩ | ⟨hother, -⟩
  · rw [hidle.manager input] at hgoes
    cases hgoes
  · exact not_managing_of_requesting hrequest hmanaging
  · exact hother hmanaging

theorem Idle.not_updating (hidle : Idle pool) {index : ℕ}
    (hstep : TaskPool.step (PeerPool.program F64) pool move = some next) :
    ¬updating index move := by
  rintro rfl
  obtain ⟨control, update, rest, made, hget, -⟩ := step_flush_eq_some.mp hstep
  cases (hidle.waits hget).1

theorem Idle.not_goingOn (hidle : Idle pool) {index : ℕ}
    (hstep : TaskPool.step (PeerPool.program F64) pool move = some next) :
    ¬goingOn index move := by
  rintro ⟨clock, rfl⟩
  obtain ⟨loop, made, shared, loop', updates, hget, hact, -⟩ := step_act_eq_some.mp hstep
  have hstage := (hidle.waits hget).2.1
  rw [stage_of_ready (act_runPeerLoop hact)] at hstage
  cases hstage

theorem Idle.not_stopping (hidle : Idle pool) {index : ℕ}
    (hstep : TaskPool.step (PeerPool.program F64) pool move = some next) :
    ¬stopping index move := by
  rintro ⟨clock, rfl⟩
  obtain ⟨loop, made, shared, loop', updates, hget, hact, -⟩ := step_act_eq_some.mp hstep
  obtain ⟨-, hloop, hcancelled⟩ := PeerPool.act_eq_some hact
  exact hloop.not_returned (done_iff.mp ((hidle.waits hget).2.2 (hcancelled rfl))).1

omit [WallClock F64] in
/-- What the manager can still do is decided by its point and by what it listens
to. -/
theorem runManager_exited {finished : ℕ → Bool} {spawnId : ℕ} {manager : Manager}
    (hexited : manager.point = .exited) (input : ManagerInput) :
    runManager finished spawnId manager input = none := by
  simp [runManager, hexited]

theorem runManager_parked {finished : ℕ → Bool} {spawnId : ℕ} {manager : Manager}
    (hparked : manager.point = .parked) (hseen : manager.watch.unseen = false)
    (hopen : ¬Requested manager) (input : ManagerInput) :
    runManager finished spawnId manager input = none := by
  obtain ⟨hcancel, hclosed⟩ := not_or.mp hopen
  cases input <;> simp [runManager, hparked, hseen, hcancel, hclosed]

variable [UnicodeTables] [SocketAddrParser] [TomlParser] {path : String}

/-- A run at whose end nobody can go on is fair when nothing follows it. -/
theorem fairProcess_ofRun {first last : Process F64} {events : List (ProcessEvent F64)}
    (hrun : run (Process.step path) first events = some last) (hidle : Idle last.outbound)
    (hwatcher : ∀ input, last.watchConfig input = none) :
    FairProcess (Execution.ofRun hrun : ProcessSchedule F64 path) := by
  have hdisabled : ∀ {kind : ClientMove F64 → Prop}, (∀ move pool,
      TaskPool.step (PeerPool.program F64) last.outbound move = some pool → ¬kind move) →
        ¬Enabled (Process.step path) (onOutbound kind) last := by
    rintro kind hnone ⟨event, next, ⟨move, rfl, hkind⟩, hstep⟩
    obtain ⟨-, pool, hpool, -⟩ := step_outbound hstep
    exact hnone move pool hpool hkind
  have hunwatched : ¬Enabled (Process.step path) watching last := by
    rintro ⟨event, next, ⟨input, rfl⟩, hstep⟩
    have hnone := hwatcher input
    rw [show last.watchConfig input = some next from hstep] at hnone
    cases hnone
  constructor
  case manages =>
    exact (Execution.ofRun_stronglyFair hrun
      (hdisabled fun _ _ => hidle.not_managing)).weaklyFair
  case leaves =>
    refine Execution.ofRun_stronglyFair hrun (hdisabled ?_)
    rintro move pool hstep rfl
    exact hidle.not_managing hstep trivial
  case updates =>
    exact fun index => (Execution.ofRun_stronglyFair hrun
      (hdisabled fun _ _ => hidle.not_updating)).weaklyFair
  case goesOn =>
    exact fun index => (Execution.ofRun_stronglyFair hrun
      (hdisabled fun _ _ => hidle.not_goingOn)).weaklyFair
  case stops =>
    exact fun index => Execution.ofRun_stronglyFair hrun (hdisabled fun _ _ => hidle.not_stopping)
  case handshakes =>
    intro index time
    refine ⟨max time events.length, Nat.le_max_left _ _, ?_⟩
    rw [Execution.ofRun_state_of_le hrun (Nat.le_max_right _ _)]
    rintro ⟨task, unsent, hget, hhandshake⟩
    have hstage := (hidle.waits hget).2.1
    rw [hhandshake] at hstage
    cases hstage
  case watches => exact (Execution.ofRun_stronglyFair hrun hunwatched).weaklyFair
  case unwatches =>
    refine Execution.ofRun_stronglyFair hrun ?_
    rintro ⟨event, next, rfl, hstep⟩
    exact hunwatched ⟨.watch .cancelled, next, ⟨_, rfl⟩, hstep⟩

end Rest

section Witness

local instance : SocketAddrParser := anyAddress

local instance : TomlParser := configFiles

local instance : UnicodeTables := asciiTables

instance : Inhabited WholeSeconds := ⟨⟨0⟩⟩

/-- What is decided on the last state of a run. -/
def restView (state : Process WholeSeconds) : ManagerPoint × WatcherPoint × Bool × Bool × Bool :=
  (state.manager.point, state.watcher, state.manager.cancel, state.manager.watch.closed,
    decide (∀ index (hlt : index < state.peerTasks.length),
      Waits state.cancelled index state.peerTasks[index]))

/-- The task of the only peer is about to connect when a reload arrives. -/
def reloadArrives : List (ProcessEvent WholeSeconds) :=
  [.outbound (.outside (.manage (.order []))), .outbound (.outside (.manage (.order ["a"]))),
    .outbound (.outside (.manage .go)), .outbound (.outside (.manage .go)),
    .outbound (.act 0 (⟨0, ⟨0⟩⟩, .ready)), .sighup (.ok (configFile "60"))]

/-- Both receivers read it; a second reload fails. -/
def reloadRead : List (ProcessEvent WholeSeconds) :=
  List.replicate 9 (.outbound (.flush 0)) ++
  [.watch .changed, .outbound (.outside (.manage .changed)), .watch .go,
    .outbound (.outside (.manage (.order ["a"]))), .sighup (.error "No such file or directory"),
    .watch .go, .outbound (.outside (.manage (.order ["a"]))),
    .outbound (.outside (.manage .go)), .outbound (.outside (.manage .go))]

theorem reload_comes_into_force_60 :
    ∃ (schedule : ProcessSchedule WholeSeconds "config.toml") (time : ℕ),
      (schedule.state time).heartbeatRecvTimeout = 30 ∧
        ∃ settled ≥ time, ∀ later ≥ settled, InForce (schedule.state later) (configured 60) := by
  obtain ⟨middle, hfront, hsent⟩ := Option.map_eq_some_iff.mp (show
    (run (Process.step "config.toml") (Process.start WholeSeconds (configured 30))
      reloadArrives).map (fun state => (state.heartbeatRecvTimeout, state.loaded.getLast?,
        state.manager.cancel)) = some (30, some (configured 60), false) by decide +kernel)
  obtain ⟨last, hrun, hview⟩ := Option.map_eq_some_iff.mp (show
    (run (Process.step "config.toml") (Process.start WholeSeconds (configured 30))
      (reloadArrives ++ reloadRead)).map (fun state => (restView state,
        state.manager.watch.unseen, state.watcherUnseen)) =
      some ((.parked, .waiting, false, false, true), false, false) by decide +kernel)
  simp only [restView, Prod.mk.injEq, decide_eq_true_eq] at hsent hview
  obtain ⟨hrecv, hlast, hcancel⟩ := hsent
  obtain ⟨⟨hparked, hwaiting, hcancel', hclosed, hwaits⟩, hseen, hknown⟩ := hview
  have hmiddle := Execution.ofRun_state_length hrun hfront
  have hquiet : ∀ later ≥ reloadArrives.length,
      ¬(Execution.ofRun hrun).Takes (interrupting "config.toml") later := by
    rintro later hle ⟨event, hlabel, hinterrupts⟩
    have hmem : event ∈ reloadRead := by
      refine List.mem_of_getElem? (i := later - reloadArrives.length) ?_
      rw [← List.getElem?_append_right hle]
      exact hlabel
    have hnone : ∀ event ∈ reloadRead, ¬interrupting "config.toml" event := by
      have hfails : ∀ config,
          load "config.toml" (.error "No such file or directory") ≠ .ok config := nofun
      simp [reloadRead, interrupting, hfails]
    exact hnone event hmem hinterrupts
  have hidle : Idle last.outbound :=
    ⟨runManager_parked hparked hseen (by simp [Requested, outbound, hcancel', hclosed]), hwaits⟩
  have hfair := fairProcess_ofRun hrun hidle fun input => by
    cases input <;> simp [watchConfig, hwaiting, hknown, hcancel', hclosed]
  have hload : load "config.toml" (.ok (configFile "30")) = .ok (configured 30) := by
    decide +kernel
  refine ⟨Execution.ofRun hrun, reloadArrives.length, by rw [hmiddle, hrecv], ?_⟩
  exact reload_comes_into_force hload (Execution.ofRun_state_zero hrun) hfair
    (by rw [hmiddle, hlast]) (by rw [hmiddle, hcancel]) hquiet

/-- The task of the only peer starts a session. -/
def liveSession : List (ClientMove WholeSeconds) :=
  [.outside (.manage (.order [])), .outside (.manage (.order ["a"])), .outside (.manage .go),
    .outside (.manage .go)] ++
  SessionConservation.establish 0 ++ [.act 0 (⟨0, ⟨0⟩⟩, .ready)]

/-- Then the shutdown is requested. -/
def sessionAtShutdown : List (ProcessEvent WholeSeconds) :=
  liveSession.map .outbound ++ [.shutdown]

/-- A reload arrives meanwhile, and its timeouts are still stored. -/
def shutDown : List (ProcessEvent WholeSeconds) :=
  [.outbound (.outside (.manage .cancelled)), .sighup (.ok (configFile "60")), .watch .changed,
    .watch .go, .outbound (.outside (.manage (.order ["a"]))),
    .outbound (.outside (.manage .go)), .outbound (.act 0 (⟨0, ⟨0⟩⟩, .cancelled)),
    .outbound (.flush 0), .watch .go, .watch .cancelled, .outbound (.flush 0),
    .outbound (.outside (.manage .go)), .outbound (.outside (.manage .go))]

theorem shutdown_comes_to_its_end_live_session :
    ∃ (schedule : ProcessSchedule WholeSeconds "config.toml") (time : ℕ),
      SessionConservation.sessionActive ⟨"n", "a"⟩ (schedule.state time).outbound.shared = some 1 ∧
        ∃ ended ≥ time, ∀ later ≥ ended,
          Stopped (outboundView (schedule.state later)) ∧
            (schedule.state later).watcher = .stopped ∧
              (schedule.state later).received = false := by
  obtain ⟨middle, hfront, hsent⟩ := Option.map_eq_some_iff.mp (show
    (run (Process.step "config.toml") (Process.start WholeSeconds (configured 30))
      sessionAtShutdown).map (fun state => (state.manager.cancel,
        SessionConservation.sessionActive ⟨"n", "a"⟩ state.outbound.shared)) =
      some (true, some 1) by decide +kernel)
  obtain ⟨last, hrun, hview⟩ := Option.map_eq_some_iff.mp (show
    (run (Process.step "config.toml") (Process.start WholeSeconds (configured 30))
      (sessionAtShutdown ++ shutDown)).map restView =
      some (.exited, .stopped, true, false, true) by decide +kernel)
  simp only [restView, Prod.mk.injEq, decide_eq_true_eq] at hsent hview
  obtain ⟨hcancel, hactive⟩ := hsent
  obtain ⟨hexited, hstopped, -, -, hwaits⟩ := hview
  have hmiddle := Execution.ofRun_state_length hrun hfront
  have hfair := fairProcess_ofRun hrun ⟨runManager_exited hexited, hwaits⟩ fun input => by
    cases input <;> simp [watchConfig, hstopped]
  refine ⟨Execution.ofRun hrun, sessionAtShutdown.length, by rw [hmiddle, hactive], ?_⟩
  exact shutdown_comes_to_its_end (Execution.ofRun_state_zero hrun) hfair
    (by rw [hmiddle, hcancel])

end Witness

end TcpMonitor.FairRuns
