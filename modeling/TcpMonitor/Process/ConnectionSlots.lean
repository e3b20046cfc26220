import TcpMonitor.Core.ClockedSystem
import TcpMonitor.Process.TwoSides
import TcpMonitor.Server.SlotTiming

/-!
# Slots come back

The two accept loops hand out a bounded number of permits and drop a connection
that gets none.  The permits are never more than the caps, and no connection
keeps its permit without end: whatever it sends, a probe connection keeps it for
its idle timeout, and a heartbeat connection for the handshake timeout and one
receive timeout for each whole packet that it delivers and the one that it does
not.  So a client that only opens connections, or that dribbles bytes, cannot
keep the others out.
-/

namespace TcpMonitor.ConnectionSlots

open TcpMonitor.TransitionSystem
open TcpMonitor.TaskPool
open TcpMonitor.ClockedSystem
open TcpMonitor.Runtime
open TcpMonitor.Configuration
open TcpMonitor.MetricFamilies
open TcpMonitor.PeerPool hiding start program act_eq_some
open TcpMonitor.SessionPool hiding start program
open TcpMonitor.InboundSession
open TcpMonitor.Handshake
open TcpMonitor.WholeProcess
open TcpMonitor.WholeProcess.Process
open TcpMonitor.SettingsInForce
open TcpMonitor.SlotTiming

/-! ## The caps -/

section Caps

variable {F64 : Type}

/-- Replacing an item by one that is selected only if the old one was leaves no
more selected items. -/
theorem countP_set_le {A : Type*} {selected : A → Bool} {items : List A} {index : ℕ} {old new : A}
    (hget : items[index]? = some old) (hselected : selected new = true → selected old = true) :
    (items.set index new).countP selected ≤ items.countP selected := by
  have hlt := (List.getElem?_eq_some_iff.mp hget).1
  have hold : items[index] = old := (List.getElem?_eq_some_iff.mp hget).2
  rw [List.countP_set hlt, hold]
  cases hnew : selected new with
  | false => simp
  | true =>
      have hpositive : 0 < items.countP selected :=
        List.countP_pos_iff.mpr ⟨old, List.mem_of_getElem? hget, hselected hnew⟩
      rw [hselected hnew]
      simp only [if_true]
      omega

/-- The permits that are held. -/
structure WithinCaps (state : Process F64) : Prop where
  sessions : state.sessions.countP (holdsPermit F64) ≤ maxConnections
  probes : state.probes.countP Probe.holdsPermit ≤ maxProbeConnections

theorem withinCaps_start (config : Config) : WithinCaps (start F64 config) :=
  ⟨Nat.zero_le _, Nat.zero_le _⟩

variable [UnicodeTables] [WallClock F64]

/-- Connections and accepts keep the cap of the pool of connections. -/
theorem sessions_within_cap {nodeName : String} {pool next : Sessions F64}
    {move : Move (Reading F64 × Completion) (ServerEvent F64)}
    (hcap : pool.tasks.countP (holdsPermit F64) ≤ maxConnections)
    (hstep : TaskPool.step (SessionPool.program nodeName) pool move = some next) :
    next.tasks.countP (holdsPermit F64) ≤ maxConnections := by
  cases move with
  | flush index =>
      obtain ⟨control, update, rest, made, hget, rfl⟩ := step_flush_eq_some.mp hstep
      exact Nat.le_trans (countP_set_le hget fun _ => holdsPermit_of_pending) hcap
  | act index input =>
      obtain ⟨control, made, shared, control', updates, hget, hact, rfl⟩ :=
        step_act_eq_some.mp hstep
      obtain ⟨peers, hhandle, -⟩ := SessionPool.act_eq_some hact
      have hrunning := (connectionStep_of_handleConnection hhandle).running
      exact Nat.le_trans (countP_set_le hget fun _ => holdsPermit_of_running hrunning) hcap
  | outside event =>
      obtain ⟨shared, spawned, houtside, rfl⟩ := step_outside_eq_some.mp hstep
      cases event with
      | accept =>
          simp only [SessionPool.program] at houtside
          split at houtside
          · next hfree =>
              cases houtside
              simp only [List.map_cons, List.map_nil, List.countP_append, List.countP_singleton]
              split <;> omega
          · cases houtside
            simpa using hcap
      | storeTimeout timeout =>
          cases houtside
          simpa using hcap
      | outbound update =>
          obtain ⟨-, heq⟩ := Option.ite_none_right_eq_some.mp houtside
          cases heq
          simpa using hcap

omit [UnicodeTables] [WallClock F64] in
/-- A probe connection that takes a step holds its permit. -/
theorem holdsPermit_of_serve {probe probe' : Probe} {clock : Reading F64}
    {completion : Completion} (hserve : probe.serve clock completion = some probe') :
    probe.holdsPermit = true := by
  obtain ⟨idleSecs, point⟩ := probe
  cases point with
  | banner | draining => rfl
  | closed => cases completion <;> cases hserve

variable [SocketAddrParser] [TomlParser] {state next : Process F64} {path : String}

theorem withinCaps_step {event : ProcessEvent F64} (hcaps : WithinCaps state)
    (hstep : Process.step path state event = some next) : WithinCaps next := by
  cases event with
  | outbound move =>
      obtain ⟨-, pool, -, rfl⟩ := step_outbound hstep
      exact ⟨hcaps.sessions, hcaps.probes⟩
  | inbound move =>
      obtain ⟨-, pool, hpool, rfl⟩ := step_inbound hstep
      exact ⟨sessions_within_cap hcaps.sessions hpool, hcaps.probes⟩
  | acceptProbe =>
      simp only [Process.step] at hstep
      split at hstep
      · next hfree =>
          cases hstep
          refine ⟨hcaps.sessions, ?_⟩
          simp only [List.countP_append, List.countP_singleton]
          split <;> omega
      · cases hstep
        exact hcaps
  | probe index input =>
      obtain ⟨probe, probe', hget, hserve, rfl⟩ := step_probe_eq_some.mp hstep
      exact ⟨hcaps.sessions, Nat.le_trans
        (countP_set_le hget fun _ => holdsPermit_of_serve hserve) hcaps.probes⟩
  | sighup contents =>
      obtain ⟨-, heq⟩ := Option.ite_none_right_eq_some.mp hstep
      cases heq
      have hframe : Frame state (state.watchSighup path contents) := (frame_watchSighup contents).1
      exact ⟨hframe.sessions ▸ hcaps.sessions, hframe.probes ▸ hcaps.probes⟩
  | watch input =>
      have hframe := (watcherStep_of_watchConfig hstep).frame
      exact ⟨hframe.sessions ▸ hcaps.sessions, hframe.probes ▸ hcaps.probes⟩
  | sighupEnds | shutdown =>
      cases hstep
      exact ⟨hcaps.sessions, hcaps.probes⟩
  | closeChannel =>
      obtain ⟨-, heq⟩ := Option.ite_none_right_eq_some.mp hstep
      cases heq
      exact ⟨hcaps.sessions, hcaps.probes⟩

end Caps

/-! ## On the clock -/

section Clock

variable {F64 : Type}

/-- The reading of the monotonic clock that a step uses. -/
def readingOf (event : ProcessEvent F64) : Option Instant :=
  (clockOf event).map Reading.now

/-- Time passes as far as every connection waits for it. -/
def waits (state : Process F64) (later : Instant) : Bool :=
  state.sessions.all (connectionWaits later) && state.probes.all (probeWaits later)

theorem waits_eq_true {state : Process F64} {later : Instant} :
    waits state later = true ↔
      (∀ task ∈ state.sessions, connectionWaits later task = true) ∧
        ∀ probe ∈ state.probes, probeWaits later probe = true := by
  rw [waits, Bool.and_eq_true, List.all_eq_true, List.all_eq_true]

variable [UnicodeTables] [WallClock F64] [SocketAddrParser] [TomlParser]

/-- The process on its clock. -/
def clockedStep (path : String) : Clocked (Process F64) → ClockedLabel (ProcessEvent F64) →
    Option (Clocked (Process F64)) :=
  ClockedSystem.step (Process.step path) readingOf waits

variable {state next : Process F64} {event : ProcessEvent F64} {now later : Instant}
variable {path : String}

omit [SocketAddrParser] [TomlParser] in
/-- What a step of the process is for the session at one position. -/
theorem session_step_cases (hstep : ProcessStep state event next)
    (hreads : ∀ instant, readingOf event = some instant → instant = now) {i : ℕ}
    {task : SessionTask F64} (hget : state.sessions[i]? = some task) :
    ∃ task', next.sessions[i]? = some task' ∧
      (task' = task ∨
        (∃ update rest, task.pending = update :: rest ∧
          task' = ⟨task.control, rest, task.made ++ [update]⟩) ∨
        (task.pending = [] ∧ task'.made = task.made ∧
          task'.control.heartbeatRecvTimeout = task.control.heartbeatRecvTimeout ∧
          ConnectionStep task.control.heartbeatRecvTimeout now task.control.point
            task'.control.point (task'.pending.countP countsHeartbeat))) := by
  cases hstep with
  | @inbound move pool hown hpool =>
      rcases task_step_cases hpool hget with ⟨update, rest, -, hpending, hnext⟩ |
        ⟨⟨clock, completion⟩, shared, control, updates, rfl, hpending, hact, hnext⟩ |
          ⟨-, -, hnext⟩
      · exact ⟨_, hnext, Or.inr (Or.inl ⟨update, rest, hpending, rfl⟩)⟩
      · obtain ⟨peers, hhandle, -⟩ := SessionPool.act_eq_some hact
        obtain rfl : clock.now = now := hreads clock.now rfl
        exact ⟨_, hnext, Or.inr (Or.inr ⟨hpending, rfl, handleConnection_timeout hhandle,
          connectionStep_of_handleConnection hhandle⟩)⟩
      · exact ⟨task, hnext, Or.inl rfl⟩
  | outbound | acceptProbe | probe => exact ⟨task, hget, Or.inl rfl⟩
  | around hframe => exact ⟨task, hframe.sessions ▸ hget, Or.inl rfl⟩

omit [SocketAddrParser] [TomlParser] in
/-- The same for a probe connection. -/
theorem probe_step_cases (hstep : ProcessStep state event next)
    (hreads : ∀ instant, readingOf event = some instant → instant = now) {i : ℕ} {probe : Probe}
    (hget : state.probes[i]? = some probe) :
    ∃ probe', next.probes[i]? = some probe' ∧
      (probe' = probe ∨ ∃ (clock : Reading F64) (completion : Completion), clock.now = now ∧
        probe.serve clock completion = some probe') := by
  have hlt := (List.getElem?_eq_some_iff.mp hget).1
  cases hstep with
  | @probe index input old probe' hold hserve =>
      rcases eq_or_ne index i with rfl | hne
      · rw [hold] at hget
        cases hget
        exact ⟨probe', List.getElem?_set_self hlt,
          Or.inr ⟨input.1, input.2, hreads _ rfl, hserve⟩⟩
      · exact ⟨probe, by rw [List.getElem?_set_ne hne, hget], Or.inl rfl⟩
  | acceptProbe => exact ⟨probe, by rw [List.getElem?_append_left hlt, hget], Or.inl rfl⟩
  | outbound | inbound => exact ⟨probe, hget, Or.inl rfl⟩
  | around hframe => exact ⟨probe, hframe.probes ▸ hget, Or.inl rfl⟩

/-- No connection has missed its deadline, and no deadline is further away than
the timeout it was set with. -/
structure DeadlinesAhead (state : Process F64) (now : Instant) : Prop where
  sessions : ∀ (i : ℕ) task, state.sessions[i]? = some task →
    DeadlineAhead task.control.heartbeatRecvTimeout now task.control.point
  probes : ∀ probe ∈ state.probes, ProbeInSlot now now probe

omit [UnicodeTables] [WallClock F64] [SocketAddrParser] [TomlParser] in
theorem DeadlinesAhead.wait (hahead : DeadlinesAhead state now) (hlater : now ≤ later)
    (hwaits : waits state later = true) : DeadlinesAhead state later := by
  obtain ⟨hsessions, hprobes⟩ := waits_eq_true.mp hwaits
  exact {
    sessions := fun i task hget =>
      (hahead.sessions i task hget).wait hlater (hsessions task (List.mem_of_getElem? hget))
    probes := fun probe hmem =>
      ((hahead.probes probe hmem).mono hlater).wait (hprobes probe hmem) }

omit [SocketAddrParser] [TomlParser] in
theorem DeadlinesAhead.step (hahead : DeadlinesAhead state now)
    (hstep : ProcessStep state event next)
    (hreads : ∀ instant, readingOf event = some instant → instant = now) :
    DeadlinesAhead next now := by
  cases hstep with
  | outbound => exact ⟨hahead.sessions, hahead.probes⟩
  | inbound hown hpool =>
      refine ⟨?_, hahead.probes⟩
      refine forall_control_step
        (P := fun (_ : ℕ) (connection : Connection F64) =>
          DeadlineAhead connection.heartbeatRecvTimeout now connection.point)
        (fun hmove hact hold => ?_) (fun _ houtside connection hmem index hindex => ?_) hpool
        hahead.sessions
      · obtain ⟨peers, hhandle, -⟩ := SessionPool.act_eq_some hact
        have hclock := hreads _ (by rw [hmove]; rfl)
        rw [handleConnection_timeout hhandle]
        exact deadlineAhead_step hold (hclock ▸ connectionStep_of_handleConnection hhandle)
      · rw [(SessionPool.outside_eq_some houtside).2 connection hmem]
        trivial
  | acceptProbe =>
      refine ⟨hahead.sessions, fun probe hmem => ?_⟩
      rcases List.mem_append.mp hmem with hold | hnew
      · exact hahead.probes probe hold
      · rw [List.mem_singleton.mp hnew]
        exact Nat.le_refl now
  | probe hget hserve =>
      refine ⟨hahead.sessions, fun probe hmem => ?_⟩
      rcases List.mem_or_eq_of_mem_set hmem with hold | rfl
      · exact hahead.probes probe hold
      · obtain rfl := hreads _ rfl
        exact (hahead.probes _ (List.mem_of_getElem? hget)).serve hserve
  | around hframe =>
      exact ⟨hframe.sessions ▸ hahead.sessions, hframe.probes ▸ hahead.probes⟩

theorem deadlinesAhead_of_reachable {config : Config} {first last : Clocked (Process F64)}
    (hfirst : first.state = start F64 config)
    (hreach : Reachable (clockedStep path) first last) : DeadlinesAhead last.state last.now := by
  refine ClockedSystem.invariant DeadlinesAhead hreach ?_
    (fun _ _ _ _ hahead hlater hwaits => hahead.wait hlater hwaits)
    fun _ _ _ _ _ hahead hreads hstep => hahead.step (processStep_of_step hstep) hreads
  rw [hfirst]
  exact ⟨nofun, nofun⟩

/-- The slot of one session, from any instant on. -/
theorem session_inSlot {first last : Clocked (Process F64)} {i : ℕ} {task : SessionTask F64}
    (hahead : DeadlinesAhead first.state first.now)
    (hreach : Reachable (clockedStep path) first last)
    (hget : first.state.sessions[i]? = some task) :
    ∃ task', last.state.sessions[i]? = some task' ∧
      task'.control.heartbeatRecvTimeout = task.control.heartbeatRecvTimeout ∧
      InSlot first.now (heartbeatsCounted task) last.now task' := by
  refine ClockedSystem.invariant
    (fun state now => ∃ task', state.sessions[i]? = some task' ∧
      task'.control.heartbeatRecvTimeout = task.control.heartbeatRecvTimeout ∧
      InSlot first.now (heartbeatsCounted task) now task') hreach
    ⟨task, hget, rfl, inSlot_now (hahead.sessions i task hget)⟩ ?_ ?_
  · rintro state now later - ⟨task', hget', hkept, hslot⟩ - hwaits
    have hwait := (waits_eq_true.mp hwaits).1 task' (List.mem_of_getElem? hget')
    exact ⟨task', hget', hkept, hslot.wait hwait⟩
  · rintro state now event next - ⟨⟨control, pending, made⟩, hget', hkept, hslot⟩ hreads hstep
    obtain ⟨⟨control', pending', made'⟩, hnext, hcases⟩ :=
      session_step_cases (processStep_of_step hstep) hreads hget'
    rcases hcases with hsame | ⟨update, rest, hpending, hflushed⟩ |
      ⟨hpending, hmade, htimeout, hconnection⟩
    · exact ⟨_, hnext, by rw [hsame]; exact hkept, by rw [hsame]; exact hslot⟩
    · cases hpending
      cases hflushed
      exact ⟨_, hnext, hkept, hslot.flush⟩
    · cases hpending
      cases hmade
      exact ⟨_, hnext, htimeout.trans hkept, hslot.act htimeout hconnection⟩

/-- The slot of one probe connection, from any instant on. -/
theorem probe_inSlot {first last : Clocked (Process F64)} {i : ℕ} {probe : Probe}
    (hahead : DeadlinesAhead first.state first.now)
    (hreach : Reachable (clockedStep path) first last)
    (hget : first.state.probes[i]? = some probe) :
    ∃ probe', last.state.probes[i]? = some probe' ∧ probe'.idleSecs = probe.idleSecs ∧
      ProbeInSlot first.now last.now probe' := by
  refine ClockedSystem.invariant
    (fun state now => ∃ probe', state.probes[i]? = some probe' ∧
      probe'.idleSecs = probe.idleSecs ∧ ProbeInSlot first.now now probe') hreach
    ⟨probe, hget, rfl, hahead.probes probe (List.mem_of_getElem? hget)⟩ ?_ ?_
  · rintro state now later - ⟨probe', hget', hkept, hslot⟩ - hwaits
    have hwait := (waits_eq_true.mp hwaits).2 probe' (List.mem_of_getElem? hget')
    exact ⟨probe', hget', hkept, hslot.wait hwait⟩
  · rintro state now event next - ⟨probe', hget', hkept, hslot⟩ hreads hstep
    obtain ⟨probe'', hnext, rfl | ⟨clock, completion, rfl, hserve⟩⟩ :=
      probe_step_cases (processStep_of_step hstep) hreads hget'
    · exact ⟨_, hnext, hkept, hslot⟩
    · exact ⟨_, hnext, (serve_idleSecs hserve).trans hkept, hslot.serve hserve⟩

/-- Slots come back.  In every run of the process, with any number of
connections, reloads of the timeouts and clients that send what they like, at
most as many permits are held as there are; between any two instants of the run
a connection that still holds its permit has been there for at most the
handshake timeout and one receive timeout, its own, for each heartbeat that it
has counted since and one more, and a probe connection for at most its idle
timeout. -/
theorem slots_come_back {config : Config} {opened : Instant}
    {first last : Clocked (Process F64)}
    (hfirst : Reachable (clockedStep path) ⟨start F64 config, opened⟩ first)
    (hlast : Reachable (clockedStep path) first last) :
    (last.state.sessions.countP (holdsPermit F64) ≤ maxConnections ∧
      last.state.probes.countP Probe.holdsPermit ≤ maxProbeConnections) ∧
    (∀ (i : ℕ) task, first.state.sessions[i]? = some task →
      ∃ task', last.state.sessions[i]? = some task' ∧
        (holdsPermit F64 task' = true →
          last.now ≤ first.now + fromSecs handshakeTimeoutSecs +
            (heartbeatsCounted task' - heartbeatsCounted task + 1) *
              fromSecs task.control.heartbeatRecvTimeout)) ∧
    ∀ (i : ℕ) probe, first.state.probes[i]? = some probe →
      ∃ probe', last.state.probes[i]? = some probe' ∧
        (probe'.holdsPermit = true → last.now ≤ first.now + fromSecs probe.idleSecs) := by
  have hahead := deadlinesAhead_of_reachable rfl hfirst
  have hcaps : WithinCaps last.state :=
    (reachable_state (hfirst.trans hlast)).invariant WithinCaps (withinCaps_start config)
      fun _ _ _ hcaps hstep => withinCaps_step hcaps hstep
  refine ⟨⟨hcaps.sessions, hcaps.probes⟩, fun i task hget => ?_, fun i probe hget => ?_⟩
  · obtain ⟨task', hget', hkept, hslot⟩ := session_inSlot hahead hlast hget
    exact ⟨task', hget', fun hholds => hkept ▸ hslot.now_le hholds⟩
  · obtain ⟨probe', hget', hkept, hslot⟩ := probe_inSlot hahead hlast hget
    exact ⟨probe', hget', fun hholds => hkept ▸ hslot.now_le hholds⟩

end Clock

section Witness

local instance : SocketAddrParser := TwoSides.anyAddress

local instance : TomlParser := TwoSides.configFiles

local instance : UnicodeTables := asciiTables

/-- The first session runs on. -/
def serveAt (now : Instant) (completion : Completion) :
    ClockedLabel (ProcessEvent WholeSeconds) :=
  .act (.inbound (.act 0 (⟨now, ⟨0⟩⟩, completion)))

/-- One connection to each port; the probe gets its banner. -/
def opening : List (ClockedLabel (ProcessEvent WholeSeconds)) :=
  [.act (.inbound (.outside .accept)), .act .acceptProbe, serveAt 0 .ready,
    .act (.probe 0 (⟨0, ⟨0⟩⟩, .wrote (.ok 16)))]

/-- The handshake comes after four seconds, one heartbeat nine seconds later; the
probe sends bytes and stays open. -/
def dribbling : List (ClockedLabel (ProcessEvent WholeSeconds)) :=
  [.tick (fromSecs 4), serveAt (fromSecs 4) (.read (.ok [0, 0, 0, 3])),
    serveAt (fromSecs 4) (.read (.ok [99, 108, 105])), serveAt (fromSecs 4) .ready] ++
  List.replicate 12 (.act (.inbound (.flush 0))) ++
  [serveAt (fromSecs 4) .ready, .act (.probe 0 (⟨fromSecs 4, ⟨0⟩⟩, .read (.ok [1, 2]))),
    .tick (fromSecs 10), .act (.probe 0 (⟨fromSecs 10, ⟨0⟩⟩, .elapsed)), .tick (fromSecs 13),
    serveAt (fromSecs 13) (.read (.ok (List.replicate 16 0)))] ++
  List.replicate 3 (.act (.inbound (.flush 0))) ++
  [serveAt (fromSecs 13) (.wrote (.ok 16)), serveAt (fromSecs 13) .ready, .tick (fromSecs 43)]

/-- After forty-three seconds the session holds its permit, with one heartbeat
counted and the next packet just not in time; the probe has lost its own. -/
theorem slots_come_back_one_heartbeat :
    ∃ first last,
      run (clockedStep "config.toml") ⟨start WholeSeconds (configured 30), 0⟩ opening =
          some first ∧
        run (clockedStep "config.toml") first dribbling = some last ∧
        (first.state.sessions.length = 1 ∧ first.state.probes.length = 1 ∧ first.now = 0) ∧
        (last.state.sessions.map (holdsPermit WholeSeconds) = [true] ∧
          last.state.probes.map Probe.holdsPermit = [false] ∧ last.now = fromSecs 43) ∧
        (∀ (i : ℕ) task, first.state.sessions[i]? = some task →
          ∃ task', last.state.sessions[i]? = some task' ∧
            (holdsPermit WholeSeconds task' = true →
              last.now ≤ first.now + fromSecs handshakeTimeoutSecs +
                (heartbeatsCounted task' - heartbeatsCounted task + 1) *
                  fromSecs task.control.heartbeatRecvTimeout)) := by
  obtain ⟨first, hfirst, hopened⟩ := Option.map_eq_some_iff.mp (show
    (run (clockedStep "config.toml") ⟨start WholeSeconds (configured 30), 0⟩ opening).map
        (fun clocked => (clocked.state.sessions.length, clocked.state.probes.length,
          clocked.now)) = some (1, 1, 0) by decide +kernel)
  obtain ⟨last, hboth, hview⟩ := Option.map_eq_some_iff.mp (show
    (run (clockedStep "config.toml") ⟨start WholeSeconds (configured 30), 0⟩
        (opening ++ dribbling)).map
        (fun clocked => (clocked.state.sessions.map (holdsPermit WholeSeconds),
          clocked.state.probes.map Probe.holdsPermit, clocked.now)) =
      some ([true], [false], fromSecs 43) by decide +kernel)
  obtain ⟨middle, hmiddle, hlast⟩ := run_append_eq_some.mp hboth
  obtain rfl : first = middle := Option.some.inj (hfirst.symm.trans hmiddle)
  simp only [Prod.mk.injEq] at hopened hview
  obtain ⟨-, hsessions, -⟩ :=
    slots_come_back (Reachable.of_run hfirst) (Reachable.of_run hlast)
  exact ⟨first, last, hfirst, hlast, hopened, hview, hsessions⟩

end Witness

end TcpMonitor.ConnectionSlots
