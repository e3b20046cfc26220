import TcpMonitor.Core.Pacer
import TcpMonitor.Client.MissedHeartbeats

/-!
# When heartbeats are sent

`run_session` on the monotonic clock.  The variable `next_send` moves one
interval ahead with every heartbeat, is overwritten after a silent round, and is
compared with a clock that may have run past it.  Seen from outside, the session
is a sender that paces itself, so its schedule is the one of that sender.
-/

namespace TcpMonitor.HeartbeatSchedule

open TcpMonitor.TransitionSystem
open TcpMonitor.Runtime
open TcpMonitor.Configuration
open TcpMonitor.MetricFamilies
open TcpMonitor.Session
open TcpMonitor.SessionLog
open TcpMonitor.MissedHeartbeats

/-- A session, the clock, the first value of `next_send`, the instants at which
the session started to send its heartbeats, and those at which its rounds were
completed. -/
structure ClockedSession (F64 : Type) where
  stream : ClientStream F64
  now : Instant
  firstDue : Option Instant
  started : List Instant
  closed : List Instant

/-- What happens next: time passes, or the task runs to its next await point. -/
inductive ClockEvent (F64 : Type) where
  | tick (now : Instant)
  | act (wall : F64) (completion : Completion)

namespace ClockedSession

/-- The session begins when its handshake has been written. -/
def firstDueAfter {F64 : Type} (state : ClockedSession F64) (next : ClientStream F64) :
    Option Instant :=
  match state.stream.point, next.point with
  | .handshake _, .loopHead vars => some vars.nextSend
  | _, _ => state.firstDue

/-- A heartbeat is started when the session goes over to writing it. -/
def startedAfter {F64 : Type} (state : ClockedSession F64) (next : ClientStream F64) :
    List Instant :=
  match state.stream.point, next.point with
  | .sending _ _ _ _, .sending _ _ _ _ => state.started
  | _, .sending _ _ _ _ => state.started ++ [state.now]
  | _, _ => state.started

/-- A round is completed when it is added to the history. -/
def closedAfter {F64 : Type} (state : ClockedSession F64) (next : ClientStream F64) :
    List Instant :=
  if state.stream.log.rounds.length < next.log.rounds.length then state.closed ++ [state.now]
  else state.closed

/-- The task has run to its next await point. -/
def advance {F64 : Type} (state : ClockedSession F64) (next : ClientStream F64) :
    ClockedSession F64 where
  stream := next
  now := state.now
  firstDue := state.firstDueAfter next
  started := state.startedAfter next
  closed := state.closedAfter next

/-- A session that is about to send its handshake. -/
def start {F64 : Type} (nodeName : String) (metrics : Metrics F64) : ClockedSession F64 :=
  ⟨ClientStream.start nodeName metrics, 0, none, [], []⟩

/-- The clock does not run backwards; writes and reads may take any time. -/
def step {F64 : Type} [WallClock F64] (nodeName peerName : String) (clientCfg : ClientConfig)
    (state : ClockedSession F64) : ClockEvent F64 → Option (ClockedSession F64)
  | .tick now => if state.now ≤ now then some { state with now := now } else none
  | .act wall completion =>
      (state.stream.step nodeName peerName clientCfg (⟨state.now, wall⟩, completion)).map
        state.advance

/-- Sends and wake-ups take no time: the clock does not move while a heartbeat
is written, and does not pass an instant that the session waits for. -/
def prompt {F64 : Type} (state : ClockedSession F64) : ClockEvent F64 → Bool
  | .tick now =>
      match state.stream.point with
      | .loopHead vars | .sleeping vars => now ≤ vars.nextSend
      | .sending _ _ _ _ => now = state.now
      | .waiting _ _ _ deadline _ => now ≤ deadline
      | .handshake _ | .returned _ => true
  | .act _ _ => true

/-! ## The session as a sender that paces itself -/

/-- The phase of the sender at a point of the session. -/
def phase {F64 : Type} : SessionPoint F64 → Pacer.Phase
  | .handshake _ => .unopened
  | .loopHead vars | .sleeping vars => .idle vars.nextSend
  | .sending vars _ _ _ => .sending vars.nextSend
  | .waiting vars _ _ deadline _ => .waiting vars.nextSend deadline
  | .returned _ => .ended

/-- The sender that a session is. -/
def sender {F64 : Type} (state : ClockedSession F64) : Pacer.State where
  phase := phase state.stream.point
  now := state.now
  began := state.firstDue
  started := state.started
  waits := state.stream.log.rounds.map fun round => (round.deadline, silent round)
  closed := state.closed

end ClockedSession

open ClockedSession

section Simulation

variable {F64 : Type} [WallClock F64] {nodeName peerName : String} {clientCfg : ClientConfig}
variable {state next : ClockedSession F64} {event : ClockEvent F64} {metrics : Metrics F64}

/-- A step lets time pass, or is a step of the session. -/
theorem step_cases (hstep : state.step nodeName peerName clientCfg event = some next) :
    (∃ now, event = .tick now ∧ state.now ≤ now ∧ next = { state with now := now }) ∨
      ∃ wall completion stream, event = .act wall completion ∧
        state.stream.step nodeName peerName clientCfg (⟨state.now, wall⟩, completion) =
          some stream ∧ next = state.advance stream := by
  cases event with
  | tick now =>
      obtain ⟨hlater, heq⟩ := Option.ite_none_right_eq_some.mp hstep
      exact Or.inl ⟨now, rfl, hlater, (Option.some.inj heq).symm⟩
  | act wall completion =>
      obtain ⟨stream, hact, heq⟩ := Option.map_eq_some_iff.mp hstep
      exact Or.inr ⟨wall, completion, stream, rfl, hact, heq.symm⟩

/-- The part of a clocked run that the session takes. -/
theorem stream_reachable
    (hreach : Reachable (ClockedSession.step nodeName peerName clientCfg)
      (ClockedSession.start nodeName metrics) state) :
    Reachable (ClientStream.step nodeName peerName clientCfg)
      (ClientStream.start nodeName metrics) state.stream := by
  refine hreach.invariant (fun state => Reachable (ClientStream.step nodeName peerName clientCfg)
    (ClientStream.start nodeName metrics) state.stream) (Reachable.refl _) ?_
  intro state event next hstream hstep
  rcases step_cases hstep with ⟨now, -, -, rfl⟩ | ⟨wall, completion, stream, -, hact, rfl⟩
  · exact hstream
  · exact hstream.tail hact

omit [WallClock F64] in
theorem closedAfter_of_eq {stream : ClientStream F64}
    (hrounds : stream.log.rounds = state.stream.log.rounds) :
    state.closedAfter stream = state.closed := by
  rw [closedAfter, hrounds, if_neg (Nat.lt_irrefl _)]

omit [WallClock F64] in
theorem closedAfter_of_concat {stream : ClientStream F64} {round : Round F64}
    (hrounds : stream.log.rounds = state.stream.log.rounds ++ [round]) :
    state.closedAfter stream = state.closed ++ [state.now] := by
  rw [closedAfter, hrounds, List.length_append, List.length_singleton,
    if_pos (Nat.lt_succ_self _)]

omit [WallClock F64] in
/-- A step that completes no round. -/
theorem sender_of_eq {interval : Duration} {stream : ClientStream F64}
    (hrounds : stream.log.rounds = state.stream.log.rounds)
    (hstep : Pacer.Step interval state.sender { state.sender with
      phase := phase stream.point
      began := state.firstDueAfter stream
      started := state.startedAfter stream }) :
    Pacer.Step interval state.sender (state.advance stream).sender := by
  simpa only [sender, advance, hrounds, closedAfter_of_eq hrounds] using hstep

omit [WallClock F64] in
/-- A step that completes a round. -/
theorem sender_of_concat {interval : Duration} {stream : ClientStream F64} {round : Round F64}
    (hrounds : stream.log.rounds = state.stream.log.rounds ++ [round])
    (hstep : Pacer.Step interval state.sender { state.sender with
      phase := phase stream.point
      began := state.firstDueAfter stream
      started := state.startedAfter stream
      waits := state.sender.waits ++ [(round.deadline, silent round)]
      closed := state.closed ++ [state.now] }) :
    Pacer.Step interval state.sender (state.advance stream).sender := by
  simpa only [sender, advance, hrounds, closedAfter_of_concat hrounds, List.map_append,
    List.map_singleton] using hstep

/-- What a step of the session does to the sender. -/
theorem sender_act {wall : F64} {completion : Completion}
    {after : SessionPoint F64 × List (Update F64)}
    (hat : state.stream.log.At state.stream.point)
    (hstep : SessionStep nodeName peerName clientCfg state.stream.point ⟨state.now, wall⟩
      completion after) :
    Pacer.Step (fromSecs clientCfg.heartbeatInterval) state.sender
      (state.advance ⟨after.1, Update.applyAll after.2 state.stream.metrics,
        state.stream.log.record state.stream.point completion after⟩).sender := by
  obtain ⟨⟨point, metrics, log⟩, now, firstDue, started, closed⟩ := state
  dsimp only at hat hstep
  cases hstep with
  | handshakePart | sendPart | sleep => exact sender_of_eq rfl .stay
  | established => exact sender_of_eq rfl (.opened rfl)
  | handshakeError | writeError => exact sender_of_eq rfl .stop
  | due hdue | wake hdue => exact sender_of_eq rfl (.start rfl hdue)
  | sent => exact sender_of_eq rfl (.sent rfl)
  | @deadline vars sentSeq sendTs deadline gotEcho clock hdue =>
      obtain ⟨-, stale, hcurrent, -, hgot⟩ := hat
      have hrounds : (log.record (.waiting vars sentSeq sendTs deadline gotEcho) .elapsed
          (endWait clientCfg vars gotEcho ⟨now, wall⟩)).rounds =
            log.rounds ++ [⟨sentSeq, sendTs, deadline, unmeasured stale⟩] := by
        rw [Log.record_deadline hcurrent]
      refine sender_of_concat hrounds ?_
      cases gotEcho with
      | true =>
          have hheard : silent (⟨sentSeq, sendTs, deadline, unmeasured stale⟩ : Round F64) =
              false := by
            simpa [silent, unmeasured] using hgot
          rw [hheard]
          exact .answered rfl
      | false =>
          have hsilent : silent (⟨sentSeq, sendTs, deadline, unmeasured stale⟩ : Round F64) =
              true := by
            simpa [silent, unmeasured] using hgot
          rw [hsilent]
          rcases endWait_cases clientCfg vars false ⟨now, wall⟩ with
            ⟨hheard, -⟩ | ⟨-, -, heq⟩ | ⟨-, -, heq⟩
          · cases hheard
          · rw [heq]
            exact .silent rfl hdue
          · rw [heq]
            exact .gaveUp rfl hdue
  | readPart hread =>
      obtain ⟨-, stale, hcurrent, -⟩ := hat
      refine sender_of_eq ?_ .stay
      dsimp only
      rw [Log.record_read hread hcurrent (by simp)]
  | readError hread =>
      obtain ⟨-, stale, hcurrent, -⟩ := hat
      refine sender_of_eq ?_ .stop
      dsimp only
      rw [Log.record_read hread hcurrent (by simp [breakSession])]
  | @echo vars sentSeq sendTs deadline gotEcho clock outcome echoes echo hread =>
      obtain ⟨-, stale, hcurrent, -⟩ := hat
      by_cases hmatch : echo.seq = sentSeq
      · refine sender_of_concat (by rw [Log.record_matched hread hcurrent hmatch]) ?_
        have hheard : silent (⟨sentSeq, sendTs, deadline, unmeasured stale ++
            [(echo, some (wall - sendTs))]⟩ : Round F64) = false := by
          simp [silent]
        rw [hheard, readEcho, if_pos hmatch]
        exact .answered rfl
      · refine sender_of_eq (by rw [Log.record_stale hread hcurrent hmatch]) ?_
        rw [readEcho, if_neg hmatch]
        exact .stay
  | cancelled hpoint =>
      cases point <;> exact sender_of_eq rfl .stop

/-- A session steps as a sender that paces itself. -/
theorem sender_step (hat : state.stream.log.At state.stream.point)
    (hstep : state.step nodeName peerName clientCfg event = some next) :
    Pacer.Step (fromSecs clientCfg.heartbeatInterval) state.sender next.sender := by
  rcases step_cases hstep with ⟨now, -, hlater, rfl⟩ | ⟨wall, completion, stream, -, hact, rfl⟩
  · exact .tick hlater
  · obtain ⟨after, hrun, rfl⟩ := ClientStream.step_eq_some.mp hact
    exact sender_act hat (sessionStep_of_runSession hrun)

/-- A prompt event is punctual for the sender. -/
theorem sender_punctual (hstep : state.step nodeName peerName clientCfg event = some next)
    (hprompt : state.prompt event = true) : Pacer.Punctual state.sender next.sender := by
  rcases step_cases hstep with ⟨now, rfl, -, rfl⟩ | ⟨wall, completion, stream, -, -, rfl⟩
  · obtain ⟨⟨point, metrics, log⟩, now', firstDue, started, closed⟩ := state
    cases point with
    | handshake | returned => trivial
    | loopHead | sleeping | waiting => exact Or.inr (of_decide_eq_true hprompt)
    | sending =>
        have hsame : now = now' := of_decide_eq_true hprompt
        exact hsame
  · obtain ⟨⟨point, metrics, log⟩, now', firstDue, started, closed⟩ := state
    cases point with
    | handshake | returned => trivial
    | loopHead | sleeping | waiting => exact Or.inl rfl
    | sending => exact rfl

theorem paced_of_reachable
    (hreach : Reachable (ClockedSession.step nodeName peerName clientCfg)
      (ClockedSession.start nodeName metrics) state) :
    Pacer.Paced (fromSecs clientCfg.heartbeatInterval) state.sender := by
  refine hreach.invariant_of_reachable
    (fun state => Pacer.Paced (fromSecs clientCfg.heartbeatInterval) state.sender)
    (Pacer.Paced.init 0) ?_
  intro state event next hstate hpaced hstep
  exact hpaced.step (sender_step (ClientStream.at_of_reachable (stream_reachable hstate)) hstep)

theorem onBeat_of_prompt {events : List (ClockEvent F64)}
    (hrun : run (ClockedSession.step nodeName peerName clientCfg)
      (ClockedSession.start nodeName metrics) events = some state)
    (hprompt : ∀ move ∈ taken (ClockedSession.step nodeName peerName clientCfg)
      (ClockedSession.start nodeName metrics) events, move.1.prompt move.2 = true) :
    Pacer.OnBeat (fromSecs clientCfg.heartbeatInterval) state.sender := by
  have hboth := invariant_of_taken
    (fun state => Reachable (ClockedSession.step nodeName peerName clientCfg)
        (ClockedSession.start nodeName metrics) state ∧
      Pacer.OnBeat (fromSecs clientCfg.heartbeatInterval) state.sender)
    (fun state event => state.prompt event = true) hrun hprompt
    ⟨Reachable.refl _, Pacer.OnBeat.init 0⟩ ?_
  · exact hboth.2
  · rintro state event next ⟨hstate, hbeat⟩ hstep hpunctual
    refine ⟨hstate.tail hstep, hbeat.step (paced_of_reachable hstate) ?_
      (sender_punctual hstep hpunctual)⟩
    exact sender_step (ClientStream.at_of_reachable (stream_reachable hstate)) hstep

end Simulation

/-! ## The schedule of every session -/

section Schedule

variable {F64 : Type} [WallClock F64] {state : ClockedSession F64}

omit [WallClock F64] in
theorem due_of_live {vars : SessionVars F64} (hlive : state.stream.point.live = some vars) :
    state.sender.phase.due = some vars.nextSend := by
  obtain ⟨⟨point, metrics, log⟩, now, firstDue, started, closed⟩ := state
  cases point with
  | handshake | returned => cases hlive
  | loopHead | sleeping | sending | waiting =>
      cases hlive
      rfl

omit [WallClock F64] in
theorem waits_of_round {n : ℕ} {round : Round F64}
    (hget : state.stream.log.rounds[n]? = some round) :
    state.sender.waits[n]? = some (round.deadline, silent round) := by
  rw [sender, List.getElem?_map, hget]
  rfl

/-- Heartbeats are never ahead of their schedule, so that only a few are started
in any time; after a silent round there is a rest of one interval; and no
instant that a session computes is more than one interval ahead of the clock.
If sends and wake-ups take no time, the schedule is kept exactly. -/
theorem heartbeat_pacing (nodeName peerName : String) (clientCfg : ClientConfig)
    (metrics : Metrics F64) (hinterval : 1 ≤ clientCfg.heartbeatInterval)
    {events : List (ClockEvent F64)}
    (hrun : run (ClockedSession.step nodeName peerName clientCfg)
      (ClockedSession.start nodeName metrics) events = some state) :
    let interval := fromSecs clientCfg.heartbeatInterval
    (∀ first, state.firstDue = some first →
      (∀ (n instant : ℕ), state.started[n]? = some instant → first + n * interval ≤ instant) ∧
      ∀ elapsed, state.started.countP (fun instant => instant ≤ first + elapsed) ≤
        elapsed / interval + 1) ∧
    (∀ (n : ℕ) round, state.stream.log.rounds[n]? = some round → silent round = true →
      ∃ wake, state.closed[n]? = some wake ∧ round.deadline ≤ wake ∧
        ∀ instant, state.started[n + 1]? = some instant → wake + interval ≤ instant) ∧
    ((∀ vars, state.stream.point.live = some vars →
        (∃ first, state.firstDue = some first ∧
          first + state.started.length * interval ≤ vars.nextSend) ∧
        vars.nextSend ≤ state.now + interval) ∧
      (∀ vars sentSeq sendTs deadline gotEcho,
        state.stream.point = .waiting vars sentSeq sendTs deadline gotEcho →
          deadline ≤ state.now + interval) ∧
      (clientCfg.heartbeatInterval ≤ maxSeconds → interval ≤ fromSecs maxSeconds)) ∧
    ((∀ move ∈ taken (ClockedSession.step nodeName peerName clientCfg)
        (ClockedSession.start nodeName metrics) events, move.1.prompt move.2 = true) →
      (∀ n instant instant' : ℕ, state.started[n]? = some instant →
        state.started[n + 1]? = some instant' →
          ∃ round, state.stream.log.rounds[n]? = some round ∧
            instant' = instant + if silent round then 2 * interval else interval) ∧
      ∀ vars, state.stream.point.live = some vars →
        ∀ instant, state.started.getLast? = some instant →
          state.now ≤ instant + 2 * interval) := by
  intro interval
  have hpaced : Pacer.Paced interval state.sender := paced_of_reachable (Reachable.of_run hrun)
  have hpositive : 0 < interval := by
    have hsecs : 1 ≤ clientCfg.heartbeatInterval.toNat := UInt64.le_iff_toNat_le.mp hinterval
    exact Nat.mul_pos hsecs (by decide)
  refine ⟨?_, ?_, ⟨?_, ?_, ?_⟩, ?_⟩
  · intro first hfirst
    exact ⟨hpaced.spaced first hfirst, hpaced.countP_started_le hpositive hfirst⟩
  · intro n round hget hsilent
    have hwait := waits_of_round hget
    rw [hsilent] at hwait
    obtain ⟨wake, hwake, hlate, hrest, -⟩ := hpaced.rested n round.deadline hwait
    exact ⟨wake, hwake, hlate, hrest⟩
  · intro vars hlive
    exact ⟨hpaced.began _ (due_of_live hlive), hpaced.due_le _ (due_of_live hlive)⟩
  · intro vars sentSeq sendTs deadline gotEcho hpoint
    refine hpaced.deadline_le vars.nextSend deadline ?_
    rw [sender, hpoint]
    rfl
  · intro hmax
    exact Nat.mul_le_mul_right _ (UInt64.le_iff_toNat_le.mp hmax)
  · intro hprompt
    have hbeat : Pacer.OnBeat interval state.sender := onBeat_of_prompt hrun hprompt
    constructor
    · intro n instant instant' hget hget'
      have hlt : n < state.stream.log.rounds.length := by
        have hstarted := (List.getElem?_eq_some_iff.mp hget').1
        have hlength : state.started.length ≤ state.stream.log.rounds.length + 1 := by
          simpa [sender] using hpaced.started_length.2
        omega
      have hround := List.getElem?_eq_getElem hlt
      exact ⟨_, hround, hbeat.gap n instant instant' _ hget hget' (waits_of_round hround)⟩
    · intro vars hlive instant hlast
      rw [List.getLast?_eq_getElem?] at hlast
      have hlength := (List.getElem?_eq_some_iff.mp hlast).1
      exact hbeat.now_le hpaced (due_of_live hlive) (by dsimp only [sender]; omega) hlast

end Schedule

/-! ## A silent round and the next heartbeat -/

/-- The first round passes its deadline; the second heartbeat is sent one
interval later. -/
def silentThenSend : List (ClockEvent WholeSeconds) :=
  [.act ⟨0⟩ (.wrote (.ok 7)), .act ⟨0⟩ .ready, .act ⟨0⟩ (.wrote (.ok 16)), .tick 1000000000,
    .act ⟨1⟩ .elapsed, .act ⟨1⟩ .ready, .tick 2000000000, .act ⟨2⟩ .elapsed]

/-- The second heartbeat is sent two intervals after the first. -/
theorem heartbeat_pacing_after_silence :
    ∃ state, run (ClockedSession.step "cli" "srv" ⟨1, 3, 1⟩)
        (ClockedSession.start "cli" (Metrics.new WholeSeconds)) silentThenSend = some state ∧
      ∃ round, state.stream.log.rounds[0]? = some round ∧
        2000000000 = 0 + if silent round then 2 * fromSecs 1 else fromSecs 1 := by
  obtain ⟨state, hrun, hstarted⟩ := Option.map_eq_some_iff.mp (show
    (run (ClockedSession.step "cli" "srv" ⟨1, 3, 1⟩)
      (ClockedSession.start "cli" (Metrics.new WholeSeconds)) silentThenSend).map
        ClockedSession.started = some [0, 2000000000] by decide)
  have hpacing := heartbeat_pacing "cli" "srv" ⟨1, 3, 1⟩ (Metrics.new WholeSeconds) (by decide)
    hrun
  have hgaps := (hpacing.2.2.2 (by decide)).1
  exact ⟨state, hrun, hgaps 0 0 2000000000 (by rw [hstarted]; rfl) (by rw [hstarted]; rfl)⟩

end TcpMonitor.HeartbeatSchedule
