import TcpMonitor.Client.HeartbeatSchedule
import TcpMonitor.Client.TimeoutRule

/-!
# How long a dead peer stays unnoticed

Once the echoes of a session have stopped, each round waits one interval for its
echo, and the heartbeat after it is sent a full interval later.  A session that
allows `m` misses therefore waits through `m` silences and the `m - 1` rests
between them.
-/

namespace TcpMonitor.DetectionTime

open TcpMonitor.TransitionSystem
open TcpMonitor.Runtime
open TcpMonitor.Configuration
open TcpMonitor.MetricFamilies
open TcpMonitor.Session
open TcpMonitor.SessionLog
open TcpMonitor.MissedHeartbeats
open TcpMonitor.TimeoutRule
open TcpMonitor.HeartbeatSchedule
open TcpMonitor.HeartbeatSchedule.ClockedSession

section Silence

variable {F64 : Type} [WallClock F64]

/-- Nothing is read, no operation fails and nobody cancels the session. -/
def quiet : ClockEvent F64 → Bool
  | .tick _ | .act _ .ready | .act _ .elapsed | .act _ (.wrote (.ok _)) => true
  | .act _ (.wrote (.error _)) | .act _ (.read _) | .act _ (.connected _)
  | .act _ .cancelled => false

/-- A session whose sends and wake-ups take no time. -/
def promptStep (nodeName peerName : String) (clientCfg : ClientConfig) :
    ClockedSession F64 → ClockEvent F64 → Option (ClockedSession F64) :=
  restrict prompt (ClockedSession.step nodeName peerName clientCfg)

/-- Such a session that hears nothing any more. -/
def quietStep (nodeName peerName : String) (clientCfg : ClientConfig) :
    ClockedSession F64 → ClockEvent F64 → Option (ClockedSession F64) :=
  restrict (fun state event => state.prompt event && quiet event)
    (ClockedSession.step nodeName peerName clientCfg)

/-- `earlier` rounds before the last heartbeat were silent already: the time from
that heartbeat to the timeout. -/
def detectionTime (clientCfg : ClientConfig) (earlier : ℕ) : Duration :=
  (2 * (clientCfg.maxMisses.toNat - earlier) - 1) * fromSecs clientCfg.heartbeatInterval

variable {nodeName peerName : String} {clientCfg : ClientConfig} {metrics : Metrics F64}
variable {sent state next : ClockedSession F64} {event : ClockEvent F64}

theorem promptStep_of_quietStep
    (hreach : Reachable (quietStep nodeName peerName clientCfg) sent state) :
    Reachable (promptStep nodeName peerName clientCfg) sent state :=
  hreach.restrict_mono fun _ _ hallowed => (Bool.and_eq_true_iff.mp hallowed).1

theorem onBeat_of_promptStep
    (hreach : Reachable (promptStep nodeName peerName clientCfg)
      (ClockedSession.start nodeName metrics) state) :
    Pacer.OnBeat (fromSecs clientCfg.heartbeatInterval) state.sender := by
  obtain ⟨events, hrun⟩ := hreach
  obtain ⟨hrun, hprompt⟩ := run_restrict_eq_some.mp hrun
  exact onBeat_of_prompt hrun hprompt

omit [WallClock F64] in
theorem silentRun_append {rounds tail : List (Round F64)}
    (hsilent : ∀ round ∈ tail, silent round = true) :
    silentRun (rounds ++ tail) = silentRun rounds + tail.length := by
  induction tail using List.reverseRecOn with
  | nil => simp
  | append_singleton tail round ih =>
      have hlast := hsilent round (by simp)
      have hrest := ih fun other hmem => hsilent other (List.mem_append_left _ hmem)
      rw [← List.append_assoc, silentRun_concat, if_pos hlast, hrest, List.length_append,
        List.length_singleton, Nat.add_assoc]

/-! ## What silence leads to -/

/-- A point that a session can reach while it hears nothing. -/
def Unheard : SessionPoint F64 → Prop
  | .loopHead _ | .sleeping _ | .sending _ _ _ _ => True
  | .waiting _ _ _ _ gotEcho => gotEcho = false
  | .returned reason => reason = "timeout"
  | .handshake _ => False

/-- A session that hears nothing is running or has timed out. -/
theorem returned_of_unheard {F64 : Type} {point : SessionPoint F64} (hunheard : Unheard point)
    (hlive : point.live = none) : point = .returned "timeout" := by
  cases point with
  | handshake => exact hunheard.elim
  | loopHead | sleeping | sending | waiting => cases hlive
  | returned reason => exact congrArg SessionPoint.returned hunheard

/-- All rounds since the last heartbeat that `sent` has started were silent. -/
structure Silence (sent state : ClockedSession F64) : Prop where
  rounds : ∃ tail, state.stream.log.rounds = sent.stream.log.rounds ++ tail ∧
    ∀ round ∈ tail, silent round = true
  started : sent.started <+: state.started
  unheard : Unheard state.stream.point

omit [WallClock F64] in
theorem started_grows (stream : ClientStream F64) :
    state.started <+: (state.advance stream).started := by
  dsimp only [advance, startedAfter]
  split
  · exact List.prefix_rfl
  · exact List.prefix_append _ _
  · exact List.prefix_rfl

/-- A round that hears nothing until its deadline is silent, and the session
goes on or times out. -/
theorem endWait_unheard (vars : SessionVars F64) (clock : Reading F64) :
    Unheard (endWait clientCfg vars false clock).1 := by
  rcases endWait_cases clientCfg vars false clock with ⟨hheard, -⟩ | ⟨-, -, heq⟩ | ⟨-, -, heq⟩
  · cases hheard
  · rw [heq]
    trivial
  · rw [heq]
    trivial

/-- A step in which nothing is heard. -/
theorem Silence.act (hsilence : Silence sent state)
    (hat : state.stream.log.At state.stream.point) {wall : F64} {completion : Completion}
    (hquiet : quiet (.act wall completion) = true)
    {after : SessionPoint F64 × List (Update F64)}
    (hstep : SessionStep nodeName peerName clientCfg state.stream.point ⟨state.now, wall⟩
      completion after) :
    Silence sent (state.advance ⟨after.1, Update.applyAll after.2 state.stream.metrics,
      state.stream.log.record state.stream.point completion after⟩) := by
  obtain ⟨⟨point, metrics, log⟩, now, firstDue, started, closed⟩ := state
  obtain ⟨⟨tail, hrounds, hsilent⟩, hstarted, hunheard⟩ := hsilence
  dsimp only at hat hstep hrounds hunheard
  have hmore := fun stream : ClientStream F64 => hstarted.trans (started_grows stream)
  cases hstep with
  | handshakePart | established | handshakeError => exact hunheard.elim
  | sleep | due | wake | sendPart => exact ⟨⟨tail, hrounds, hsilent⟩, hmore _, trivial⟩
  | sent => exact ⟨⟨tail, hrounds, hsilent⟩, hmore _, rfl⟩
  | writeError | readPart | readError | echo | cancelled => cases hquiet
  | @deadline vars sentSeq sendTs deadline gotEcho clock hdue =>
      obtain rfl : gotEcho = false := hunheard
      obtain ⟨-, stale, hcurrent, -, hgot⟩ := hat
      obtain rfl : stale = [] := by simpa using hgot
      refine ⟨⟨tail ++ [⟨sentSeq, sendTs, deadline, []⟩], ?_, ?_⟩, hmore _,
        endWait_unheard vars _⟩
      · dsimp only [advance]
        rw [Log.record_deadline hcurrent, hrounds, List.append_assoc]
        rfl
      · intro round hmem
        rcases List.mem_append.mp hmem with hold | hnew
        · exact hsilent round hold
        · rw [List.mem_singleton.mp hnew]
          rfl

theorem Silence.step (hsilence : Silence sent state)
    (hat : state.stream.log.At state.stream.point)
    (hstep : quietStep nodeName peerName clientCfg state event = some next) :
    Silence sent next := by
  obtain ⟨hallowed, hstep⟩ := restrict_eq_some.mp hstep
  have hquiet := (Bool.and_eq_true_iff.mp hallowed).2
  rcases step_cases hstep with ⟨now, -, -, rfl⟩ | ⟨wall, completion, stream, rfl, hact, rfl⟩
  · exact ⟨hsilence.rounds, hsilence.started, hsilence.unheard⟩
  · obtain ⟨after, hrun, rfl⟩ := ClientStream.step_eq_some.mp hact
    exact hsilence.act hat hquiet (sessionStep_of_runSession hrun)

theorem silence_of_quietStep
    (hsent : Reachable (promptStep nodeName peerName clientCfg)
      (ClockedSession.start nodeName metrics) sent)
    (hunheard : Unheard sent.stream.point)
    (hquiet : Reachable (quietStep nodeName peerName clientCfg) sent state) :
    Silence sent state := by
  refine hquiet.invariant_of_reachable (Silence sent)
    ⟨⟨[], (List.append_nil _).symm, by simp⟩, List.prefix_rfl, hunheard⟩ ?_
  intro state event next hstate hsilence hstep
  have hreach := (hsent.trans (promptStep_of_quietStep hstate)).of_restrict
  exact hsilence.step (ClientStream.at_of_reachable (stream_reachable hreach)) hstep

omit [WallClock F64] in
/-- The waits of the sender since the last heartbeat were silent. -/
theorem Silence.silentFrom (hsilence : Silence sent state) :
    Pacer.SilentFrom sent.stream.log.rounds.length state.sender := by
  obtain ⟨tail, hrounds, hsilent⟩ := hsilence.rounds
  intro k wait hk hget
  dsimp only [sender] at hget
  rw [List.getElem?_map, hrounds, List.getElem?_append_right hk] at hget
  obtain ⟨round, hround, rfl⟩ := Option.map_eq_some_iff.mp hget
  exact hsilent round (List.mem_of_getElem? hround)

omit [WallClock F64] in
/-- The last heartbeat that `sent` has started stays where it is. -/
theorem Silence.getElem?_started (hsilence : Silence sent state)
    (hpaced : Pacer.Paced (fromSecs clientCfg.heartbeatInterval) sent.sender)
    {vars : SessionVars F64} {sentSeq : UInt64} {sendTs : F64} {unsent : List UInt8}
    (hpoint : sent.stream.point = .sending vars sentSeq sendTs unsent) {instant : Instant}
    (hlast : sent.started.getLast? = some instant) :
    state.started[sent.stream.log.rounds.length]? = some instant := by
  have hbusy := hpaced.busy_length vars.nextSend (by dsimp only [sender]; rw [hpoint]; rfl)
    (by dsimp only [sender]; rw [hpoint]; exact Pacer.Phase.noConfusion)
  have hlength : sent.started.length = sent.stream.log.rounds.length + 1 := by
    simpa [sender] using hbusy
  rw [List.getLast?_eq_getElem?, hlength, Nat.add_sub_cancel] at hlast
  obtain ⟨rest, hrest⟩ := hsilence.started
  rw [← hrest, List.getElem?_append_left (List.getElem?_eq_some_iff.mp hlast).1]
  exact hlast

/-- The detection time, counted from the first of the silent rounds that are
left. -/
theorem detectionTime_eq {earlier missed : ℕ}
    (hmissed : clientCfg.maxMisses.toNat = earlier + missed + 1) :
    detectionTime clientCfg earlier =
      missed * (2 * fromSecs clientCfg.heartbeatInterval) +
        fromSecs clientCfg.heartbeatInterval := by
  have hleft : 2 * (clientCfg.maxMisses.toNat - earlier) - 1 = 2 * missed + 1 := by omega
  rw [detectionTime, hleft, Nat.succ_mul, Nat.mul_comm 2 missed, Nat.mul_assoc]

theorem detectionTime_le (clientCfg : ClientConfig) (earlier : ℕ) :
    detectionTime clientCfg earlier ≤ detectionTime clientCfg 0 :=
  Nat.mul_le_mul_right _ (by omega)

end Silence

/-! ## The session never gets stuck -/

section Progress

variable {F64 : Type} [WallClock F64] {nodeName peerName : String} {clientCfg : ClientConfig}
variable {metrics : Metrics F64} {state : ClockedSession F64}

theorem quiet_tick {now : Instant} (hlater : state.now ≤ now)
    (hprompt : state.prompt (.tick now) = true) :
    Reachable (quietStep nodeName peerName clientCfg) state { state with now := now } :=
  (Reachable.refl state).tail <| restrict_eq_some.mpr
    ⟨Bool.and_eq_true_iff.mpr ⟨hprompt, rfl⟩, if_pos hlater⟩

theorem quiet_act {wall : F64} {completion : Completion}
    {after : SessionPoint F64 × List (Update F64)}
    (hquiet : quiet (.act wall completion) = true)
    (hrun : runSession nodeName peerName clientCfg state.stream.point ⟨state.now, wall⟩
      completion = some after) :
    ∃ next : ClockedSession F64,
      Reachable (quietStep nodeName peerName clientCfg) state next ∧
        next.stream.point = after.1 ∧
        next.stream.log = state.stream.log.record state.stream.point completion after := by
  refine ⟨_, (Reachable.refl state).tail <| restrict_eq_some.mpr
    ⟨Bool.and_eq_true_iff.mpr ⟨rfl, hquiet⟩, Option.map_eq_some_iff.mpr
      ⟨_, ClientStream.step_eq_some.mpr ⟨after, hrun, rfl⟩, rfl⟩⟩, rfl, rfl⟩

/-- A heartbeat can be written at once. -/
theorem waiting_of_sending (hat : state.stream.log.At state.stream.point)
    {vars : SessionVars F64} {sentSeq : UInt64} {sendTs : F64} {unsent : List UInt8}
    (hpoint : state.stream.point = .sending vars sentSeq sendTs unsent) :
    ∃ (next : ClockedSession F64) (vars' : SessionVars F64) (deadline : Instant),
      Reachable (quietStep nodeName peerName clientCfg) state next ∧
        next.stream.point = .waiting vars' sentSeq sendTs deadline false := by
  rw [hpoint] at hat
  obtain ⟨-, -, hunsent, -⟩ := hat
  have hpositive : ¬ (unsent.length = 0 ∨ unsent.length < unsent.length) := by
    simp [hunsent]
  have hrun : runSession nodeName peerName clientCfg state.stream.point
      ⟨state.now, vars.startTs⟩ (.wrote (.ok unsent.length)) =
        some (.waiting { vars with seq := vars.seq + 1 } sentSeq sendTs
            (state.now + fromSecs clientCfg.heartbeatInterval) false,
          [.incCounter .clientHeartbeatsSent vars.label]) := by
    simp only [hpoint, runSession, if_neg hpositive, if_true]
  obtain ⟨next, hnext, hwaiting, -⟩ := quiet_act rfl hrun
  exact ⟨next, _, _, hnext, hwaiting⟩

/-- A session that has started a heartbeat comes to wait for the echo. -/
theorem waiting_of_start
    (hreach : Reachable (promptStep nodeName peerName clientCfg)
      (ClockedSession.start nodeName metrics) state)
    {wall : F64} {completion : Completion} {vars : SessionVars F64}
    (hquiet : quiet (.act wall completion) = true)
    (hrun : runSession nodeName peerName clientCfg state.stream.point ⟨state.now, wall⟩
      completion = some (startRound clientCfg vars ⟨state.now, wall⟩, [])) :
    ∃ next : ClockedSession F64, Reachable (quietStep nodeName peerName clientCfg) state next ∧
      ∃ vars sentSeq sendTs deadline,
        next.stream.point = .waiting vars sentSeq sendTs deadline false := by
  obtain ⟨started, hstarted, hpoint, -⟩ := quiet_act hquiet hrun
  have hreach' := hreach.trans (promptStep_of_quietStep hstarted)
  have hat := ClientStream.at_of_reachable (stream_reachable hreach'.of_restrict)
  obtain ⟨next, vars', deadline, hnext, hwaiting⟩ := waiting_of_sending hat hpoint
  exact ⟨next, hstarted.trans hnext, vars', _, _, deadline, hwaiting⟩

/-- A session wakes up when its next heartbeat is due. -/
theorem waiting_of_sleeping
    (hreach : Reachable (promptStep nodeName peerName clientCfg)
      (ClockedSession.start nodeName metrics) state)
    {vars : SessionVars F64} (hpoint : state.stream.point = .sleeping vars) :
    ∃ next : ClockedSession F64, Reachable (quietStep nodeName peerName clientCfg) state next ∧
      ∃ vars sentSeq sendTs deadline,
        next.stream.point = .waiting vars sentSeq sendTs deadline false := by
  have hearly : state.now ≤ vars.nextSend :=
    ((onBeat_of_promptStep hreach).idle vars.nextSend (by rw [sender, hpoint]; rfl)).1
  have hslept : Reachable (quietStep nodeName peerName clientCfg) state
      { state with now := vars.nextSend } := quiet_tick hearly (by simp [prompt, hpoint])
  have hrun : runSession nodeName peerName clientCfg state.stream.point
      ⟨vars.nextSend, vars.startTs⟩ .elapsed =
        some (startRound clientCfg vars ⟨vars.nextSend, vars.startTs⟩, []) := by
    simp only [hpoint, runSession, le_refl, if_true]
  obtain ⟨next, hnext, hwaiting⟩ :=
    waiting_of_start (hreach.trans (promptStep_of_quietStep hslept)) rfl hrun
  exact ⟨next, hslept.trans hnext, hwaiting⟩

/-- A session that hears nothing sends its next heartbeat and waits for the
echo. -/
theorem waiting_of_live
    (hreach : Reachable (promptStep nodeName peerName clientCfg)
      (ClockedSession.start nodeName metrics) state)
    {vars : SessionVars F64} (hlive : state.stream.point.live = some vars)
    (hunheard : Unheard state.stream.point) :
    ∃ next : ClockedSession F64, Reachable (quietStep nodeName peerName clientCfg) state next ∧
      ∃ vars sentSeq sendTs deadline,
        next.stream.point = .waiting vars sentSeq sendTs deadline false := by
  cases hpoint : state.stream.point with
  | handshake | returned =>
      rw [hpoint] at hlive
      cases hlive
  | waiting vars sentSeq sendTs deadline gotEcho =>
      rw [hpoint] at hunheard
      obtain rfl : gotEcho = false := hunheard
      exact ⟨state, Reachable.refl state, vars, sentSeq, sendTs, deadline, hpoint⟩
  | sending vars sentSeq sendTs unsent =>
      have hat := ClientStream.at_of_reachable (stream_reachable hreach.of_restrict)
      obtain ⟨next, vars', deadline, hnext, hwaiting⟩ := waiting_of_sending hat hpoint
      exact ⟨next, hnext, vars', sentSeq, sendTs, deadline, hwaiting⟩
  | sleeping vars => exact waiting_of_sleeping hreach hpoint
  | loopHead vars =>
      by_cases hearly : vars.nextSend > state.now
      · have hrun : runSession nodeName peerName clientCfg state.stream.point
            ⟨state.now, vars.startTs⟩ .ready = some (.sleeping vars, []) := by
          simp only [hpoint, runSession, if_pos hearly]
        obtain ⟨asleep, hasleep, hsleeping, -⟩ := quiet_act rfl hrun
        obtain ⟨next, hnext, hwaiting⟩ := waiting_of_sleeping
          (hreach.trans (promptStep_of_quietStep hasleep)) hsleeping
        exact ⟨next, hasleep.trans hnext, hwaiting⟩
      · have hrun : runSession nodeName peerName clientCfg state.stream.point
            ⟨state.now, vars.startTs⟩ .ready =
              some (startRound clientCfg vars ⟨state.now, vars.startTs⟩, []) := by
          simp only [hpoint, runSession, if_neg hearly]
        exact waiting_of_start hreach rfl hrun

/-- A wait in which nothing is heard ends in one more miss. -/
theorem missed_of_waiting
    (hreach : Reachable (promptStep nodeName peerName clientCfg)
      (ClockedSession.start nodeName metrics) state)
    {vars : SessionVars F64} {sentSeq : UInt64} {sendTs : F64} {deadline : Instant}
    (hpoint : state.stream.point = .waiting vars sentSeq sendTs deadline false) :
    ∃ next : ClockedSession F64, Reachable (quietStep nodeName peerName clientCfg) state next ∧
      silentRun next.stream.log.rounds = silentRun state.stream.log.rounds + 1 := by
  have hearly : state.now ≤ deadline :=
    ((onBeat_of_promptStep hreach).waiting vars.nextSend deadline (by rw [sender, hpoint]; rfl)).1
  let ticked : ClockedSession F64 := { state with now := deadline }
  have hticked : Reachable (quietStep nodeName peerName clientCfg) state ticked :=
    quiet_tick hearly (by simp [prompt, hpoint])
  have hrun : runSession nodeName peerName clientCfg ticked.stream.point
      ⟨ticked.now, vars.startTs⟩ .elapsed =
        some (endWait clientCfg vars false ⟨deadline, vars.startTs⟩) := by
    simp only [ticked, hpoint, runSession, le_refl, if_true]
  obtain ⟨next, hnext, -, hlog⟩ := quiet_act rfl hrun
  refine ⟨next, hticked.trans hnext, ?_⟩
  have hat := ClientStream.at_of_reachable (stream_reachable hreach.of_restrict)
  rw [hpoint] at hat hlog
  obtain ⟨-, stale, hcurrent, -, hgot⟩ := hat
  obtain rfl : stale = [] := by simpa using hgot
  rw [hlog, Log.record_deadline hcurrent, silentRun_concat]
  rfl

/-- Whatever it has been through, a session that hears nothing any more comes to
its timeout. -/
theorem times_out
    (hreach : Reachable (promptStep nodeName peerName clientCfg)
      (ClockedSession.start nodeName metrics) state)
    (hunheard : Unheard state.stream.point) :
    ∃ final : ClockedSession F64,
      Reachable (quietStep nodeName peerName clientCfg) state final ∧
        final.stream.point = .returned "timeout" := by
  induction hleft : missLimit clientCfg - silentRun state.stream.log.rounds
      using Nat.strong_induction_on generalizing state with
  | _ left ih =>
      cases hlive : state.stream.point.live with
      | none =>
          exact ⟨state, Reachable.refl state, returned_of_unheard hunheard hlive⟩
      | some vars =>
          obtain ⟨waiting, hwaiting, vars', sentSeq, sendTs, deadline, hpoint⟩ :=
            waiting_of_live hreach hlive hunheard
          have hreach' := hreach.trans (promptStep_of_quietStep hwaiting)
          obtain ⟨missed, hmissed, hrun⟩ := missed_of_waiting hreach' hpoint
          have hquiet := hwaiting.trans hmissed
          have hsilence := silence_of_quietStep hreach hunheard hquiet
          obtain ⟨tail, hrounds, hsilent⟩ :=
            (silence_of_quietStep hreach hunheard hwaiting).rounds
          have hgrown : silentRun waiting.stream.log.rounds =
              silentRun state.stream.log.rounds + tail.length := by
            rw [hrounds, silentRun_append hsilent]
          have hlimit := (onCount_of_reachable (stream_reachable hreach.of_restrict)).lt_of_live
            hlive
          obtain ⟨final, hfinal, htimeout⟩ := ih _ (by omega)
            (hreach.trans (promptStep_of_quietStep hquiet)) hsilence.unheard rfl
          exact ⟨final, hquiet.trans hfinal, htimeout⟩

end Progress

/-! ## How long it takes -/

section Detection

variable {F64 : Type} [WallClock F64]

/-- With prompt sends and wake-ups, a session that hears nothing after it has
sent a heartbeat times out one detection time later: not before, not after, and
it does get there. -/
theorem detection_time (nodeName peerName : String) (clientCfg : ClientConfig)
    (metrics : Metrics F64) (hmisses : 1 ≤ clientCfg.maxMisses)
    {sent state : ClockedSession F64} {vars : SessionVars F64} {sentSeq : UInt64} {sendTs : F64}
    {unsent : List UInt8} {instant : Instant}
    (hsent : Reachable (promptStep nodeName peerName clientCfg)
      (ClockedSession.start nodeName metrics) sent)
    (hpoint : sent.stream.point = .sending vars sentSeq sendTs unsent)
    (hinstant : sent.started.getLast? = some instant)
    (hquiet : Reachable (quietStep nodeName peerName clientCfg) sent state) :
    let earlier := silentRun sent.stream.log.rounds
    earlier < clientCfg.maxMisses.toNat ∧
      detectionTime clientCfg earlier ≤ detectionTime clientCfg 0 ∧
      (instant + detectionTime clientCfg earlier < state.now →
        state.stream.point = .returned "timeout") ∧
      (∀ reason, state.stream.point = .returned reason → reason = "timeout" ∧
        state.closed.getLast? = some (instant + detectionTime clientCfg earlier)) ∧
      ∃ final : ClockedSession F64,
        Reachable (quietStep nodeName peerName clientCfg) state final ∧
          final.stream.point = .returned "timeout" := by
  intro earlier
  have hreach := hsent.trans (promptStep_of_quietStep hquiet)
  have hpaced := paced_of_reachable hreach.of_restrict
  have hbeat := onBeat_of_promptStep hreach
  have hunheard : Unheard sent.stream.point := by rw [hpoint]; trivial
  have hsilence := silence_of_quietStep hsent hunheard hquiet
  have hlast := hsilence.getElem?_started (paced_of_reachable hsent.of_restrict) hpoint hinstant
  have hfrom := hsilence.silentFrom
  have hlimit : missLimit clientCfg = clientCfg.maxMisses.toNat :=
    max_eq_right (UInt32.le_iff_toNat_le.mp hmisses)
  have hbefore : earlier < clientCfg.maxMisses.toNat := by
    have hcount := onCount_of_reachable (stream_reachable hsent.of_restrict)
    rw [← hlimit]
    exact hcount.lt_of_live (by rw [hpoint]; rfl)
  have hcount := onCount_of_reachable (stream_reachable hreach.of_restrict)
  obtain ⟨tail, hrounds, hsilent⟩ := hsilence.rounds
  have hrun : silentRun state.stream.log.rounds = earlier + tail.length := by
    rw [hrounds, silentRun_append hsilent]
  have hwaits : state.sender.waits.length = sent.stream.log.rounds.length + tail.length := by
    rw [sender, hrounds, List.length_map, List.length_append]
  refine ⟨hbefore, detectionTime_le clientCfg earlier, ?_, ?_, times_out hreach hsilence.unheard⟩
  · intro hlate
    cases hlive : state.stream.point.live with
    | none => exact returned_of_unheard hsilence.unheard hlive
    | some vars =>
        have hmissed := hcount.lt_of_live hlive
        have hnow : state.now ≤ instant + tail.length * (2 * fromSecs clientCfg.heartbeatInterval) +
            fromSecs clientCfg.heartbeatInterval :=
          hbeat.now_le_after_silence hpaced hlast hfrom (due_of_live hlive) hwaits
        obtain ⟨more, hmore⟩ : ∃ more,
            clientCfg.maxMisses.toNat = earlier + (tail.length + more) + 1 :=
          ⟨clientCfg.maxMisses.toNat - earlier - tail.length - 1, by omega⟩
        refine absurd hlate (Nat.not_lt.mpr (hnow.trans ?_))
        rw [detectionTime_eq hmore, Nat.add_mul, Nat.add_assoc]
        exact Nat.add_le_add_left (Nat.add_le_add_right (Nat.le_add_right _ _) _) _
  · intro reason hreturned
    have hunheard := hsilence.unheard
    rw [hreturned] at hunheard
    obtain rfl : reason = "timeout" := hunheard
    have hverdict := hcount.verdict.mp hreturned
    obtain ⟨missed, hmissed⟩ : ∃ missed, tail.length = missed + 1 :=
      ⟨tail.length - 1, by omega⟩
    refine ⟨rfl, ?_⟩
    rw [detectionTime_eq (by omega : clientCfg.maxMisses.toNat = earlier + missed + 1),
      ← Nat.add_assoc]
    exact hbeat.closed_after_silence hpaced hlast hfrom (by rw [hwaits, hmissed, Nat.add_assoc])

end Detection

/-! ## Two misses allowed -/

/-- The heartbeat that starts the silence. -/
def firstHeartbeat : List (ClockEvent WholeSeconds) :=
  [.act ⟨0⟩ (.wrote (.ok 7)), .act ⟨0⟩ .ready]

/-- The first round is silent, and the second heartbeat waits for its echo. -/
def twoSilences : List (ClockEvent WholeSeconds) :=
  [.act ⟨0⟩ (.wrote (.ok 16)), .tick 1000000000, .act ⟨1⟩ .elapsed, .act ⟨1⟩ .ready,
    .tick 2000000000, .act ⟨2⟩ .elapsed, .act ⟨2⟩ (.wrote (.ok 16)), .tick 2500000000]

/-- The session writes a heartbeat. -/
def isSending {F64 : Type} : SessionPoint F64 → Bool
  | .sending _ _ _ _ => true
  | _ => false

/-- The session waits for an echo. -/
def isWaiting {F64 : Type} : SessionPoint F64 → Bool
  | .waiting _ _ _ _ _ => true
  | _ => false

theorem exists_of_isSending {F64 : Type} {point : SessionPoint F64}
    (hsending : isSending point = true) :
    ∃ vars sentSeq sendTs unsent, point = .sending vars sentSeq sendTs unsent := by
  cases point with
  | sending vars sentSeq sendTs unsent => exact ⟨vars, sentSeq, sendTs, unsent, rfl⟩
  | handshake | loopHead | sleeping | waiting | returned => cases hsending

/-- Half a second after `max_misses` intervals the session is still waiting. -/
theorem undetected_after_max_misses :
    ¬ ∀ (sent state : ClockedSession WholeSeconds) (instant : Instant),
      Reachable (promptStep "cli" "srv" ⟨1, 2, 1⟩)
          (ClockedSession.start "cli" (Metrics.new WholeSeconds)) sent →
      (∃ vars sentSeq sendTs unsent,
        sent.stream.point = .sending vars sentSeq sendTs unsent) →
      sent.started.getLast? = some instant →
      Reachable (quietStep "cli" "srv" ⟨1, 2, 1⟩) sent state →
      instant + 2 * fromSecs 1 < state.now → state.stream.point = .returned "timeout" := by
  intro hdetected
  obtain ⟨⟨sent, state⟩, hrun, hview⟩ := Option.map_eq_some_iff.mp (show
    ((run (promptStep "cli" "srv" ⟨1, 2, 1⟩)
      (ClockedSession.start "cli" (Metrics.new WholeSeconds)) firstHeartbeat).bind fun sent =>
        (run (quietStep "cli" "srv" ⟨1, 2, 1⟩) sent twoSilences).map fun state =>
          (sent, state)).map
        (fun pair => (isSending pair.1.stream.point, pair.1.started.getLast?,
          pair.2.now, isWaiting pair.2.stream.point)) =
      some (true, some 0, 2500000000, true) by decide)
  obtain ⟨sent', hsent, hrun⟩ := Option.bind_eq_some_iff.mp hrun
  obtain ⟨state', hquiet, hpair⟩ := Option.map_eq_some_iff.mp hrun
  obtain ⟨rfl, rfl⟩ := Prod.mk.inj hpair
  obtain ⟨hsending, hview⟩ := Prod.mk.inj hview
  obtain ⟨hinstant, hview⟩ := Prod.mk.inj hview
  obtain ⟨hnow, hwaiting⟩ := Prod.mk.inj hview
  have hpoint : ∃ vars sentSeq sendTs unsent,
      sent'.stream.point = .sending vars sentSeq sendTs unsent := exists_of_isSending hsending
  have htimeout := hdetected sent' state' 0 (Reachable.of_run hsent) hpoint hinstant
    (Reachable.of_run hquiet) (by rw [hnow]; decide)
  rw [htimeout] at hwaiting
  cases hwaiting

/-- The session of this run times out three intervals after its first
heartbeat. -/
theorem detection_time_two_misses :
    ∃ sent final : ClockedSession WholeSeconds,
      run (promptStep "cli" "srv" ⟨1, 2, 1⟩)
          (ClockedSession.start "cli" (Metrics.new WholeSeconds)) firstHeartbeat = some sent ∧
        Reachable (quietStep "cli" "srv" ⟨1, 2, 1⟩) sent final ∧
        final.stream.point = .returned "timeout" ∧ final.closed.getLast? = some 3000000000 := by
  obtain ⟨sent, hsent, hview⟩ := Option.map_eq_some_iff.mp (show
    (run (promptStep "cli" "srv" ⟨1, 2, 1⟩)
      (ClockedSession.start "cli" (Metrics.new WholeSeconds)) firstHeartbeat).map
        (fun sent => (isSending sent.stream.point, sent.started.getLast?,
          silentRun sent.stream.log.rounds)) = some (true, some 0, 0) by decide)
  obtain ⟨hsending, hview⟩ := Prod.mk.inj hview
  obtain ⟨hinstant, hearlier⟩ := Prod.mk.inj hview
  obtain ⟨vars, sentSeq, sendTs, unsent, hpoint⟩ := exists_of_isSending hsending
  have hdetected := fun state (hquiet : Reachable _ sent state) =>
    detection_time "cli" "srv" ⟨1, 2, 1⟩ (Metrics.new WholeSeconds) (by decide)
      (Reachable.of_run hsent) hpoint hinstant hquiet
  obtain ⟨final, hquiet, htimeout⟩ := (hdetected sent (Reachable.refl sent)).2.2.2.2
  have hclosed := ((hdetected final hquiet).2.2.2.1 "timeout" htimeout).2
  rw [hearlier] at hclosed
  exact ⟨sent, final, hsent, hquiet, htimeout, hclosed⟩

end TcpMonitor.DetectionTime
