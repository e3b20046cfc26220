import Mathlib.Algebra.Order.Field.Rat
import Mathlib.Tactic.NormNum
import Mathlib.Tactic.Ring
import TcpMonitor.Client.ClocklessSession

/-!
# Measured times

The values that a session stores in `client_rtt` and in
`client_session_duration` are differences of two readings of the wall clock,
taken in different functions at different await points.  The readings are
history variables here, so a value can be compared with the monotonic time that
has passed between them.  Two runs with the same events take the same readings
at the same instants; what the values have in common is what the two wall
clocks do between them.
-/

namespace TcpMonitor.MeasuredTimes

open TcpMonitor.TransitionSystem
open TcpMonitor.Runtime
open TcpMonitor.Configuration
open TcpMonitor.MetricFamilies
open TcpMonitor.HeartbeatPacket
open TcpMonitor.HeartbeatReading
open TcpMonitor.Session
open TcpMonitor.SessionLog
open TcpMonitor.ClocklessSession

/-- A value stored in one of the two gauges, with the clocks at the earlier
reading and when it was stored. -/
structure Measurement (F64 : Type) where
  family : FloatFamily
  since : Reading F64
  storedAt : Reading F64
  value : F64

/-- The value that an update stores in one of the two gauges. -/
def measuredWrite {F64 : Type} : Update F64 → Option (FloatFamily × F64)
  | .setFloat .clientRtt _ value => some (.clientRtt, value)
  | .setFloat .clientSessionDuration _ value => some (.clientSessionDuration, value)
  | _ => none

/-- A session on the monotonic clock, its updates and its measurements.
`started` are the clocks when the session was established, `stamped` those when
the heartbeat of the current round was stamped. -/
structure MeasuredSession (F64 : Type) where
  point : SessionPoint F64
  now : Instant
  started : Option (Reading F64)
  stamped : Option (Reading F64)
  updates : List (Update F64)
  recorded : List (Measurement F64)

namespace MeasuredSession

section Definitions

variable {F64 : Type}

/-- A session that is about to send its handshake. -/
def start (F64 : Type) (nodeName : String) : MeasuredSession F64 :=
  ⟨openSession F64 nodeName, 0, none, none, [], []⟩

/-- The session is established when its handshake has been written. -/
def startedAfter (state : MeasuredSession F64) (clock : Reading F64)
    (after : SessionPoint F64) : Option (Reading F64) :=
  match state.point, after with
  | .handshake _, .loopHead _ => some clock
  | _, _ => state.started

/-- A heartbeat is stamped when its round begins. -/
def stampedAfter (state : MeasuredSession F64) (clock : Reading F64)
    (after : SessionPoint F64) : Option (Reading F64) :=
  match state.point, after with
  | .loopHead _, .sending _ _ _ _ | .sleeping _, .sending _ _ _ _ => some clock
  | _, _ => state.stamped

/-- The earlier reading of a measured time. -/
def since (state : MeasuredSession F64) : FloatFamily → Option (Reading F64)
  | .clientRtt => state.stamped
  | .clientSessionDuration => state.started
  | _ => none

/-- What is recorded with a value that is stored. -/
def measurementOf (state : MeasuredSession F64) (clock : Reading F64)
    (write : FloatFamily × F64) : Option (Measurement F64) :=
  (state.since write.1).map fun since => ⟨write.1, since, clock, write.2⟩

def advance (state : MeasuredSession F64) (clock : Reading F64)
    (after : SessionPoint F64 × List (Update F64)) : MeasuredSession F64 where
  point := after.1
  now := clock.now
  started := state.startedAfter clock after.1
  stamped := state.stampedAfter clock after.1
  updates := state.updates ++ after.2
  recorded := state.recorded ++
    (after.2.filterMap measuredWrite).filterMap (state.measurementOf clock)

/-- A step of the session.  The monotonic clock never goes back. -/
def step [WallClock F64] (nodeName peerName : String) (clientCfg : ClientConfig)
    (state : MeasuredSession F64) (input : Reading F64 × Completion) :
    Option (MeasuredSession F64) :=
  if state.now ≤ input.1.now then
    (runSession nodeName peerName clientCfg state.point input.1 input.2).map
      (state.advance input.1)
  else none

end Definitions

end MeasuredSession

open MeasuredSession

/-! ## What the two runs have in common -/

section Erase

variable {F64 : Type}

def eraseMeasurement (measurement : Measurement F64) : Measurement Unit where
  family := measurement.family
  since := eraseReading measurement.since
  storedAt := eraseReading measurement.storedAt
  value := ()

/-- A session without the readings of the wall clock. -/
def eraseSession (state : MeasuredSession F64) : MeasuredSession Unit where
  point := erasePoint state.point
  now := state.now
  started := state.started.map eraseReading
  stamped := state.stamped.map eraseReading
  updates := state.updates.map eraseUpdate
  recorded := state.recorded.map eraseMeasurement

/-- What happens at a step and when, without the timestamps in the bytes that
are read. -/
def eraseInput (position : ℕ) (input : Reading F64 × Completion) : Reading Unit × Completion :=
  (eraseReading input.1, eraseCompletion position input.2)

/-- The position in the stream behind a step. -/
def positionAfter (position : ℕ) (input : Reading F64 × Completion) : ℕ :=
  position + (readBytes input.2).length

/-- The events of a run and their instants.  The wall clock is left out, and so
are the timestamps that come back with the echoes. -/
def happenings (inputs : List (Reading F64 × Completion)) : List (Reading Unit × Completion) :=
  Observation.observe eraseInput positionAfter 0 inputs

variable {state next : MeasuredSession F64} {clock : Reading F64}

theorem measuredWrite_eraseUpdate (update : Update F64) :
    measuredWrite (eraseUpdate update) =
      (measuredWrite update).map fun write => (write.1, ()) := by
  cases update with
  | setFloat family label value => cases family <;> rfl
  | _ => rfl

theorem erase_measurementOf (write : FloatFamily × F64) :
    (eraseSession state).measurementOf (eraseReading clock) (write.1, ()) =
      (state.measurementOf clock write).map eraseMeasurement := by
  have hsince : (eraseSession state).since write.1 =
      (state.since write.1).map eraseReading := by
    cases write.1 <;> rfl
  rw [measurementOf, measurementOf, hsince, Option.map_map, Option.map_map]
  rfl

theorem erase_advance (after : SessionPoint F64 × List (Update F64)) :
    (eraseSession state).advance (eraseReading clock) (eraseAfter after) =
      eraseSession (state.advance clock after) := by
  have hstarted : (eraseSession state).startedAfter (eraseReading clock) (erasePoint after.1) =
      (state.startedAfter clock after.1).map eraseReading := by
    simp only [startedAfter, eraseSession]
    cases state.point <;> cases after.1 <;> rfl
  have hstamped : (eraseSession state).stampedAfter (eraseReading clock) (erasePoint after.1) =
      (state.stampedAfter clock after.1).map eraseReading := by
    simp only [stampedAfter, eraseSession]
    cases state.point <;> cases after.1 <;> rfl
  have hwrites : (after.2.map eraseUpdate).filterMap measuredWrite =
      (after.2.filterMap measuredWrite).map fun write => (write.1, ()) := by
    rw [List.filterMap_map, List.map_filterMap]
    congr 1
    funext update
    exact measuredWrite_eraseUpdate update
  have hrecorded : ((after.2.filterMap measuredWrite).map fun write => (write.1, ())).filterMap
      ((eraseSession state).measurementOf (eraseReading clock)) =
        ((after.2.filterMap measuredWrite).filterMap (state.measurementOf clock)).map
          eraseMeasurement := by
    rw [List.filterMap_map, List.map_filterMap]
    congr 1
    funext write
    exact erase_measurementOf write
  simp only [advance, eraseAfter, hstarted, hstamped, hwrites, hrecorded]
  simp only [eraseSession, List.map_append]
  rfl

variable [WallClock F64] {nodeName peerName : String} {clientCfg : ClientConfig}

theorem step_eq_some {input : Reading F64 × Completion} :
    state.step nodeName peerName clientCfg input = some next ↔
      state.now ≤ input.1.now ∧ ∃ after,
        runSession nodeName peerName clientCfg state.point input.1 input.2 = some after ∧
          state.advance input.1 after = next := by
  rw [step, Option.ite_none_right_eq_some, Option.map_eq_some_iff]

theorem erase_step {position : ℕ} {input : Reading F64 × Completion}
    (hfits : Fits position state.point) :
    (eraseSession state).step nodeName peerName clientCfg (eraseInput position input) =
      (state.step nodeName peerName clientCfg input).map eraseSession := by
  have hnow : (eraseSession state).now ≤ (eraseInput position input).1.now ↔
      state.now ≤ input.1.now := Iff.rfl
  simp only [step, hnow]
  split
  · rw [eraseInput, eraseSession, erase_runSession hfits, Option.map_map, Option.map_map]
    congr 1
    funext after
    exact erase_advance after
  · rfl

/-- Two runs with the same events are both possible or both not, and differ in
readings of the wall clock only. -/
theorem erase_eq_of_happenings {left right : List (Reading F64 × Completion)}
    (hsame : happenings left = happenings right) {leftEnd : MeasuredSession F64}
    (hleft : run (step nodeName peerName clientCfg) (start F64 nodeName) left = some leftEnd) :
    ∃ rightEnd, run (step nodeName peerName clientCfg) (start F64 nodeName) right =
      some rightEnd ∧ eraseSession leftEnd = eraseSession rightEnd := by
  have hcommute : ∀ position (state : MeasuredSession F64) input, Fits position state.point →
      (eraseSession state).step nodeName peerName clientCfg (eraseInput position input) =
        (state.step nodeName peerName clientCfg input).map eraseSession :=
    fun position state input => erase_step
  have hkeep : ∀ position (state : MeasuredSession F64) input next, Fits position state.point →
      state.step nodeName peerName clientCfg input = some next →
        Fits (positionAfter position input) next.point := by
    intro position state input next hfits hstep
    obtain ⟨-, after, hrun, rfl⟩ := step_eq_some.mp hstep
    exact hfits.step (sessionStep_of_runSession hrun)
  have hstart : Fits 0 (start F64 nodeName).point := rfl
  exact Observation.exists_run_of_observe_eq hcommute hkeep hstart hsame hleft

end Erase

/-! ## What a session measures -/

section Writes

variable {F64 : Type} [WallClock F64] {nodeName peerName : String} {clientCfg : ClientConfig}
variable {point : SessionPoint F64} {clock : Reading F64} {completion : Completion}
variable {after : SessionPoint F64 × List (Update F64)}

/-- The timestamp of the heartbeat of the current round. -/
def stampOf : SessionPoint F64 → Option F64
  | .sending _ _ sendTs _ | .waiting _ _ sendTs _ _ => some sendTs
  | _ => none

/-- A write is a difference to a reading that the session holds. -/
def Written (point : SessionPoint F64) (clock : Reading F64) (write : FloatFamily × F64) : Prop :=
  (write.1 = .clientRtt ∧ ∃ sendTs, stampOf point = some sendTs ∧ write.2 = clock.wall - sendTs) ∨
    (write.1 = .clientSessionDuration ∧
      ∃ vars, point.live = some vars ∧ write.2 = clock.wall - vars.startTs)

omit [WallClock F64] in
theorem writes_sessionEnd (label : PeerLabel) (duration : F64) (reason : String) :
    (sessionEnd label duration reason).filterMap measuredWrite =
      [(.clientSessionDuration, duration)] := by
  rw [sessionEnd]
  split
  · rfl
  · rfl

theorem writes_recordEcho (label : PeerLabel) (startTs nowTs : F64) (sendTs : Option F64) :
    (recordEcho label startTs nowTs sendTs).filterMap measuredWrite =
      (.clientSessionDuration, nowTs - startTs) ::
        (sendTs.map fun sendTs => (FloatFamily.clientRtt, nowTs - sendTs)).toList := by
  cases sendTs <;> rfl

theorem written_breakSession {vars : SessionVars F64} (hlive : point.live = some vars)
    (reason : String) :
    ∀ write ∈ (breakSession vars clock reason).2.filterMap measuredWrite,
      Written point clock write := by
  intro write hmem
  rw [breakSession, writes_sessionEnd, List.mem_singleton] at hmem
  rw [hmem]
  exact Or.inr ⟨rfl, vars, hlive, rfl⟩

theorem written_endWait {vars : SessionVars F64} (hlive : point.live = some vars)
    (gotEcho : Bool) :
    ∀ write ∈ (endWait clientCfg vars gotEcho clock).2.filterMap measuredWrite,
      Written point clock write := by
  intro write hmem
  rcases endWait_cases clientCfg vars gotEcho clock with ⟨-, heq⟩ | ⟨-, -, heq⟩ | ⟨-, -, heq⟩
  · rw [heq] at hmem
    cases hmem
  · rw [heq] at hmem
    cases hmem
  · rw [heq] at hmem
    exact written_breakSession hlive "timeout" write hmem

theorem written_readEcho {vars : SessionVars F64} {sentSeq : UInt64} {sendTs : F64}
    {echo : Heartbeat} {echoes : HeartbeatReader} {deadline : Instant}
    (hlive : point.live = some vars) (hstamp : stampOf point = some sendTs) :
    ∀ write ∈ (readEcho { vars with echoes := echoes } sentSeq sendTs deadline clock
      echo).2.filterMap measuredWrite, Written point clock write := by
  have hduration : Written point clock (.clientSessionDuration, clock.wall - vars.startTs) :=
    Or.inr ⟨rfl, vars, hlive, rfl⟩
  have hrtt : Written point clock (.clientRtt, clock.wall - sendTs) :=
    Or.inl ⟨rfl, sendTs, hstamp, rfl⟩
  intro write hmem
  rcases readEcho_cases { vars with echoes := echoes } sentSeq sendTs deadline clock echo with
    ⟨-, heq⟩ | ⟨-, heq⟩
  · rw [heq, writes_recordEcho, Option.map_some, Option.toList_some, List.mem_pair] at hmem
    rcases hmem with rfl | rfl
    · exact hduration
    · exact hrtt
  · rw [heq, writes_recordEcho, Option.map_none, Option.toList_none, List.mem_singleton] at hmem
    rw [hmem]
    exact hduration

/-- Whatever a step stores in the two gauges. -/
theorem written_of_step
    (hstep : SessionStep nodeName peerName clientCfg point clock completion after) :
    ∀ write ∈ after.2.filterMap measuredWrite, Written point clock write := by
  cases hstep with
  | handshakePart | established | handshakeError | sleep | due | wake | sendPart | sent
  | readPart =>
      intro write hmem
      cases hmem
  | writeError | readError => exact written_breakSession rfl _
  | deadline hdue => exact written_endWait rfl _
  | echo hread => exact written_readEcho rfl rfl
  | cancelled hpoint => exact written_breakSession (SessionPoint.live_of_interruptible hpoint) _

/-- A session keeps the reading that it started with. -/
theorem startTs_of_step
    (hstep : SessionStep nodeName peerName clientCfg point clock completion after)
    {vars : SessionVars F64} (hlive : after.1.live = some vars) :
    (∃ unsent, point = .handshake unsent ∧ after.1 = .loopHead vars ∧
        vars.startTs = clock.wall) ∨
      ∃ vars', point.live = some vars' ∧ vars.startTs = vars'.startTs := by
  cases hstep with
  | handshakePart | handshakeError | writeError | readError | cancelled => cases hlive
  | established =>
      cases hlive
      exact Or.inl ⟨_, rfl, rfl, rfl⟩
  | sleep | due | wake | sendPart | sent | readPart =>
      cases hlive
      exact Or.inr ⟨_, rfl, rfl⟩
  | @deadline vars sentSeq sendTs deadline gotEcho clock hdue =>
      rcases endWait_cases clientCfg vars gotEcho clock with
        ⟨-, heq⟩ | ⟨-, -, heq⟩ | ⟨-, -, heq⟩
      · rw [heq] at hlive
        cases hlive
        exact Or.inr ⟨_, rfl, rfl⟩
      · rw [heq] at hlive
        cases hlive
        exact Or.inr ⟨_, rfl, rfl⟩
      · rw [heq] at hlive
        cases hlive
  | @echo vars sentSeq sendTs deadline gotEcho clock outcome echoes echo hread =>
      rcases readEcho_cases { vars with echoes := echoes } sentSeq sendTs deadline clock echo with
        ⟨-, heq⟩ | ⟨-, heq⟩ <;>
      · rw [heq] at hlive
        cases hlive
        exact Or.inr ⟨_, rfl, rfl⟩

/-- A round keeps the reading that its heartbeat was stamped with. -/
theorem stamp_of_step
    (hstep : SessionStep nodeName peerName clientCfg point clock completion after)
    {sendTs : F64} (hstamp : stampOf after.1 = some sendTs) :
    (∃ vars vars' sentSeq unsent, (point = .loopHead vars ∨ point = .sleeping vars) ∧
        after.1 = .sending vars' sentSeq sendTs unsent ∧ sendTs = clock.wall) ∨
      stampOf point = some sendTs := by
  cases hstep with
  | handshakePart | established | handshakeError | sleep | writeError | readError | cancelled =>
      cases hstamp
  | due =>
      cases hstamp
      exact Or.inl ⟨_, _, _, _, Or.inl rfl, rfl, rfl⟩
  | wake =>
      cases hstamp
      exact Or.inl ⟨_, _, _, _, Or.inr rfl, rfl, rfl⟩
  | sendPart | sent | readPart => exact Or.inr hstamp
  | @deadline vars sentSeq sendTs deadline gotEcho clock hdue =>
      rcases endWait_cases clientCfg vars gotEcho clock with
        ⟨-, heq⟩ | ⟨-, -, heq⟩ | ⟨-, -, heq⟩ <;>
      · rw [heq] at hstamp
        cases hstamp
  | @echo vars sentSeq sendTs deadline gotEcho clock outcome echoes echo hread =>
      rcases readEcho_cases { vars with echoes := echoes } sentSeq sendTs deadline clock echo with
        ⟨-, heq⟩ | ⟨-, heq⟩
      · rw [heq] at hstamp
        cases hstamp
      · rw [heq] at hstamp
        exact Or.inr hstamp

end Writes

section Invariant

variable {F64 : Type} [WallClock F64] {nodeName peerName : String} {clientCfg : ClientConfig}
variable {readings : List (Reading F64)} {state next : MeasuredSession F64}

/-- The value is the difference of two readings of the run, and the earlier one
was taken earlier. -/
structure Measurement.Exact (readings : List (Reading F64)) (measurement : Measurement F64) :
    Prop where
  difference : measurement.value = measurement.storedAt.wall - measurement.since.wall
  ordered : measurement.since.now ≤ measurement.storedAt.now
  since_mem : measurement.since ∈ readings
  storedAt_mem : measurement.storedAt ∈ readings

/-- The session holds the readings of its history, and every value that it has
stored in the two gauges is recorded with its readings. -/
structure Marked (readings : List (Reading F64)) (state : MeasuredSession F64) : Prop where
  started : ∀ vars, state.point.live = some vars →
    ∃ since, state.started = some since ∧ vars.startTs = since.wall
  stamped : ∀ sendTs, stampOf state.point = some sendTs →
    ∃ since, state.stamped = some since ∧ sendTs = since.wall
  earlier : ∀ since, state.started = some since ∨ state.stamped = some since →
    since.now ≤ state.now ∧ since ∈ readings
  complete : state.recorded.map (fun measurement => (measurement.family, measurement.value)) =
    state.updates.filterMap measuredWrite
  exact : ∀ measurement ∈ state.recorded, measurement.Exact readings

theorem marked_start (readings : List (Reading F64)) (nodeName : String) :
    Marked readings (start F64 nodeName) where
  started := nofun
  stamped := nofun
  earlier := by
    intro since hsince
    rcases hsince with hsince | hsince
    · cases hsince
    · cases hsince
  complete := rfl
  exact := List.forall_mem_nil _

omit [WallClock F64] in
theorem startedAfter_cases {clock since : Reading F64} {after : SessionPoint F64}
    (hstarted : state.startedAfter clock after = some since) :
    state.started = some since ∨ since = clock := by
  unfold startedAfter at hstarted
  split at hstarted
  · exact Or.inr (Option.some.inj hstarted).symm
  · exact Or.inl hstarted

omit [WallClock F64] in
theorem stampedAfter_cases {clock since : Reading F64} {after : SessionPoint F64}
    (hstamped : state.stampedAfter clock after = some since) :
    state.stamped = some since ∨ since = clock := by
  unfold stampedAfter at hstamped
  split at hstamped
  · exact Or.inr (Option.some.inj hstamped).symm
  · exact Or.inr (Option.some.inj hstamped).symm
  · exact Or.inl hstamped

omit [WallClock F64] in
theorem startedAfter_of_live {clock : Reading F64} {after : SessionPoint F64}
    {vars : SessionVars F64} (hlive : state.point.live = some vars) :
    state.startedAfter clock after = state.started := by
  unfold startedAfter
  split
  · next hpoint =>
      rw [hpoint] at hlive
      cases hlive
  · rfl

omit [WallClock F64] in
theorem stampedAfter_of_stamp {clock : Reading F64} {after : SessionPoint F64} {sendTs : F64}
    (hstamp : stampOf state.point = some sendTs) :
    state.stampedAfter clock after = state.stamped := by
  unfold stampedAfter
  split
  · next hpoint =>
      rw [hpoint] at hstamp
      cases hstamp
  · next hpoint =>
      rw [hpoint] at hstamp
      cases hstamp
  · rfl

/-- A value that a marked session stores is recorded, with its readings. -/
theorem measurementOf_written (hmarked : Marked readings state) {clock : Reading F64}
    (hnow : state.now ≤ clock.now) (hclock : clock ∈ readings) {write : FloatFamily × F64}
    (hwritten : Written state.point clock write) :
    ∃ measurement, state.measurementOf clock write = some measurement ∧
      (measurement.family, measurement.value) = write ∧ measurement.Exact readings := by
  obtain ⟨family, value⟩ := write
  rcases hwritten with ⟨hfamily, sendTs, hstamp, hvalue⟩ | ⟨hfamily, vars, hlive, hvalue⟩
  · obtain ⟨since, hstamped, hwall⟩ := hmarked.stamped sendTs hstamp
    obtain ⟨hearlier, hmem⟩ := hmarked.earlier since (Or.inr hstamped)
    dsimp only at hfamily hvalue
    subst hfamily
    refine ⟨⟨.clientRtt, since, clock, value⟩, ?_, rfl, ?_, hearlier.trans hnow, hmem, hclock⟩
    · rw [measurementOf, MeasuredSession.since, hstamped, Option.map_some]
    · rw [hvalue, hwall]
  · obtain ⟨since, hstarted, hwall⟩ := hmarked.started vars hlive
    obtain ⟨hearlier, hmem⟩ := hmarked.earlier since (Or.inl hstarted)
    dsimp only at hfamily hvalue
    subst hfamily
    refine ⟨⟨.clientSessionDuration, since, clock, value⟩, ?_, rfl, ?_, hearlier.trans hnow, hmem,
      hclock⟩
    · rw [measurementOf, MeasuredSession.since, hstarted, Option.map_some]
    · rw [hvalue, hwall]

theorem recorded_of_written (hmarked : Marked readings state) {clock : Reading F64}
    (hnow : state.now ≤ clock.now) (hclock : clock ∈ readings)
    {writes : List (FloatFamily × F64)}
    (hwritten : ∀ write ∈ writes, Written state.point clock write) :
    (writes.filterMap (state.measurementOf clock)).map
        (fun measurement => (measurement.family, measurement.value)) = writes ∧
      ∀ measurement ∈ writes.filterMap (state.measurementOf clock),
        measurement.Exact readings := by
  induction writes with
  | nil => exact ⟨rfl, List.forall_mem_nil _⟩
  | cons write writes ih =>
      obtain ⟨hwrite, hrest⟩ := List.forall_mem_cons.mp hwritten
      obtain ⟨hmap, hexact⟩ := ih hrest
      obtain ⟨measurement, hmeasured, hpair, hhere⟩ :=
        measurementOf_written hmarked hnow hclock hwrite
      rw [List.filterMap_cons_some hmeasured, List.map_cons, hmap, hpair]
      exact ⟨rfl, List.forall_mem_cons.mpr ⟨hhere, hexact⟩⟩

theorem Marked.step (hmarked : Marked readings state) {input : Reading F64 × Completion}
    (hclock : input.1 ∈ readings)
    (hstep : state.step nodeName peerName clientCfg input = some next) :
    Marked readings next := by
  obtain ⟨hnow, after, hrun, rfl⟩ := step_eq_some.mp hstep
  have hcases := sessionStep_of_runSession hrun
  obtain ⟨hmap, hexact⟩ := recorded_of_written hmarked hnow hclock (written_of_step hcases)
  refine ⟨?_, ?_, ?_, ?_, ?_⟩
  · intro vars hlive
    rcases startTs_of_step hcases hlive with
      ⟨unsent, hpoint, hafter, hwall⟩ | ⟨vars', hlive', hwall⟩
    · refine ⟨input.1, ?_, hwall⟩
      simp only [advance, startedAfter, hpoint, hafter]
    · rw [hwall]
      simp only [advance, startedAfter_of_live hlive']
      exact hmarked.started vars' hlive'
  · intro sendTs hstamp
    rcases stamp_of_step hcases hstamp with
      ⟨vars, vars', sentSeq, unsent, hpoint, hafter, hwall⟩ | hstamp'
    · refine ⟨input.1, ?_, hwall⟩
      rcases hpoint with hpoint | hpoint
      · simp only [advance, stampedAfter, hpoint, hafter]
      · simp only [advance, stampedAfter, hpoint, hafter]
    · simp only [advance, stampedAfter_of_stamp hstamp']
      exact hmarked.stamped sendTs hstamp'
  · have hkept : ∀ since, (state.started = some since ∨ state.stamped = some since) ∨
        since = input.1 → since.now ≤ input.1.now ∧ since ∈ readings := by
      intro since hsince
      rcases hsince with hold | rfl
      · obtain ⟨hearlier, hmem⟩ := hmarked.earlier since hold
        exact ⟨hearlier.trans hnow, hmem⟩
      · exact ⟨le_refl _, hclock⟩
    intro since hsince
    apply hkept
    rcases hsince with hstarted | hstamped
    · exact (startedAfter_cases hstarted).imp_left Or.inl
    · exact (stampedAfter_cases hstamped).imp_left Or.inr
  · simp only [advance]
    rw [List.map_append, List.filterMap_append, hmarked.complete, hmap]
  · intro measurement hmem
    rcases List.mem_append.mp hmem with hold | hnew
    · exact hmarked.exact measurement hold
    · exact hexact measurement hnew

/-- Every value that a run stores in the two gauges is the difference of two of
its readings. -/
theorem marked_of_run {inputs : List (Reading F64 × Completion)}
    (hrun : run (step nodeName peerName clientCfg) (start F64 nodeName) inputs = some state) :
    Marked (inputs.map Prod.fst) state := by
  have hreadings : ∀ input ∈ inputs, input.1 ∈ inputs.map Prod.fst :=
    fun input hmem => List.mem_map_of_mem hmem
  exact invariant_of_taken (Marked (inputs.map Prod.fst))
    (fun _ input => input.1 ∈ inputs.map Prod.fst) hrun (forall_taken_of_forall hreadings)
    (marked_start _ nodeName) fun _ _ _ hmarked hstep hclock => hmarked.step hclock hstep

end Invariant

/-! ## Readings as exact rationals -/

/-- `f64::to_bits` of the readings. -/
class ReadingBits where
  toBits : ℚ → UInt64

instance [ReadingBits] : WallClock ℚ where
  toBits := ReadingBits.toBits

namespace Measurement

/-- The monotonic time between the two readings, in seconds. -/
def elapsed (measurement : Measurement ℚ) : ℚ :=
  ((measurement.storedAt.now : ℚ) - measurement.since.now) / 1000000000

/-- How far the wall clock has moved between the two readings. -/
def wallAdvance (measurement : Measurement ℚ) : ℚ :=
  measurement.storedAt.wall - measurement.since.wall

end Measurement

/-- The wall clock is not adjusted: it keeps its distance to the monotonic
clock. -/
def Unadjusted (inputs : List (Reading ℚ × Completion)) : Prop :=
  ∃ offset : ℚ, ∀ input ∈ inputs, input.1.wall = offset + (input.1.now : ℚ) / 1000000000

/-- The values that a run stores in the two gauges, all of them, with the
readings that they come from. -/
structure Measures (inputs : List (Reading ℚ × Completion)) (state : MeasuredSession ℚ) :
    Prop where
  complete : state.recorded.map (fun measurement => (measurement.family, measurement.value)) =
    state.updates.filterMap measuredWrite
  readings : ∀ measurement ∈ state.recorded,
    measurement.since ∈ inputs.map Prod.fst ∧ measurement.storedAt ∈ inputs.map Prod.fst
  advance : ∀ measurement ∈ state.recorded, measurement.value = measurement.wallAdvance
  elapsed_nonneg : ∀ measurement ∈ state.recorded, 0 ≤ measurement.elapsed
  elapsed_iff : ∀ measurement ∈ state.recorded,
    measurement.value = measurement.elapsed ↔ measurement.wallAdvance = measurement.elapsed
  negative_iff : ∀ measurement ∈ state.recorded,
    measurement.value < 0 ↔ measurement.storedAt.wall < measurement.since.wall

/-- Two values that belong together: the same gauge, set at the same instant,
and measured from the same instant. -/
structure Corresponds (left right : Measurement ℚ) : Prop where
  family : left.family = right.family
  since : left.since.now = right.since.now
  storedAt : left.storedAt.now = right.storedAt.now
  elapsed : left.elapsed = right.elapsed
  same_iff : left.value = right.value ↔ left.wallAdvance = right.wallAdvance

section Exact

variable [ReadingBits] {nodeName peerName : String} {clientCfg : ClientConfig}
variable {inputs : List (Reading ℚ × Completion)} {state : MeasuredSession ℚ}

theorem measures_of_run
    (hrun : run (step nodeName peerName clientCfg) (start ℚ nodeName) inputs = some state) :
    Measures inputs state := by
  have hmarked := marked_of_run hrun
  have hadvance : ∀ measurement ∈ state.recorded,
      measurement.value = measurement.wallAdvance :=
    fun measurement hmem => (hmarked.exact measurement hmem).difference
  refine ⟨hmarked.complete, ?_, hadvance, ?_, ?_, ?_⟩
  · intro measurement hmem
    have hexact := hmarked.exact measurement hmem
    exact ⟨hexact.since_mem, hexact.storedAt_mem⟩
  · intro measurement hmem
    have hordered : (measurement.since.now : ℚ) ≤ measurement.storedAt.now :=
      Nat.cast_le.mpr (hmarked.exact measurement hmem).ordered
    exact div_nonneg (sub_nonneg.mpr hordered) (by norm_num)
  · intro measurement hmem
    rw [hadvance measurement hmem]
  · intro measurement hmem
    rw [hadvance measurement hmem, Measurement.wallAdvance, sub_neg]

omit [ReadingBits] in
/-- A wall clock that is not adjusted measures the monotonic time. -/
theorem Measures.value_eq_elapsed (hmeasures : Measures inputs state)
    (hunadjusted : Unadjusted inputs) {measurement : Measurement ℚ}
    (hmem : measurement ∈ state.recorded) : measurement.value = measurement.elapsed := by
  obtain ⟨offset, hoffset⟩ := hunadjusted
  have hwall : ∀ clock ∈ inputs.map Prod.fst,
      clock.wall = offset + (clock.now : ℚ) / 1000000000 := by
    intro clock hclock
    obtain ⟨input, hinput, rfl⟩ := List.mem_map.mp hclock
    exact hoffset input hinput
  obtain ⟨hsince, hstored⟩ := hmeasures.readings measurement hmem
  calc
    measurement.value = measurement.storedAt.wall - measurement.since.wall :=
      hmeasures.advance measurement hmem
    _ = (offset + (measurement.storedAt.now : ℚ) / 1000000000) -
        (offset + (measurement.since.now : ℚ) / 1000000000) := by
      rw [hwall _ hsince, hwall _ hstored]
    _ = measurement.elapsed := by
      rw [Measurement.elapsed]
      ring

omit [ReadingBits] in
theorem corresponds_of_erase {left right : Measurement ℚ}
    (herase : eraseMeasurement left = eraseMeasurement right)
    (hleft : left.value = left.wallAdvance) (hright : right.value = right.wallAdvance) :
    Corresponds left right := by
  simp only [eraseMeasurement, eraseReading, Measurement.mk.injEq, Reading.mk.injEq, and_true]
    at herase
  obtain ⟨hfamily, hsince, hstored⟩ := herase
  refine ⟨hfamily, hsince, hstored, ?_, ?_⟩
  · rw [Measurement.elapsed, Measurement.elapsed, hsince, hstored]
  · rw [hleft, hright]

omit [ReadingBits] in
/-- What two sessions that differ in readings only have recorded. -/
theorem corresponds_of_measures {left right : List (Reading ℚ × Completion)}
    {leftEnd rightEnd : MeasuredSession ℚ} (herase : eraseSession leftEnd = eraseSession rightEnd)
    (hleft : Measures left leftEnd) (hright : Measures right rightEnd) :
    leftEnd.recorded.length = rightEnd.recorded.length ∧
      ∀ pair ∈ leftEnd.recorded.zip rightEnd.recorded, Corresponds pair.1 pair.2 := by
  have hrecorded : leftEnd.recorded.map eraseMeasurement =
      rightEnd.recorded.map eraseMeasurement := congrArg MeasuredSession.recorded herase
  have hpairs : List.Forall₂ (· = ·) (leftEnd.recorded.map eraseMeasurement)
      (rightEnd.recorded.map eraseMeasurement) := by
    rw [hrecorded, List.forall₂_eq_eq_eq]
  rw [List.forall₂_map_left_iff, List.forall₂_map_right_iff] at hpairs
  obtain ⟨hlength, hzip⟩ := List.forall₂_iff_zip.mp hpairs
  refine ⟨hlength, ?_⟩
  intro pair hpair
  obtain ⟨hmemLeft, hmemRight⟩ := List.of_mem_zip hpair
  exact corresponds_of_erase (hzip hpair) (hleft.advance _ hmemLeft) (hright.advance _ hmemRight)

/-- Two runs with the same events at the same instants, whatever their wall
clocks show.  They differ in readings of the wall clock only, and the values
that they store in the two gauges correspond.  Each value is how far the wall
clock of its run has moved; so the two are the same exactly if both clocks have
moved equally far, and they are the elapsed monotonic time, which is never
negative, if neither clock has been adjusted. -/
theorem measured_by_wall_clock (nodeName peerName : String) (clientCfg : ClientConfig)
    {left right : List (Reading ℚ × Completion)} (hsame : happenings left = happenings right)
    {leftEnd : MeasuredSession ℚ}
    (hleft : run (step nodeName peerName clientCfg) (start ℚ nodeName) left = some leftEnd) :
    ∃ rightEnd,
      run (step nodeName peerName clientCfg) (start ℚ nodeName) right = some rightEnd ∧
      eraseSession leftEnd = eraseSession rightEnd ∧
      Measures left leftEnd ∧ Measures right rightEnd ∧
      leftEnd.recorded.length = rightEnd.recorded.length ∧
      (∀ pair ∈ leftEnd.recorded.zip rightEnd.recorded, Corresponds pair.1 pair.2) ∧
      (Unadjusted left → Unadjusted right →
        ∀ pair ∈ leftEnd.recorded.zip rightEnd.recorded,
          pair.1.value = pair.2.value ∧ pair.1.value = pair.1.elapsed ∧ 0 ≤ pair.1.value) := by
  obtain ⟨rightEnd, hright, herase⟩ := erase_eq_of_happenings hsame hleft
  have hleftMeasures := measures_of_run hleft
  have hrightMeasures := measures_of_run hright
  obtain ⟨hlength, hcorresponds⟩ := corresponds_of_measures herase hleftMeasures hrightMeasures
  refine ⟨rightEnd, hright, herase, hleftMeasures, hrightMeasures, hlength, hcorresponds, ?_⟩
  intro hleftUnadjusted hrightUnadjusted pair hpair
  obtain ⟨hmemLeft, hmemRight⟩ := List.of_mem_zip hpair
  have hleftValue := hleftMeasures.value_eq_elapsed hleftUnadjusted hmemLeft
  have hrightValue := hrightMeasures.value_eq_elapsed hrightUnadjusted hmemRight
  refine ⟨?_, hleftValue, ?_⟩
  · rw [hleftValue, hrightValue, (hcorresponds pair hpair).elapsed]
  · rw [hleftValue]
    exact hleftMeasures.elapsed_nonneg _ hmemLeft

end Exact

/-! ## A wall clock that is set back -/

section Witness

/-- The bits of 1000.0, the one reading that is sent. -/
local instance : ReadingBits := ⟨fun _ => 0x408F400000000000⟩

/-- The first heartbeat is stamped when the wall clock shows 1000 and echoed one
second later, when it shows `heard`; the session is cancelled after another
second. -/
def echoedOnce (heard : ℚ) : List (Reading ℚ × Completion) :=
  [(⟨0, 1000⟩, .wrote (.ok 7)), (⟨0, 1000⟩, .ready), (⟨0, 1000⟩, .wrote (.ok 16)),
    (⟨1000000000, heard⟩, .read (.ok (Heartbeat.frame ⟨0, 0x408F400000000000⟩))),
    (⟨1000000000, heard⟩, .ready), (⟨2000000000, heard + 1⟩, .cancelled)]

theorem exists_echoedOnce {heard : ℚ} (hheard : heard = 1001 ∨ heard = 400) :
    ∃ state, run (step "cli" "srv" everySecond.toClientConfig) (start ℚ "cli")
        (echoedOnce heard) = some state ∧
      state.recorded.map Measurement.value =
        [heard - 1000, heard - 1000, heard + 1 - 1000] := by
  apply Option.map_eq_some_iff.mp
  rcases hheard with rfl | rfl
  · decide +kernel
  · decide +kernel

/-- One run keeps its wall clock, in the other it is set back by ten minutes
while the heartbeat is on its way. -/
theorem measured_by_wall_clock_set_back :
    ∃ leftEnd rightEnd : MeasuredSession ℚ,
      (∀ pair ∈ leftEnd.recorded.zip rightEnd.recorded, Corresponds pair.1 pair.2) ∧
      leftEnd.recorded.map Measurement.value = [1, 1, 2] ∧
      rightEnd.recorded.map Measurement.value = [-600, -600, -599] := by
  obtain ⟨leftEnd, hleft, hleftValues⟩ := exists_echoedOnce (Or.inl rfl)
  obtain ⟨other, hright, hrightValues⟩ := exists_echoedOnce (Or.inr rfl)
  have hsame : happenings (echoedOnce 1001) = happenings (echoedOnce 400) := by decide +kernel
  obtain ⟨rightEnd, hright', -, -, -, -, hpairs, -⟩ :=
    measured_by_wall_clock "cli" "srv" everySecond.toClientConfig hsame hleft
  obtain rfl := Option.some.inj (hright.symm.trans hright')
  refine ⟨leftEnd, other, hpairs, ?_, ?_⟩
  · rw [hleftValues]
    norm_num
  · rw [hrightValues]
    norm_num

/-- The two runs record different times, and in one of them the times are
negative. -/
theorem measured_times_follow_wall_clock :
    ¬∀ (nodeName peerName : String) (clientCfg : ClientConfig)
      (left right : List (Reading ℚ × Completion)) (leftEnd rightEnd : MeasuredSession ℚ),
      happenings left = happenings right →
      run (step nodeName peerName clientCfg) (start ℚ nodeName) left = some leftEnd →
      run (step nodeName peerName clientCfg) (start ℚ nodeName) right = some rightEnd →
      leftEnd.recorded.map Measurement.value = rightEnd.recorded.map Measurement.value ∧
        ∀ measurement ∈ rightEnd.recorded,
          measurement.value = measurement.elapsed ∧ 0 ≤ measurement.value := by
  intro hclaim
  obtain ⟨leftEnd, hleft, hleftValues⟩ := exists_echoedOnce (Or.inl rfl)
  obtain ⟨rightEnd, hright, hrightValues⟩ := exists_echoedOnce (Or.inr rfl)
  have hsame : happenings (echoedOnce 1001) = happenings (echoedOnce 400) := by decide +kernel
  have hvalues := (hclaim "cli" "srv" everySecond.toClientConfig _ _ _ _ hsame hleft hright).1
  rw [hleftValues, hrightValues] at hvalues
  exact absurd hvalues (by norm_num)

end Witness

end TcpMonitor.MeasuredTimes
