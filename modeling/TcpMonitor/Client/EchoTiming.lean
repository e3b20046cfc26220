import TcpMonitor.Client.FaithfulEcho

/-!
# Echoes and deadlines

A session with a faithful echo peer, the monotonic clock, and the instants at
which the bytes of the echoes arrive.  `timeout_at` polls the read before the
timer, so a deadline can end a round only when nothing that has arrived is left
unread; this is what keeps every round that gets its echo in time in step.
-/

namespace TcpMonitor.EchoTiming

open TcpMonitor.TransitionSystem
open TcpMonitor.Runtime
open TcpMonitor.Configuration
open TcpMonitor.MetricFamilies
open TcpMonitor.HeartbeatPacket
open TcpMonitor.HeartbeatReading
open TcpMonitor.Handshake
open TcpMonitor.Session
open TcpMonitor.SessionLog
open TcpMonitor.FaithfulEcho

/-- A session, the clock, and the instants at which the bytes that the peer
sends back have arrived, one for each byte. -/
structure TimedSession (F64 : Type) where
  stream : ClientStream F64
  now : Instant
  arrivals : List Instant

/-- What happens next: time passes, bytes of the echoes arrive, or the task runs
to its next await point. -/
inductive TimedEvent (F64 : Type) where
  | tick (now : Instant)
  | arrive (count : ℕ)
  | act (wall : F64) (completion : Completion)

namespace TimedSession

/-- The bytes that have arrived and have not been read.  The peer sends back
what it was sent, in order. -/
def unread {F64 : Type} (state : TimedSession F64) : List UInt8 :=
  ((wire state.stream.log.sent).take state.arrivals.length).drop
    state.stream.log.received.length

/-- What an awaited operation can complete with when there is no cancellation
and no I/O error.  A read takes at least one of the bytes that have arrived, and
`timeout_at` elapses only if its read is still pending. -/
def permitted {F64 : Type} (state : TimedSession F64) : Completion → Bool
  | .ready | .wrote (.ok _) => true
  | .read (.ok chunk) => chunk ≠ [] ∧ state.unread.take chunk.length = chunk
  | .elapsed =>
      match state.stream.point with
      | .waiting _ _ _ _ _ => state.unread = []
      | _ => true
  | _ => false

section System

variable {F64 : Type} [WallClock F64]

/-- A session that is about to send its handshake. -/
def start (nodeName : String) (metrics : Metrics F64) : TimedSession F64 :=
  ⟨ClientStream.start nodeName metrics, 0, []⟩

def step (nodeName peerName : String) (clientCfg : ClientConfig) (state : TimedSession F64) :
    TimedEvent F64 → Option (TimedSession F64)
  | .tick now =>
      if state.now ≤ now ∧ now < instantLimit then some { state with now := now } else none
  | .arrive count =>
      if state.arrivals.length + count ≤ (wire state.stream.log.sent).length then
        some { state with arrivals := state.arrivals ++ List.replicate count state.now }
      else none
  | .act wall completion =>
      if state.permitted completion then
        (state.stream.step nodeName peerName clientCfg (⟨state.now, wall⟩, completion)).map
          fun stream => { state with stream := stream }
      else none

end System

end TimedSession

open TimedSession

/-- No time passes beyond a deadline before the task that waits for it is
polled: timers fire in time and the task is not kept waiting. -/
def prompt {F64 : Type} (state : TimedSession F64) : TimedEvent F64 → Bool
  | .tick now =>
      match state.stream.point with
      | .waiting _ _ _ deadline _ => now ≤ deadline
      | _ => true
  | _ => true

section Invariant

variable {F64 : Type} [WallClock F64]

/-- The session has read a prefix of the echoes that have arrived, and a round
that ended without its own echo ended before that echo was complete. -/
structure InStep (interval : Duration) (state : TimedSession F64) : Prop where
  faithful : Faithful interval state.now state.stream.point state.stream.log
  now_lt : state.now < instantLimit
  arrivals_le : state.arrivals.length ≤ (wire state.stream.log.sent).length
  received_le : state.stream.log.received.length ≤ state.arrivals.length
  arrived : ∀ arrival ∈ state.arrivals, arrival ≤ state.now
  late : ∀ k round, state.stream.log.rounds[k]? = some round → round.Unmatched →
    round.deadline ≤ state.now ∧
      ∀ arrival, state.arrivals[lastByte k]? = some arrival → round.deadline ≤ arrival

theorem inStep_start (interval : Duration) (nodeName : String) (metrics : Metrics F64) :
    InStep interval (start nodeName metrics) where
  faithful := ⟨rfl, List.prefix_rfl, (by intro k round hget; cases hget), rfl⟩
  now_lt := by simp [start, instantLimit]
  arrivals_le := Nat.zero_le _
  received_le := Nat.zero_le _
  arrived := by simp [start]
  late := by
    intro k round hget
    cases hget

variable {nodeName peerName : String} {clientCfg : ClientConfig} {interval : Duration}
variable {state next : TimedSession F64}

/-- Time passes. -/
theorem InStep.tick (hinv : InStep interval state) {now : Instant} (hlater : state.now ≤ now)
    (hnow : now < instantLimit) : InStep interval { state with now := now } where
  faithful := ⟨hinv.faithful.at_point, hinv.faithful.received_initial, hinv.faithful.counted,
    hinv.faithful.paced.mono hlater⟩
  now_lt := hnow
  arrivals_le := hinv.arrivals_le
  received_le := hinv.received_le
  arrived := fun arrival hmem => (hinv.arrived arrival hmem).trans hlater
  late := by
    intro k round hget hunmatched
    obtain ⟨hdeadline, hlate⟩ := hinv.late k round hget hunmatched
    exact ⟨hdeadline.trans hlater, hlate⟩

/-- Bytes arrive, after the deadline of every round that ended without its own
echo. -/
theorem InStep.arrive (hinv : InStep interval state) {count : ℕ}
    (hcount : state.arrivals.length + count ≤ (wire state.stream.log.sent).length) :
    InStep interval { state with
      arrivals := state.arrivals ++ List.replicate count state.now } where
  faithful := hinv.faithful
  now_lt := hinv.now_lt
  arrivals_le := by
    rw [List.length_append, List.length_replicate]
    exact hcount
  received_le := by
    rw [List.length_append]
    exact hinv.received_le.trans (Nat.le_add_right _ _)
  arrived := by
    intro arrival hmem
    rcases List.mem_append.mp hmem with hold | hnew
    · exact hinv.arrived arrival hold
    · exact (List.eq_of_mem_replicate hnew).le
  late := by
    intro k round hget hunmatched
    obtain ⟨hdeadline, hlate⟩ := hinv.late k round hget hunmatched
    refine ⟨hdeadline, fun arrival harrival => ?_⟩
    rcases Nat.lt_or_ge (lastByte k) state.arrivals.length with hold | hnew
    · rw [List.getElem?_append_left hold] at harrival
      exact hlate arrival harrival
    · rw [List.getElem?_append_right hnew] at harrival
      rw [List.eq_of_mem_replicate (List.mem_of_getElem? harrival)]
      exact hdeadline

/-- The bytes of a permitted read continue what the session has received. -/
theorem received_of_permitted (hinv : InStep interval state) {completion : Completion}
    (hpermitted : state.permitted completion = true) :
    state.stream.log.received ++ readBytes completion <+: wire state.stream.log.sent ∧
      (state.stream.log.received ++ readBytes completion).length ≤ state.arrivals.length := by
  have hnone : state.stream.log.received ++ [] <+: wire state.stream.log.sent ∧
      (state.stream.log.received ++ []).length ≤ state.arrivals.length := by
    rw [List.append_nil]
    exact ⟨hinv.faithful.received_initial, hinv.received_le⟩
  cases completion with
  | ready | elapsed | cancelled | connected | wrote => exact hnone
  | read outcome =>
      cases outcome with
      | error kind => exact hnone
      | ok chunk =>
          simp only [permitted, decide_eq_true_eq] at hpermitted
          obtain ⟨-, hchunk⟩ := hpermitted
          have hbefore := hinv.faithful.received_initial
          have harrived : state.stream.log.received ++ state.unread =
              (wire state.stream.log.sent).take state.arrivals.length := by
            obtain ⟨back, hback⟩ := hbefore
            rw [unread, ← hback, List.take_append, List.take_of_length_le hinv.received_le,
              List.drop_left]
          have hinitial : state.stream.log.received ++ chunk <+:
              (wire state.stream.log.sent).take state.arrivals.length := by
            rw [← harrived, ← hchunk]
            exact (List.prefix_append_right_inj _).mpr (List.take_prefix _ _)
          exact ⟨hinitial.trans (List.take_prefix _ _),
            hinitial.length_le.trans (List.length_take_le _ _)⟩

/-- While a round waits, the end of its echo has not been read. -/
theorem received_le_lastByte {interval : Duration} {now : Instant} {log : Log F64}
    {vars : SessionVars F64} {sentSeq : UInt64} {sendTs : F64} {deadline : Instant}
    {gotEcho : Bool}
    (hfaithful : Faithful interval now (.waiting vars sentSeq sendTs deadline gotEcho) log) :
    log.received.length ≤ lastByte log.rounds.length := by
  have hle := decoded_le_of_waiting hfaithful.at_point hfaithful.received_initial
    hfaithful.counted
  obtain ⟨⟨hsound, -, -⟩, -⟩ := hfaithful.at_point
  have hrest := hsound.rest_lt
  rw [hsound.received_eq, List.length_append, length_wire, lastByte]
  have hmul := Nat.mul_le_mul_left packetSize hle
  omega

/-- A round that was matched has read its echo to the end. -/
theorem lastByte_lt_received {interval : Duration} {now : Instant} {point : SessionPoint F64}
    {log : Log F64} (hfaithful : Faithful interval now point log) {k : ℕ} {round : Round F64}
    (hget : log.rounds[k]? = some round) (hmatched : round.Matched) :
    lastByte k < log.received.length := by
  obtain ⟨rest, hsound⟩ := sound_of_at hfaithful.at_point
  have hread := (hfaithful.counted k round hget).2.mp hmatched
  have hdecoded : readBy log.rounds (k + 1) ≤ log.decoded.length := by
    rw [hsound.decoded_eq, Log.allRounds, List.flatMap_append, List.length_append, readBy]
    have htake : (log.rounds.take (k + 1)).flatMap Round.echoes <+:
        log.rounds.flatMap Round.echoes := (List.take_prefix _ _).flatMap _
    exact htake.length_le.trans (Nat.le_add_right _ _)
  rw [hread] at hdecoded
  rw [hsound.received_eq, List.length_append, length_wire, lastByte]
  have hmul := Nat.mul_le_mul_left packetSize hdecoded
  rw [Nat.mul_add] at hmul
  have hsize : packetSize = 16 := rfl
  omega

theorem arrivals_le_received (hinv : InStep interval state) (hunread : state.unread = []) :
    state.arrivals.length ≤ state.stream.log.received.length := by
  rw [unread, List.drop_eq_nil_iff, List.length_take, Nat.min_eq_left hinv.arrivals_le]
    at hunread
  exact hunread

/-- The task runs to its next await point. -/
theorem InStep.act (hinv : InStep (fromSecs clientCfg.heartbeatInterval) state)
    (hinterval : 1 ≤ clientCfg.heartbeatInterval) {wall : F64} {completion : Completion}
    {stream : ClientStream F64} (hpermitted : state.permitted completion = true)
    (hstep : state.stream.step nodeName peerName clientCfg (⟨state.now, wall⟩, completion) =
      some stream) :
    InStep (fromSecs clientCfg.heartbeatInterval) { state with stream := stream } := by
  obtain ⟨after, hrun, rfl⟩ := ClientStream.step_eq_some.mp hstep
  have hcases := sessionStep_of_runSession hrun
  have hat := hinv.faithful.at_point
  obtain ⟨hreceived, hsent, -⟩ := Log.streams_record hat hcases
  obtain ⟨hinitial, hlength⟩ := received_of_permitted hinv hpermitted
  rw [← hreceived] at hinitial hlength
  have hwire : wire state.stream.log.sent <+:
      wire (state.stream.log.record state.stream.point completion after).sent :=
    hsent.flatMap _
  refine ⟨hinv.faithful.step hinterval hinv.now_lt hrun (hinitial.trans hwire), hinv.now_lt,
    hinv.arrivals_le.trans hwire.length_le, hlength, hinv.arrived, ?_⟩
  intro k round hget hunmatched
  rcases Log.rounds_record hat hcases with hsame |
    ⟨vars, sentSeq, sendTs, deadline, gotEcho, closed, hpoint, hclosed, hdeadline, hend⟩
  · exact hinv.late k round (hsame ▸ hget) hunmatched
  · dsimp only at hget
    rw [hclosed] at hget
    rcases Nat.lt_or_ge k state.stream.log.rounds.length with hold | hnew
    · rw [List.getElem?_append_left hold] at hget
      exact hinv.late k round hget hunmatched
    · obtain ⟨hlast, rfl⟩ : k = state.stream.log.rounds.length ∧ closed = round := by
        rw [List.getElem?_append_right hnew, List.getElem?_singleton] at hget
        split at hget
        · exact ⟨by omega, Option.some.inj hget⟩
        · cases hget
      rcases hend with ⟨rfl, hdue, -⟩ | ⟨-, hmatched⟩
      · -- the read was polled first, so the whole echo cannot have arrived
        simp only [permitted, hpoint, decide_eq_true_eq] at hpermitted
        have hread := received_le_lastByte (hpoint ▸ hinv.faithful)
        have harrived := arrivals_le_received hinv hpermitted
        refine ⟨hdeadline ▸ hdue, fun arrival harrival => ?_⟩
        rw [hlast, List.getElem?_eq_none (harrived.trans hread)] at harrival
        cases harrival
      · exact absurd hmatched (Round.not_matched_of_unmatched hunmatched)

/-- Every step of the session, of its peer and of the clock. -/
theorem InStep.step (hinv : InStep (fromSecs clientCfg.heartbeatInterval) state)
    (hinterval : 1 ≤ clientCfg.heartbeatInterval) {event : TimedEvent F64}
    (hstep : state.step nodeName peerName clientCfg event = some next) :
    InStep (fromSecs clientCfg.heartbeatInterval) next := by
  cases event with
  | tick now =>
      simp only [TimedSession.step] at hstep
      split at hstep
      · next hguard =>
          cases hstep
          exact hinv.tick hguard.1 hguard.2
      · cases hstep
  | arrive count =>
      simp only [TimedSession.step] at hstep
      split at hstep
      · next hcount =>
          cases hstep
          exact hinv.arrive hcount
      · cases hstep
  | act wall completion =>
      simp only [TimedSession.step] at hstep
      split at hstep
      · next hpermitted =>
          obtain ⟨stream, hstream, rfl⟩ := Option.map_eq_some_iff.mp hstep
          exact hinv.act hinterval hpermitted hstream
      · cases hstep

theorem inStep_of_reachable {clientCfg : AcceptedClientConfig} {metrics : Metrics F64}
    (hreach : Reachable (TimedSession.step nodeName peerName clientCfg.toClientConfig)
      (start nodeName metrics) state) :
    InStep (fromSecs clientCfg.heartbeatInterval) state :=
  hreach.invariant (InStep (fromSecs clientCfg.heartbeatInterval))
    (inStep_start _ nodeName metrics) fun _ _ _ hinv hstep =>
      hinv.step clientCfg.heartbeatInterval_accepted.1 hstep

end Invariant

/-! ## Until the wait is over -/

section Wait

variable {F64 : Type} [WallClock F64]
variable {nodeName peerName : String} {clientCfg : ClientConfig}
variable {state next last : TimedSession F64} {deadline : Instant}

/-- The session waits for an echo until `deadline`. -/
def Waits (state : TimedSession F64) (deadline : Instant) : Prop :=
  ∃ vars sentSeq sendTs gotEcho,
    state.stream.point = .waiting vars sentSeq sendTs deadline gotEcho

/-- A wait begins with a deadline that has not passed, and keeps it. -/
theorem deadline_step {point : SessionPoint F64} {clock : Reading F64}
    {completion : Completion} {after : SessionPoint F64 × List (Update F64)}
    (hstep : SessionStep nodeName peerName clientCfg point clock completion after)
    {vars : SessionVars F64} {sentSeq : UInt64} {sendTs : F64} {gotEcho : Bool}
    (hafter : after.1 = .waiting vars sentSeq sendTs deadline gotEcho) :
    clock.now ≤ deadline ∨
      ∃ vars sentSeq sendTs gotEcho, point = .waiting vars sentSeq sendTs deadline gotEcho := by
  cases hstep with
  | handshakePart | established | handshakeError | sleep | due | wake | sendPart | writeError
  | readError | cancelled => cases hafter
  | sent =>
      cases hafter
      exact Or.inl (Nat.le_add_right _ _)
  | @deadline vars sentSeq sendTs deadline gotEcho clock hdue =>
      rcases endWait_cases clientCfg vars gotEcho clock with
        ⟨-, heq⟩ | ⟨-, -, heq⟩ | ⟨-, -, heq⟩ <;>
      · rw [heq] at hafter
        cases hafter
  | readPart =>
      cases hafter
      exact Or.inr ⟨_, _, _, _, rfl⟩
  | @echo vars sentSeq sendTs deadline gotEcho clock outcome echoes echo hread =>
      rcases readEcho_cases { vars with echoes := echoes } sentSeq sendTs deadline clock echo with
        ⟨-, heq⟩ | ⟨-, heq⟩
      · rw [heq] at hafter
        cases hafter
      · rw [heq] at hafter
        cases hafter
        exact Or.inr ⟨_, _, _, _, rfl⟩

/-- In a prompt run no round outlasts its deadline, and the echo that matched a
round was complete by then. -/
structure OnTime (state : TimedSession F64) : Prop where
  waits : ∀ deadline, Waits state deadline → state.now ≤ deadline
  matched : ∀ k round, state.stream.log.rounds[k]? = some round → round.Matched →
    ∃ arrival, state.arrivals[lastByte k]? = some arrival ∧ arrival ≤ round.deadline

theorem OnTime.act (hontime : OnTime state)
    (hinv : InStep (fromSecs clientCfg.heartbeatInterval) state)
    (hinterval : 1 ≤ clientCfg.heartbeatInterval) {wall : F64} {completion : Completion}
    {stream : ClientStream F64} (hpermitted : state.permitted completion = true)
    (hstep : state.stream.step nodeName peerName clientCfg (⟨state.now, wall⟩, completion) =
      some stream) :
    OnTime { state with stream := stream } := by
  have hinv' := hinv.act hinterval hpermitted hstep
  obtain ⟨after, hrun, rfl⟩ := ClientStream.step_eq_some.mp hstep
  have hcases := sessionStep_of_runSession hrun
  constructor
  · rintro deadline ⟨vars, sentSeq, sendTs, gotEcho, hafter⟩
    rcases deadline_step hcases hafter with hbegun | hwaits
    · exact hbegun
    · exact hontime.waits deadline hwaits
  · intro k round hget hmatched
    have hread := lastByte_lt_received hinv'.faithful hget hmatched
    have harrived : lastByte k < state.arrivals.length := hread.trans_le hinv'.received_le
    rcases Log.rounds_record hinv.faithful.at_point hcases with hsame |
      ⟨vars, sentSeq, sendTs, deadline, gotEcho, closed, hpoint, hclosed, hdeadline, -⟩
    · exact hontime.matched k round (hsame ▸ hget) hmatched
    · dsimp only at hget
      rw [hclosed] at hget
      rcases Nat.lt_or_ge k state.stream.log.rounds.length with hold | hnew
      · rw [List.getElem?_append_left hold] at hget
        exact hontime.matched k round hget hmatched
      · obtain rfl : closed = round := by
          rw [List.getElem?_append_right hnew] at hget
          exact (List.mem_singleton.mp (List.mem_of_getElem? hget)).symm
        refine ⟨_, List.getElem?_eq_getElem harrived, ?_⟩
        calc state.arrivals[lastByte k] ≤ state.now :=
              hinv.arrived _ (List.getElem_mem harrived)
          _ ≤ deadline := hontime.waits deadline ⟨vars, sentSeq, sendTs, gotEcho, hpoint⟩
          _ = closed.deadline := hdeadline.symm

theorem OnTime.step (hontime : OnTime state)
    (hinv : InStep (fromSecs clientCfg.heartbeatInterval) state)
    (hinterval : 1 ≤ clientCfg.heartbeatInterval) {event : TimedEvent F64}
    (hprompt : prompt state event = true)
    (hstep : state.step nodeName peerName clientCfg event = some next) : OnTime next := by
  cases event with
  | tick now =>
      simp only [TimedSession.step] at hstep
      split at hstep
      · cases hstep
        refine ⟨?_, hontime.matched⟩
        rintro deadline ⟨vars, sentSeq, sendTs, gotEcho, hpoint⟩
        dsimp only at hpoint
        simpa only [prompt, hpoint, decide_eq_true_eq] using hprompt
      · cases hstep
  | arrive count =>
      simp only [TimedSession.step] at hstep
      split at hstep
      · cases hstep
        refine ⟨hontime.waits, fun k round hget hmatched => ?_⟩
        obtain ⟨arrival, harrival, hle⟩ := hontime.matched k round hget hmatched
        exact ⟨arrival, getElem?_of_initial (List.prefix_append _ _) harrival, hle⟩
      · cases hstep
  | act wall completion =>
      simp only [TimedSession.step] at hstep
      split at hstep
      · next hpermitted =>
          obtain ⟨stream, hstream, rfl⟩ := Option.map_eq_some_iff.mp hstep
          exact hontime.act hinv hinterval hpermitted hstream
      · cases hstep

/-- While a round waits, an echo that has arrived has an unread end. -/
theorem unread_of_arrived (hinv : InStep (fromSecs clientCfg.heartbeatInterval) state)
    (hwaits : Waits state deadline)
    (harrived : lastByte state.stream.log.rounds.length < state.arrivals.length) :
    state.unread ≠ [] := by
  obtain ⟨vars, sentSeq, sendTs, gotEcho, hpoint⟩ := hwaits
  have hread := received_le_lastByte (hpoint ▸ hinv.faithful)
  intro hnone
  have hall := arrivals_le_received hinv hnone
  omega

/-- While the rest of its echo is unread, a waiting session can read some of
it. -/
theorem exists_read (hinv : InStep (fromSecs clientCfg.heartbeatInterval) state)
    (hwaits : Waits state deadline) (hunread : state.unread ≠ []) (wall : F64) :
    ∃ chunk next, state.step nodeName peerName clientCfg (.act wall (.read (.ok chunk))) =
      some next := by
  obtain ⟨vars, sentSeq, sendTs, gotEcho, hpoint⟩ := hwaits
  have hat := hinv.faithful.at_point
  rw [hpoint] at hat
  have hlt := hat.1.1.rest_lt
  rw [vars.echoes.length_received] at hlt
  obtain ⟨byte, others, hcons⟩ := List.exists_cons_of_ne_nil hunread
  have hfits : [byte].length ≤ vars.echoes.offered := Nat.sub_pos_of_lt hlt
  have hpermitted : state.permitted (.read (.ok [byte])) = true := by
    simp [permitted, hcons]
  have hsome : (state.stream.step nodeName peerName clientCfg
      (⟨state.now, wall⟩, .read (.ok [byte]))).isSome := by
    simp only [ClientStream.step, hpoint, runSession, HeartbeatReader.recvRead, dif_pos hfits,
      Option.isSome_map]
    split <;> simp_all
  obtain ⟨stream, hstream⟩ := Option.isSome_iff_exists.mp hsome
  exact ⟨[byte], { state with stream := stream }, by
    simp [TimedSession.step, hpermitted, hstream]⟩

/-- A round whose echo arrives before its deadline is matched when it ends. -/
theorem matched_of_early {interval : Duration} (hinv : InStep interval state) {k : ℕ}
    {round : Round F64} {arrival : Instant} (hget : state.stream.log.rounds[k]? = some round)
    (harrival : state.arrivals[lastByte k]? = some arrival)
    (hearly : arrival < round.deadline) : round.Matched := by
  obtain ⟨rest, hsound⟩ := sound_of_at hinv.faithful.at_point
  refine (hsound.settled round (List.mem_of_getElem? hget)).resolve_right fun hunmatched => ?_
  exact absurd ((hinv.late k round hget hunmatched).2 arrival harrival) (Nat.not_le.mpr hearly)

theorem onTime_of_prompt {clientCfg : AcceptedClientConfig} {metrics : Metrics F64}
    {events : List (TimedEvent F64)}
    (hrun : run (TimedSession.step nodeName peerName clientCfg.toClientConfig)
      (start nodeName metrics) events = some state)
    (hprompt : ∀ move ∈ taken (TimedSession.step nodeName peerName clientCfg.toClientConfig)
      (start nodeName metrics) events, prompt move.1 move.2) : OnTime state := by
  have hboth := invariant_of_taken
    (fun state => InStep (fromSecs clientCfg.heartbeatInterval) state ∧ OnTime state)
    (fun state event => prompt state event = true) hrun hprompt ⟨inStep_start _ nodeName metrics, ?_, ?_⟩ ?_
  · exact hboth.2
  · rintro deadline ⟨vars, sentSeq, sendTs, gotEcho, hpoint⟩
    cases hpoint
  · intro k round hget
    cases hget
  · rintro state event next ⟨hinv, hontime⟩ hstep hsafe
    exact ⟨hinv.step clientCfg.heartbeatInterval_accepted.1 hstep,
      hontime.step hinv clientCfg.heartbeatInterval_accepted.1 hsafe hstep⟩

/-- How often a list of events polls the task. -/
def acts (events : List (TimedEvent F64)) : ℕ :=
  events.countP fun event => event matches .act _ _

/-- Rounds and arrivals are only ever added. -/
theorem histories_step (hinv : InStep (fromSecs clientCfg.heartbeatInterval) state)
    {event : TimedEvent F64} (hstep : state.step nodeName peerName clientCfg event = some next) :
    state.stream.log.rounds <+: next.stream.log.rounds ∧ state.arrivals <+: next.arrivals := by
  cases event with
  | tick now =>
      simp only [TimedSession.step] at hstep
      split at hstep <;> cases hstep
      exact ⟨List.prefix_rfl, List.prefix_rfl⟩
  | arrive count =>
      simp only [TimedSession.step] at hstep
      split at hstep <;> cases hstep
      exact ⟨List.prefix_rfl, List.prefix_append _ _⟩
  | act wall completion =>
      simp only [TimedSession.step] at hstep
      split at hstep
      · obtain ⟨stream, hstream, rfl⟩ := Option.map_eq_some_iff.mp hstep
        obtain ⟨after, hrun, rfl⟩ := ClientStream.step_eq_some.mp hstream
        refine ⟨?_, List.prefix_rfl⟩
        rcases Log.rounds_record hinv.faithful.at_point (sessionStep_of_runSession hrun) with
          hsame | ⟨-, -, -, -, -, closed, -, hclosed, -⟩
        · exact hsame ▸ List.prefix_rfl
        · exact hclosed ▸ List.prefix_append _ _
      · cases hstep

theorem histories_of_reachable {clientCfg : AcceptedClientConfig}
    (hinv : InStep (fromSecs clientCfg.heartbeatInterval) state)
    (hreach : Reachable (TimedSession.step nodeName peerName clientCfg.toClientConfig)
      state last) :
    InStep (fromSecs clientCfg.heartbeatInterval) last ∧
      state.stream.log.rounds <+: last.stream.log.rounds ∧ state.arrivals <+: last.arrivals := by
  refine hreach.invariant (fun last => InStep (fromSecs clientCfg.heartbeatInterval) last ∧
    state.stream.log.rounds <+: last.stream.log.rounds ∧ state.arrivals <+: last.arrivals)
    ⟨hinv, List.prefix_rfl, List.prefix_rfl⟩ ?_
  rintro middle event next ⟨hmiddle, hrounds, harrivals⟩ hstep
  obtain ⟨hrounds', harrivals'⟩ := histories_step hmiddle hstep
  exact ⟨hmiddle.step clientCfg.heartbeatInterval_accepted.1 hstep, hrounds.trans hrounds',
    harrivals.trans harrivals'⟩

/-- A read ends the wait or leaves its deadline as it was. -/
theorem read_of_waiting {log : Log F64} {vars : SessionVars F64} {sentSeq : UInt64}
    {sendTs : F64} {gotEcho : Bool} {clock : Reading F64} {chunk : List UInt8}
    {after : SessionPoint F64 × List (Update F64)} (hchunk : chunk ≠ [])
    (hat : log.At (.waiting vars sentSeq sendTs deadline gotEcho))
    (hstep : SessionStep nodeName peerName clientCfg
      (.waiting vars sentSeq sendTs deadline gotEcho) clock (.read (.ok chunk)) after) :
    (∃ round, (log.record (.waiting vars sentSeq sendTs deadline gotEcho) (.read (.ok chunk))
          after).rounds = log.rounds ++ [round] ∧ round.deadline = deadline) ∨
      ((∃ vars sentSeq sendTs gotEcho, after.1 = .waiting vars sentSeq sendTs deadline gotEcho) ∧
        (log.record (.waiting vars sentSeq sendTs deadline gotEcho) (.read (.ok chunk))
          after).rounds = log.rounds) := by
  obtain ⟨-, stale, hcurrent, -⟩ := hat
  cases hstep with
  | readPart hread =>
      rw [Log.record_read hread hcurrent (by simp)]
      exact Or.inr ⟨⟨_, _, _, _, rfl⟩, rfl⟩
  | readError hread =>
      rcases HeartbeatReader.recvRead_ok_cases hchunk hread with ⟨hrecv, -⟩ | ⟨_, hrecv, -⟩ <;>
        cases hrecv
  | @echo vars sentSeq sendTs deadline gotEcho clock outcome echoes echo hread =>
      by_cases hmatch : echo.seq = sentSeq
      · rw [Log.record_matched hread hcurrent hmatch]
        exact Or.inl ⟨_, rfl, rfl⟩
      · rw [Log.record_stale hread hcurrent hmatch, readEcho, if_neg hmatch]
        exact Or.inr ⟨⟨_, _, _, _, rfl⟩, rfl⟩

/-- When the echo of a round has arrived, polling the task can only read it. -/
theorem read_of_arrived (hinv : InStep (fromSecs clientCfg.heartbeatInterval) state)
    {vars : SessionVars F64} {sentSeq : UInt64} {sendTs : F64} {gotEcho : Bool}
    (hpoint : state.stream.point = .waiting vars sentSeq sendTs deadline gotEcho)
    (harrived : lastByte state.stream.log.rounds.length < state.arrivals.length)
    {clock : Reading F64} {completion : Completion}
    {after : SessionPoint F64 × List (Update F64)}
    (hpermitted : state.permitted completion = true)
    (hstep : SessionStep nodeName peerName clientCfg state.stream.point clock completion
      after) : ∃ chunk, completion = .read (.ok chunk) ∧ chunk ≠ [] := by
  have hread := received_le_lastByte (hpoint ▸ hinv.faithful)
  rw [hpoint] at hstep
  cases completion with
  | ready | wrote => cases hstep
  | cancelled | connected => cases hpermitted
  | elapsed =>
      simp only [permitted, hpoint, decide_eq_true_eq] at hpermitted
      have hall := arrivals_le_received hinv hpermitted
      omega
  | read outcome =>
      cases outcome with
      | error => cases hpermitted
      | ok chunk =>
          simp only [permitted, decide_eq_true_eq] at hpermitted
          exact ⟨chunk, rfl, hpermitted.1⟩

/-- When the echo of a round has arrived, polling the task closes the round or
reads more of the echo. -/
theorem act_of_arrived (hinv : InStep (fromSecs clientCfg.heartbeatInterval) state)
    (hwaits : Waits state deadline)
    (harrived : lastByte state.stream.log.rounds.length < state.arrivals.length)
    {wall : F64} {completion : Completion}
    (hstep : state.step nodeName peerName clientCfg (.act wall completion) = some next) :
    (∃ round, next.stream.log.rounds = state.stream.log.rounds ++ [round] ∧
        round.deadline = deadline) ∨
      (Waits next deadline ∧ next.stream.log.rounds = state.stream.log.rounds ∧
        state.stream.log.received.length + 1 ≤ next.stream.log.received.length) := by
  obtain ⟨vars, sentSeq, sendTs, gotEcho, hpoint⟩ := hwaits
  simp only [TimedSession.step] at hstep
  split at hstep
  · next hpermitted =>
      obtain ⟨stream, hstream, rfl⟩ := Option.map_eq_some_iff.mp hstep
      obtain ⟨after, hrun, rfl⟩ := ClientStream.step_eq_some.mp hstream
      have hcases := sessionStep_of_runSession hrun
      have hat := hinv.faithful.at_point
      obtain ⟨chunk, rfl, hchunk⟩ := read_of_arrived hinv hpoint harrived hpermitted hcases
      obtain ⟨hreceived, -, -⟩ := Log.streams_record hat hcases
      dsimp only
      rw [hpoint] at hat hcases hreceived ⊢
      refine (read_of_waiting hchunk hat hcases).imp_right fun hopen => ⟨hopen.1, hopen.2, ?_⟩
      rw [hreceived, List.length_append]
      exact Nat.add_le_add_left (List.length_pos_iff.mpr hchunk) _
  · cases hstep

/-- Once the echo of a round has arrived, the round is closed as soon as the
task has been polled once for every byte left to read. -/
theorem closed_of_acts {clientCfg : AcceptedClientConfig} {events : List (TimedEvent F64)}
    (hinv : InStep (fromSecs clientCfg.heartbeatInterval) state)
    (hwaits : Waits state deadline)
    (harrived : lastByte state.stream.log.rounds.length < state.arrivals.length)
    (hrun : run (TimedSession.step nodeName peerName clientCfg.toClientConfig) state events =
      some last)
    (hacts : lastByte state.stream.log.rounds.length <
      state.stream.log.received.length + acts events) :
    ∃ round, last.stream.log.rounds[state.stream.log.rounds.length]? = some round ∧
      round.deadline = deadline := by
  induction events generalizing state with
  | nil =>
      obtain ⟨vars, sentSeq, sendTs, gotEcho, hpoint⟩ := hwaits
      have hread := received_le_lastByte (hpoint ▸ hinv.faithful)
      simp only [acts, List.countP_nil, Nat.add_zero] at hacts
      omega
  | cons event events ih =>
      obtain ⟨next, hstep, hrest⟩ := run_cons_eq_some.mp hrun
      have hinv' := hinv.step clientCfg.heartbeatInterval_accepted.1 hstep
      obtain ⟨-, harrivals⟩ := histories_step hinv hstep
      have harrived' := harrived.trans_le harrivals.length_le
      cases event with
      | tick now =>
          have hsame : next.stream = state.stream := by
            simp only [TimedSession.step] at hstep
            split at hstep <;> cases hstep
            rfl
          rw [← hsame] at harrived' hacts ⊢
          exact ih hinv' (by rwa [Waits, hsame]) harrived' hrest (by simpa [acts] using hacts)
      | arrive count =>
          have hsame : next.stream = state.stream := by
            simp only [TimedSession.step] at hstep
            split at hstep <;> cases hstep
            rfl
          rw [← hsame] at harrived' hacts ⊢
          exact ih hinv' (by rwa [Waits, hsame]) harrived' hrest (by simpa [acts] using hacts)
      | act wall completion =>
          rcases act_of_arrived hinv hwaits harrived hstep with
            ⟨round, hclosed, hdeadline⟩ | ⟨hwaits', hsame, hmore⟩
          · obtain ⟨-, hkept, -⟩ := histories_of_reachable hinv' (Reachable.of_run hrest)
            refine ⟨round, getElem?_of_initial hkept ?_, hdeadline⟩
            rw [hclosed]
            simp
          · rw [← hsame] at harrived' hacts ⊢
            refine ih hinv' hwaits' harrived' hrest ?_
            have hcount : acts (.act wall completion :: events) = acts events + 1 := by
              simp [acts]
            omega

end Wait

/-! ## RTT stays in step -/

section Rounds

variable {F64 : Type} [WallClock F64]

theorem Round.measured_of_matched {round : Round F64} (hmatched : round.Matched)
    {read : Heartbeat × Option F64} (hread : read ∈ round.reads) (hrtt : read.2 ≠ none) :
    read.1.seq = round.sentSeq := by
  obtain ⟨stale, own, nowTs, hreads, hown, -⟩ := hmatched
  rw [hreads, List.mem_append, List.mem_singleton] at hread
  rcases hread with hstale | rfl
  · obtain ⟨echo, -, rfl⟩ := List.mem_map.mp hstale
    exact absurd rfl hrtt
  · exact hown

omit [WallClock F64] in
theorem Round.unmeasured_of_unmatched {round : Round F64} (hunmatched : round.Unmatched)
    {read : Heartbeat × Option F64} (hread : read ∈ round.reads) : read.2 = none := by
  obtain ⟨stale, hreads, -⟩ := hunmatched
  rw [hreads] at hread
  obtain ⟨echo, -, rfl⟩ := List.mem_map.mp hread
  rfl

end Rounds

section Main

variable {F64 : Type} [WallClock F64]

/-- RTT never stays out of step.  Whatever the delays, the chunks and the polls:
a round whose echo arrives before its deadline records one RTT, for that echo,
as soon as the task has been polled for the bytes left to read; a round of a
prompt run whose echo arrives after its deadline records none; and an echo read
in another round than its own is never measured. -/
theorem rtt_stays_in_step (nodeName peerName : String) (clientCfg : AcceptedClientConfig)
    (metrics : Metrics F64) {events : List (TimedEvent F64)} {state : TimedSession F64}
    (hrun : run (TimedSession.step nodeName peerName clientCfg.toClientConfig)
      (start nodeName metrics) events = some state) :
    (∀ k round, state.stream.log.allRounds[k]? = some round →
      round.sentSeq = UInt64.ofNat k) ∧
    (∀ k round arrival, state.stream.log.rounds[k]? = some round →
      state.arrivals[lastByte k]? = some arrival → arrival < round.deadline →
        round.Matched) ∧
    (∀ deadline arrival, Waits state deadline →
      state.arrivals[lastByte state.stream.log.rounds.length]? = some arrival →
      arrival < deadline →
        (∀ wall, ∃ chunk next, state.step nodeName peerName clientCfg.toClientConfig
          (.act wall (.read (.ok chunk))) = some next) ∧
        ∀ later last,
          run (TimedSession.step nodeName peerName clientCfg.toClientConfig) state later =
            some last →
          lastByte state.stream.log.rounds.length <
            state.stream.log.received.length + acts later →
          ∃ round, last.stream.log.rounds[state.stream.log.rounds.length]? = some round ∧
            round.deadline = deadline ∧ round.Matched) ∧
    ((∀ move ∈ taken (TimedSession.step nodeName peerName clientCfg.toClientConfig)
          (start nodeName metrics) events, prompt move.1 move.2) →
      ∀ k round, state.stream.log.allRounds[k]? = some round →
        (∀ arrival, state.arrivals[lastByte k]? = some arrival → round.deadline < arrival) →
          ∀ read ∈ round.reads, read.2 = none) ∧
    (∀ j k round read, state.stream.log.allRounds[j]? = some round → read ∈ round.reads →
      read.1.seq = UInt64.ofNat k → k < state.stream.log.sent.length → j ≠ k →
        read.2 = none) := by
  have hinv := inStep_of_reachable (Reachable.of_run hrun)
  have hat := hinv.faithful.at_point
  have hinterval := clientCfg.heartbeatInterval_accepted.1
  have hcount := hinv.faithful.paced.count_lt
    (Nat.le_mul_of_pos_left _ (UInt64.le_iff_toNat_le.mp hinterval)) hinv.now_lt
  refine ⟨fun k round hget => (seq_of_round hat hget).1, ?_, ?_, ?_, ?_⟩
  · intro k round arrival hget harrival hearly
    exact matched_of_early hinv hget harrival hearly
  · intro deadline arrival hwaits harrival hearly
    have harrived := (List.getElem?_eq_some_iff.mp harrival).1
    refine ⟨exists_read hinv hwaits (unread_of_arrived hinv hwaits harrived), ?_⟩
    intro later last hlater hacts
    obtain ⟨round, hget, hdeadline⟩ := closed_of_acts hinv hwaits harrived hlater hacts
    obtain ⟨hinv', -, harrivals⟩ := histories_of_reachable hinv (Reachable.of_run hlater)
    exact ⟨round, hget, hdeadline, matched_of_early hinv' hget
      (getElem?_of_initial harrivals harrival) (hdeadline ▸ hearly)⟩
  · intro hprompt k round hget hlate read hread
    have hontime := onTime_of_prompt hrun hprompt
    rcases settled_of_at hat hget with ⟨hclosed, hmatched⟩ | hunmatched
    · obtain ⟨arrival, harrival, hle⟩ := hontime.matched k round hclosed hmatched
      exact absurd (hlate arrival harrival) (Nat.not_lt.mpr hle)
    · exact Round.unmeasured_of_unmatched hunmatched hread
  · intro j k round read hget hread hseq hk hne
    obtain ⟨hown, hj⟩ := seq_of_round hat hget
    rcases settled_of_at hat hget with ⟨-, hmatched⟩ | hunmatched
    · by_contra hrtt
      have hsame := Round.measured_of_matched hmatched hread hrtt
      rw [hown, hseq] at hsame
      exact hne ((ofNat_inj (by omega) (by omega)).mp hsame).symm
    · exact Round.unmeasured_of_unmatched hunmatched hread

/-! ## One late echo and one split echo -/

/-- The first echo arrives in the second round, together with ten bytes of the
second echo, whose other six follow. -/
def lateThenSplit : List (TimedEvent WholeSeconds) :=
  [.act ⟨0⟩ (.wrote (.ok 7)), .act ⟨0⟩ .ready, .act ⟨0⟩ (.wrote (.ok 16)),
    .tick 1000000000, .act ⟨1⟩ .elapsed, .act ⟨1⟩ .ready,
    .tick 2000000000, .act ⟨2⟩ .elapsed, .act ⟨2⟩ (.wrote (.ok 16)),
    .tick 2500000000, .arrive 26, .act ⟨2⟩ (.read (.ok (Heartbeat.frame ⟨0, 0⟩))),
    .act ⟨2⟩ (.read (.ok ((Heartbeat.frame ⟨1, 2⟩).take 10))),
    .tick 2750000000, .arrive 6,
    .act ⟨5⟩ (.read (.ok ((Heartbeat.frame ⟨1, 2⟩).drop 10)))]

/-- The late echo is not measured, and the next round is in step again. -/
theorem rtt_stays_in_step_after_late_echo :
    ∃ state first second,
      run (TimedSession.step "cli" "srv" everySecond.toClientConfig)
        (start "cli" (Metrics.new WholeSeconds)) lateThenSplit = some state ∧
      state.stream.log.rounds = [first, second] ∧
      (∀ read ∈ first.reads, read.2 = none) ∧ second.Matched := by
  obtain ⟨state, hrun, hview⟩ := Option.map_eq_some_iff.mp (show
    (run (TimedSession.step "cli" "srv" everySecond.toClientConfig)
      (start "cli" (Metrics.new WholeSeconds)) lateThenSplit).map (fun state =>
        (state.stream.log.rounds, state.arrivals[lastByte 0]?, state.arrivals[lastByte 1]?)) =
      some ([⟨0, ⟨0⟩, 1000000000, []⟩,
        ⟨1, ⟨2⟩, 3000000000, [(⟨0, 0⟩, none), (⟨1, 2⟩, some ⟨3⟩)]⟩],
        some 2500000000, some 2750000000) by decide)
  obtain ⟨hrounds, hview⟩ := Prod.mk.inj hview
  obtain ⟨hfirst, hsecond⟩ := Prod.mk.inj hview
  have hprompt : ∀ move ∈ taken (TimedSession.step "cli" "srv" everySecond.toClientConfig)
      (start "cli" (Metrics.new WholeSeconds)) lateThenSplit,
      prompt move.1 move.2 = true := by decide
  obtain ⟨-, hearly, -, hlate, -⟩ := rtt_stays_in_step "cli" "srv" everySecond
    (Metrics.new WholeSeconds) hrun
  refine ⟨state, _, _, hrun, hrounds, ?_, ?_⟩
  · refine hlate hprompt 0 _ (by rw [Log.allRounds, hrounds]; rfl) fun arrival harrival => ?_
    obtain rfl := Option.some.inj (hfirst.symm.trans harrival)
    decide
  · exact hearly 1 _ _ (by rw [hrounds]; rfl) hsecond (by decide)

end Main

end TcpMonitor.EchoTiming
