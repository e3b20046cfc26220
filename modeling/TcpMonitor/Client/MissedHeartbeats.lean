import TcpMonitor.Client.SessionLog

/-!
# What the counter of missed heartbeats means

`client_heartbeats_missed` is driven by `got_echo`, so it counts the rounds in
which no echo at all was read.  Its help text speaks of echoes that were not
received within their window.  The two agree exactly as long as no round reads
only echoes of earlier heartbeats before its deadline.
-/

namespace TcpMonitor.MissedHeartbeats

open TcpMonitor.TransitionSystem
open TcpMonitor.Runtime
open TcpMonitor.Configuration
open TcpMonitor.LabelFamily
open TcpMonitor.MetricFamilies
open TcpMonitor.HeartbeatPacket
open TcpMonitor.HeartbeatReading
open TcpMonitor.Handshake
open TcpMonitor.Session
open TcpMonitor.SessionLog

section Counters

variable {F64 : Type}

/-- `client_heartbeats_missed` of a label. -/
def heartbeatsMissed (metrics : Metrics F64) (label : PeerLabel) : ℕ :=
  (metrics.counter .clientHeartbeatsMissed).valueOr 0 label

/-- `client_heartbeats_sent` of a label. -/
def heartbeatsSent (metrics : Metrics F64) (label : PeerLabel) : ℕ :=
  (metrics.counter .clientHeartbeatsSent).valueOr 0 label

/-- No echo was read in the round. -/
def silent (round : Round F64) : Bool := round.reads.isEmpty

/-- The echo of the round's own heartbeat was read in the round. -/
def ownEcho (round : Round F64) : Bool := round.echoes.any fun echo => echo.seq = round.sentSeq

/-- The round recorded an RTT. -/
def measured (round : Round F64) : Bool := round.reads.any fun read => read.2.isSome

/-- The session stands between two rounds. -/
def BetweenRounds : SessionPoint F64 → Prop
  | .loopHead _ | .sleeping _ => True
  | _ => False

/-- The counter means what its help text says: it has counted the completed
rounds whose own echo was not received, and the others recorded an RTT. -/
structure MissedAsDocumented (earlier : Metrics F64) (label : PeerLabel)
    (state : ClientStream F64) : Prop where
  missed_eq : heartbeatsMissed state.metrics label =
    heartbeatsMissed earlier label + state.log.rounds.countP fun round => !ownEcho round
  sent_eq : heartbeatsSent state.metrics label + heartbeatsMissed earlier label =
    heartbeatsSent earlier label + state.log.rounds.countP measured +
      heartbeatsMissed state.metrics label

/-- The deadline of a round passes, and `gotEcho` says whether the round has
read any echo. -/
def DeadlinePasses (point : SessionPoint F64) (completion : Completion) (gotEcho : Bool) :
    Prop :=
  completion = .elapsed ∧ ∃ vars sentSeq sendTs deadline,
    point = .waiting vars sentSeq sendTs deadline gotEcho

/-- The deadline of a round passes after it has read echoes, all of them of
earlier heartbeats. -/
def DeadlineAfterStaleEchoes (state : ClientStream F64) (input : Reading F64 × Completion) :
    Prop :=
  DeadlinePasses state.point input.2 true

/-- How much a list of updates adds to a counter of a label. -/
def added (family : CounterFamily) (label : PeerLabel) (updates : List (Update F64)) : ℕ :=
  (updates.map (Update.counterWeight family label)).sum

/-! ## What a step counts -/

section Step

variable [WallClock F64] {label : PeerLabel} {log : Log F64} {nodeName peerName : String}
variable {clientCfg : ClientConfig} {point : SessionPoint F64} {clock : Reading F64}
variable {completion : Completion} {after : SessionPoint F64 × List (Update F64)}

omit [WallClock F64] in
theorem added_append (family : CounterFamily) (front back : List (Update F64)) :
    added family label (front ++ back) = added family label front + added family label back := by
  rw [added, List.map_append, List.sum_append]
  rfl

theorem added_breakSession (family : CounterFamily) (vars : SessionVars F64) (reason : String) :
    added family label (breakSession vars clock reason).2 = 0 := by
  simp only [breakSession, sessionEnd]
  split <;> rfl

/-- The end of a wait counts a missed heartbeat exactly if no echo was read. -/
theorem added_endWait {vars : SessionVars F64} (hlabel : vars.label = label) (gotEcho : Bool) :
    added .clientHeartbeatsMissed label (endWait clientCfg vars gotEcho clock).2 =
        (if gotEcho then 0 else 1) ∧
      added .clientHeartbeatsSent label (endWait clientCfg vars gotEcho clock).2 = 0 := by
  subst hlabel
  have hmiss : ∀ missed : ℤ,
      added .clientHeartbeatsMissed vars.label
          (recordMiss vars.label missed : List (Update F64)) = 1 ∧
        added .clientHeartbeatsSent vars.label
          (recordMiss vars.label missed : List (Update F64)) = 0 := by
    intro missed
    simp [added, recordMiss, Update.counterWeight]
  obtain ⟨hmissed, hsent⟩ := hmiss (vars.consecutiveMissed + 1)
  rcases endWait_cases clientCfg vars gotEcho clock with
    ⟨rfl, heq⟩ | ⟨rfl, -, heq⟩ | ⟨rfl, -, heq⟩
  · rw [heq]
    exact ⟨rfl, rfl⟩
  · rw [heq]
    exact ⟨hmissed, hsent⟩
  · rw [heq]
    dsimp only
    rw [added_append, added_append, added_breakSession, added_breakSession, hmissed, hsent]
    exact ⟨rfl, rfl⟩

theorem added_readEcho {vars : SessionVars F64} {sentSeq : UInt64} {sendTs : F64}
    {deadline : Instant} {echo : Heartbeat} :
    added .clientHeartbeatsMissed label (readEcho vars sentSeq sendTs deadline clock echo).2 = 0 ∧
      added .clientHeartbeatsSent label (readEcho vars sentSeq sendTs deadline clock echo).2 =
        0 := by
  rcases readEcho_cases vars sentSeq sendTs deadline clock echo with ⟨-, heq⟩ | ⟨-, heq⟩ <;>
  · rw [heq]
    exact ⟨rfl, rfl⟩

/-- The rounds a step completes: none, one that has read its own echo, or, when
a deadline passes, one that has not. -/
theorem rounds_step (hat : log.At point)
    (hlabel : ∀ vars, point.live = some vars → vars.label = label)
    (hstep : SessionStep nodeName peerName clientCfg point clock completion after) :
    (((log.record point completion after).rounds = log.rounds ∨
          ∃ round : Round F64, ownEcho round = true ∧
            (log.record point completion after).rounds = log.rounds ++ [round]) ∧
        added .clientHeartbeatsMissed label after.2 = 0 ∧
        ∀ gotEcho, ¬ DeadlinePasses point completion gotEcho) ∨
      ∃ gotEcho, ∃ round : Round F64, DeadlinePasses point completion gotEcho ∧
        (log.record point completion after).rounds = log.rounds ++ [round] ∧
        ownEcho round = false ∧ silent round = !gotEcho ∧
        added .clientHeartbeatsMissed label after.2 = if gotEcho then 0 else 1 := by
  cases hstep with
  | handshakePart | established | handshakeError | sleep | due | sendPart | sent =>
      exact Or.inl ⟨Or.inl rfl, rfl, by simp [DeadlinePasses]⟩
  | wake => exact Or.inl ⟨Or.inl rfl, rfl, by simp [DeadlinePasses]⟩
  | writeError =>
      exact Or.inl ⟨Or.inl rfl, added_breakSession _ _ _, by simp [DeadlinePasses]⟩
  | @deadline vars sentSeq sendTs deadline gotEcho clock hdue =>
      obtain ⟨-, reads, hcurrent, hstale, hgot⟩ := hat
      refine Or.inr ⟨gotEcho, _, ⟨rfl, vars, sentSeq, sendTs, deadline, rfl⟩,
        congrArg Log.rounds (Log.record_deadline hcurrent), ?_, ?_,
        (added_endWait (hlabel _ rfl) gotEcho).1⟩
      · simpa [ownEcho, Round.echoes] using hstale
      · rw [silent, Bool.eq_iff_iff, List.isEmpty_iff, Bool.not_eq_true', ← Bool.not_eq_true,
          hgot, not_not]
        exact List.map_eq_nil_iff
  | readPart hread =>
      obtain ⟨-, reads, hcurrent, -, -⟩ := hat
      rw [Log.record_read hread hcurrent (by simp)]
      exact Or.inl ⟨Or.inl rfl, rfl, by simp [DeadlinePasses]⟩
  | readError hread =>
      obtain ⟨-, reads, hcurrent, -, -⟩ := hat
      rw [Log.record_read hread hcurrent (by simp [breakSession])]
      exact Or.inl ⟨Or.inl rfl, added_breakSession _ _ _, by simp [DeadlinePasses]⟩
  | @echo vars sentSeq sendTs deadline gotEcho clock outcome echoes echo hread =>
      obtain ⟨-, reads, hcurrent, -, -⟩ := hat
      refine Or.inl ⟨?_, added_readEcho.1, by simp [DeadlinePasses]⟩
      by_cases hmatch : echo.seq = sentSeq
      · right
        rw [Log.record_matched hread hcurrent hmatch]
        exact ⟨_, by simp [ownEcho, Round.echoes, hmatch], rfl⟩
      · left
        rw [Log.record_stale hread hcurrent hmatch]
  | cancelled hpoint =>
      refine Or.inl ⟨?_, added_breakSession _ _ _, by simp [DeadlinePasses]⟩
      cases point <;> exact Or.inl rfl

/-- A heartbeat is counted as sent when its last byte is written. -/
theorem sent_step (hat : log.At point)
    (hlabel : ∀ vars, point.live = some vars → vars.label = label)
    (hstep : SessionStep nodeName peerName clientCfg point clock completion after) :
    (log.record point completion after).sent.length =
      log.sent.length + added .clientHeartbeatsSent label after.2 := by
  cases hstep with
  | handshakePart | established | handshakeError | sleep | due | wake | sendPart => rfl
  | sent =>
      have hlabel := hlabel _ rfl
      simp [Log.record, added, Update.counterWeight, hlabel]
  | writeError =>
      rw [added_breakSession]
      rfl
  | deadline =>
      obtain ⟨-, reads, hcurrent, -, -⟩ := hat
      rw [Log.record_deadline hcurrent, (added_endWait (hlabel _ rfl) _).2]
      rfl
  | readPart hread =>
      obtain ⟨-, reads, hcurrent, -, -⟩ := hat
      rw [Log.record_read hread hcurrent (by simp)]
      rfl
  | readError hread =>
      obtain ⟨-, reads, hcurrent, -, -⟩ := hat
      rw [added_breakSession, Log.record_read hread hcurrent (by simp [breakSession])]
      rfl
  | @echo vars sentSeq sendTs deadline gotEcho clock outcome echoes echo hread =>
      obtain ⟨-, reads, hcurrent, -, -⟩ := hat
      rw [added_readEcho.2]
      by_cases hmatch : echo.seq = sentSeq
      · rw [Log.record_matched hread hcurrent hmatch]
        rfl
      · rw [Log.record_stale hread hcurrent hmatch]
        rfl
  | cancelled hpoint =>
      rw [added_breakSession]
      cases point <;> rfl

end Step

end Counters

/-! ## Along a run -/

/-- The round has read echoes, but not its own. -/
def staleOnly {F64 : Type} (round : Round F64) : Bool := !silent round && !ownEcho round

theorem silent_of_ownEcho {F64 : Type} {round : Round F64} (hown : ownEcho round = true) :
    silent round = false := by
  cases hreads : round.reads with
  | nil => simp [ownEcho, Round.echoes, hreads] at hown
  | cons echo reads => simp [silent, hreads]

/-- The rounds without their own echo are the silent ones and those that read
only stale echoes. -/
theorem countP_not_ownEcho {F64 : Type} (rounds : List (Round F64)) :
    (rounds.countP fun round => !ownEcho round) =
      rounds.countP silent + rounds.countP staleOnly := by
  induction rounds with
  | nil => rfl
  | cons round rounds ih =>
      rw [List.countP_cons, List.countP_cons, List.countP_cons, ih]
      by_cases hown : ownEcho round = true
      · simp [staleOnly, hown, silent_of_ownEcho hown]
      · by_cases hsilent : silent round = true
        · simp [staleOnly, hown, hsilent]
          omega
        · simp [staleOnly, hown, hsilent]
          omega

section Run

variable {F64 : Type} [WallClock F64] {nodeName peerName : String} {clientCfg : ClientConfig}
variable {earlier : Metrics F64} {state next : ClientStream F64}
variable {input : Reading F64 × Completion}

/-- A round that recorded an RTT has read its own echo, and no other round
has. -/
theorem measured_eq_ownEcho {round : Round F64} (hsettled : round.Matched ∨ round.Unmatched) :
    measured round = ownEcho round := by
  rcases hsettled with ⟨stale, own, nowTs, hreads, hown, -⟩ | ⟨stale, hreads, hstale⟩
  · simp [measured, ownEcho, Round.echoes, hreads, hown]
  · have hunmeasured : measured round = false := by
      simp [measured, hreads, unmeasured]
    have hother : ownEcho round = false := by
      simpa [ownEcho, Round.echoes, hreads] using hstale
    rw [hunmeasured, hother]

/-- The session has counted its silent rounds as missed, and its heartbeats as
sent. -/
theorem counts_of_reachable
    (hreach : Reachable (ClientStream.step nodeName peerName clientCfg)
      (ClientStream.start nodeName earlier) state) :
    heartbeatsMissed state.metrics ⟨nodeName, peerName⟩ =
        heartbeatsMissed earlier ⟨nodeName, peerName⟩ + state.log.rounds.countP silent ∧
      heartbeatsSent state.metrics ⟨nodeName, peerName⟩ =
        heartbeatsSent earlier ⟨nodeName, peerName⟩ + state.log.sent.length := by
  refine hreach.invariant_of_reachable
    (fun state => heartbeatsMissed state.metrics ⟨nodeName, peerName⟩ =
        heartbeatsMissed earlier ⟨nodeName, peerName⟩ + state.log.rounds.countP silent ∧
      heartbeatsSent state.metrics ⟨nodeName, peerName⟩ =
        heartbeatsSent earlier ⟨nodeName, peerName⟩ + state.log.sent.length) ⟨rfl, rfl⟩ ?_
  rintro state input next hreach ⟨hmissed, hsent⟩ hstep
  obtain ⟨after, hrun, rfl⟩ := ClientStream.step_eq_some.mp hstep
  have hat := ClientStream.at_of_reachable hreach
  have hlabel := fun vars (hlive : state.point.live = some vars) =>
    ClientStream.label_of_reachable hreach hlive
  have hcases := sessionStep_of_runSession hrun
  have hadded : ∀ family, (((Update.applyAll after.2 state.metrics).counter family).valueOr 0
      ⟨nodeName, peerName⟩) = (state.metrics.counter family).valueOr 0 ⟨nodeName, peerName⟩ +
        added family ⟨nodeName, peerName⟩ after.2 :=
    fun family => Update.counter_applyAll after.2 state.metrics family _
  have hsilent : (state.log.record state.point input.2 after).rounds.countP silent =
      state.log.rounds.countP silent +
        added .clientHeartbeatsMissed ⟨nodeName, peerName⟩ after.2 := by
    rcases rounds_step hat hlabel hcases with
      ⟨hsame | ⟨round, hown, hclosed⟩, hnone, -⟩ |
        ⟨gotEcho, round, -, hclosed, -, hsilent, hcounted⟩
    · rw [hsame, hnone]
      rfl
    · rw [hclosed, hnone, List.countP_append, List.countP_singleton, silent_of_ownEcho hown]
      rfl
    · rw [hclosed, hcounted, List.countP_append, List.countP_singleton, hsilent]
      cases gotEcho <;> rfl
  dsimp only
  rw [heartbeatsMissed, heartbeatsSent, hadded, hadded, hsilent, sent_step hat hlabel hcases,
    ← Nat.add_assoc, ← Nat.add_assoc, ← hmissed, ← hsent]
  exact ⟨rfl, rfl⟩

/-- Between two rounds, the counter means what its help text says exactly if no
round has read only stale echoes. -/
theorem missedAsDocumented_iff
    (hreach : Reachable (ClientStream.step nodeName peerName clientCfg)
      (ClientStream.start nodeName earlier) state)
    (hbetween : BetweenRounds state.point) :
    MissedAsDocumented earlier ⟨nodeName, peerName⟩ state ↔
      state.log.rounds.countP staleOnly = 0 := by
  obtain ⟨hmissed, hsent⟩ := counts_of_reachable hreach
  have hat := ClientStream.at_of_reachable hreach
  have hsound : (∃ rest, state.log.Sound rest) ∧ state.log.current = none := by
    cases hpoint : state.point with
    | loopHead vars | sleeping vars =>
        rw [hpoint] at hat
        exact ⟨⟨_, hat.1⟩, hat.2.1⟩
    | handshake | sending | waiting | returned =>
        rw [hpoint] at hbetween
        exact hbetween.elim
  obtain ⟨⟨rest, hsound⟩, hidle⟩ := hsound
  have hlength : state.log.sent.length = state.log.rounds.length := by
    rw [hsound.sent_eq, List.length_map, Log.allRounds, hidle]
    simp
  have hmeasured : state.log.rounds.countP measured = state.log.rounds.countP ownEcho :=
    List.countP_congr fun round hmem => by
      rw [measured_eq_ownEcho (hsound.settled round hmem)]
  have hsplit : state.log.rounds.length = state.log.rounds.countP ownEcho +
      state.log.rounds.countP fun round => !ownEcho round := by
    rw [List.length_eq_countP_add_countP ownEcho]
    congr 1
    exact List.countP_congr fun round _ => by simp
  have hstale := countP_not_ownEcho state.log.rounds
  constructor
  · rintro ⟨hdocumented, -⟩
    omega
  · intro hnone
    constructor <;> omega

end Run

/-! ## A peer that answers every heartbeat one round late -/

/-- One step of the session, at a number of nanoseconds. -/
def inputAt (now : Instant) (completion : Completion) : Reading WholeSeconds × Completion :=
  (⟨now, ⟨now⟩⟩, completion)

/-- The first round is silent; the second reads the first echo and passes its
deadline without its own. -/
def lateEchoes : List (Reading WholeSeconds × Completion) :=
  [inputAt 0 (.wrote (.ok 7)), inputAt 0 .ready, inputAt 0 (.wrote (.ok 16)),
    inputAt 1000000000 .elapsed, inputAt 1000000000 .ready, inputAt 2000000000 .elapsed,
    inputAt 2000000000 (.wrote (.ok 16)),
    inputAt 2500000000 (.read (.ok (Heartbeat.frame ⟨0, 0⟩))),
    inputAt 3000000000 .elapsed]

/-- The session is at the head of its loop. -/
def atLoopHead {F64 : Type} : SessionPoint F64 → Bool
  | .loopHead _ => true
  | _ => false

end TcpMonitor.MissedHeartbeats
