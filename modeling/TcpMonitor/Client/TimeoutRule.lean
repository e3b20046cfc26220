import TcpMonitor.Client.MissedHeartbeats

/-!
# When a session times out

The variable `consecutive_missed` is reset inside the read loop, raised outside
it, and mirrored into a gauge.  Between two rounds it is the length of the run
of silent rounds that the session has just been through, and the session times
out with the round that makes this run as long as the limit.
-/

namespace TcpMonitor.TimeoutRule

open TcpMonitor.TransitionSystem
open TcpMonitor.Runtime
open TcpMonitor.Configuration
open TcpMonitor.LabelFamily
open TcpMonitor.MetricFamilies
open TcpMonitor.HeartbeatPacket
open TcpMonitor.Session
open TcpMonitor.SessionLog
open TcpMonitor.MissedHeartbeats

section Rule

variable {F64 : Type}

/-- How many of the last rounds were silent, up to the last one in which any
echo was read. -/
def silentRun (rounds : List (Round F64)) : ℕ := (rounds.reverse.takeWhile silent).length

/-- The length of a silent run that ends the session. -/
def missLimit (clientCfg : ClientConfig) : ℕ := max 1 clientCfg.maxMisses.toNat

/-- `client_consecutive_missed` of a label, if there is such an entry. -/
def consecutiveMissedGauge (metrics : Metrics F64) (label : PeerLabel) : Option ℤ :=
  (metrics.gauge .clientConsecutiveMissed).lookup label

/-- The silent run that the variables of a point stand for; an echo that was
read in the current round has ended it. -/
def runAt (rounds : List (Round F64)) : SessionPoint F64 → ℕ
  | .waiting _ _ _ _ true => 0
  | _ => silentRun rounds

theorem silentRun_concat (rounds : List (Round F64)) (round : Round F64) :
    silentRun (rounds ++ [round]) = if silent round then silentRun rounds + 1 else 0 := by
  rw [silentRun, List.reverse_append, List.reverse_singleton, List.singleton_append,
    List.takeWhile_cons]
  split <;> rfl

/-- The counter, its gauge and the verdict agree with the rounds. -/
structure OnCount (clientCfg : ClientConfig) (label : PeerLabel) (point : SessionPoint F64)
    (metrics : Metrics F64) (rounds : List (Round F64)) : Prop where
  missed : ∀ vars, point.live = some vars → vars.consecutiveMissed = runAt rounds point
  gauge : ∀ vars, point.live = some vars →
    consecutiveMissedGauge metrics label = some vars.consecutiveMissed
  earlier : ∀ k < rounds.length, silentRun (rounds.take k) < missLimit clientCfg
  bound : silentRun rounds ≤ missLimit clientCfg
  verdict : point = .returned "timeout" ↔ silentRun rounds = missLimit clientCfg

variable {clientCfg : ClientConfig} {label : PeerLabel} {point point' : SessionPoint F64}
variable {metrics metrics' : Metrics F64} {rounds : List (Round F64)}

/-- A session that has not timed out is below its limit. -/
theorem OnCount.lt_missLimit (hcount : OnCount clientCfg label point metrics rounds)
    (hpoint : point ≠ .returned "timeout") : silentRun rounds < missLimit clientCfg :=
  lt_of_le_of_ne hcount.bound fun heq => hpoint (hcount.verdict.mpr heq)

theorem OnCount.lt_of_live (hcount : OnCount clientCfg label point metrics rounds)
    {vars : SessionVars F64} (hlive : point.live = some vars) :
    silentRun rounds < missLimit clientCfg := by
  refine hcount.lt_missLimit ?_
  rintro rfl
  cases hlive

/-- A step that completes no round and does not time out. -/
theorem OnCount.goOn (hcount : OnCount clientCfg label point metrics rounds)
    (hbefore : point ≠ .returned "timeout") (hafter : point' ≠ .returned "timeout")
    (hmissed : ∀ vars, point'.live = some vars → vars.consecutiveMissed = runAt rounds point')
    (hgauge : ∀ vars, point'.live = some vars →
      consecutiveMissedGauge metrics' label = some vars.consecutiveMissed) :
    OnCount clientCfg label point' metrics' rounds where
  missed := hmissed
  gauge := hgauge
  earlier := hcount.earlier
  bound := hcount.bound
  verdict := iff_of_false hafter (hcount.lt_missLimit hbefore).ne

/-- A step that leaves the loop, but not because of a timeout. -/
theorem OnCount.leave (hcount : OnCount clientCfg label point metrics rounds)
    (hbefore : point ≠ .returned "timeout") (hafter : point' ≠ .returned "timeout")
    (hended : point'.live = none) : OnCount clientCfg label point' metrics' rounds := by
  refine hcount.goOn hbefore hafter ?_ ?_
  · intro vars hlive
    rw [hended] at hlive
    cases hlive
  · intro vars hlive
    rw [hended] at hlive
    cases hlive

/-- A step inside the loop that leaves the count and the gauge alone. -/
theorem OnCount.carry (hcount : OnCount clientCfg label point metrics rounds)
    {vars vars' : SessionVars F64} (hbefore : point.live = some vars)
    (hafter : point'.live = some vars')
    (hsame : vars'.consecutiveMissed = vars.consecutiveMissed)
    (hrun : runAt rounds point' = runAt rounds point)
    (hgauge : consecutiveMissedGauge metrics' label = consecutiveMissedGauge metrics label) :
    OnCount clientCfg label point' metrics' rounds := by
  have hrunning : ∀ {stage : SessionPoint F64} {vars}, stage.live = some vars →
      stage ≠ .returned "timeout" := by
    rintro stage vars hlive rfl
    cases hlive
  refine hcount.goOn (hrunning hbefore) (hrunning hafter) ?_ ?_
  · intro vars'' hlive
    obtain rfl : vars' = vars'' := Option.some.inj (hafter.symm.trans hlive)
    rw [hsame, hrun]
    exact hcount.missed vars hbefore
  · intro vars'' hlive
    obtain rfl : vars' = vars'' := Option.some.inj (hafter.symm.trans hlive)
    rw [hsame, hgauge]
    exact hcount.gauge vars hbefore

/-- A step that completes a round. -/
theorem OnCount.complete (hcount : OnCount clientCfg label point metrics rounds)
    (hbefore : point ≠ .returned "timeout") {round : Round F64}
    (hmissed : ∀ vars, point'.live = some vars →
      vars.consecutiveMissed = runAt (rounds ++ [round]) point')
    (hgauge : ∀ vars, point'.live = some vars →
      consecutiveMissedGauge metrics' label = some vars.consecutiveMissed)
    (hverdict : point' = .returned "timeout" ↔
      silentRun (rounds ++ [round]) = missLimit clientCfg) :
    OnCount clientCfg label point' metrics' (rounds ++ [round]) where
  missed := hmissed
  gauge := hgauge
  earlier := by
    intro k hk
    have hlt := hcount.lt_missLimit hbefore
    rw [List.length_append, List.length_singleton] at hk
    rw [List.take_append_of_le_length (by omega)]
    rcases Nat.lt_or_ge k rounds.length with hold | hlast
    · exact hcount.earlier k hold
    · rwa [List.take_of_length_le hlast]
  bound := by
    have hlt := hcount.lt_missLimit hbefore
    rw [silentRun_concat]
    split <;> omega
  verdict := hverdict

/-! ## What a step stores in the gauge -/

/-- The last value that a list of updates stores in the gauge. -/
def missedWrite (label : PeerLabel) (updates : List (Update F64)) : Option ℤ :=
  (updates.filterMap (Update.gaugeWrite .clientConsecutiveMissed label)).getLast?

theorem gauge_applyAll (updates : List (Update F64)) (metrics : Metrics F64)
    (label : PeerLabel) :
    consecutiveMissedGauge (Update.applyAll updates metrics) label =
      (missedWrite label updates).or (consecutiveMissedGauge metrics label) :=
  Update.lookup_gauge_applyAll updates metrics _ label

theorem missedWrite_recordSessionStart (label : PeerLabel) (startTs : F64) :
    missedWrite label (recordSessionStart label startTs) = some 0 := by
  simp [missedWrite, recordSessionStart, Update.gaugeWrite]

theorem missedWrite_recordMiss (label : PeerLabel) (missed : ℤ) :
    missedWrite label (recordMiss label missed : List (Update F64)) = some missed := by
  simp [missedWrite, recordMiss, Update.gaugeWrite]

theorem missedWrite_recordEcho [WallClock F64] (label : PeerLabel) (startTs nowTs : F64)
    (sendTs : Option F64) :
    missedWrite label (recordEcho label startTs nowTs sendTs) = some 0 := by
  cases sendTs <;> simp [missedWrite, recordEcho, List.findSome?_cons, Update.gaugeWrite]

/-! ## One step -/

section Step

variable [WallClock F64] {log : Log F64} {nodeName peerName : String} {clock : Reading F64}
variable {completion : Completion} {after : SessionPoint F64 × List (Update F64)}

theorem classifyIoError_ne_timeout (error : ErrorKind) : classifyIoError error ≠ "timeout" := by
  cases error <;> decide

/-- Only the end of a wait makes a session time out. -/
theorem returned_ne_timeout {vars : SessionVars F64} {reason : String}
    (hreason : reason ≠ "timeout") :
    (breakSession vars clock reason).1 ≠ .returned "timeout" := by
  simpa [breakSession] using hreason

/-- A silent round lengthens the run, and ends the session at the limit. -/
theorem OnCount.endSilent {vars : SessionVars F64} {sentSeq : UInt64} {sendTs : F64}
    {deadline : Instant} {round : Round F64}
    (hcount : OnCount clientCfg label (.waiting vars sentSeq sendTs deadline false) metrics
      rounds)
    (hlabel : vars.label = label) (hsilent : silent round = true) :
    OnCount clientCfg label (endWait clientCfg vars false clock).1
      (Update.applyAll (endWait clientCfg vars false clock).2 metrics) (rounds ++ [round]) := by
  have hmissed : vars.consecutiveMissed = silentRun rounds := hcount.missed vars rfl
  have hlt := hcount.lt_of_live (show SessionPoint.live _ = some vars from rfl)
  have hrun : silentRun (rounds ++ [round]) = silentRun rounds + 1 := by
    rw [silentRun_concat, if_pos hsilent]
  have hlimit : missLimit clientCfg = max 1 clientCfg.maxMisses.toNat := rfl
  rcases endWait_cases clientCfg vars false clock with
    ⟨hheard, -⟩ | ⟨-, hmore, heq⟩ | ⟨-, hended, heq⟩
  · cases hheard
  · rw [heq]
    refine hcount.complete (by simp) ?_ ?_ ?_
    · intro vars' hlive
      cases hlive
      simp only [runAt, hrun, hmissed]
      rfl
    · intro vars' hlive
      cases hlive
      dsimp only
      rw [gauge_applyAll, hlabel, missedWrite_recordMiss]
      rfl
    · exact iff_of_false (by simp) (by omega)
  · rw [heq]
    refine hcount.complete (by simp) ?_ ?_ ?_
    · intro vars' hlive
      cases hlive
    · intro vars' hlive
      cases hlive
    · exact iff_of_true rfl (by omega)

omit [WallClock F64] in
/-- A round in which an echo was read ends the run. -/
theorem OnCount.endHeard {vars : SessionVars F64} {round : Round F64}
    (hcount : OnCount clientCfg label point metrics rounds)
    (hbefore : point ≠ .returned "timeout") (hheard : silent round = false)
    (hmissed : vars.consecutiveMissed = 0)
    (hgauge : consecutiveMissedGauge metrics' label = some 0) :
    OnCount clientCfg label (.loopHead vars) metrics' (rounds ++ [round]) := by
  have hrun : silentRun (rounds ++ [round]) = 0 := by
    rw [silentRun_concat, hheard]
    rfl
  refine hcount.complete hbefore ?_ ?_ ?_
  · intro vars' hlive
    cases hlive
    simp only [runAt, hrun, hmissed]
    rfl
  · intro vars' hlive
    cases hlive
    rw [hgauge, hmissed]
  · refine iff_of_false (by simp) ?_
    rw [hrun, missLimit]
    omega

/-- A step of the session keeps its counter in agreement with its rounds. -/
theorem OnCount.step
    (hcount : OnCount clientCfg label point metrics log.rounds) (hat : log.At point)
    (hlabel : ∀ vars, point.live = some vars → vars.label = label)
    (hown : label = ⟨nodeName, peerName⟩)
    (hstep : SessionStep nodeName peerName clientCfg point clock completion after) :
    OnCount clientCfg label after.1 (Update.applyAll after.2 metrics)
      (log.record point completion after).rounds := by
  cases hstep with
  | handshakePart | handshakeError => exact hcount.leave (by simp) (by simp) rfl
  | established hunsent =>
      obtain rfl : log = Log.empty F64 := hat
      refine hcount.goOn (by simp) (by simp) ?_ ?_
      · intro vars hlive
        cases hlive
        rfl
      · intro vars hlive
        cases hlive
        rw [gauge_applyAll, hown, missedWrite_recordSessionStart]
        rfl
  | sleep | due | wake | sendPart | sent => exact hcount.carry rfl rfl rfl rfl rfl
  | writeError =>
      exact hcount.leave (by simp) (returned_ne_timeout (classifyIoError_ne_timeout _)) rfl
  | @deadline vars sentSeq sendTs deadline gotEcho clock hdue =>
      obtain ⟨-, stale, hcurrent, -, hgot⟩ := hat
      rw [Log.record_deadline hcurrent]
      cases gotEcho with
      | true =>
          have hmissed : vars.consecutiveMissed = 0 := hcount.missed vars rfl
          refine hcount.endHeard (by simp) ?_ hmissed ?_
          · simpa [silent, unmeasured] using hgot
          · rw [← hmissed]
            exact hcount.gauge vars rfl
      | false =>
          refine hcount.endSilent (hlabel _ rfl) ?_
          simpa [silent, unmeasured] using hgot
  | @readPart vars sentSeq sendTs deadline gotEcho clock outcome echoes hread =>
      obtain ⟨-, stale, hcurrent, -⟩ := hat
      rw [Log.record_read hread hcurrent (by simp)]
      exact hcount.carry rfl rfl rfl (by cases gotEcho <;> rfl) rfl
  | readError hread =>
      obtain ⟨-, stale, hcurrent, -⟩ := hat
      rw [Log.record_read hread hcurrent (by simp [breakSession])]
      exact hcount.leave (by simp) (returned_ne_timeout (classifyIoError_ne_timeout _)) rfl
  | @echo vars sentSeq sendTs deadline gotEcho clock outcome echoes echo hread =>
      obtain ⟨-, stale, hcurrent, -⟩ := hat
      have hgauge : ∀ sendTs, consecutiveMissedGauge (Update.applyAll
          (recordEcho vars.label vars.startTs clock.wall sendTs) metrics) label = some 0 := by
        intro sendTs
        rw [gauge_applyAll, hlabel vars rfl, missedWrite_recordEcho]
        rfl
      by_cases hmatch : echo.seq = sentSeq
      · rw [Log.record_matched hread hcurrent hmatch, readEcho, if_pos hmatch]
        exact hcount.endHeard (by simp) (by simp [silent]) rfl (hgauge (some sendTs))
      · rw [Log.record_stale hread hcurrent hmatch, readEcho, if_neg hmatch]
        refine hcount.goOn (by simp) (by simp) ?_ ?_
        · intro vars' hlive
          cases hlive
          rfl
        · intro vars' hlive
          cases hlive
          exact hgauge none
  | @cancelled point vars clock hpoint =>
      have hlive := SessionPoint.live_of_interruptible hpoint
      have hrounds : (log.record point .cancelled (breakSession vars clock "cancelled")).rounds =
          log.rounds := by
        cases point <;> rfl
      rw [hrounds]
      refine hcount.leave ?_ (returned_ne_timeout (by decide)) rfl
      rintro rfl
      cases hlive

end Step

/-! ## Every session -/

section Sessions

variable [WallClock F64] {nodeName peerName : String} {earlier : Metrics F64}
variable {state : ClientStream F64}

theorem onCount_of_reachable
    (hreach : Reachable (ClientStream.step nodeName peerName clientCfg)
      (ClientStream.start nodeName earlier) state) :
    OnCount clientCfg ⟨nodeName, peerName⟩ state.point state.metrics state.log.rounds := by
  refine hreach.invariant_of_reachable
    (fun state => OnCount clientCfg ⟨nodeName, peerName⟩ state.point state.metrics
      state.log.rounds) ?_ ?_
  · refine ⟨?_, ?_, ?_, Nat.zero_le _, iff_of_false (by simp [ClientStream.start, openSession]) ?_⟩
    · intro vars hlive
      cases hlive
    · intro vars hlive
      cases hlive
    · intro k hk
      cases hk
    · have hlimit : 0 < missLimit clientCfg := Nat.lt_of_lt_of_le Nat.zero_lt_one (le_max_left _ _)
      exact hlimit.ne
  · intro state input next hreach hcount hstep
    obtain ⟨after, hrun, rfl⟩ := ClientStream.step_eq_some.mp hstep
    exact hcount.step (ClientStream.at_of_reachable hreach)
      (fun vars => ClientStream.label_of_reachable hreach) rfl (sessionStep_of_runSession hrun)

/-- In every session and at every limit, 0 included: the session has timed out
exactly if its completed rounds end in a silent run as long as the limit, which
no earlier rounds did.  Between two rounds, `consecutive_missed` is the length
of the silent run, equals its gauge, and is below the limit. -/
theorem times_out_exactly
    (hreach : Reachable (ClientStream.step nodeName peerName clientCfg)
      (ClientStream.start nodeName earlier) state) :
    (state.point = .returned "timeout" ↔
        silentRun state.log.rounds = max 1 clientCfg.maxMisses.toNat) ∧
      (∀ k < state.log.rounds.length,
        silentRun (state.log.rounds.take k) < max 1 clientCfg.maxMisses.toNat) ∧
      (BetweenRounds state.point → ∃ vars, state.point.live = some vars ∧
        vars.consecutiveMissed = silentRun state.log.rounds ∧
        consecutiveMissedGauge state.metrics ⟨nodeName, peerName⟩ =
          some vars.consecutiveMissed) ∧
      ∀ vars, state.point.live = some vars → 0 ≤ vars.consecutiveMissed ∧
        vars.consecutiveMissed < (max 1 clientCfg.maxMisses.toNat : ℕ) := by
  have hcount := onCount_of_reachable hreach
  refine ⟨hcount.verdict, hcount.earlier, ?_, ?_⟩
  · intro hbetween
    obtain ⟨point, metrics, log⟩ := state
    cases point with
    | loopHead vars | sleeping vars =>
        exact ⟨vars, rfl, hcount.missed vars rfl, hcount.gauge vars rfl⟩
    | handshake | sending | waiting | returned => exact hbetween.elim
  · intro vars hlive
    have hlt : silentRun state.log.rounds < max 1 clientCfg.maxMisses.toNat :=
      hcount.lt_of_live hlive
    have hle : runAt state.log.rounds state.point ≤ silentRun state.log.rounds := by
      unfold runAt
      split
      · exact Nat.zero_le _
      · exact le_rfl
    rw [hcount.missed vars hlive]
    omega

end Sessions

end Rule

/-- The first round is silent. -/
def firstRoundSilent : List (Reading WholeSeconds × Completion) :=
  [inputAt 0 (.wrote (.ok 7)), inputAt 0 .ready, inputAt 0 (.wrote (.ok 16)),
    inputAt 1000000000 .elapsed]

/-- With `max_misses = 0` a session times out after its first silent round. -/
theorem times_out_exactly_at_zero :
    ∃ state, run (ClientStream.step "cli" "srv" ⟨1, 0, 1⟩)
        (ClientStream.start "cli" (Metrics.new WholeSeconds)) firstRoundSilent = some state ∧
      state.point = .returned "timeout" := by
  obtain ⟨state, hrun, hview⟩ := Option.map_eq_some_iff.mp (show
    (run (ClientStream.step "cli" "srv" ⟨1, 0, 1⟩)
      (ClientStream.start "cli" (Metrics.new WholeSeconds)) firstRoundSilent).map
        (fun state => silentRun state.log.rounds) = some 1 by decide)
  exact ⟨state, hrun, (times_out_exactly (Reachable.of_run hrun)).1.mpr hview⟩

end TcpMonitor.TimeoutRule
