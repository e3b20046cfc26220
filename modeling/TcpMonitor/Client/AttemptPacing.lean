import TcpMonitor.Client.AttemptAccounting
import TcpMonitor.Process.TwoSides

/-!
# How often a peer task can record an attempt

An attempt to reach a peer is recorded when its connect fails, and otherwise
when its session starts.  Whatever happens to an attempt, the loop sleeps for
the reconnect delay before the next one, so a task cannot record more attempts
than the delay has room for.
-/

namespace TcpMonitor.AttemptPacing

open TcpMonitor.TaskPool
open TcpMonitor.Runtime
open TcpMonitor.Configuration
open TcpMonitor.LabelFamily
open TcpMonitor.MetricFamilies
open TcpMonitor.SessionBooks
open TcpMonitor.Session
open TcpMonitor.ReconnectLoop
open TcpMonitor.PeerPool
open TcpMonitor.SessionConservation
open TcpMonitor.AttemptAccounting
open TcpMonitor.TwoSides

/-! ## Recorded attempts -/

section Records

variable {F64 : Type}

/-- The updates that record an attempt. -/
def recordsAttempt : Update F64 → Bool
  | .incCounter .clientSessionsTotal _ => true
  | .incDisconnect .clientDisconnects label => label.reason = "connect_failed"
  | _ => false

/-- The attempts that a task has recorded or is about to record. -/
def attemptsOf (task : PeerLoopTask F64) : ℕ :=
  (task.made ++ task.pending).countP recordsAttempt

/-- The attempts that the metrics show for a label. -/
def attempts (label : PeerLabel) (metrics : Metrics F64) : ℕ :=
  sessionsTotal clientBooks label metrics + disconnectsOf label "connect_failed" metrics

/-- How much an update adds to them. -/
def attemptWeight (label : PeerLabel) (update : Update F64) : ℕ :=
  totalWeight clientBooks label update +
    update.disconnectWeight .clientDisconnects ⟨label.node, label.peer, "connect_failed"⟩

variable {label : PeerLabel}

theorem attempts_apply (update : Update F64) (metrics : Metrics F64) :
    attempts label (update.apply metrics) =
      attempts label metrics + attemptWeight label update := by
  rw [attempts, attempts, attemptWeight, sessionsTotal_apply, disconnectsOf,
    Update.disconnects_apply, disconnectsOf, Nat.add_add_add_comm]

theorem attemptWeight_eq (update : Update F64) :
    attemptWeight label update =
      if recordsAttempt update = true ∧ labelOf update = label then 1 else 0 := by
  cases update with
  | incCounter family label' =>
      cases family <;>
        simp [attemptWeight, totalWeight, clientBooks, Update.counterWeight,
          Update.disconnectWeight, recordsAttempt, labelOf]
  | incDisconnect family label' =>
      obtain ⟨node, peer, reason⟩ := label'
      obtain ⟨node', peer'⟩ := label
      cases family with
      | serverDisconnects =>
          simp [attemptWeight, totalWeight, Update.counterWeight, Update.disconnectWeight,
            recordsAttempt]
      | clientDisconnects =>
          simp only [attemptWeight, totalWeight, Update.counterWeight, Update.disconnectWeight,
            recordsAttempt, labelOf, DisconnectLabel.mk.injEq, PeerLabel.mk.injEq, true_and,
            Nat.zero_add, decide_eq_true_eq]
          exact if_congr (by tauto) rfl rfl
  | setGauge | setFloat | createDisconnect =>
      simp [attemptWeight, totalWeight, Update.counterWeight, Update.disconnectWeight,
        recordsAttempt]

/-- A task whose updates are all under its own label adds to the attempts of
this label only. -/
theorem sum_attemptWeight {own : PeerLabel} {updates : List (Update F64)}
    (hown : ∀ update ∈ updates, labelOf update = own) :
    (updates.map (attemptWeight label)).sum =
      if own = label then updates.countP recordsAttempt else 0 := by
  induction updates with
  | nil => simp
  | cons update updates ih =>
      obtain ⟨hhead, htail⟩ := List.forall_mem_cons.mp hown
      rw [List.map_cons, List.sum_cons, ih htail, attemptWeight_eq, hhead, List.countP_cons]
      by_cases hlabel : own = label
      · simp only [hlabel, and_true, if_true]
        exact Nat.add_comm _ _
      · simp [hlabel]

/-! ### The attempts in the updates of one step -/

theorem attempts_recordSessionStart (startTs : F64) :
    (recordSessionStart label startTs).countP recordsAttempt = 1 := rfl

theorem attempts_recordEcho [WallClock F64] (startTs nowTs : F64) (sendTs : Option F64) :
    (recordEcho label startTs nowTs sendTs).countP recordsAttempt = 0 := by
  cases sendTs <;> rfl

theorem attempts_recordMiss (missed : ℤ) :
    (recordMiss label missed : List (Update F64)).countP recordsAttempt = 0 := rfl

theorem attempts_sessionEnd (duration : F64) {reason : String}
    (hreason : reason ≠ "connect_failed") :
    (sessionEnd label duration reason).countP recordsAttempt = 0 := by
  by_cases hcancelled : reason = "cancelled" <;>
    simp [sessionEnd, hcancelled, recordsAttempt, hreason]

theorem attempts_initDisconnectLabels (nodeName peerName : String) :
    (initDisconnectLabels F64 nodeName peerName).countP recordsAttempt = 0 := by
  refine List.countP_eq_zero.mpr fun update hmem => ?_
  rcases List.mem_append.mp hmem with hserver | hclient
  · obtain ⟨reason, -, rfl⟩ := List.mem_map.mp hserver
    simp [recordsAttempt]
  · obtain ⟨reason, -, rfl⟩ := List.mem_map.mp hclient
    simp [recordsAttempt]

end Records

/-! ## One step of the loop -/

section Steps

variable {F64 : Type}

/-- A session that has started. -/
def started (point : SessionPoint F64) : Bool := point.live.isSome

/-- Everything a step of the loop can be, with the attempts that it records. -/
inductive AttemptStep (delay : Duration) (now : Instant) : LoopPoint F64 → LoopPoint F64 → ℕ → Prop
  | begin : AttemptStep delay now .spawned .connecting 0
  | connected {point : SessionPoint F64} (hpoint : started point = false) :
      AttemptStep delay now .connecting (.session point) 0
  | connectFailed : AttemptStep delay now .connecting (.reconnecting (now + delay)) 1
  | goesOn {point point' : SessionPoint F64} (hsame : started point' = started point) :
      AttemptStep delay now (.session point) (.session point') 0
  | start {point point' : SessionPoint F64} (hbefore : started point = false)
      (hafter : started point' = true) :
      AttemptStep delay now (.session point) (.session point') 1
  | sessionEnded {point : SessionPoint F64} :
      AttemptStep delay now (.session point) (.reconnecting (now + delay)) 0
  | retry {deadline : Instant} (hdue : deadline ≤ now) :
      AttemptStep delay now (.reconnecting deadline) .connecting 0
  | cancelled {point : LoopPoint F64} : AttemptStep delay now point .returned 0

theorem AttemptStep.le_one {delay : Duration} {now : Instant} {point point' : LoopPoint F64}
    {count : ℕ} (hstep : AttemptStep delay now point point' count) : count ≤ 1 := by
  cases hstep <;> decide

variable [WallClock F64] {clock : Reading F64} {completion : Completion}

theorem classifyIoError_ne (error : ErrorKind) : classifyIoError error ≠ "connect_failed" := by
  cases error <;> decide

/-- A session records an attempt when it starts. -/
theorem sessionStep_attempts {nodeName peerName : String} {clientCfg : ClientConfig}
    {point : SessionPoint F64} {after : SessionPoint F64 × List (Update F64)}
    (hstep : SessionStep nodeName peerName clientCfg point clock completion after) :
    (started after.1 = started point ∧ after.2.countP recordsAttempt = 0) ∨
      (started point = false ∧ started after.1 = true ∧ after.2.countP recordsAttempt = 1) ∨
      ((∃ reason, after.1 = .returned reason) ∧ after.2.countP recordsAttempt = 0) := by
  have hend : ∀ (vars : SessionVars F64) (clock : Reading F64) (reason : String),
      reason ≠ "connect_failed" →
        (∃ reason', (breakSession vars clock reason).1 = .returned reason') ∧
          (breakSession vars clock reason).2.countP recordsAttempt = 0 :=
    fun vars clock reason hreason => ⟨⟨reason, rfl⟩, attempts_sessionEnd _ hreason⟩
  cases hstep with
  | handshakePart | sleep | due | wake | sendPart | readPart | sent =>
      exact Or.inl ⟨by simp only [started, startRound, SessionPoint.live, Option.isSome_some], rfl⟩
  | handshakeError => exact Or.inr (Or.inr ⟨⟨_, rfl⟩, rfl⟩)
  | established => exact Or.inr (Or.inl ⟨rfl, rfl, attempts_recordSessionStart _⟩)
  | writeError | readError => exact Or.inr (Or.inr (hend _ _ _ (classifyIoError_ne _)))
  | cancelled hpoint => exact Or.inr (Or.inr (hend _ _ _ (by decide)))
  | @deadline vars sentSeq sendTs deadline gotEcho clock hdue =>
      rcases endWait_cases clientCfg vars gotEcho clock with
        ⟨-, heq⟩ | ⟨-, -, heq⟩ | ⟨-, -, heq⟩
      · rw [heq]
        exact Or.inl ⟨rfl, rfl⟩
      · rw [heq]
        exact Or.inl ⟨rfl, attempts_recordMiss _⟩
      · obtain ⟨hreturned, hcount⟩ := hend vars clock "timeout" (by decide)
        rw [heq]
        refine Or.inr (Or.inr ⟨hreturned, ?_⟩)
        rw [List.countP_append, attempts_recordMiss, hcount]
  | @echo vars sentSeq sendTs deadline gotEcho clock outcome echoes echo hread =>
      rcases readEcho_cases { vars with echoes := echoes } sentSeq sendTs deadline clock echo with
        ⟨-, heq⟩ | ⟨-, heq⟩
      · rw [heq]
        exact Or.inl ⟨rfl, attempts_recordEcho vars.startTs clock.wall (some sendTs)⟩
      · rw [heq]
        exact Or.inl ⟨rfl, attempts_recordEcho vars.startTs clock.wall none⟩

theorem attemptStep_of_runPeerLoop {loop loop' : PeerLoop F64} {updates : List (Update F64)}
    (hrun : runPeerLoop loop clock completion = some (loop', updates)) :
    AttemptStep (fromSecs loop.clientCfg.reconnectDelay) clock.now loop.point loop'.point
      (updates.countP recordsAttempt) := by
  unfold runPeerLoop at hrun
  simp only at hrun
  split at hrun
  · next hpoint =>
      cases hrun
      rw [hpoint, attempts_initDisconnectLabels]
      exact .begin
  · next hpoint =>
      cases hrun
      rw [hpoint]
      exact .connected rfl
  · next hpoint =>
      cases hrun
      rw [hpoint]
      exact .connectFailed
  · cases hrun
    exact .cancelled
  · next point completion hpoint =>
      rw [hpoint]
      split at hrun
      · cases hrun
      · next reason updates hsession =>
          cases hrun
          have hnone : updates.countP recordsAttempt = 0 := by
            rcases sessionStep_attempts (sessionStep_of_runSession hsession) with
              ⟨-, hcount⟩ | ⟨-, hstarted, -⟩ | ⟨-, hcount⟩
            · exact hcount
            · cases hstarted
            · exact hcount
          rw [hnone]
          dsimp only
          split
          · exact .cancelled
          · exact .sessionEnded
      · next point' updates hgoes hsession =>
          cases hrun
          rcases sessionStep_attempts (sessionStep_of_runSession hsession) with
            ⟨hsame, hcount⟩ | ⟨hbefore, hafter, hcount⟩ | ⟨⟨reason, hreturned⟩, -⟩
          · rw [hcount]
            exact .goesOn hsame
          · rw [hcount]
            exact .start hbefore hafter
          · exact absurd hreturned (hgoes reason)
  · next deadline hpoint =>
      split at hrun
      · next hdue =>
          cases hrun
          rw [hpoint]
          exact .retry hdue
      · cases hrun
  · cases hrun
    exact .cancelled
  · cases hrun

end Steps

/-! ## The pace -/

section Pace

variable {F64 : Type}

/-- Where a task can be at an instant when it has recorded `count` attempts since
an earlier one: the next attempt cannot be recorded before as many delays have
passed. -/
def Paced (delay : Duration) (since now : Instant) (count : ℕ) : LoopPoint F64 → Prop
  | .spawned | .connecting => since + count * delay ≤ now
  | .session point => since + count * delay ≤ now + if started point then delay else 0
  | .reconnecting deadline =>
      deadline ≤ now + delay ∧ since + count * delay ≤ max deadline now
  | .returned => since + count * delay ≤ now + delay

variable {delay : Duration} {since now later : Instant} {count counted : ℕ}
variable {point point' : LoopPoint F64}

/-- Of a task that sleeps only the length of its sleep is needed. -/
theorem paced_now
    (hdeadline : ∀ deadline, point = .reconnecting deadline → deadline ≤ now + delay) :
    Paced delay now now 0 point := by
  cases point with
  | spawned | connecting => exact Nat.le_of_eq (by rw [Nat.zero_mul, Nat.add_zero])
  | session point =>
      rw [Paced, Nat.zero_mul, Nat.add_zero]
      exact Nat.le_add_right _ _
  | reconnecting deadline =>
      refine ⟨hdeadline deadline rfl, ?_⟩
      rw [Nat.zero_mul, Nat.add_zero]
      exact Nat.le_max_right _ _
  | returned =>
      rw [Paced, Nat.zero_mul, Nat.add_zero]
      exact Nat.le_add_right _ _

theorem Paced.wait (hpaced : Paced delay since now count point) (hlater : now ≤ later) :
    Paced delay since later count point := by
  cases point with
  | spawned | connecting => exact Nat.le_trans hpaced hlater
  | session | returned => exact Nat.le_trans hpaced (Nat.add_le_add_right hlater _)
  | reconnecting deadline =>
      exact ⟨Nat.le_trans hpaced.1 (Nat.add_le_add_right hlater _),
        Nat.le_trans hpaced.2 (max_le_max_left deadline hlater)⟩

theorem Paced.le (hpaced : Paced delay since now count point) :
    since + count * delay ≤ now + delay := by
  cases point with
  | spawned | connecting => exact Nat.le_trans hpaced (Nat.le_add_right _ _)
  | session point =>
      refine Nat.le_trans hpaced (Nat.add_le_add_left ?_ _)
      split
      · exact Nat.le_refl _
      · exact Nat.zero_le _
  | reconnecting deadline =>
      exact Nat.le_trans hpaced.2 (Nat.max_le.mpr ⟨hpaced.1, Nat.le_add_right _ _⟩)
  | returned => exact hpaced

theorem Paced.step (hpaced : Paced delay since now count point)
    (hstep : AttemptStep delay now point point' counted) :
    Paced delay since now (count + counted) point' := by
  have hmore : since + count * delay ≤ now → since + (count + 1) * delay ≤ now + delay := by
    intro hle
    rw [Nat.succ_mul, ← Nat.add_assoc]
    exact Nat.add_le_add_right hle _
  cases hstep with
  | begin => exact hpaced
  | connected hpoint =>
      simpa only [Paced, hpoint, Bool.false_eq_true, if_false, Nat.add_zero] using hpaced
  | connectFailed => exact ⟨Nat.le_refl _, Nat.le_trans (hmore hpaced) (Nat.le_max_left _ _)⟩
  | goesOn hsame => simpa only [Paced, hsame, Nat.add_zero] using hpaced
  | start hbefore hafter =>
      simp only [Paced, hbefore, hafter, Bool.false_eq_true, if_false, if_true,
        Nat.add_zero] at hpaced ⊢
      exact hmore hpaced
  | sessionEnded => exact ⟨Nat.le_refl _, Nat.le_trans hpaced.le (Nat.le_max_left _ _)⟩
  | retry hdue =>
      rw [Paced, Nat.add_zero]
      exact Nat.le_trans hpaced.2 (Nat.max_le.mpr ⟨hdue, Nat.le_refl _⟩)
  | cancelled => exact hpaced.le

/-- The number of attempts that the delay has room for. -/
theorem Paced.count_le (hpaced : Paced delay since now count point) (hsince : since ≤ now)
    (hdelay : 0 < delay) : count ≤ (now - since) / delay + 1 := by
  have hroom : count * delay ≤ now - since + delay := by
    rw [← Nat.sub_add_comm hsince]
    exact Nat.le_sub_of_add_le' hpaced.le
  rw [← Nat.add_div_right _ hdelay]
  exact (Nat.le_div_iff_mul_le hdelay).mpr hroom

end Pace

end TcpMonitor.AttemptPacing
