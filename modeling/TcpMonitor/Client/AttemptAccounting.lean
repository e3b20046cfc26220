import TcpMonitor.Client.SessionConservation

/-!
# What each attempt adds to the disconnects

A pass of `run_peer_loop` ends in the sleep before the next connect, or it is
cancelled before.  Failed connects are counted by the loop itself and ended
sessions at the end of `run_session`; between the two stands the early return
after a failed handshake, which nobody counts.
-/

namespace TcpMonitor.AttemptAccounting

open TcpMonitor.TransitionSystem
open TcpMonitor.Runtime
open TcpMonitor.Configuration
open TcpMonitor.LabelFamily
open TcpMonitor.MetricFamilies
open TcpMonitor.Session
open TcpMonitor.ReconnectLoop
open TcpMonitor.SessionConservation

section Counters

variable {F64 : Type}

/-- `client_disconnects` of a label, for one reason. -/
def disconnectsOf (label : PeerLabel) (reason : String) (metrics : Metrics F64) : ℕ :=
  (metrics.disconnects .clientDisconnects).valueOr 0 ⟨label.node, label.peer, reason⟩

/-- `client_disconnects` of a label, over all reasons. -/
def allDisconnects (label : PeerLabel) (metrics : Metrics F64) : ℕ :=
  (clientDisconnectReasons.map fun reason => disconnectsOf label reason metrics).sum

/-- The reason under which an update counts a disconnect of a label. -/
def counted (label : PeerLabel) : Update F64 → Option String
  | .incDisconnect family label' =>
      if family = .clientDisconnects ∧ label' = ⟨label.node, label.peer, label'.reason⟩ then
        some label'.reason
      else none
  | .setGauge _ _ _ | .setFloat _ _ _ | .incCounter _ _ | .createDisconnect _ _ => none

theorem disconnectWeight_eq (label : PeerLabel) (reason : String) (update : Update F64) :
    update.disconnectWeight .clientDisconnects ⟨label.node, label.peer, reason⟩ =
      if counted label update = some reason then 1 else 0 := by
  cases update with
  | incDisconnect family label' =>
      obtain ⟨node, peer, reason'⟩ := label'
      simp only [Update.disconnectWeight, counted, DisconnectLabel.mk.injEq, and_true]
      by_cases hown : family = .clientDisconnects ∧ node = label.node ∧ peer = label.peer
      · simp [hown]
      · rw [if_neg hown, if_neg (by tauto), if_neg (by simp)]
  | setGauge | setFloat | incCounter | createDisconnect => rfl

theorem disconnectsOf_applyAll (label : PeerLabel) (reason : String)
    (updates : List (Update F64)) (metrics : Metrics F64) :
    disconnectsOf label reason (Update.applyAll updates metrics) =
      disconnectsOf label reason metrics + (updates.filterMap (counted label)).count reason := by
  induction updates generalizing metrics with
  | nil => rfl
  | cons update updates ih =>
      have hrest := ih (update.apply metrics)
      have hfirst : disconnectsOf label reason (update.apply metrics) =
          disconnectsOf label reason metrics +
            if counted label update = some reason then 1 else 0 := by
        rw [disconnectsOf, Update.disconnects_apply, disconnectWeight_eq]
        rfl
      rw [hfirst] at hrest
      refine hrest.trans ?_
      cases hcounted : counted label update with
      | none => simp [hcounted]
      | some reason' =>
          simp only [List.filterMap_cons, hcounted, Option.some.injEq, List.count_cons,
            beq_iff_eq]
          omega

theorem counted_connectFailed (label : PeerLabel) :
    [(.incDisconnect .clientDisconnects ⟨label.node, label.peer, "connect_failed"⟩ :
      Update F64)].filterMap (counted label) = ["connect_failed"] := by
  simp [counted]

theorem counted_recordMiss (label label' : PeerLabel) (missed : ℤ) :
    (recordMiss label' missed : List (Update F64)).filterMap (counted label) = [] := rfl

theorem counted_recordEcho [WallClock F64] (label label' : PeerLabel) (startTs nowTs : F64)
    (sendTs : Option F64) :
    (recordEcho label' startTs nowTs sendTs).filterMap (counted label) = [] := by
  cases sendTs <;> rfl

theorem counted_sessionEnd (label : PeerLabel) (duration : F64) (reason : String) :
    (sessionEnd label duration reason).filterMap (counted label) =
      if reason = "cancelled" then [] else [reason] := by
  by_cases hreason : reason = "cancelled" <;>
    simp [sessionEnd, hreason, List.filterMap_cons, counted]

end Counters

/-! ## The passes of the loop -/

/-- A pass of the loop: the metrics at its start and when it reached the sleep
or was cancelled, and the reason for the disconnect if it did reach the sleep. -/
structure Pass (F64 : Type) where
  before : Metrics F64
  after : Metrics F64
  slept : Option String

/-- A peer loop, the metrics, those at the start of the current pass, and the
passes that have reached their sleep or were cancelled before. -/
structure LoopRun (F64 : Type) where
  loop : PeerLoop F64
  metrics : Metrics F64
  passStart : Metrics F64
  passes : List (Pass F64)

/-- The pass has counted one disconnect, for its own reason, if it has reached
the sleep, and none if it has not. -/
def Pass.Accounted {F64 : Type} (label : PeerLabel) (pass : Pass F64) : Prop :=
  match pass.slept with
  | some reason =>
      (∀ other, disconnectsOf label other pass.after =
        disconnectsOf label other pass.before + if other = reason then 1 else 0) ∧
      allDisconnects label pass.after = allDisconnects label pass.before + 1
  | none =>
      (∀ other, disconnectsOf label other pass.after = disconnectsOf label other pass.before) ∧
      allDisconnects label pass.after = allDisconnects label pass.before

namespace LoopRun

variable {F64 : Type} [WallClock F64]

/-- The loop of a peer before its first line. -/
def start (peer : PeerConfig) (clientCfg : ClientConfig) (nodeName : String)
    (metrics : Metrics F64) : LoopRun F64 :=
  ⟨spawnPeerLoop peer clientCfg nodeName, metrics, metrics, []⟩

/-- Why an attempt failed: the connect, or what `run_session` has returned. -/
def failure (loop : PeerLoop F64) (clock : Reading F64) (completion : Completion) : String :=
  match loop.point with
  | .session point =>
      match runSession loop.nodeName loop.peer.name loop.clientCfg point clock completion with
      | some (.returned reason, _) => reason
      | _ => ""
  | _ => "connect_failed"

/-- The passes after a step that has led the loop to `point`. -/
def closePass (state : LoopRun F64) (input : Reading F64 × Completion) (point : LoopPoint F64)
    (metrics : Metrics F64) : List (Pass F64) :=
  match state.loop.point, point with
  -- the pass has slept already
  | .reconnecting _, _ => state.passes
  | _, .reconnecting _ =>
      state.passes ++ [⟨state.passStart, metrics, some (failure state.loop input.1 input.2)⟩]
  | _, .returned => state.passes ++ [⟨state.passStart, metrics, none⟩]
  | _, _ => state.passes

/-- A step of the loop; a pass starts at its connect. -/
def step (state : LoopRun F64) (input : Reading F64 × Completion) : Option (LoopRun F64) :=
  (runPeerLoop state.loop input.1 input.2).map fun after =>
    let metrics := Update.applyAll after.2 state.metrics
    { loop := after.1
      metrics := metrics
      passStart := match after.1.point with
        | .connecting => metrics
        | _ => state.passStart
      passes := closePass state input after.1.point metrics }

/-- The write of the handshake fails. -/
def HandshakeWriteFails (state : LoopRun F64) (input : Reading F64 × Completion) : Prop :=
  ∃ unsent error, state.loop.point = .session (.handshake unsent) ∧
    input.2 = .wrote (.error error)

end LoopRun

/-! ## What a step counts -/

section Step

variable {F64 : Type} [WallClock F64] {label : PeerLabel} {clock : Reading F64}
variable {completion : Completion}

/-- A session that has started counts its end unless it is cancelled; a failed
handshake counts nothing, and neither does any other step. -/
theorem sessionStep_counted {nodeName peerName : String} {clientCfg : ClientConfig}
    {point : SessionPoint F64} {after : SessionPoint F64 × List (Update F64)}
    (hstep : SessionStep nodeName peerName clientCfg point clock completion after)
    (hown : ∀ vars, point.live = some vars → vars.label = label) :
    ((∀ reason, after.1 ≠ .returned reason) ∧ after.2.filterMap (counted label) = [] ∧
        ¬ ∃ error, completion = .wrote (.error error)) ∨
      (∃ reason, after.1 = .returned reason ∧ (∀ unsent, point ≠ .handshake unsent) ∧
        after.2.filterMap (counted label) = if reason = "cancelled" then [] else [reason]) ∨
      ((∃ unsent error, point = .handshake unsent ∧ completion = .wrote (.error error)) ∧
        after = (.returned "local_error", [])) := by
  cases hstep with
  | handshakePart | sleep | due | wake | sendPart | readPart | sent =>
      exact Or.inl ⟨by simp [startRound], rfl, by simp⟩
  | established => exact Or.inl ⟨by simp, rfl, by simp⟩
  | handshakeError => exact Or.inr (Or.inr ⟨⟨_, _, rfl, rfl⟩, rfl⟩)
  | writeError | readError =>
      refine Or.inr (Or.inl ⟨_, rfl, by simp, ?_⟩)
      rw [breakSession, hown _ rfl]
      exact counted_sessionEnd label _ _
  | @deadline vars sentSeq sendTs deadline gotEcho clock hdue =>
      rcases endWait_cases clientCfg vars gotEcho clock with
        ⟨-, heq⟩ | ⟨-, -, heq⟩ | ⟨-, -, heq⟩
      · rw [heq]
        exact Or.inl ⟨by simp, rfl, by simp⟩
      · rw [heq]
        exact Or.inl ⟨by simp, counted_recordMiss label _ _, by simp⟩
      · rw [heq]
        refine Or.inr (Or.inl ⟨"timeout", rfl, by simp, ?_⟩)
        dsimp only
        rw [List.filterMap_append, counted_recordMiss, List.nil_append, breakSession,
          hown _ rfl]
        exact counted_sessionEnd label _ _
  | @echo vars sentSeq sendTs deadline gotEcho clock outcome echoes echo hread =>
      rcases readEcho_cases { vars with echoes := echoes } sentSeq sendTs deadline clock echo with
        ⟨-, heq⟩ | ⟨-, heq⟩
      · rw [heq]
        exact Or.inl ⟨by simp,
          counted_recordEcho label vars.label vars.startTs clock.wall (some sendTs), by simp⟩
      · rw [heq]
        exact Or.inl ⟨by simp,
          counted_recordEcho label vars.label vars.startTs clock.wall none, by simp⟩
  | cancelled hpoint =>
      have hlive := SessionPoint.live_of_interruptible hpoint
      refine Or.inr (Or.inl ⟨"cancelled", rfl, ?_, ?_⟩)
      · rintro unsent rfl
        cases hlive
      · rw [breakSession, hown _ hlive]
        exact counted_sessionEnd label _ _

/-- A step of the loop inside a session is a step of the session. -/
theorem session_of_runPeerLoop {loop : PeerLoop F64} {point : SessionPoint F64}
    {after : PeerLoop F64 × List (Update F64)} (hpoint : loop.point = .session point)
    (hrun : runPeerLoop loop clock completion = some after) :
    ∃ point', runSession loop.nodeName loop.peer.name loop.clientCfg point clock completion =
        some (point', after.2) ∧
      ((∃ reason deadline, point' = .returned reason ∧
          after.1.point = if reason = "cancelled" then .returned else .reconnecting deadline) ∨
        ((∀ reason, point' ≠ .returned reason) ∧ after.1.point = .session point')) := by
  simp only [runPeerLoop, hpoint] at hrun
  split at hrun
  · cases hrun
  · next reason updates hsession =>
      cases hrun
      exact ⟨_, hsession, Or.inl ⟨reason, _, rfl, rfl⟩⟩
  · next point' updates hgoes hsession =>
      cases hrun
      exact ⟨_, hsession, Or.inr ⟨fun reason hreason => hgoes reason hreason, rfl⟩⟩

end Step

/-! ## Every run of the loop -/

section Runs

variable {F64 : Type} [WallClock F64] {label : PeerLabel}
variable {state next : LoopRun F64} {input : Reading F64 × Completion}

omit [WallClock F64] in
/-- What a pass has counted decides whether it is accounted for. -/
theorem Pass.accounted_iff {pass : Pass F64} {reasons : List String}
    (hcounted : ∀ other, disconnectsOf label other pass.after =
      disconnectsOf label other pass.before + reasons.count other)
    (hlisted : ∀ reason ∈ pass.slept, reason ∈ clientDisconnectReasons)
    (hreasons : reasons = [] ∨ reasons = pass.slept.toList) :
    pass.Accounted label ↔ reasons = pass.slept.toList := by
  have hall : allDisconnects label pass.after = allDisconnects label pass.before +
      (clientDisconnectReasons.map reasons.count).sum := by
    simp only [allDisconnects, hcounted, List.sum_map_add]
  cases hslept : pass.slept with
  | none =>
      obtain rfl : reasons = [] := by simpa [hslept] using hreasons
      simpa [Pass.Accounted, hslept, hcounted] using hall
  | some reason =>
      rcases hreasons with rfl | rfl
      · refine iff_of_false ?_ (by simp)
        simp only [Pass.Accounted, hslept, not_and]
        intro _
        rw [hall]
        simp
      · rw [hslept] at hcounted hall ⊢
        refine iff_of_true ?_ rfl
        simp only [Pass.Accounted, hslept]
        refine ⟨fun other => ?_, ?_⟩
        · have hsame : (reason == other) = true ↔ other = reason := by
            rw [beq_iff_eq, eq_comm]
          rw [hcounted, Option.toList_some, List.count_singleton]
          simp only [hsame]
        · rw [hall]
          congr 1
          have hmem := hlisted reason hslept
          simp only [clientDisconnectReasons, List.mem_cons, List.not_mem_nil, or_false] at hmem
          rcases hmem with rfl | rfl | rfl | rfl | rfl <;> decide

/-- The loop is inside a pass. -/
def InPass : LoopPoint F64 → Prop
  | .connecting | .session _ => True
  | .spawned | .reconnecting _ | .returned => False

/-- A pass that has not reached its sleep has counted nothing, and its session
has the label of the loop. -/
structure OnPass (label : PeerLabel) (state : LoopRun F64) : Prop where
  label_eq : state.loop.label = label
  own : ∀ point vars, state.loop.point = .session point → point.live = some vars →
    vars.label = state.loop.label
  uncounted : InPass state.loop.point → ∀ reason,
    disconnectsOf label reason state.metrics = disconnectsOf label reason state.passStart

omit [WallClock F64] in
theorem onPass_start (peer : PeerConfig) (clientCfg : ClientConfig) (nodeName : String)
    (metrics : Metrics F64) :
    OnPass ⟨nodeName, peer.name⟩ (LoopRun.start peer clientCfg nodeName metrics) where
  label_eq := rfl
  own point vars hpoint := by cases hpoint
  uncounted hin := hin.elim

theorem step_eq_some :
    state.step input = some next ↔
      ∃ after, runPeerLoop state.loop input.1 input.2 = some after ∧
        next = { loop := after.1
                 metrics := Update.applyAll after.2 state.metrics
                 passStart := match after.1.point with
                   | .connecting => Update.applyAll after.2 state.metrics
                   | _ => state.passStart
                 passes := state.closePass input after.1.point
                   (Update.applyAll after.2 state.metrics) } := by
  rw [LoopRun.step, Option.map_eq_some_iff]
  exact exists_congr fun after => and_congr_right fun _ => eq_comm

/-- A step that stays inside the pass counts nothing. -/
theorem uncounted_step {after : PeerLoop F64 × List (Update F64)}
    (hon : OnPass label state) (hrun : runPeerLoop state.loop input.1 input.2 = some after)
    (hin : InPass after.1.point) (hnew : after.1.point ≠ .connecting) (reason : String) :
    disconnectsOf label reason (Update.applyAll after.2 state.metrics) =
      disconnectsOf label reason state.passStart := by
  have hnone : InPass state.loop.point ∧ after.2.filterMap (counted label) = [] := by
    cases hstate : state.loop.point with
    | session point =>
        refine ⟨trivial, ?_⟩
        obtain ⟨point', hsession, ⟨reason, deadline, -, hpoint⟩ | ⟨hgoes, -⟩⟩ :=
          session_of_runPeerLoop hstate hrun
        · rw [hpoint] at hin
          split at hin <;> exact hin.elim
        · have hown : ∀ vars, point.live = some vars → vars.label = label := fun vars hlive =>
            (hon.own point vars hstate hlive).trans hon.label_eq
          rcases sessionStep_counted (sessionStep_of_runSession hsession) hown with
            ⟨-, hcounted, -⟩ | ⟨reason, hreturned, -⟩ | ⟨-, hreturned⟩
          · exact hcounted
          · exact absurd hreturned (hgoes reason)
          · exact absurd (congrArg Prod.fst hreturned) (hgoes _)
    | spawned | connecting | reconnecting | returned =>
        cases loopStep_of_runPeerLoop hrun with
        | begin hpoint | retry hpoint => exact absurd rfl hnew
        | connected hpoint =>
            rw [← hstate, hpoint]
            exact ⟨trivial, rfl⟩
        | connectFailed | cancelled => exact hin.elim
        | session hpoint | sessionEnded hpoint =>
            rw [hstate] at hpoint
            cases hpoint
  rw [disconnectsOf_applyAll, hnone.2, List.count_nil, Nat.add_zero]
  exact hon.uncounted hnone.1 reason

theorem OnPass.step (hon : OnPass label state) (hstep : state.step input = some next) :
    OnPass label next := by
  obtain ⟨after, hrun, rfl⟩ := step_eq_some.mp hstep
  have hloop := loopStep_of_runPeerLoop hrun
  refine ⟨hloop.arguments_eq.2.trans hon.label_eq, loopStep_own hloop hon.own, ?_⟩
  intro hin reason
  dsimp only at hin ⊢
  by_cases hnew : after.1.point = .connecting
  · rw [hnew]
  · rw [uncounted_step hon hrun hin hnew reason]
    split
    · next hconnecting => exact absurd hconnecting hnew
    · rfl

omit [WallClock F64] in
/-- The pass that a step closes is accounted for if the step has counted its
reason. -/
theorem accounted_of_step {updates : List (Update F64)} {slept : Option String}
    (hon : OnPass label state) (hin : InPass state.loop.point)
    (hlisted : ∀ reason ∈ slept, reason ∈ clientDisconnectReasons)
    (hcounted : updates.filterMap (counted label) = [] ∨
      updates.filterMap (counted label) = slept.toList) :
    (Pass.mk state.passStart (Update.applyAll updates state.metrics) slept).Accounted label ↔
      updates.filterMap (counted label) = slept.toList := by
  refine Pass.accounted_iff (fun other => ?_) hlisted hcounted
  rw [disconnectsOf_applyAll, hon.uncounted hin other]

/-- The end of a session closes the pass. -/
theorem passes_session {point : SessionPoint F64} {after : PeerLoop F64 × List (Update F64)}
    (hon : OnPass label state) (hstate : state.loop.point = .session point)
    (hrun : runPeerLoop state.loop input.1 input.2 = some after) :
    (state.closePass input after.1.point (Update.applyAll after.2 state.metrics) =
        state.passes ∧ ¬ state.HandshakeWriteFails input) ∨
      ∃ pass, state.closePass input after.1.point (Update.applyAll after.2 state.metrics) =
          state.passes ++ [pass] ∧
        (pass.Accounted label ↔ ¬ state.HandshakeWriteFails input) := by
  obtain ⟨point', hsession, hpoint'⟩ := session_of_runPeerLoop hstate hrun
  have hown : ∀ vars, point.live = some vars → vars.label = label := fun vars hlive =>
    (hon.own point vars hstate hlive).trans hon.label_eq
  have hcases := sessionStep_of_runSession hsession
  have hcounted := sessionStep_counted hcases hown
  rcases hpoint' with ⟨reason, deadline, rfl, hpoint⟩ | ⟨hgoes, hpoint⟩
  · let slept := if reason = "cancelled" then none else some reason
    have hclosed : state.closePass input after.1.point (Update.applyAll after.2 state.metrics) =
        state.passes ++ [⟨state.passStart, Update.applyAll after.2 state.metrics, slept⟩] := by
      by_cases hcancelled : reason = "cancelled"
      · simp only [LoopRun.closePass, hstate, hpoint, slept, if_pos hcancelled]
      · simp only [LoopRun.closePass, hstate, hpoint, slept, if_neg hcancelled,
          LoopRun.failure, hsession]
    have hlisted : ∀ reason' ∈ slept, reason' ∈ clientDisconnectReasons := by
      intro reason' hmem
      obtain ⟨hcancelled, rfl⟩ : reason ≠ "cancelled" ∧ reason = reason' := by
        simpa [slept] using hmem
      rcases hcases.reason_cases rfl with ⟨-, hcancel⟩ | hlisted
      · exact absurd hcancel hcancelled
      · exact List.mem_append_left ["connect_failed"] hlisted
    have hin : InPass state.loop.point := by rw [hstate]; trivial
    refine Or.inr ⟨_, hclosed, ?_⟩
    rcases hcounted with ⟨hgoes, -⟩ | ⟨reason', hreturned, hstarted, hcounted⟩ |
      ⟨⟨unsent, error, hhandshake, hcompletion⟩, hreturned⟩
    · exact absurd rfl (hgoes reason)
    · obtain rfl : reason = reason' := by simpa using hreturned
      have hsame : after.2.filterMap (counted label) = slept.toList := by
        rw [hcounted]
        by_cases hcancelled : reason = "cancelled" <;> simp [slept, hcancelled]
      rw [accounted_of_step hon hin hlisted (Or.inr hsame)]
      refine iff_of_true hsame ?_
      rintro ⟨unsent, error, hhandshake, -⟩
      rw [hstate, LoopPoint.session.injEq] at hhandshake
      exact hstarted unsent hhandshake
    · obtain ⟨hreason, hupdates⟩ : reason = "local_error" ∧ after.2 = [] := by
        simpa using hreturned
      rw [accounted_of_step hon hin hlisted (Or.inl (by rw [hupdates]; rfl)), hupdates]
      refine iff_of_false ?_ (not_not.mpr ⟨unsent, error, by rw [hstate, hhandshake], hcompletion⟩)
      simp [slept, hreason]
  · refine Or.inl ⟨by simp only [LoopRun.closePass, hstate, hpoint], ?_⟩
    rintro ⟨unsent, error, hhandshake, hcompletion⟩
    rcases hcounted with ⟨-, -, hno⟩ | ⟨reason, hreturned, -⟩ | ⟨-, hreturned⟩
    · exact hno ⟨error, hcompletion⟩
    · exact hgoes reason hreturned
    · exact hgoes _ (congrArg Prod.fst hreturned)

/-- A step closes no pass, or one that is accounted for unless the step is a
failed write of the handshake. -/
theorem passes_step (hon : OnPass label state) (hstep : state.step input = some next) :
    (next.passes = state.passes ∧ ¬ state.HandshakeWriteFails input) ∨
      ∃ pass, next.passes = state.passes ++ [pass] ∧
        (pass.Accounted label ↔ ¬ state.HandshakeWriteFails input) := by
  obtain ⟨after, hrun, rfl⟩ := step_eq_some.mp hstep
  have houtside : (∀ point, state.loop.point ≠ .session point) →
      ¬ state.HandshakeWriteFails input := fun hno hfails => by
    obtain ⟨unsent, error, hsession, -⟩ := hfails
    exact hno _ hsession
  dsimp only
  cases loopStep_of_runPeerLoop hrun with
  | session hpoint | sessionEnded hpoint => exact passes_session hon hpoint hrun
  | begin hpoint | retry hpoint | connected hpoint =>
      simp only [LoopRun.closePass, hpoint]
      exact Or.inl ⟨trivial, houtside (by simp [hpoint])⟩
  | connectFailed hpoint =>
      have hcounted : [(.incDisconnect .clientDisconnects
          ⟨state.loop.nodeName, state.loop.peer.name, "connect_failed"⟩ : Update F64)].filterMap
            (counted label) = ["connect_failed"] := by
        rw [← hon.label_eq]
        exact counted_connectFailed state.loop.label
      simp only [LoopRun.closePass, LoopRun.failure, hpoint]
      refine Or.inr ⟨_, rfl, iff_of_true ?_ (houtside (by simp [hpoint]))⟩
      rw [accounted_of_step hon (by rw [hpoint]; trivial) ?_ (Or.inr ?_)]
      · exact hcounted
      · rintro reason ⟨⟩
        decide
      · exact hcounted
  | cancelled hcompletion hpoint =>
      have hsafe := houtside (by rcases hpoint with hpoint | ⟨deadline, hpoint⟩ <;> simp [hpoint])
      rcases hpoint with hpoint | ⟨deadline, hpoint⟩
      · simp only [LoopRun.closePass, hpoint]
        refine Or.inr ⟨_, rfl, iff_of_true ?_ hsafe⟩
        rw [accounted_of_step hon (by rw [hpoint]; trivial) (by simp) (Or.inl rfl)]
        rfl
      · simp only [LoopRun.closePass, hpoint]
        exact Or.inl ⟨trivial, hsafe⟩

/-- Every pass of a run is accounted for as long as no write of a handshake
fails, and not beyond. -/
theorem attempts_accounted_iff (peer : PeerConfig) (clientCfg : ClientConfig)
    (nodeName : String) (earlier : Metrics F64) (inputs : List (Reading F64 × Completion)) :
    (∀ state ∈ visited LoopRun.step (LoopRun.start peer clientCfg nodeName earlier) inputs,
        ∀ pass ∈ state.passes, pass.Accounted ⟨nodeName, peer.name⟩) ↔
      ∀ move ∈ taken LoopRun.step (LoopRun.start peer clientCfg nodeName earlier) inputs,
        ¬ move.1.HandshakeWriteFails move.2 := by
  refine forall_visited_iff
    (fun state : LoopRun F64 => ∀ pass ∈ state.passes, pass.Accounted ⟨nodeName, peer.name⟩)
    (fun state input => ¬ state.HandshakeWriteFails input) ?_ ?_ inputs
  · intro pass hmem
    cases hmem
  · intro state input next hreach hgood hstep
    have hon : OnPass ⟨nodeName, peer.name⟩ state :=
      hreach.invariant (OnPass ⟨nodeName, peer.name⟩)
        (onPass_start peer clientCfg nodeName earlier) fun _ _ _ hon hstep => hon.step hstep
    rcases passes_step hon hstep with ⟨hpasses, hsafe⟩ | ⟨pass, hpasses, hiff⟩
    · rw [hpasses]
      exact iff_of_true hgood hsafe
    · rw [hpasses, ← hiff]
      constructor
      · intro hall
        exact hall pass (List.mem_append_right _ (List.mem_singleton_self pass))
      · intro haccounted other hmem
        rcases List.mem_append.mp hmem with hold | hnew
        · exact hgood other hold
        · rw [List.mem_singleton.mp hnew]
          exact haccounted

end Runs

/-! ## A peer that resets the connection before the handshake -/

/-- The connect succeeds and the first write does not. -/
def resetOnConnect : List (Reading WholeSeconds × Completion) :=
  [(⟨0, ⟨0⟩⟩, .ready), (⟨0, ⟨0⟩⟩, .connected (.ok ())),
    (⟨0, ⟨0⟩⟩, .wrote (.error .connectionReset))]

/-- The pass has reached the sleep with "local_error" and has counted
nothing. -/
theorem attempts_unaccounted_after_reset :
    ¬ ∀ (inputs : List (Reading WholeSeconds × Completion)) (state : LoopRun WholeSeconds),
      run LoopRun.step (LoopRun.start ⟨"srv", "10.0.0.2", 9000⟩ ⟨1, 3, 1⟩ "cli"
        (Metrics.new WholeSeconds)) inputs = some state →
      ∀ pass ∈ state.passes, pass.Accounted ⟨"cli", "srv"⟩ := by
  intro hall
  obtain ⟨state, hrun, hview⟩ := Option.map_eq_some_iff.mp (show
    (run LoopRun.step (LoopRun.start ⟨"srv", "10.0.0.2", 9000⟩ ⟨1, 3, 1⟩ "cli"
      (Metrics.new WholeSeconds)) resetOnConnect).map (fun state =>
        state.passes.map fun pass => (pass.slept,
          disconnectsOf ⟨"cli", "srv"⟩ "local_error" pass.before,
          disconnectsOf ⟨"cli", "srv"⟩ "local_error" pass.after)) =
      some [(some "local_error", 0, 0)] by decide)
  obtain ⟨pass, hpasses, hpass⟩ := List.map_eq_singleton_iff.mp hview
  obtain ⟨hslept, hcounts⟩ := Prod.mk.inj hpass
  obtain ⟨hbefore, hafter⟩ := Prod.mk.inj hcounts
  have haccounted := hall resetOnConnect state hrun pass (by rw [hpasses]; simp)
  rw [Pass.Accounted, hslept] at haccounted
  have hone := haccounted.1 "local_error"
  rw [hbefore, hafter] at hone
  exact absurd hone (by decide)

end TcpMonitor.AttemptAccounting
