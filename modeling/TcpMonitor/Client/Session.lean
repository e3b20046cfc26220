import TcpMonitor.Configuration
import TcpMonitor.MetricFamilies
import TcpMonitor.Protocol.Handshake
import TcpMonitor.Protocol.HeartbeatReading

/-!
# One outbound session

`run_session` as a step function between await points, in the same form as the
inbound connection.  The two writes of the handshake are one sequence of bytes.
One reader serves the whole session, and a wait that is cut off by its deadline
or by a stale echo keeps it.
-/

namespace TcpMonitor.Session

open TcpMonitor.Runtime
open TcpMonitor.Configuration
open TcpMonitor.MetricFamilies
open TcpMonitor.HeartbeatPacket
open TcpMonitor.HeartbeatReading
open TcpMonitor.Handshake

/-- The variables that live across the rounds of `run_session`. -/
structure SessionVars (F64 : Type) where
  label : PeerLabel
  startTs : F64
  seq : UInt64
  consecutiveMissed : ℤ
  nextSend : Instant
  echoes : HeartbeatReader

/-- Where `run_session` stands: writing the handshake, at the head of its loop,
asleep until the next heartbeat is due, writing a heartbeat, waiting for its
echo, or finished. -/
inductive SessionPoint (F64 : Type) where
  | handshake (unsent : List UInt8)
  | loopHead (vars : SessionVars F64)
  | sleeping (vars : SessionVars F64)
  | sending (vars : SessionVars F64) (sentSeq : UInt64) (sendTs : F64) (unsent : List UInt8)
  | waiting (vars : SessionVars F64) (sentSeq : UInt64) (sendTs : F64) (deadline : Instant)
      (gotEcho : Bool)
  | returned (reason : String)

/-- The variables of a session at a point where a cancellation can reach it. -/
def SessionPoint.interruptible {F64 : Type} : SessionPoint F64 → Option (SessionVars F64)
  | .sleeping vars | .sending vars _ _ _ | .waiting vars _ _ _ _ => some vars
  | .handshake _ | .loopHead _ | .returned _ => none

/-- The variables of a session that has started and not ended. -/
def SessionPoint.live {F64 : Type} : SessionPoint F64 → Option (SessionVars F64)
  | .loopHead vars | .sleeping vars | .sending vars _ _ _ | .waiting vars _ _ _ _ => some vars
  | .handshake _ | .returned _ => none

theorem SessionPoint.live_of_interruptible {F64 : Type} {point : SessionPoint F64}
    {vars : SessionVars F64} (hpoint : point.interruptible = some vars) :
    point.live = some vars := by
  cases point with
  | sleeping | sending | waiting => exact hpoint
  | handshake | loopHead | returned => cases hpoint

/-- `classify_io_error`. -/
def classifyIoError : ErrorKind → String
  | .connectionReset => "connection_reset"
  | .unexpectedEof | .brokenPipe => "remote_close"
  | _ => "local_error"

section Updates

variable {F64 : Type}

/-- `record_session_start`. -/
def recordSessionStart (label : PeerLabel) (startTs : F64) : List (Update F64) :=
  [.setGauge .clientSessionActive label 1,
    .setFloat .clientSessionStart label startTs,
    .incCounter .clientSessionsTotal label,
    .setGauge .clientConsecutiveMissed label 0]

/-- `record_echo`. -/
def recordEcho [WallClock F64] (label : PeerLabel) (startTs nowTs : F64)
    (sendTs : Option F64) : List (Update F64) :=
  [.incCounter .clientHeartbeatsRx label,
    .setGauge .clientConsecutiveMissed label 0,
    .setFloat .clientLastHeartbeat label nowTs,
    .setFloat .clientSessionDuration label (nowTs - startTs)] ++
  match sendTs with
  | none => []
  | some sendTs => [.setFloat .clientRtt label (nowTs - sendTs)]

/-- The updates after the loop. -/
def sessionEnd (label : PeerLabel) (duration : F64) (reason : String) : List (Update F64) :=
  [.setGauge .clientSessionActive label 0,
    .setFloat .clientSessionDuration label duration] ++
  if reason ≠ "cancelled" then
    [.incDisconnect .clientDisconnects ⟨label.node, label.peer, reason⟩]
  else []

/-- The updates of a round without any echo. -/
def recordMiss (label : PeerLabel) (consecutiveMissed : ℤ) : List (Update F64) :=
  [.incCounter .clientHeartbeatsMissed label,
    .setGauge .clientConsecutiveMissed label consecutiveMissed]

end Updates

section Step

variable {F64 : Type} [WallClock F64]

/-- The loop is left with `reason`. -/
def breakSession (vars : SessionVars F64) (clock : Reading F64) (reason : String) :
    SessionPoint F64 × List (Update F64) :=
  (.returned reason, sessionEnd vars.label (clock.wall - vars.startTs) reason)

/-- From the moment the next heartbeat is due to the write of it. -/
def startRound (clientCfg : ClientConfig) (vars : SessionVars F64) (clock : Reading F64) :
    SessionPoint F64 :=
  .sending { vars with nextSend := vars.nextSend + fromSecs clientCfg.heartbeatInterval }
    vars.seq clock.wall (encodePacket vars.seq (WallClock.toBits clock.wall)).val

/-- The deadline of a round has passed. -/
def endWait (clientCfg : ClientConfig) (vars : SessionVars F64) (gotEcho : Bool)
    (clock : Reading F64) : SessionPoint F64 × List (Update F64) :=
  if gotEcho then (.loopHead vars, [])
  else
    let missed := vars.consecutiveMissed + 1
    let vars := { vars with consecutiveMissed := missed }
    if missed ≥ (clientCfg.maxMisses.toNat : ℤ) then
      let (point, updates) := breakSession vars clock "timeout"
      (point, recordMiss vars.label missed ++ updates)
    else
      -- the next heartbeat fires after a full interval
      (.loopHead { vars with
        nextSend := clock.now + fromSecs clientCfg.heartbeatInterval },
        recordMiss vars.label missed)

/-- An echo was read; only the one that matches ends the wait. -/
def readEcho (vars : SessionVars F64) (sentSeq : UInt64) (sendTs : F64) (deadline : Instant)
    (clock : Reading F64) (echo : Heartbeat) : SessionPoint F64 × List (Update F64) :=
  let vars := { vars with consecutiveMissed := 0 }
  if echo.seq = sentSeq then
    (.loopHead vars, recordEcho vars.label vars.startTs clock.wall (some sendTs))
  else
    (.waiting vars sentSeq sendTs deadline true,
      recordEcho vars.label vars.startTs clock.wall none)

/-- `run_session` from one await point to the next. -/
def runSession (nodeName peerName : String) (clientCfg : ClientConfig)
    (point : SessionPoint F64) (clock : Reading F64) (completion : Completion) :
    Option (SessionPoint F64 × List (Update F64)) :=
  match point, completion with
  | .handshake unsent, .wrote (.ok count) =>
      if count = 0 ∨ unsent.length < count then none
      else if count = unsent.length then
        let label : PeerLabel := ⟨nodeName, peerName⟩
        some (.loopHead ⟨label, clock.wall, 0, 0, clock.now, HeartbeatReader.new⟩,
          recordSessionStart label clock.wall)
      else some (.handshake (unsent.drop count), [])
  | .handshake _, .wrote (.error _) => some (.returned "local_error", [])
  | .loopHead vars, .ready =>
      if vars.nextSend > clock.now then some (.sleeping vars, [])
      else some (startRound clientCfg vars clock, [])
  | .sleeping vars, .elapsed =>
      if vars.nextSend ≤ clock.now then some (startRound clientCfg vars clock, []) else none
  | .sleeping vars, .cancelled => some (breakSession vars clock "cancelled")
  | .sending vars sentSeq sendTs unsent, .wrote (.ok count) =>
      if count = 0 ∨ unsent.length < count then none
      else if count = unsent.length then
        some (.waiting { vars with seq := vars.seq + 1 } sentSeq sendTs
            (clock.now + fromSecs clientCfg.heartbeatInterval) false,
          [.incCounter .clientHeartbeatsSent vars.label])
      else some (.sending vars sentSeq sendTs (unsent.drop count), [])
  | .sending vars _ _ _, .wrote (.error error) =>
      some (breakSession vars clock (classifyIoError error))
  | .sending vars _ _ _, .cancelled => some (breakSession vars clock "cancelled")
  | .waiting vars _ _ deadline gotEcho, .elapsed =>
      if deadline ≤ clock.now then some (endWait clientCfg vars gotEcho clock) else none
  | .waiting vars sentSeq sendTs deadline gotEcho, .read outcome =>
      match vars.echoes.recvRead outcome with
      | none => none
      | some (echoes, .reading) =>
          some (.waiting { vars with echoes := echoes } sentSeq sendTs deadline gotEcho, [])
      | some (_, .returned (.error error)) =>
          some (breakSession vars clock (classifyIoError error))
      | some (echoes, .returned (.ok echo)) =>
          some (readEcho { vars with echoes := echoes } sentSeq sendTs deadline clock echo)
  | .waiting vars _ _ _ _, .cancelled => some (breakSession vars clock "cancelled")
  | _, _ => none

/-- `run_session` before its first write. -/
def openSession (F64 : Type) (nodeName : String) : SessionPoint F64 :=
  .handshake (sendHandshake nodeName)

/-- Everything a step of the session can be. -/
inductive SessionStep (nodeName peerName : String) (clientCfg : ClientConfig) :
    SessionPoint F64 → Reading F64 → Completion → SessionPoint F64 × List (Update F64) → Prop
  | handshakePart {unsent clock count} (hcount : 0 < count ∧ count < unsent.length) :
      SessionStep nodeName peerName clientCfg (.handshake unsent) clock (.wrote (.ok count))
        (.handshake (unsent.drop count), [])
  | established {unsent clock} (hunsent : unsent ≠ []) :
      SessionStep nodeName peerName clientCfg (.handshake unsent) clock
        (.wrote (.ok unsent.length))
        (.loopHead ⟨⟨nodeName, peerName⟩, clock.wall, 0, 0, clock.now, HeartbeatReader.new⟩,
          recordSessionStart ⟨nodeName, peerName⟩ clock.wall)
  | handshakeError {unsent clock error} :
      SessionStep nodeName peerName clientCfg (.handshake unsent) clock (.wrote (.error error))
        (.returned "local_error", [])
  | sleep {vars clock} (hearly : clock.now < vars.nextSend) :
      SessionStep nodeName peerName clientCfg (.loopHead vars) clock .ready (.sleeping vars, [])
  | due {vars clock} (hdue : vars.nextSend ≤ clock.now) :
      SessionStep nodeName peerName clientCfg (.loopHead vars) clock .ready
        (startRound clientCfg vars clock, [])
  | wake {vars clock} (hdue : vars.nextSend ≤ clock.now) :
      SessionStep nodeName peerName clientCfg (.sleeping vars) clock .elapsed
        (startRound clientCfg vars clock, [])
  | sendPart {vars sentSeq sendTs unsent clock count}
      (hcount : 0 < count ∧ count < unsent.length) :
      SessionStep nodeName peerName clientCfg (.sending vars sentSeq sendTs unsent) clock
        (.wrote (.ok count)) (.sending vars sentSeq sendTs (unsent.drop count), [])
  | sent {vars sentSeq sendTs unsent clock} (hunsent : unsent ≠ []) :
      SessionStep nodeName peerName clientCfg (.sending vars sentSeq sendTs unsent) clock
        (.wrote (.ok unsent.length))
        (.waiting { vars with seq := vars.seq + 1 } sentSeq sendTs
            (clock.now + fromSecs clientCfg.heartbeatInterval) false,
          [.incCounter .clientHeartbeatsSent vars.label])
  | writeError {vars sentSeq sendTs unsent clock error} :
      SessionStep nodeName peerName clientCfg (.sending vars sentSeq sendTs unsent) clock
        (.wrote (.error error)) (breakSession vars clock (classifyIoError error))
  | deadline {vars sentSeq sendTs deadline gotEcho clock} (hdue : deadline ≤ clock.now) :
      SessionStep nodeName peerName clientCfg (.waiting vars sentSeq sendTs deadline gotEcho)
        clock .elapsed (endWait clientCfg vars gotEcho clock)
  | readPart {vars sentSeq sendTs deadline gotEcho clock outcome echoes}
      (hread : vars.echoes.recvRead outcome = some (echoes, .reading)) :
      SessionStep nodeName peerName clientCfg (.waiting vars sentSeq sendTs deadline gotEcho)
        clock (.read outcome)
        (.waiting { vars with echoes := echoes } sentSeq sendTs deadline gotEcho, [])
  | readError {vars sentSeq sendTs deadline gotEcho clock outcome echoes error}
      (hread : vars.echoes.recvRead outcome = some (echoes, .returned (.error error))) :
      SessionStep nodeName peerName clientCfg (.waiting vars sentSeq sendTs deadline gotEcho)
        clock (.read outcome) (breakSession vars clock (classifyIoError error))
  | echo {vars sentSeq sendTs deadline gotEcho clock outcome echoes echo}
      (hread : vars.echoes.recvRead outcome = some (echoes, .returned (.ok echo))) :
      SessionStep nodeName peerName clientCfg (.waiting vars sentSeq sendTs deadline gotEcho)
        clock (.read outcome)
        (readEcho { vars with echoes := echoes } sentSeq sendTs deadline clock echo)
  | cancelled {point vars clock} (hpoint : point.interruptible = some vars) :
      SessionStep nodeName peerName clientCfg point clock .cancelled
        (breakSession vars clock "cancelled")

theorem sessionStep_of_runSession {nodeName peerName : String} {clientCfg : ClientConfig}
    {point : SessionPoint F64} {clock : Reading F64} {completion : Completion}
    {after : SessionPoint F64 × List (Update F64)}
    (hstep : runSession nodeName peerName clientCfg point clock completion = some after) :
    SessionStep nodeName peerName clientCfg point clock completion after := by
  unfold runSession at hstep
  split at hstep
  · next unsent count =>
      split at hstep
      · cases hstep
      · next hvalid =>
          split at hstep
          · next hall =>
              subst hall
              cases hstep
              exact .established (List.ne_nil_of_length_pos (by omega))
          · cases hstep
            exact .handshakePart (by omega)
  · cases hstep
    exact .handshakeError
  · split at hstep
    · next hearly =>
        cases hstep
        exact .sleep hearly
    · next hdue =>
        cases hstep
        exact .due (Nat.le_of_not_lt hdue)
  · split at hstep
    · next hdue =>
        cases hstep
        exact .wake hdue
    · cases hstep
  · cases hstep
    exact .cancelled rfl
  · next vars sentSeq sendTs unsent count =>
      split at hstep
      · cases hstep
      · next hvalid =>
          split at hstep
          · next hall =>
              subst hall
              cases hstep
              exact .sent (List.ne_nil_of_length_pos (by omega))
          · cases hstep
            exact .sendPart (by omega)
  · cases hstep
    exact .writeError
  · cases hstep
    exact .cancelled rfl
  · split at hstep
    · next hdue =>
        cases hstep
        exact .deadline hdue
    · cases hstep
  · split at hstep
    · cases hstep
    · next hread =>
        cases hstep
        exact .readPart hread
    · next hread =>
        cases hstep
        exact .readError hread
    · next hread =>
        cases hstep
        exact .echo hread
  · cases hstep
    exact .cancelled rfl
  · cases hstep

section Lemmas

variable {nodeName peerName : String} {clientCfg : ClientConfig} {point : SessionPoint F64}
variable {clock : Reading F64} {completion : Completion}
variable {after : SessionPoint F64 × List (Update F64)}

/-- A wait that passes its deadline goes on after an echo.  Without one it is
recorded as a miss, and the session goes on after a full interval or, at the
limit, times out. -/
theorem endWait_cases (clientCfg : ClientConfig) (vars : SessionVars F64) (gotEcho : Bool)
    (clock : Reading F64) :
    (gotEcho = true ∧ endWait clientCfg vars gotEcho clock = (.loopHead vars, [])) ∨
      (gotEcho = false ∧ vars.consecutiveMissed + 1 < (clientCfg.maxMisses.toNat : ℤ) ∧
        endWait clientCfg vars gotEcho clock =
          (.loopHead { vars with
              consecutiveMissed := vars.consecutiveMissed + 1
              nextSend := clock.now + fromSecs clientCfg.heartbeatInterval },
            recordMiss vars.label (vars.consecutiveMissed + 1))) ∨
      (gotEcho = false ∧ (clientCfg.maxMisses.toNat : ℤ) ≤ vars.consecutiveMissed + 1 ∧
        endWait clientCfg vars gotEcho clock =
          (.returned "timeout", recordMiss vars.label (vars.consecutiveMissed + 1) ++
            (breakSession vars clock "timeout").2)) := by
  cases gotEcho with
  | true => exact Or.inl ⟨rfl, rfl⟩
  | false =>
      right
      by_cases hlimit : (clientCfg.maxMisses.toNat : ℤ) ≤ vars.consecutiveMissed + 1
      · refine Or.inr ⟨rfl, hlimit, ?_⟩
        simp only [endWait, ge_iff_le, hlimit, if_true, Bool.false_eq_true, if_false, breakSession]
      · refine Or.inl ⟨rfl, Int.lt_of_not_ge hlimit, ?_⟩
        simp only [endWait, ge_iff_le, hlimit, Bool.false_eq_true, if_false]

/-- An echo that matches ends the wait, any other one does not. -/
theorem readEcho_cases (vars : SessionVars F64) (sentSeq : UInt64) (sendTs : F64)
    (deadline : Instant) (clock : Reading F64) (echo : Heartbeat) :
    (echo.seq = sentSeq ∧ readEcho vars sentSeq sendTs deadline clock echo =
        (.loopHead { vars with consecutiveMissed := 0 },
          recordEcho vars.label vars.startTs clock.wall (some sendTs))) ∨
      (echo.seq ≠ sentSeq ∧ readEcho vars sentSeq sendTs deadline clock echo =
        (.waiting { vars with consecutiveMissed := 0 } sentSeq sendTs deadline true,
          recordEcho vars.label vars.startTs clock.wall none)) := by
  by_cases hmatch : echo.seq = sentSeq
  · exact Or.inl ⟨hmatch, if_pos hmatch⟩
  · exact Or.inr ⟨hmatch, if_neg hmatch⟩

/-- The end of a wait keeps the label of the session. -/
theorem live_endWait {vars vars' : SessionVars F64} {gotEcho : Bool}
    (hlive : (endWait clientCfg vars gotEcho clock).1.live = some vars') :
    vars'.label = vars.label := by
  rcases endWait_cases clientCfg vars gotEcho clock with ⟨-, heq⟩ | ⟨-, -, heq⟩ | ⟨-, -, heq⟩
  · rw [heq] at hlive
    cases hlive
    rfl
  · rw [heq] at hlive
    cases hlive
    rfl
  · rw [heq] at hlive
    cases hlive

theorem live_readEcho {vars vars' : SessionVars F64} {sentSeq : UInt64} {sendTs : F64}
    {deadline : Instant} {echo : Heartbeat}
    (hlive : (readEcho vars sentSeq sendTs deadline clock echo).1.live = some vars') :
    vars'.label = vars.label := by
  rcases readEcho_cases vars sentSeq sendTs deadline clock echo with ⟨-, heq⟩ | ⟨-, heq⟩
  · rw [heq] at hlive
    cases hlive
    rfl
  · rw [heq] at hlive
    cases hlive
    rfl

/-- The reason a session returns: "cancelled" if and only if it was cancelled,
and otherwise one of the four that are counted as disconnects. -/
theorem SessionStep.reason_cases {reason : String}
    (hstep : SessionStep nodeName peerName clientCfg point clock completion after)
    (hreason : after.1 = .returned reason) :
    (completion = .cancelled ∧ reason = "cancelled") ∨
      reason ∈ ["remote_close", "connection_reset", "timeout", "local_error"] := by
  have herror : ∀ error, classifyIoError error ∈
      ["remote_close", "connection_reset", "timeout", "local_error"] := by
    intro error
    cases error <;> decide
  cases hstep with
  | handshakePart | established | sleep | due | wake | sendPart | sent | readPart =>
      cases hreason
  | handshakeError =>
      cases hreason
      exact Or.inr (by decide)
  | writeError | readError =>
      cases hreason
      exact Or.inr (herror _)
  | @deadline vars sentSeq sendTs deadline gotEcho clock hdue =>
      rcases endWait_cases clientCfg vars gotEcho clock with
        ⟨-, heq⟩ | ⟨-, -, heq⟩ | ⟨-, -, heq⟩
      · rw [heq] at hreason
        cases hreason
      · rw [heq] at hreason
        cases hreason
      · rw [heq] at hreason
        cases hreason
        exact Or.inr (by decide)
  | @echo vars sentSeq sendTs deadline gotEcho clock outcome echoes echo hread =>
      rcases readEcho_cases { vars with echoes := echoes } sentSeq sendTs deadline clock echo with
        ⟨-, heq⟩ | ⟨-, heq⟩
      · rw [heq] at hreason
        cases hreason
      · rw [heq] at hreason
        cases hreason
  | cancelled =>
      cases hreason
      exact Or.inl ⟨rfl, rfl⟩

/-- What is left of a handshake only gets shorter, and a session never goes back
to it. -/
theorem SessionStep.handshake_suffix {unsent' : List UInt8}
    (hstep : SessionStep nodeName peerName clientCfg point clock completion after)
    (hafter : after.1 = .handshake unsent') :
    ∃ unsent, point = .handshake unsent ∧ unsent' <:+ unsent := by
  cases hstep with
  | handshakePart =>
      cases hafter
      exact ⟨_, rfl, List.drop_suffix _ _⟩
  | established | handshakeError | sleep | due | wake | sendPart | sent | writeError | readPart
  | readError | cancelled => cases hafter
  | @deadline vars sentSeq sendTs deadline gotEcho clock hdue =>
      rcases endWait_cases clientCfg vars gotEcho clock with
        ⟨-, heq⟩ | ⟨-, -, heq⟩ | ⟨-, -, heq⟩ <;>
      · rw [heq] at hafter
        cases hafter
  | @echo vars sentSeq sendTs deadline gotEcho clock outcome echoes echo hread =>
      rcases readEcho_cases { vars with echoes := echoes } sentSeq sendTs deadline clock echo with
        ⟨-, heq⟩ | ⟨-, heq⟩ <;>
      · rw [heq] at hafter
        cases hafter

/-- A session keeps its label. -/
theorem SessionStep.label_eq (hstep : SessionStep nodeName peerName clientCfg point clock
      completion after)
    (hlabel : ∀ vars, point.live = some vars → vars.label = ⟨nodeName, peerName⟩) :
    ∀ vars, after.1.live = some vars → vars.label = ⟨nodeName, peerName⟩ := by
  intro vars' hlive
  cases hstep with
  | handshakePart | handshakeError | writeError | readError | cancelled => cases hlive
  | established =>
      cases hlive
      rfl
  | sleep | sendPart => exact hlabel vars' hlive
  | due | wake | sent | readPart =>
      have hold := hlabel _ rfl
      cases hlive
      exact hold
  | deadline =>
      have hold := hlabel _ rfl
      exact (live_endWait hlive).trans hold
  | echo =>
      have hold := hlabel _ rfl
      exact (live_readEcho hlive).trans hold

end Lemmas

end Step

end TcpMonitor.Session
