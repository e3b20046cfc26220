import TcpMonitor.WholeProcess

/-!
# The deadlines that tasks set

A task keeps its deadlines at its await points.  In one step it keeps those it
has, and any other deadline lies at most one of its own settings past the clock
reading of the step.  The next heartbeat is scheduled from the last one, but
only once that one is due.
-/

namespace TcpMonitor.TimerBounds

open TcpMonitor.Runtime
open TcpMonitor.Configuration
open TcpMonitor.MetricFamilies
open TcpMonitor.Session
open TcpMonitor.ReconnectLoop
open TcpMonitor.InboundSession
open TcpMonitor.Handshake
open TcpMonitor.HeartbeatReading
open TcpMonitor.WholeProcess

/-! ## The deadlines at each point -/

section Deadlines

variable {F64 : Type}

/-- When the next heartbeat is due, and when the wait for an echo ends. -/
def sessionTimers : SessionPoint F64 → List Instant
  | .handshake _ | .returned _ => []
  | .loopHead vars | .sleeping vars | .sending vars _ _ _ => [vars.nextSend]
  | .waiting vars _ _ deadline _ => [vars.nextSend, deadline]

def loopTimers : LoopPoint F64 → List Instant
  | .session point => sessionTimers point
  | .reconnecting deadline => [deadline]
  | .spawned | .connecting | .returned => []

def driveTimers : Drive → List Instant
  | .receiving _ deadline => [deadline]
  | .loopHead | .echoing _ | .ended _ => []

def connectionTimers : Point F64 → List Instant
  | .handshake _ deadline => [deadline]
  | .driving _ _ drive => driveTimers drive
  | .accepted | .registering _ | .closed _ => []

def probeTimers : ProbePoint → List Instant
  | .draining deadline => [deadline]
  | .banner _ | .closed => []

end Deadlines

/-! ## One step of each task -/

section Steps

variable {F64 : Type} {clock : Reading F64} {completion : Completion}

theorem serve_timers {probe probe' : Probe} (hserve : probe.serve clock completion = some probe') :
    ∀ deadline ∈ probeTimers probe'.point, deadline ∈ probeTimers probe.point ∨
      deadline ≤ clock.now + fromSecs probe.idleSecs := by
  intro deadline hmem
  unfold Probe.serve at hserve
  split at hserve
  · split at hserve
    · cases hserve
    · split at hserve <;> cases hserve
      · exact Or.inr (List.mem_singleton.mp hmem).le
      · cases hmem
  · cases hserve
    cases hmem
  · split at hserve <;> cases hserve
    cases hmem
  · cases hserve
    cases hmem
  · cases hserve
    cases hmem
  · split at hserve <;> cases hserve
    exact Or.inl hmem
  · cases hserve

variable [WallClock F64]

theorem sessionStep_timers {nodeName peerName : String} {clientCfg : ClientConfig}
    {point : SessionPoint F64} {after : SessionPoint F64 × List (Update F64)}
    (hstep : SessionStep nodeName peerName clientCfg point clock completion after) :
    ∀ deadline ∈ sessionTimers after.1, deadline ∈ sessionTimers point ∨
      deadline ≤ clock.now + fromSecs clientCfg.heartbeatInterval := by
  intro deadline hmem
  have hround : ∀ vars : SessionVars F64, vars.nextSend ≤ clock.now →
      deadline ∈ sessionTimers (startRound clientCfg vars clock) →
        deadline ≤ clock.now + fromSecs clientCfg.heartbeatInterval := by
    intro vars hdue hround
    rw [List.mem_singleton.mp hround]
    exact Nat.add_le_add_right hdue _
  cases hstep with
  | handshakePart | handshakeError | writeError | readError | cancelled => cases hmem
  | established =>
      rw [List.mem_singleton.mp hmem]
      exact Or.inr (Nat.le_add_right _ _)
  | sleep | sendPart | readPart => exact Or.inl hmem
  | due hdue | wake hdue => exact Or.inr (hround _ hdue hmem)
  | sent =>
      rcases List.mem_pair.mp hmem with rfl | rfl
      · exact Or.inl List.mem_cons_self
      · exact Or.inr le_rfl
  | @deadline vars sentSeq sendTs deadline gotEcho clock hdue =>
      rcases endWait_cases clientCfg vars gotEcho clock with
        ⟨-, heq⟩ | ⟨-, -, heq⟩ | ⟨-, -, heq⟩
      · rw [heq] at hmem
        rw [List.mem_singleton.mp hmem]
        exact Or.inl List.mem_cons_self
      · rw [heq] at hmem
        exact Or.inr (List.mem_singleton.mp hmem).le
      · rw [heq] at hmem
        cases hmem
  | @echo vars sentSeq sendTs deadline gotEcho clock outcome echoes echo hread =>
      rcases readEcho_cases { vars with echoes := echoes } sentSeq sendTs deadline clock echo with
        ⟨-, heq⟩ | ⟨-, heq⟩
      · rw [heq] at hmem
        rw [List.mem_singleton.mp hmem]
        exact Or.inl List.mem_cons_self
      · rw [heq] at hmem
        exact Or.inl hmem

/-- A peer task waits for a heartbeat interval or for the reconnect delay. -/
theorem runPeerLoop_timers {loop loop' : PeerLoop F64} {updates : List (Update F64)}
    (hrun : runPeerLoop loop clock completion = some (loop', updates)) :
    ∀ deadline ∈ loopTimers loop'.point, deadline ∈ loopTimers loop.point ∨
      deadline ≤ clock.now + fromSecs loop.clientCfg.heartbeatInterval ∨
        deadline ≤ clock.now + fromSecs loop.clientCfg.reconnectDelay := by
  intro deadline hmem
  unfold runPeerLoop at hrun
  simp only at hrun
  split at hrun
  · cases hrun
    cases hmem
  · cases hrun
    cases hmem
  · cases hrun
    exact Or.inr (Or.inr (List.mem_singleton.mp hmem).le)
  · cases hrun
    cases hmem
  · next point completion hpoint =>
      split at hrun
      · cases hrun
      · cases hrun
        dsimp only at hmem
        split at hmem
        · cases hmem
        · exact Or.inr (Or.inr (List.mem_singleton.mp hmem).le)
      · next hsession =>
          cases hrun
          rw [hpoint]
          exact (sessionStep_timers (sessionStep_of_runSession hsession) deadline hmem).imp_right
            Or.inl
  · split at hrun <;> cases hrun
    cases hmem
  · cases hrun
    cases hmem
  · cases hrun

theorem driveSession_timers {timeout : UInt64} {label : PeerLabel} {startTs : F64}
    {drive drive' : Drive} {updates : List (Update F64)}
    (hdrive : driveSession timeout label startTs drive clock completion =
      some (drive', updates)) :
    ∀ deadline ∈ driveTimers drive', deadline ∈ driveTimers drive ∨
      deadline ≤ clock.now + fromSecs timeout := by
  intro deadline hmem
  unfold driveSession at hdrive
  split at hdrive
  · cases hdrive
    exact Or.inr (List.mem_singleton.mp hmem).le
  · split at hdrive <;> cases hdrive
    cases hmem
  · split at hdrive <;> cases hdrive
    · exact Or.inl hmem
    · cases hmem
    · cases hmem
  · split at hdrive
    · cases hdrive
    · split at hdrive <;> cases hdrive <;> cases hmem
  · cases hdrive
    cases hmem
  · cases hdrive

/-- A connection waits for its handshake or for a heartbeat. -/
theorem handleConnection_timers [UnicodeTables] {nodeName : String} {peers peers' : ServerPeers}
    {connection connection' : Connection F64} {updates : List (Update F64)}
    (hhandle : handleConnection nodeName peers connection clock completion =
      some (peers', connection', updates)) :
    ∀ deadline ∈ connectionTimers connection'.point,
      deadline ∈ connectionTimers connection.point ∨
        deadline ≤ clock.now + fromSecs handshakeTimeoutSecs ∨
          deadline ≤ clock.now + fromSecs connection.heartbeatRecvTimeout := by
  intro deadline hmem
  unfold handleConnection at hhandle
  simp only at hhandle
  split at hhandle
  · cases hhandle
    exact Or.inr (Or.inl (List.mem_singleton.mp hmem).le)
  · split at hhandle <;> cases hhandle
    cases hmem
  · next hpoint =>
      split at hhandle <;> cases hhandle
      · rw [hpoint]
        exact Or.inl hmem
      · cases hmem
      · cases hmem
  · split at hhandle <;> cases hhandle <;> cases hmem
  · next hpoint =>
      split at hhandle
      · cases hhandle
      · cases hhandle
        cases hmem
      · next hdrive =>
          cases hhandle
          rw [hpoint]
          exact (driveSession_timers hdrive deadline hmem).imp_right Or.inr
  · cases hhandle

end Steps

end TcpMonitor.TimerBounds
