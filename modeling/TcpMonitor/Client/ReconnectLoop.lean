import TcpMonitor.Client.Session

/-!
# The reconnect loop of one peer

`run_peer_loop` as a step function between await points, around the steps of
the session it runs.  It returns only when it is cancelled; every other end of
a session leads to another attempt after the reconnect delay.
-/

namespace TcpMonitor.ReconnectLoop

open TcpMonitor.Runtime
open TcpMonitor.Configuration
open TcpMonitor.MetricFamilies
open TcpMonitor.Session

/-- Where `run_peer_loop` stands: before its first line, connecting, in a
session, asleep until it reconnects, or finished. -/
inductive LoopPoint (F64 : Type) where
  | spawned
  | connecting
  | session (point : SessionPoint F64)
  | reconnecting (deadline : Instant)
  | returned

/-- The task of one peer: the arguments it was spawned with and its point.
`ended` is a history variable, the reasons with which its sessions have
ended. -/
structure PeerLoop (F64 : Type) where
  peer : PeerConfig
  clientCfg : ClientConfig
  nodeName : String
  point : LoopPoint F64
  ended : List String

/-- The label of the sessions of a task. -/
def PeerLoop.label {F64 : Type} (loop : PeerLoop F64) : PeerLabel :=
  ⟨loop.nodeName, loop.peer.name⟩

section Step

variable {F64 : Type} [WallClock F64]

/-- A session that has started ends with a reason; a failed handshake comes
before the start. -/
def endSession (loop : PeerLoop F64) (point : SessionPoint F64) (reason : String) :
    List String :=
  if point.live.isSome then loop.ended ++ [reason] else loop.ended

/-- `run_peer_loop` from one await point to the next. -/
def runPeerLoop (loop : PeerLoop F64) (clock : Reading F64) (completion : Completion) :
    Option (PeerLoop F64 × List (Update F64)) :=
  let goto (point : LoopPoint F64) : PeerLoop F64 := { loop with point := point }
  let reconnect : LoopPoint F64 :=
    .reconnecting (clock.now + fromSecs loop.clientCfg.reconnectDelay)
  match loop.point, completion with
  | .spawned, .ready =>
      some (goto .connecting, initDisconnectLabels F64 loop.nodeName loop.peer.name)
  | .connecting, .connected (.ok ()) =>
      some (goto (.session (openSession F64 loop.nodeName)), [])
  | .connecting, .connected (.error _) =>
      some (goto reconnect,
        [.incDisconnect .clientDisconnects ⟨loop.nodeName, loop.peer.name, "connect_failed"⟩])
  | .connecting, .cancelled => some (goto .returned, [])
  | .session point, completion =>
      match runSession loop.nodeName loop.peer.name loop.clientCfg point clock completion with
      | none => none
      | some (.returned reason, updates) =>
          some ({ loop with
            point := if reason = "cancelled" then .returned else reconnect
            ended := endSession loop point reason }, updates)
      | some (point, updates) => some (goto (.session point), updates)
  | .reconnecting deadline, .elapsed =>
      if deadline ≤ clock.now then some (goto .connecting, []) else none
  | .reconnecting _, .cancelled => some (goto .returned, [])
  | _, _ => none

/-- A task that has just been spawned. -/
def spawnPeerLoop (peer : PeerConfig) (clientCfg : ClientConfig) (nodeName : String) :
    PeerLoop F64 :=
  ⟨peer, clientCfg, nodeName, .spawned, []⟩

/-- Everything a step of the loop can be: a step outside a session, a step of
the session, or its end. -/
inductive LoopStep (loop : PeerLoop F64) (clock : Reading F64) (completion : Completion) :
    PeerLoop F64 × List (Update F64) → Prop
  | begin (hpoint : loop.point = .spawned) :
      LoopStep loop clock completion
        ({ loop with point := .connecting },
          initDisconnectLabels F64 loop.nodeName loop.peer.name)
  | connected (hpoint : loop.point = .connecting) :
      LoopStep loop clock completion
        ({ loop with point := .session (openSession F64 loop.nodeName) }, [])
  | connectFailed {deadline} (hpoint : loop.point = .connecting) :
      LoopStep loop clock completion
        ({ loop with point := .reconnecting deadline },
          [.incDisconnect .clientDisconnects
            ⟨loop.nodeName, loop.peer.name, "connect_failed"⟩])
  | retry {deadline} (hpoint : loop.point = .reconnecting deadline) :
      LoopStep loop clock completion ({ loop with point := .connecting }, [])
  | cancelled (hcompletion : completion = .cancelled)
      (hpoint : loop.point = .connecting ∨ ∃ deadline, loop.point = .reconnecting deadline) :
      LoopStep loop clock completion ({ loop with point := .returned }, [])
  | session {point point' updates} (hpoint : loop.point = .session point)
      (hstep : SessionStep loop.nodeName loop.peer.name loop.clientCfg point clock completion
        (point', updates))
      (hgoes : ∀ reason, point' ≠ .returned reason) :
      LoopStep loop clock completion ({ loop with point := .session point' }, updates)
  | sessionEnded {point reason updates deadline} (hpoint : loop.point = .session point)
      (hstep : SessionStep loop.nodeName loop.peer.name loop.clientCfg point clock completion
        (.returned reason, updates)) :
      LoopStep loop clock completion
        ({ loop with
          point := if reason = "cancelled" then .returned else .reconnecting deadline
          ended := endSession loop point reason }, updates)

variable {loop : PeerLoop F64} {clock : Reading F64} {completion : Completion}
variable {after : PeerLoop F64 × List (Update F64)}

theorem loopStep_of_runPeerLoop (hstep : runPeerLoop loop clock completion = some after) :
    LoopStep loop clock completion after := by
  unfold runPeerLoop at hstep
  simp only at hstep
  split at hstep
  · next hpoint =>
      cases hstep
      exact .begin hpoint
  · next hpoint =>
      cases hstep
      exact .connected hpoint
  · next hpoint =>
      cases hstep
      exact .connectFailed hpoint
  · next hpoint =>
      cases hstep
      exact .cancelled rfl (Or.inl hpoint)
  · next hpoint =>
      split at hstep
      · cases hstep
      · next hsession =>
          cases hstep
          exact .sessionEnded hpoint (sessionStep_of_runSession hsession)
      · next hgoes hsession =>
          cases hstep
          exact .session hpoint (sessionStep_of_runSession hsession) fun reason hreason =>
            hgoes reason hreason
  · next hpoint =>
      split at hstep
      · cases hstep
        exact .retry hpoint
      · cases hstep
  · next hpoint =>
      cases hstep
      exact .cancelled rfl (Or.inr ⟨_, hpoint⟩)
  · cases hstep

/-- A task keeps the arguments it was spawned with. -/
theorem LoopStep.arguments_eq (hstep : LoopStep loop clock completion after) :
    after.1.peer = loop.peer ∧ after.1.label = loop.label := by
  cases hstep <;> exact ⟨rfl, rfl⟩

theorem LoopStep.clientCfg_eq (hstep : LoopStep loop clock completion after) :
    after.1.clientCfg = loop.clientCfg := by
  cases hstep <;> rfl

/-- A task that has returned makes no further step. -/
theorem LoopStep.not_returned (hstep : LoopStep loop clock completion after) :
    loop.point ≠ .returned := by
  intro hreturned
  cases hstep with
  | begin hpoint | connected hpoint | connectFailed hpoint | retry hpoint | session hpoint
  | sessionEnded hpoint =>
      rw [hreturned] at hpoint
      cases hpoint
  | cancelled hcompletion hpoint =>
      rw [hreturned] at hpoint
      rcases hpoint with hpoint | ⟨deadline, hpoint⟩ <;> cases hpoint

/-- A task returns only when it is cancelled. -/
theorem LoopStep.completion_of_returned (hstep : LoopStep loop clock completion after)
    (hreturned : after.1.point = .returned) : completion = .cancelled := by
  cases hstep with
  | begin | connected | connectFailed | retry | session => cases hreturned
  | cancelled hcompletion => exact hcompletion
  | sessionEnded hpoint hsession =>
      dsimp only at hreturned
      split at hreturned
      · next hreason =>
          rcases hsession.reason_cases rfl with ⟨hcompletion, -⟩ | hcounted
          · exact hcompletion
          · rw [hreason] at hcounted
            exact absurd hcounted (by decide)
      · cases hreturned

end Step

end TcpMonitor.ReconnectLoop
