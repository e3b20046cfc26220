import TcpMonitor.MetricFamilies
import TcpMonitor.Protocol.Handshake
import TcpMonitor.Protocol.HeartbeatReading

/-!
# One inbound connection

`handle_connection` and `drive_session` as step functions between await points.
A step takes the readings of the clocks and what the awaited operation
completed with, and returns the metric updates of the straight-line code it
runs, in program order.  A completion that the await point cannot have yields
`none`: a timer that has not expired, a read longer than the slice it was
offered, a write of no bytes.
-/

namespace TcpMonitor.InboundSession

open TcpMonitor.Runtime
open TcpMonitor.MetricFamilies
open TcpMonitor.HeartbeatPacket
open TcpMonitor.HeartbeatReading
open TcpMonitor.Handshake

/-- Seconds a new heartbeat connection has to send its handshake. -/
def handshakeTimeoutSecs : UInt64 := 5

/-! ## The echo loop -/

/-- Where `drive_session` stands: at the head of its loop, in the read wrapped
by the timeout, in `write_all` with bytes still to write, or finished. -/
inductive Drive where
  | loopHead
  | receiving (reader : HeartbeatReader) (deadline : Instant)
  | echoing (unsent : List UInt8)
  | ended (reason : String)
  deriving DecidableEq

/-- The reason a read error ends the session with. -/
def readErrorReason : ErrorKind → String
  | .connectionReset => "connection_reset"
  | .unexpectedEof | .brokenPipe => "remote_close"
  | _ => "local_error"

/-- The reason a write error ends the session with. -/
def writeErrorReason : ErrorKind → String
  | .brokenPipe | .connectionReset => "connection_reset"
  | _ => "local_error"

section Drive

variable {F64 : Type} [WallClock F64]

/-- The updates for one decoded heartbeat. -/
def heartbeatUpdates (label : PeerLabel) (startTs now : F64) : List (Update F64) :=
  [.incCounter .serverHeartbeatsRx label,
    .setFloat .serverLastHeartbeat label now,
    .setFloat .serverSessionDuration label (now - startTs)]

/-- `drive_session` from one await point to the next.  Each packet is read with
a fresh reader. -/
def driveSession (heartbeatRecvTimeout : UInt64) (label : PeerLabel) (startTs : F64)
    (drive : Drive) (clock : Reading F64) (completion : Completion) :
    Option (Drive × List (Update F64)) :=
  match drive, completion with
  | .loopHead, .ready =>
      some (.receiving HeartbeatReader.new (clock.now + fromSecs heartbeatRecvTimeout), [])
  | .receiving _ deadline, .elapsed =>
      if deadline ≤ clock.now then some (.ended "timeout", []) else none
  | .receiving reader deadline, .read outcome =>
      match reader.recvRead outcome with
      | none => none
      | some (next, .reading) => some (.receiving next deadline, [])
      | some (_, .returned (.error error)) => some (.ended (readErrorReason error), [])
      | some (_, .returned (.ok heartbeat)) =>
          some (.echoing (encodePacket heartbeat.seq heartbeat.timestamp).val,
            heartbeatUpdates label startTs clock.wall)
  | .echoing unsent, .wrote (.ok count) =>
      if count = 0 ∨ unsent.length < count then none
      else if count = unsent.length then some (.loopHead, [])
      else some (.echoing (unsent.drop count), [])
  | .echoing _, .wrote (.error error) => some (.ended (writeErrorReason error), [])
  | _, _ => none

variable {heartbeatRecvTimeout : UInt64} {label : PeerLabel} {startTs : F64}
variable {drive drive' : Drive} {clock : Reading F64} {completion : Completion}
variable {updates : List (Update F64)}

theorem readErrorReason_mem (error : ErrorKind) :
    readErrorReason error ∈ serverDisconnectReasons := by
  cases error <;> decide

theorem writeErrorReason_mem (error : ErrorKind) :
    writeErrorReason error ∈ serverDisconnectReasons := by
  cases error <;> decide

/-- A step of the echo loop makes no update, or those of one heartbeat; a step
that ends the session makes none and gives one of the listed reasons. -/
theorem driveSession_updates
    (hstep : driveSession heartbeatRecvTimeout label startTs drive clock completion =
      some (drive', updates)) :
    (updates = [] ∨ updates = heartbeatUpdates label startTs clock.wall) ∧
      ∀ reason, drive' = .ended reason → updates = [] ∧ reason ∈ serverDisconnectReasons := by
  have htimeout : "timeout" ∈ serverDisconnectReasons := by decide
  unfold driveSession at hstep
  split at hstep
  · cases hstep
    exact ⟨Or.inl rfl, by simp⟩
  · split at hstep <;> cases hstep
    exact ⟨Or.inl rfl, fun reason hended => ⟨rfl, Drive.ended.inj hended ▸ htimeout⟩⟩
  · split at hstep <;> cases hstep
    · exact ⟨Or.inl rfl, by simp⟩
    · exact ⟨Or.inl rfl, fun reason hended =>
        ⟨rfl, Drive.ended.inj hended ▸ readErrorReason_mem _⟩⟩
    · exact ⟨Or.inr rfl, by simp⟩
  · split at hstep
    · cases hstep
    · split at hstep <;> cases hstep <;> exact ⟨Or.inl rfl, by simp⟩
  · cases hstep
    exact ⟨Or.inl rfl, fun reason hended =>
      ⟨rfl, Drive.ended.inj hended ▸ writeErrorReason_mem _⟩⟩
  · cases hstep

end Drive

/-! ## The connection -/

/-- How `handle_connection` ended. -/
inductive Closed where
  | handshakeFailed
  | refused
  | ended (reason : String)
  deriving DecidableEq

/-- Where `handle_connection` stands. -/
inductive Point (F64 : Type) where
  | accepted
  | handshake (reader : HandshakeReader) (deadline : Instant)
  | registering (peerName : String)
  | driving (label : PeerLabel) (startTs : F64) (drive : Drive)
  | closed (outcome : Closed)

/-- The task of one connection, with the receive timeout it was accepted
with. -/
structure Connection (F64 : Type) where
  heartbeatRecvTimeout : UInt64
  point : Point F64

section Handle

variable {F64 : Type}

/-- The updates between a successful registration and the echo loop. -/
def startUpdates (label : PeerLabel) (startTs : F64) : List (Update F64) :=
  initDisconnectLabels F64 label.node label.peer ++
    [.setGauge .serverSessionActive label 1,
      .setFloat .serverSessionStart label startTs,
      .incCounter .serverSessionsTotal label]

/-- The updates after the echo loop. -/
def endUpdates (label : PeerLabel) (duration : F64) (reason : String) : List (Update F64) :=
  [.setGauge .serverSessionActive label 0,
    .setFloat .serverSessionDuration label duration,
    .incDisconnect .serverDisconnects ⟨label.node, label.peer, reason⟩]

variable [UnicodeTables] [WallClock F64]

/-- `handle_connection` from one await point to the next; registering the peer
is a step of its own because it uses the shared set. -/
def handleConnection (nodeName : String) (peers : ServerPeers) (connection : Connection F64)
    (clock : Reading F64) (completion : Completion) :
    Option (ServerPeers × Connection F64 × List (Update F64)) :=
  let goto (point : Point F64) : Connection F64 := { connection with point := point }
  match connection.point, completion with
  | .accepted, .ready =>
      some (peers,
        goto (.handshake readHandshake (clock.now + fromSecs handshakeTimeoutSecs)), [])
  | .handshake _ deadline, .elapsed =>
      if deadline ≤ clock.now then some (peers, goto (.closed .handshakeFailed), []) else none
  | .handshake reader deadline, .read outcome =>
      match reader.onRead outcome with
      | none => none
      | some (.reading next) => some (peers, goto (.handshake next deadline), [])
      | some (.returned (.error _)) => some (peers, goto (.closed .handshakeFailed), [])
      | some (.returned (.ok peerName)) => some (peers, goto (.registering peerName), [])
  | .registering peerName, .ready =>
      match peers.tryRegister peerName with
      | (false, peers) => some (peers, goto (.closed .refused), [])
      | (true, peers) =>
          let label : PeerLabel := ⟨nodeName, peerName⟩
          some (peers, goto (.driving label clock.wall .loopHead),
            startUpdates label clock.wall)
  | .driving label startTs drive, completion =>
      match driveSession connection.heartbeatRecvTimeout label startTs drive clock completion with
      | none => none
      | some (.ended reason, updates) =>
          some (peers, goto (.closed (.ended reason)),
            updates ++ endUpdates label (clock.wall - startTs) reason)
      | some (drive, updates) => some (peers, goto (.driving label startTs drive), updates)
  | _, _ => none

variable {nodeName : String} {peers peers' : ServerPeers}
variable {connection connection' : Connection F64} {clock : Reading F64}
variable {completion : Completion} {updates : List (Update F64)}

/-- A connection that has not registered its peer yet. -/
def Point.BeforeSession : Point F64 → Prop
  | .accepted | .handshake _ _ | .registering _ => True
  | _ => False

/-- A connection that was closed without a session. -/
def Point.Rejected : Point F64 → Prop
  | .closed .handshakeFailed | .closed .refused => True
  | _ => False

/-- The name under which a connection is about to register. -/
def Point.announced : Point F64 → Option String
  | .registering peerName => some peerName
  | _ => none

omit [UnicodeTables] [WallClock F64] in
theorem Point.announced_eq_some {point : Point F64} {peerName : String} :
    point.announced = some peerName ↔ point = .registering peerName := by
  cases point <;> simp [Point.announced]

/-- Everything a step of a connection can do: go on before its session or end
there, be admitted, go on echoing, or end its session. -/
theorem handleConnection_cases
    (hstep : handleConnection nodeName peers connection clock completion =
      some (peers', connection', updates)) :
    (connection.point.BeforeSession ∧
      (connection'.point.BeforeSession ∨ connection'.point.Rejected) ∧
      peers' = peers ∧ updates = []) ∨
    (∃ peerName, connection.point = .registering peerName ∧
      (peers.tryRegister peerName).1 = true ∧ peers' = (peers.tryRegister peerName).2 ∧
      connection'.point = .driving ⟨nodeName, peerName⟩ clock.wall .loopHead ∧
      updates = startUpdates ⟨nodeName, peerName⟩ clock.wall) ∨
    (∃ label startTs drive drive', connection.point = .driving label startTs drive ∧
      connection'.point = .driving label startTs drive' ∧ peers' = peers ∧
      (updates = [] ∨ updates = heartbeatUpdates label startTs clock.wall)) ∨
    (∃ label startTs drive reason, connection.point = .driving label startTs drive ∧
      connection'.point = .closed (.ended reason) ∧ peers' = peers ∧
      reason ∈ serverDisconnectReasons ∧
      updates = endUpdates label (clock.wall - startTs) reason) := by
  unfold handleConnection at hstep
  simp only at hstep
  split at hstep
  · next hpoint =>
      cases hstep
      exact Or.inl ⟨by simp [hpoint, Point.BeforeSession], Or.inl trivial, rfl, rfl⟩
  · next hpoint =>
      split at hstep <;> cases hstep
      exact Or.inl ⟨by simp [hpoint, Point.BeforeSession], Or.inr trivial, rfl, rfl⟩
  · next hpoint =>
      split at hstep <;> cases hstep
      · exact Or.inl ⟨by simp [hpoint, Point.BeforeSession], Or.inl trivial, rfl, rfl⟩
      · exact Or.inl ⟨by simp [hpoint, Point.BeforeSession], Or.inr trivial, rfl, rfl⟩
      · exact Or.inl ⟨by simp [hpoint, Point.BeforeSession], Or.inl trivial, rfl, rfl⟩
  · next peerName hpoint =>
      split at hstep
      · next peers'' hregister =>
          cases hstep
          have hrefused : (peers.tryRegister peerName).1 = false := by rw [hregister]
          have hsame := ServerPeers.tryRegister_refused hrefused
          rw [hregister] at hsame
          exact Or.inl ⟨by simp [hpoint, Point.BeforeSession], Or.inr trivial, hsame, rfl⟩
      · next peers'' hregister =>
          cases hstep
          exact Or.inr (Or.inl ⟨peerName, hpoint, by rw [hregister], by rw [hregister],
            rfl, rfl⟩)
  · next label startTs drive hpoint =>
      split at hstep
      · cases hstep
      · next reason driveUpdates hdrive =>
          obtain ⟨-, hended⟩ := driveSession_updates hdrive
          obtain ⟨rfl, hreason⟩ := hended reason rfl
          cases hstep
          exact Or.inr (Or.inr (Or.inr ⟨label, startTs, drive, reason, hpoint, rfl, rfl,
            hreason, rfl⟩))
      · next drive' driveUpdates _ hdrive =>
          obtain ⟨hupdates, -⟩ := driveSession_updates hdrive
          cases hstep
          exact Or.inr (Or.inr (Or.inl ⟨label, startTs, drive, drive', hpoint, rfl, rfl,
            hupdates⟩))
  · cases hstep

/-- A connection keeps the timeout it was accepted with. -/
theorem handleConnection_timeout
    (hstep : handleConnection nodeName peers connection clock completion =
      some (peers', connection', updates)) :
    connection'.heartbeatRecvTimeout = connection.heartbeatRecvTimeout := by
  unfold handleConnection at hstep
  simp only at hstep
  split at hstep
  · cases hstep
    rfl
  · split at hstep <;> cases hstep
    rfl
  · split at hstep <;> cases hstep <;> rfl
  · split at hstep <;> cases hstep <;> rfl
  · split at hstep <;> cases hstep <;> rfl
  · cases hstep

/-- While a session is driven, a step of the connection is a step of its echo
loop, followed by the end of the session if the loop has ended. -/
theorem handleConnection_driving {label : PeerLabel} {startTs : F64} {drive : Drive}
    (hpoint : connection.point = .driving label startTs drive)
    (hstep : handleConnection nodeName peers connection clock completion =
      some (peers', connection', updates)) :
    ∃ drive' driveUpdates,
      driveSession connection.heartbeatRecvTimeout label startTs drive clock completion =
          some (drive', driveUpdates) ∧
        ((∃ reason, drive' = .ended reason ∧ connection'.point = .closed (.ended reason) ∧
            updates = driveUpdates ++ endUpdates label (clock.wall - startTs) reason) ∨
          (connection'.point = .driving label startTs drive' ∧ updates = driveUpdates)) := by
  simp only [handleConnection, hpoint] at hstep
  split at hstep
  · cases hstep
  · next reason driveUpdates hdrive =>
      cases hstep
      exact ⟨_, driveUpdates, hdrive, Or.inl ⟨reason, rfl, rfl, rfl⟩⟩
  · next drive' driveUpdates _ hdrive =>
      cases hstep
      exact ⟨drive', _, hdrive, Or.inr ⟨rfl, rfl⟩⟩

/-- An attempt to register ends in a refusal exactly if the set refuses. -/
theorem handleConnection_registering {peerName : String}
    (hpoint : connection.point = .registering peerName)
    (hstep : handleConnection nodeName peers connection clock completion =
      some (peers', connection', updates)) :
    peers' = (peers.tryRegister peerName).2 ∧
      (connection'.point = .closed .refused ↔ (peers.tryRegister peerName).1 = false) := by
  obtain ⟨timeout, point⟩ := connection
  obtain rfl : point = .registering peerName := hpoint
  cases completion with
  | ready =>
      simp only [handleConnection] at hstep
      split at hstep
      · next peers'' hregister =>
          cases hstep
          simp [hregister]
      · next peers'' hregister =>
          cases hstep
          simp [hregister]
  | elapsed | cancelled | connected | read | wrote => cases hstep

end Handle

end TcpMonitor.InboundSession
