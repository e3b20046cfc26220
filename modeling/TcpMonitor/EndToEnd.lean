import TcpMonitor.Core.FifoChannel
import TcpMonitor.Client.FaithfulEcho
import TcpMonitor.Server.ByteEcho

/-!
# One session from end to end

An outbound session and an inbound connection over two first-in first-out
channels.  Writes, deliveries, reads, deadlines, cancellations and failures
interleave at will; the bytes of the handshake and of the packets stay aligned
at both readers, so each side decodes a prefix of what the other has written.
-/

namespace TcpMonitor.EndToEnd

open TcpMonitor.TransitionSystem
open TcpMonitor.FifoChannel
open TcpMonitor.Runtime
open TcpMonitor.Configuration
open TcpMonitor.LabelFamily
open TcpMonitor.MetricFamilies
open TcpMonitor.HeartbeatPacket
open TcpMonitor.HeartbeatReading
open TcpMonitor.Handshake
open TcpMonitor.InboundSession
open TcpMonitor.ByteEcho
open TcpMonitor.Session
open TcpMonitor.SessionLog
open TcpMonitor.FaithfulEcho

/-- Both ends of a connection, the two channels, the clock of the client, and
the bytes of the handshake that the client has written. -/
structure Link (F64 : Type) where
  client : ClientStream F64
  server : ServerStream F64
  toServer : Channel UInt8
  toClient : Channel UInt8
  now : Instant
  announced : List UInt8

/-- What happens next.  The clock of the server is not related to that of the
client. -/
inductive LinkEvent (F64 : Type) where
  | tick (now : Instant)
  | client (wall : F64) (completion : Completion)
  | server (clock : Reading F64) (completion : Completion)
  | deliverToServer (count : ℕ)
  | deliverToClient (count : ℕ)

section Bytes

variable {F64 : Type}

/-- The bytes that a write of the client puts on its channel. -/
def clientBytes : SessionPoint F64 → Completion → List UInt8
  | .handshake unsent, .wrote (.ok count) => unsent.take count
  | .sending _ _ _ unsent, .wrote (.ok count) => unsent.take count
  | _, _ => []

/-- Those of them that belong to the handshake. -/
def announcedBytes : SessionPoint F64 → Completion → List UInt8
  | .handshake unsent, completion => clientBytes (.handshake unsent : SessionPoint F64) completion
  | _, _ => []

/-- The bytes that a write of the server puts on its channel. -/
def serverBytes : Point F64 → Completion → List UInt8
  | .driving _ _ (.echoing unsent), .wrote (.ok count) => unsent.take count
  | _, _ => []

end Bytes

section System

variable {F64 : Type} [UnicodeTables] [WallClock F64]

namespace Link

/-- The client has connected and the server has accepted. -/
def start (nodeName : String) (timeout : UInt64) (clientMetrics serverMetrics : Metrics F64) :
    Link F64 where
  client := ClientStream.start nodeName clientMetrics
  server := ServerStream.start timeout serverMetrics
  toServer := Channel.empty
  toClient := Channel.empty
  now := 0
  announced := []

/-- A read takes bytes that have been delivered; a read of no bytes, at the end
of a stream, and a failure are possible at any time. -/
def step (nodeName peerName serverName : String) (clientCfg : ClientConfig) (link : Link F64) :
    LinkEvent F64 → Option (Link F64)
  | .tick now =>
      if link.now ≤ now ∧ now < instantLimit then some { link with now := now } else none
  | .client wall completion =>
      (link.toClient.take (readBytes completion)).bind fun toClient =>
        (link.client.step nodeName peerName clientCfg (⟨link.now, wall⟩, completion)).map
          fun client =>
            { link with
              client := client
              toServer := link.toServer.write (clientBytes link.client.point completion)
              toClient := toClient
              announced := link.announced ++ announcedBytes link.client.point completion }
  | .server clock completion =>
      (link.toServer.take (readBytes completion)).bind fun toServer =>
        (ByteEcho.step serverName link.server (clock, completion)).map fun server =>
          { link with
            server := server
            toServer := toServer
            toClient := link.toClient.write
              (serverBytes link.server.connection.point completion) }
  | .deliverToServer count =>
      (link.toServer.deliver count).map fun toServer => { link with toServer := toServer }
  | .deliverToClient count =>
      (link.toClient.deliver count).map fun toClient => { link with toClient := toClient }

end Link

end System

/-! ## The handshake on both sides -/

section Handshake

variable {F64 : Type}

/-- What the client has written of its handshake. -/
def AnnouncedAt (nodeName : String) (log : Log F64) (announced : List UInt8) :
    SessionPoint F64 → Prop
  | .handshake unsent => announced ++ unsent = sendHandshake nodeName
  | .returned _ => announced = sendHandshake nodeName ∨
      announced <+: sendHandshake nodeName ∧ log.written = []
  | _ => announced = sendHandshake nodeName

/-- What the server has taken of the handshake. -/
def HandshakeAt (taken : List UInt8) : Point F64 → Prop
  | .accepted => taken = []
  | .handshake reader _ => reader.Waiting ∧ taken = reader.consumed
  | .closed .handshakeFailed => True
  | _ => ∃ bytes, bytes.length ≤ maxHandshakeNameLen ∧
      taken = BigEndian.encode 4 bytes.length ++ bytes

variable [WallClock F64] {nodeName peerName : String} {clientCfg : ClientConfig}
variable {point : SessionPoint F64} {log : Log F64} {clock : Reading F64}
variable {completion : Completion} {after : SessionPoint F64 × List (Update F64)}
variable {announced : List UInt8}

/-- A session never goes back to its handshake. -/
theorem not_handshake_of_step
    (hstep : SessionStep nodeName peerName clientCfg point clock completion after)
    (hpoint : ∀ unsent, point ≠ .handshake unsent) : ∀ unsent, after.1 ≠ .handshake unsent := by
  intro unsent hafter
  obtain ⟨unsent', hbefore, -⟩ := hstep.handshake_suffix hafter
  exact hpoint unsent' hbefore

omit [WallClock F64] in
theorem announcedBytes_of_ne (hpoint : ∀ unsent, point ≠ .handshake unsent)
    (completion : Completion) : announcedBytes point completion = [] := by
  cases point with
  | handshake unsent => exact absurd rfl (hpoint unsent)
  | loopHead | sleeping | sending | waiting | returned => rfl

omit [WallClock F64] in
theorem announcedAt_of_eq (hall : announced = sendHandshake nodeName)
    (hpoint : ∀ unsent, point ≠ .handshake unsent) :
    AnnouncedAt nodeName log announced point := by
  cases point with
  | handshake unsent => exact absurd rfl (hpoint unsent)
  | loopHead | sleeping | sending | waiting => exact hall
  | returned => exact Or.inl hall

theorem announcedAt_step (hat : log.At point)
    (hannounced : AnnouncedAt nodeName log announced point)
    (hstep : SessionStep nodeName peerName clientCfg point clock completion after) :
    AnnouncedAt nodeName (log.record point completion after)
      (announced ++ announcedBytes point completion) after.1 := by
  have hnext := not_handshake_of_step hstep
  cases point with
  | handshake unsent =>
      cases hstep with
      | handshakePart hcount =>
          simp only [AnnouncedAt, announcedBytes, clientBytes, List.append_assoc,
            List.take_append_drop]
          exact hannounced
      | established hunsent =>
          simp only [AnnouncedAt, announcedBytes, clientBytes, List.take_length]
          exact hannounced
      | handshakeError =>
          obtain rfl : log = Log.empty F64 := hat
          have hinitial : announced ++ [] <+: sendHandshake nodeName := by
            rw [List.append_nil]
            exact ⟨unsent, hannounced⟩
          exact Or.inr ⟨hinitial, rfl⟩
      | cancelled hpoint => cases hpoint
  | loopHead | sleeping | sending | waiting =>
      rw [announcedBytes_of_ne (by simp), List.append_nil]
      exact announcedAt_of_eq hannounced (hnext (by simp))
  | returned =>
      cases hstep with
      | cancelled hpoint => cases hpoint

/-- What the client has written since it connected. -/
theorem written_record (hat : log.At point)
    (hstep : SessionStep nodeName peerName clientCfg point clock completion after) :
    (announced ++ announcedBytes point completion) ++
        (log.record point completion after).written =
      (announced ++ log.written) ++ clientBytes point completion := by
  cases hstep with
  | handshakePart | established =>
      obtain rfl : log = Log.empty F64 := hat
      simp [Log.record, Log.empty, announcedBytes]
  | handshakeError | sleep | due | wake | writeError =>
      simp [Log.record, announcedBytes, clientBytes]
  | sendPart | sent => simp [Log.record, announcedBytes, clientBytes]
  | deadline =>
      obtain ⟨-, stale, hcurrent, -⟩ := hat
      simp [Log.record_deadline hcurrent, announcedBytes, clientBytes]
  | readPart hread =>
      obtain ⟨-, stale, hcurrent, -⟩ := hat
      simp [Log.record_read hread hcurrent, announcedBytes, clientBytes]
  | readError hread =>
      obtain ⟨-, stale, hcurrent, -⟩ := hat
      simp [Log.record_read hread hcurrent, breakSession, announcedBytes, clientBytes]
  | @echo vars sentSeq sendTs deadline gotEcho clock outcome echoes echo hread =>
      obtain ⟨-, stale, hcurrent, -⟩ := hat
      by_cases hmatch : echo.seq = sentSeq
      · simp [Log.record_matched hread hcurrent hmatch, announcedBytes, clientBytes]
      · simp [Log.record_stale hread hcurrent hmatch, announcedBytes, clientBytes]
  | cancelled hpoint =>
      cases point with
      | handshake | loopHead | returned => cases hpoint
      | sleeping | sending | waiting => simp [Log.record, announcedBytes, clientBytes]

end Handshake

section Server

variable {F64 : Type} [UnicodeTables] [WallClock F64] {serverName : String}
variable {server next : ServerStream F64} {input : Reading F64 × Completion}

omit [UnicodeTables] in
/-- What a step of the echo loop reads and writes. -/
theorem drive_bytes {timeout : UInt64} {label : PeerLabel} {startTs : F64}
    {drive drive' : Drive} {clock : Reading F64} {completion : Completion}
    {updates : List (Update F64)} (history : EchoHistory)
    (hstep : driveSession timeout label startTs drive clock completion =
      some (drive', updates)) :
    (history.record drive completion).received =
        history.received ++ readBytes completion ∧
      (history.record drive completion).written =
        history.written ++ serverBytes (.driving label startTs drive) completion := by
  unfold driveSession at hstep
  split at hstep
  · simp [EchoHistory.record, readBytes, serverBytes]
  · simp [EchoHistory.record, readBytes, serverBytes]
  · next outcome =>
      cases outcome <;> simp [EchoHistory.record, readBytes, serverBytes, Except.toOption]
  · simp [EchoHistory.record, readBytes, serverBytes]
  · simp [EchoHistory.record, readBytes, serverBytes]
  · cases hstep

/-- What a step of the server reads and writes. -/
theorem server_bytes
    (hhistory : HistoryAt server.connection.point server.session server.history)
    (hstep : ByteEcho.step serverName server input = some next) :
    next.handshake ++ next.history.received =
        (server.handshake ++ server.history.received) ++ readBytes input.2 ∧
      next.history.written =
        server.history.written ++ serverBytes server.connection.point input.2 := by
  obtain ⟨⟨peers, connection, updates⟩, hhandle, rfl⟩ := Option.map_eq_some_iff.mp hstep
  obtain ⟨clock, completion⟩ := input
  cases hpoint : server.connection.point with
  | driving label startTs drive =>
      obtain ⟨drive', driveUpdates, hdrive, -⟩ := handleConnection_driving hpoint hhandle
      obtain ⟨hreceived, hwritten⟩ := drive_bytes server.history hdrive
      simp only [handshakeBytes, recordAt, hreceived, hwritten, List.append_nil,
        List.append_assoc, true_and]
  | handshake reader deadline =>
      rw [hpoint] at hhistory
      obtain ⟨-, hempty⟩ := hhistory
      simp only [handleConnection, hpoint] at hhandle
      cases completion with
      | read outcome =>
          cases outcome <;>
            simp [handshakeBytes, recordAt, serverBytes, readBytes, hempty, EchoHistory.empty]
      | elapsed =>
          simp [handshakeBytes, recordAt, serverBytes, readBytes]
      | ready | cancelled | connected | wrote => cases hhandle
  | accepted | registering | closed =>
      simp only [handleConnection, hpoint] at hhandle
      cases completion with
      | ready => simp [handshakeBytes, recordAt, serverBytes, readBytes]
      | elapsed | cancelled | connected | read | wrote => cases hhandle

/-- A read of the handshake. -/
theorem handshakeAt_read {reader : HandshakeReader} {taken : List UInt8}
    {outcome : Except ErrorKind (List UInt8)} {result : ReadHandshake}
    (hwaiting : reader.Waiting) (htaken : taken = reader.consumed)
    (hread : reader.onRead outcome = some result) :
    (∃ next, result = .reading next ∧ next.Waiting ∧
        taken ++ readBytes (.read outcome) = next.consumed) ∨
      (∃ peerName bytes, result = .returned (.ok peerName) ∧
        bytes.length ≤ maxHandshakeNameLen ∧
        taken ++ readBytes (.read outcome) = BigEndian.encode 4 bytes.length ++ bytes) ∨
      ∃ error, result = .returned (.error error) := by
  subst htaken
  cases outcome with
  | error error =>
      cases hread
      exact Or.inr (Or.inr ⟨error, rfl⟩)
  | ok chunk =>
      by_cases hchunk : chunk = []
      · subst hchunk
        simp only [HandshakeReader.onRead, List.length_nil, Nat.zero_le, if_true] at hread
        cases hread
        exact Or.inr (Or.inr ⟨.unexpectedEof, rfl⟩)
      · rcases HandshakeReader.onRead_ok_cases hwaiting hchunk hread with
          ⟨next, rfl, hconsumed, hnext⟩ | ⟨bytes, rfl, -, hlength, hconsumed⟩ | ⟨rfl, -⟩
        · exact Or.inl ⟨next, rfl, hnext, hconsumed.symm⟩
        · exact Or.inr (Or.inl ⟨_, bytes, rfl, hlength, hconsumed⟩)
        · exact Or.inr (Or.inr ⟨.invalidData, rfl⟩)

/-- The server reads exactly the frame of the handshake. -/
theorem handshakeAt_step {taken : List UInt8} {peers peers' : ServerPeers}
    {connection connection' : Connection F64} {clock : Reading F64} {completion : Completion}
    {updates : List (Update F64)} (hat : HandshakeAt taken connection.point)
    (hstep : handleConnection serverName peers connection clock completion =
      some (peers', connection', updates)) :
    HandshakeAt (taken ++ handshakeBytes connection.point completion) connection'.point := by
  unfold handleConnection at hstep
  simp only at hstep
  split at hstep
  · next hpoint =>
      cases hstep
      rw [hpoint] at hat ⊢
      have hnone : taken ++ [] = readHandshake.consumed := by
        rw [List.append_nil]
        exact hat
      exact ⟨show 0 < 4 by decide, hnone⟩
  · split at hstep <;> cases hstep
    trivial
  · next reader deadline outcome hpoint =>
      rw [hpoint] at hat ⊢
      have hbytes : handshakeBytes (.handshake reader deadline : Point F64) (.read outcome) =
          readBytes (.read outcome) := by
        cases outcome <;> rfl
      rw [hbytes]
      split at hstep
      · cases hstep
      · next result hread =>
          rcases handshakeAt_read hat.1 hat.2 hread with
            ⟨next, hresult, hnext, hconsumed⟩ | ⟨peerName, bytes, hresult, hframe⟩ |
              ⟨error, hresult⟩
          · cases hresult
            cases hstep
            exact ⟨hnext, hconsumed⟩
          · cases hresult
          · cases hresult
      · cases hstep
        trivial
      · next peerName hread =>
          rcases handshakeAt_read hat.1 hat.2 hread with
            ⟨next, hresult, -⟩ | ⟨peerName, bytes, hresult, hframe⟩ | ⟨error, hresult⟩
          · cases hresult
          · cases hresult
            cases hstep
            exact ⟨bytes, hframe⟩
          · cases hresult
  · next peerName hpoint =>
      rw [hpoint] at hat ⊢
      have hsame : taken ++ handshakeBytes (.registering peerName : Point F64) .ready =
          taken := List.append_nil taken
      rw [hsame]
      split at hstep <;> cases hstep <;> exact hat
  · next label startTs drive hpoint =>
      rw [hpoint] at hat ⊢
      have hsame : ∀ completion,
          taken ++ handshakeBytes (.driving label startTs drive) completion = taken :=
        fun _ => List.append_nil taken
      rw [hsame]
      split at hstep <;> cases hstep <;> exact hat
  · cases hstep

end Server

/-! ## The streams agree -/

section Agreement

variable {F64 : Type} [UnicodeTables] [WallClock F64]
variable {nodeName peerName serverName : String} {clientCfg : ClientConfig}
variable {interval : Duration} {timeout : UInt64} {serverMetrics : Metrics F64}
variable {link next : Link F64}

/-- Both ends keep their own invariants, and each channel carries what one end
has written to what the other has read. -/
structure Agreement (nodeName serverName : String) (timeout : UInt64)
    (serverMetrics : Metrics F64) (interval : Duration) (link : Link F64) : Prop where
  faithful : Faithful interval link.now link.client.point link.client.log
  now_lt : link.now < instantLimit
  announcedAt : AnnouncedAt nodeName link.client.log link.announced link.client.point
  server_run : Reachable (ByteEcho.step serverName) (ServerStream.start timeout serverMetrics)
    link.server
  handshakeAt : HandshakeAt link.server.handshake link.server.connection.point
  toServer : link.toServer.Carries (link.announced ++ link.client.log.written)
    (link.server.handshake ++ link.server.history.received)
  toClient : link.toClient.Carries link.server.history.written link.client.log.received

theorem agreement_start (clientMetrics : Metrics F64) :
    Agreement nodeName serverName timeout serverMetrics interval
      (Link.start nodeName timeout clientMetrics serverMetrics) where
  faithful := ⟨rfl, List.prefix_rfl, (by intro k round hget; cases hget), rfl⟩
  now_lt := by simp [Link.start, instantLimit]
  announcedAt := rfl
  server_run := Reachable.refl _
  handshakeAt := rfl
  toServer := Channel.carries_empty
  toClient := Channel.carries_empty

theorem Agreement.historyAt
    (hagree : Agreement nodeName serverName timeout serverMetrics interval link) :
    HistoryAt link.server.connection.point link.server.session link.server.history :=
  (historyAt_of_reachable hagree.server_run).1

omit [UnicodeTables] in
theorem AnnouncedAt.initial {log : Log F64} {announced : List UInt8} {point : SessionPoint F64}
    (hannounced : AnnouncedAt nodeName log announced point) (hat : log.At point) :
    announced ++ log.written <+: sendHandshake nodeName ++ log.written := by
  cases point with
  | handshake unsent =>
      obtain rfl : log = Log.empty F64 := hat
      have hinitial : announced <+: sendHandshake nodeName := ⟨unsent, hannounced⟩
      simpa [Log.empty] using hinitial
  | loopHead | sleeping | sending | waiting =>
      obtain rfl : announced = sendHandshake nodeName := hannounced
      exact List.prefix_rfl
  | returned =>
      rcases hannounced with rfl | ⟨hinitial, hnone⟩
      · exact List.prefix_rfl
      · simpa [hnone] using hinitial

/-- The server reads its packets from the first byte after the handshake. -/
theorem Agreement.received_initial
    (hagree : Agreement nodeName serverName timeout serverMetrics interval link) :
    link.server.history.received <+: link.client.log.written := by
  have hinitial := hagree.toServer.taken_initial.trans
    (hagree.announcedAt.initial hagree.faithful.at_point)
  have hhandshake := hagree.handshakeAt
  have hhistory := hagree.historyAt
  have hnone : link.server.history = EchoHistory.empty →
      link.server.history.received <+: link.client.log.written := by
    intro hempty
    rw [hempty]
    exact List.nil_prefix
  have hframe : (∃ bytes, bytes.length ≤ maxHandshakeNameLen ∧
      link.server.handshake = BigEndian.encode 4 bytes.length ++ bytes) →
      link.server.history.received <+: link.client.log.written := by
    rintro ⟨bytes, hlength, hbytes⟩
    rw [hbytes] at hinitial
    exact (handshake_of_initial hlength hinitial).2
  cases hpoint : link.server.connection.point with
  | accepted | handshake | registering =>
      rw [hpoint] at hhistory
      exact hnone hhistory.2
  | driving =>
      rw [hpoint] at hhandshake
      exact hframe hhandshake
  | closed outcome =>
      rw [hpoint] at hhandshake hhistory
      cases outcome with
      | handshakeFailed | refused => exact hnone hhistory.2
      | ended reason => exact hframe hhandshake

/-- The server has decoded the first heartbeats that the client has written. -/
theorem Agreement.decoded_server
    (hagree : Agreement nodeName serverName timeout serverMetrics interval link) :
    link.server.history.decoded <+: link.client.log.sent := by
  obtain ⟨rest, unsent, hagrees, -⟩ := agrees_of_historyAt hagree.historyAt
  have hwritten : wire link.server.history.decoded <+: link.client.log.written := by
    refine List.IsPrefix.trans ?_ hagree.received_initial
    rw [hagrees.received_eq]
    exact List.prefix_append _ _
  obtain ⟨-, unsent', following, -, ⟨hnone, hone, hwire⟩, -⟩ :=
    hagree.faithful.at_point.returned ""
  have hdecoded : link.server.history.decoded <+: link.client.log.sent ++ following := by
    have hinitial : wire link.server.history.decoded ++ [] <+:
        wire (link.client.log.sent ++ following) := by
      rw [List.append_nil, ← hwire]
      exact hwritten.trans (List.prefix_append _ _)
    exact prefix_of_wire_prefix hinitial
  -- a heartbeat of which bytes are still unwritten cannot have been decoded
  have hcount : link.server.history.decoded.length ≤ link.client.log.sent.length := by
    have hlength := congrArg List.length hwire
    have hle := hwritten.length_le
    rw [List.length_append, length_wire, List.length_append] at hlength
    rw [length_wire] at hle
    by_cases hall : unsent' = []
    · have hle' := hdecoded.length_le
      rw [hnone.mp hall, List.append_nil] at hle'
      exact hle'
    · have hpositive := List.length_pos_iff.mpr hall
      simp only [packetSize] at hlength hle
      omega
  exact List.prefix_of_prefix_length_le hdecoded (List.prefix_append _ _) hcount

/-- What the server has written back are heartbeats of the client. -/
theorem Agreement.written_initial
    (hagree : Agreement nodeName serverName timeout serverMetrics interval link) :
    link.server.history.written <+: wire link.server.history.decoded := by
  obtain ⟨rest, unsent, hagrees, -⟩ := agrees_of_historyAt hagree.historyAt
  exact ⟨unsent, hagrees.written_eq⟩

/-- A step of the client. -/
theorem Agreement.client {wall : F64} {completion : Completion}
    {client : ClientStream F64} {toClient : Channel UInt8}
    (hagree : Agreement nodeName serverName timeout serverMetrics
      (fromSecs clientCfg.heartbeatInterval) link)
    (hinterval : 1 ≤ clientCfg.heartbeatInterval)
    (htake : link.toClient.take (readBytes completion) = some toClient)
    (hstep : link.client.step nodeName peerName clientCfg (⟨link.now, wall⟩, completion) =
      some client) :
    Agreement nodeName serverName timeout serverMetrics
        (fromSecs clientCfg.heartbeatInterval) { link with
      client := client
      toServer := link.toServer.write (clientBytes link.client.point completion)
      toClient := toClient
      announced := link.announced ++ announcedBytes link.client.point completion } := by
  obtain ⟨after, hrun, rfl⟩ := ClientStream.step_eq_some.mp hstep
  have hcases := sessionStep_of_runSession hrun
  have hat := hagree.faithful.at_point
  obtain ⟨hreceived, hsent, -⟩ := Log.streams_record hat hcases
  have htaken := hagree.toClient.take htake
  rw [← hreceived] at htaken
  have hinitial : (link.client.log.record link.client.point completion after).received <+:
      wire (link.client.log.record link.client.point completion after).sent :=
    htaken.taken_initial.trans (hagree.written_initial.trans
      ((hagree.decoded_server.trans hsent).flatMap _))
  exact {
    faithful := hagree.faithful.step hinterval hagree.now_lt hrun hinitial
    now_lt := hagree.now_lt
    announcedAt := announcedAt_step hat hagree.announcedAt hcases
    server_run := hagree.server_run
    handshakeAt := hagree.handshakeAt
    toServer := by
      have hwritten := hagree.toServer.write (clientBytes link.client.point completion)
      rwa [← written_record hat hcases] at hwritten
    toClient := htaken }

/-- A step of the server. -/
theorem Agreement.server {clock : Reading F64} {completion : Completion}
    {server : ServerStream F64} {toServer : Channel UInt8}
    (hagree : Agreement nodeName serverName timeout serverMetrics interval link)
    (htake : link.toServer.take (readBytes completion) = some toServer)
    (hstep : ByteEcho.step serverName link.server (clock, completion) = some server) :
    Agreement nodeName serverName timeout serverMetrics interval { link with
      server := server
      toServer := toServer
      toClient := link.toClient.write
        (serverBytes link.server.connection.point completion) } := by
  obtain ⟨htaken, hwritten⟩ := server_bytes hagree.historyAt hstep
  exact {
    faithful := hagree.faithful
    now_lt := hagree.now_lt
    announcedAt := hagree.announcedAt
    server_run := hagree.server_run.tail hstep
    handshakeAt := by
      obtain ⟨⟨peers, connection, updates⟩, hhandle, rfl⟩ := Option.map_eq_some_iff.mp hstep
      exact handshakeAt_step hagree.handshakeAt hhandle
    toServer := by
      dsimp only
      rw [htaken]
      exact hagree.toServer.take htake
    toClient := by
      dsimp only
      rw [hwritten]
      exact hagree.toClient.write _ }

theorem Agreement.step
    (hagree : Agreement nodeName serverName timeout serverMetrics
      (fromSecs clientCfg.heartbeatInterval) link)
    (hinterval : 1 ≤ clientCfg.heartbeatInterval) {event : LinkEvent F64}
    (hstep : link.step nodeName peerName serverName clientCfg event = some next) :
    Agreement nodeName serverName timeout serverMetrics
      (fromSecs clientCfg.heartbeatInterval) next := by
  cases event with
  | tick now =>
      simp only [Link.step] at hstep
      split at hstep
      · next hguard =>
          cases hstep
          obtain ⟨hat, hreceived, hcounted, hpaced⟩ := hagree.faithful
          exact { hagree with
            faithful := ⟨hat, hreceived, hcounted, hpaced.mono hguard.1⟩
            now_lt := hguard.2 }
      · cases hstep
  | client wall completion =>
      obtain ⟨toClient, htake, hmap⟩ := Option.bind_eq_some_iff.mp hstep
      obtain ⟨client, hclient, rfl⟩ := Option.map_eq_some_iff.mp hmap
      exact hagree.client hinterval htake hclient
  | server clock completion =>
      obtain ⟨toServer, htake, hmap⟩ := Option.bind_eq_some_iff.mp hstep
      obtain ⟨server, hserver, rfl⟩ := Option.map_eq_some_iff.mp hmap
      exact hagree.server htake hserver
  | deliverToServer count =>
      obtain ⟨toServer, hdeliver, rfl⟩ := Option.map_eq_some_iff.mp hstep
      exact { hagree with toServer := hagree.toServer.deliver hdeliver }
  | deliverToClient count =>
      obtain ⟨toClient, hdeliver, rfl⟩ := Option.map_eq_some_iff.mp hstep
      exact { hagree with toClient := hagree.toClient.deliver hdeliver }

theorem agreement_of_reachable {clientCfg : AcceptedClientConfig} {clientMetrics : Metrics F64}
    (hreach : Reachable (Link.step nodeName peerName serverName clientCfg.toClientConfig)
      (Link.start nodeName timeout clientMetrics serverMetrics) link) :
    Agreement nodeName serverName timeout serverMetrics
      (fromSecs clientCfg.heartbeatInterval) link :=
  hreach.invariant
    (Agreement nodeName serverName timeout serverMetrics (fromSecs clientCfg.heartbeatInterval))
    (agreement_start clientMetrics) fun _ _ _ hagree hstep =>
      hagree.step clientCfg.heartbeatInterval_accepted.1 hstep

/-- Agreement of one session from end to end.  In every reachable state the
server has decoded the first heartbeats that the client has written, and the
client the first of those, in order, without gaps, and with their timestamps.
Round `k` reads no echo of a later heartbeat and no more echoes than are missing
up to its own, and it is matched exactly if it reads that many, which is exactly
if it reads its own. -/
theorem session_agrees_end_to_end {clientCfg : AcceptedClientConfig}
    {clientMetrics : Metrics F64}
    (hreach : Reachable (Link.step nodeName peerName serverName clientCfg.toClientConfig)
      (Link.start nodeName timeout clientMetrics serverMetrics) link) :
    link.server.history.decoded <+: link.client.log.sent ∧
      link.client.log.decoded <+: link.server.history.decoded ∧
      (∀ (position : ℕ) (echo : Heartbeat), link.client.log.decoded[position]? = some echo →
        link.client.log.sent[position]? = some echo ∧ echo.seq.toNat = position) ∧
      (∀ k round, link.client.log.allRounds[k]? = some round →
        round.sentSeq.toNat = k ∧
          (∀ echo ∈ round.echoes, echo.seq.toNat ≤ k) ∧
          readBy link.client.log.allRounds k + round.reads.length ≤ k + 1 ∧
          (round.Matched ↔
            readBy link.client.log.allRounds k + round.reads.length = k + 1) ∧
          (round.Matched ↔ ∃ echo ∈ round.echoes, echo.seq = round.sentSeq)) ∧
      ∀ vars sentSeq sendTs deadline gotEcho,
        link.client.point = .waiting vars sentSeq sendTs deadline gotEcho →
          ∃ round, link.client.log.allRounds[sentSeq.toNat]? = some round ∧
            link.client.log.current = some round ∧ round.sentSeq = sentSeq := by
  have hagree := agreement_of_reachable hreach
  have hfaithful := hagree.faithful
  have hat := hfaithful.at_point
  obtain ⟨rest, hsound⟩ := sound_of_at hat
  have hcount := hfaithful.paced.count_lt (Nat.le_mul_of_pos_left _
    (UInt64.le_iff_toNat_le.mp clientCfg.heartbeatInterval_accepted.1)) hagree.now_lt
  have hnat : ∀ position, position < link.client.log.sent.length →
      (UInt64.ofNat position).toNat = position := fun position hposition => by
    rw [UInt64.toNat_ofNat', Nat.mod_eq_of_lt (hposition.trans hcount)]
  have hdecoded := decoded_initial hsound hfaithful.received_initial
  have hsent : ∀ (position : ℕ) (echo : Heartbeat), link.client.log.decoded[position]? = some echo →
      link.client.log.sent[position]? = some echo ∧ echo.seq.toNat = position := by
    intro position echo hget
    have hget' := getElem?_of_initial hdecoded hget
    refine ⟨hget', ?_⟩
    rw [seq_of_sent hsound hget', hnat _ (List.getElem?_eq_some_iff.mp hget').1]
  refine ⟨hagree.decoded_server, ?_, hsent, ?_, ?_⟩
  · have hreceived := hagree.toClient.taken_initial.trans hagree.written_initial
    rw [hsound.received_eq] at hreceived
    exact prefix_of_wire_prefix hreceived
  · intro k round hget
    obtain ⟨hseq, hk⟩ := seq_of_round hat hget
    obtain ⟨hle, hmatched⟩ := hfaithful.counted_allRounds k round hget
    have hreads := readBy_succ hget
    refine ⟨by rw [hseq, hnat k hk], ?_, hreads ▸ hle, hreads ▸ hmatched, ?_⟩
    · intro echo hmem
      obtain ⟨position, hposition, hread⟩ := exists_position hsound hget hmem
      rw [(hsent position echo hread).2]
      omega
    · constructor
      · rintro ⟨stale, own, nowTs, hreads, hown, -⟩
        exact ⟨own, by simp [Round.echoes, hreads], hown⟩
      · rintro ⟨own, hmem, hown⟩
        rcases settled_of_at hat hget with ⟨-, hmatched⟩ | ⟨stale, hreads, hstale⟩
        · exact hmatched
        · rw [Round.echoes, hreads, fst_unmeasured] at hmem
          exact absurd hown (hstale own hmem)
  · intro vars sentSeq sendTs deadline gotEcho hpoint
    rw [hpoint] at hat
    obtain ⟨hlength, hsentSeq⟩ := position_of_waiting hat
    obtain ⟨-, stale, hcurrent, -⟩ := hat
    refine ⟨_, ?_, hcurrent, rfl⟩
    have hposition : sentSeq.toNat = link.client.log.rounds.length := by
      rw [hsentSeq, hnat _ (by omega)]
    rw [hposition, Log.allRounds, hcurrent, List.getElem?_append_right le_rfl, Nat.sub_self]
    rfl

end Agreement

section Witness

local instance : UnicodeTables := asciiTables

/-- The handshake and one heartbeat, cut into chunks; the echo is cut off by
the deadline after ten bytes and completed in the next round. -/
def splitEcho : List (LinkEvent WholeSeconds) :=
  [.client ⟨0⟩ (.wrote (.ok 7)), .server ⟨0, ⟨0⟩⟩ .ready, .deliverToServer 5,
    .server ⟨0, ⟨0⟩⟩ (.read (.ok [0, 0, 0, 3])), .server ⟨0, ⟨0⟩⟩ (.read (.ok [99])),
    .client ⟨0⟩ .ready, .client ⟨0⟩ (.wrote (.ok 16)), .deliverToServer 18,
    .server ⟨0, ⟨0⟩⟩ (.read (.ok [108, 105])), .server ⟨0, ⟨0⟩⟩ .ready,
    .server ⟨0, ⟨0⟩⟩ .ready, .server ⟨0, ⟨0⟩⟩ (.read (.ok (Heartbeat.frame ⟨0, 0⟩))),
    .server ⟨0, ⟨0⟩⟩ (.wrote (.ok 16)), .deliverToClient 10,
    .client ⟨0⟩ (.read (.ok ((Heartbeat.frame ⟨0, 0⟩).take 10))),
    .tick 1000000000, .client ⟨1⟩ .elapsed, .client ⟨1⟩ .ready,
    .tick 2000000000, .client ⟨2⟩ .elapsed, .client ⟨2⟩ (.wrote (.ok 16)),
    .deliverToClient 6, .client ⟨2⟩ (.read (.ok ((Heartbeat.frame ⟨0, 0⟩).drop 10)))]

/-- The echo that was cut in two is decoded once, and the round after it is
still waiting for its own. -/
theorem session_agrees_end_to_end_split_echo :
    ∃ link, run (Link.step "cli" "srv" "srv" everySecond.toClientConfig)
        (Link.start "cli" 15 (Metrics.new WholeSeconds) (Metrics.new WholeSeconds)) splitEcho =
          some link ∧
      link.client.log.decoded = [⟨0, 0⟩] ∧
      link.client.log.decoded <+: link.server.history.decoded := by
  obtain ⟨link, hrun, hdecoded⟩ := Option.map_eq_some_iff.mp (show
    (run (Link.step "cli" "srv" "srv" everySecond.toClientConfig)
      (Link.start "cli" 15 (Metrics.new WholeSeconds) (Metrics.new WholeSeconds))
        splitEcho).map (fun link => link.client.log.decoded) = some [⟨0, 0⟩] by decide)
  exact ⟨link, hrun, hdecoded, (session_agrees_end_to_end (Reachable.of_run hrun)).2.1⟩

end Witness

end TcpMonitor.EndToEnd
