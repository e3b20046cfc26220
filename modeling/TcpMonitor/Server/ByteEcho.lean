import TcpMonitor.Core.TransitionSystem
import TcpMonitor.Server.InboundSession

/-!
# The server is a byte-exact echo

One connection on its byte stream, with the history of what the reads took,
what was decoded and what was written back.  Although every packet is read with
a fresh reader, the bytes taken are at every moment the decoded packets
followed by the partial packet in the reader, and the bytes written followed by
the rest of the current echo are the decoded packets.
-/

namespace TcpMonitor.ByteEcho

open TcpMonitor.TransitionSystem
open TcpMonitor.Runtime
open TcpMonitor.LabelFamily
open TcpMonitor.MetricFamilies
open TcpMonitor.HeartbeatPacket
open TcpMonitor.HeartbeatReading
open TcpMonitor.InboundSession
open TcpMonitor.Handshake

/-! ## The history of the echo loop -/

/-- What has happened in `drive_session`: the bytes its reads took, the packets
it decoded, the bytes it wrote, the echoes it wrote in full, and whether a
write failed. -/
structure EchoHistory where
  received : List UInt8
  decoded : List Heartbeat
  written : List UInt8
  echoes : ℕ
  writeFailed : Bool
  deriving DecidableEq

namespace EchoHistory

def empty : EchoHistory := ⟨[], [], [], 0, false⟩

/-- What a completion adds to the history. -/
def record (history : EchoHistory) (drive : Drive) (completion : Completion) : EchoHistory :=
  match drive, completion with
  | .receiving reader _, .read outcome =>
      { history with
        received := history.received ++ outcome.toOption.getD []
        decoded := history.decoded ++
          ((reader.recvRead outcome).map fun after => after.2.packets).getD [] }
  | .echoing unsent, .wrote (.ok count) =>
      { history with
        written := history.written ++ unsent.take count
        echoes := history.echoes + if count = unsent.length then 1 else 0 }
  | .echoing _, .wrote (.error _) => { history with writeFailed := true }
  | _, _ => history

/-- The two streams agree: `rest` has been read and not decoded, `unsent` has
been decoded and not written back. -/
structure Agrees (history : EchoHistory) (rest unsent : List UInt8) : Prop where
  received_eq : history.received = wire history.decoded ++ rest
  rest_lt : rest.length < packetSize
  written_eq : history.written ++ unsent = wire history.decoded
  unsent_le : unsent.length ≤ packetSize
  decoded_eq : history.decoded.length = history.echoes + if unsent = [] then 0 else 1

variable {history : EchoHistory} {rest unsent : List UInt8}

theorem agrees_empty : Agrees empty [] [] := ⟨rfl, by decide, rfl, by decide, rfl⟩

theorem Agrees.written_initial (hagrees : history.Agrees rest unsent) :
    history.written <+: history.received := by
  rw [hagrees.received_eq, ← hagrees.written_eq, List.append_assoc]
  exact List.prefix_append _ _

/-- A partial packet at the end is not counted. -/
theorem Agrees.length_decoded (hagrees : history.Agrees rest unsent) :
    history.decoded.length = history.received.length / packetSize := by
  have hrest := hagrees.rest_lt
  have hlength := congrArg List.length hagrees.received_eq
  rw [List.length_append, length_wire] at hlength
  simp only [packetSize] at hrest hlength ⊢
  omega

theorem Agrees.wire_decoded (hagrees : history.Agrees rest unsent) :
    wire history.decoded = history.received.take (packetSize * history.decoded.length) := by
  rw [hagrees.received_eq]
  exact (List.take_left' (length_wire history.decoded)).symm

/-- The echoes that are written in full are the whole packets among the written
bytes, unless the last echo is one that has only just been finished. -/
theorem Agrees.length_written (hagrees : history.Agrees rest unsent) :
    packetSize * history.echoes ≤ history.written.length ∧
      history.written.length < packetSize * (history.echoes + 1) := by
  have hunsent := hagrees.unsent_le
  have hdecoded := hagrees.decoded_eq
  have hlength := congrArg List.length hagrees.written_eq
  rw [List.length_append, length_wire, hdecoded] at hlength
  by_cases hnone : unsent = []
  · simp only [hnone, if_true, List.length_nil, packetSize] at hlength ⊢
    omega
  · have hpositive := List.length_pos_iff.mpr hnone
    simp only [hnone, if_false, packetSize] at hlength hunsent ⊢
    omega

/-- Between two echoes, what has been written is the beginning of what was
received, cut after the last echo. -/
theorem Agrees.written_of_settled (hagrees : history.Agrees rest unsent)
    (hsettled : history.decoded.length = history.echoes) :
    history.written = history.received.take (packetSize * history.echoes) := by
  have hnone : unsent = [] := by
    have hdecoded := hagrees.decoded_eq
    by_contra hsome
    rw [if_neg hsome] at hdecoded
    omega
  rw [← hsettled, ← hagrees.wire_decoded, ← hagrees.written_eq, hnone, List.append_nil]

end EchoHistory

/-! ## The echo loop keeps the streams in agreement -/

/-- How the history and the control point of the echo loop fit together. -/
def EchoAt (history : EchoHistory) : Drive → Prop
  | .loopHead => history.Agrees [] [] ∧ history.writeFailed = false
  | .receiving reader _ => history.Agrees reader.received [] ∧ history.writeFailed = false
  | .echoing unsent => history.Agrees [] unsent ∧ unsent ≠ [] ∧ history.writeFailed = false
  | .ended _ => ∃ rest unsent, history.Agrees rest unsent ∧
      (unsent ≠ [] → history.writeFailed = true)

/-- An echo is unfinished only while it is being written or after a failed
write. -/
theorem agrees_of_echoAt {history : EchoHistory} {drive : Drive} (hecho : EchoAt history drive) :
    ∃ rest unsent, history.Agrees rest unsent ∧
      (unsent ≠ [] → drive = .echoing unsent ∨ history.writeFailed = true) := by
  cases drive with
  | loopHead => exact ⟨[], [], hecho.1, fun hsome => absurd rfl hsome⟩
  | receiving reader deadline =>
      exact ⟨reader.received, [], hecho.1, fun hsome => absurd rfl hsome⟩
  | echoing unsent => exact ⟨[], unsent, hecho.1, fun _ => Or.inl rfl⟩
  | ended reason =>
      obtain ⟨rest, unsent, hagrees, hfailed⟩ := hecho
      exact ⟨rest, unsent, hagrees, fun hsome => Or.inr (hfailed hsome)⟩

section Drive

variable {F64 : Type} [WallClock F64] {heartbeatRecvTimeout : UInt64} {label : PeerLabel}
variable {startTs : F64} {drive drive' : Drive} {clock : Reading F64} {completion : Completion}
variable {updates : List (Update F64)} {history : EchoHistory}

omit [WallClock F64] in
theorem record_read {reader reader' : HeartbeatReader} {recv : Recv} {deadline : Instant}
    {outcome : Except ErrorKind (List UInt8)}
    (hread : reader.recvRead outcome = some (reader', recv)) :
    history.record (.receiving reader deadline) (.read outcome) =
      { history with
        received := history.received ++ outcome.toOption.getD []
        decoded := history.decoded ++ recv.packets } := by
  rw [EchoHistory.record, hread]
  rfl

omit [WallClock F64] in
/-- A read that ends the session leaves the streams as they were. -/
theorem agrees_of_read_error {reader reader' : HeartbeatReader} {error : ErrorKind}
    {deadline : Instant} {outcome : Except ErrorKind (List UInt8)}
    (hagrees : history.Agrees reader.received [])
    (hread : reader.recvRead outcome = some (reader', .returned (.error error))) :
    (history.record (.receiving reader deadline) (.read outcome)).Agrees reader.received [] := by
  have hsame : history.record (.receiving reader deadline) (.read outcome) = history := by
    rw [record_read hread]
    cases outcome with
    | error kind => simp [Except.toOption]
    | ok chunk =>
        by_cases hchunk : chunk = []
        · simp [hchunk, Except.toOption]
        · rcases HeartbeatReader.recvRead_ok_cases hchunk hread with
            ⟨hrecv, -, -⟩ | ⟨heartbeat, hrecv, -, -, -⟩
          · cases hrecv
          · cases hrecv
  rw [hsame]
  exact hagrees

omit [WallClock F64] in
/-- A read that does not complete the packet moves its bytes to the reader. -/
theorem agrees_of_read_unfinished {reader reader' : HeartbeatReader} {deadline : Instant}
    {outcome : Except ErrorKind (List UInt8)}
    (hagrees : history.Agrees reader.received [])
    (hread : reader.recvRead outcome = some (reader', .reading)) :
    (history.record (.receiving reader deadline) (.read outcome)).Agrees reader'.received [] := by
  cases outcome with
  | error kind => simp [HeartbeatReader.recvRead] at hread
  | ok chunk =>
      have haligned := HeartbeatReader.recvRead_aligned hread
      rw [Recv.packets_reading, wire_nil, List.nil_append] at haligned
      have hlt : reader.filled < packetSize := reader.length_received ▸ hagrees.rest_lt
      rw [record_read hread, Recv.packets_reading, List.append_nil]
      exact {
        received_eq := by
          simp only [Except.toOption, Option.getD_some]
          rw [hagrees.received_eq, List.append_assoc, haligned]
        rest_lt := by
          rw [reader'.length_received]
          exact HeartbeatReader.recvRead_filled_lt hlt hread
        written_eq := hagrees.written_eq
        unsent_le := hagrees.unsent_le
        decoded_eq := hagrees.decoded_eq }

omit [WallClock F64] in
/-- A read that completes the packet leaves its sixteen bytes to be echoed. -/
theorem agrees_of_read_packet {reader reader' : HeartbeatReader} {deadline : Instant}
    {outcome : Except ErrorKind (List UInt8)} {heartbeat : Heartbeat}
    (hagrees : history.Agrees reader.received [])
    (hread : reader.recvRead outcome = some (reader', .returned (.ok heartbeat))) :
    (history.record (.receiving reader deadline) (.read outcome)).Agrees []
      heartbeat.frame := by
  cases outcome with
  | error kind => simp [HeartbeatReader.recvRead] at hread
  | ok chunk =>
      have hchunk : chunk ≠ [] := by
        rintro rfl
        simp [HeartbeatReader.recvRead] at hread
      rcases HeartbeatReader.recvRead_ok_cases hchunk hread with
        ⟨hrecv, -, -⟩ | ⟨heartbeat', hrecv, hframe, -, -⟩
      · cases hrecv
      · cases hrecv
        have hnonempty : heartbeat.frame ≠ [] :=
          List.ne_nil_of_length_pos (by rw [heartbeat.length_frame]; decide)
        have hdecoded := hagrees.decoded_eq
        rw [if_pos rfl] at hdecoded
        rw [record_read hread, Recv.packets_ok]
        exact {
          received_eq := by
            simp only [Except.toOption, Option.getD_some]
            rw [hagrees.received_eq, wire_append, wire_singleton, hframe, List.append_assoc,
              List.append_nil]
          rest_lt := by decide
          written_eq := by
            have hwritten := hagrees.written_eq
            rw [List.append_nil] at hwritten
            rw [wire_append, wire_singleton, ← hwritten]
          unsent_le := le_of_eq heartbeat.length_frame
          decoded_eq := by
            rw [if_neg hnonempty, List.length_append, hdecoded]
            rfl }

omit [WallClock F64] in
/-- A write moves bytes from the rest of the echo to the written ones. -/
theorem agrees_of_write {unsent : List UInt8} {count : ℕ} (hagrees : history.Agrees [] unsent)
    (hunsent : unsent ≠ []) (hcount : count ≤ unsent.length) :
    (history.record (.echoing unsent) (.wrote (.ok count))).Agrees [] (unsent.drop count) := by
  have hdecoded := hagrees.decoded_eq
  rw [if_neg hunsent] at hdecoded
  exact {
    received_eq := hagrees.received_eq
    rest_lt := hagrees.rest_lt
    written_eq := by
      simp only [EchoHistory.record]
      rw [List.append_assoc, List.take_append_drop, hagrees.written_eq]
    unsent_le := by
      rw [List.length_drop]
      exact (Nat.sub_le _ _).trans hagrees.unsent_le
    decoded_eq := by
      simp only [EchoHistory.record, List.drop_eq_nil_iff]
      rw [hdecoded]
      split <;> split <;> omega }

/-- How many heartbeats a list of updates counts for a label. -/
def heartbeatsCounted (label : PeerLabel) (updates : List (Update F64)) : ℕ :=
  (updates.map (Update.counterWeight .serverHeartbeatsRx label)).sum

theorem heartbeatsCounted_heartbeatUpdates (now : F64) :
    heartbeatsCounted label (heartbeatUpdates label startTs now) = 1 := by
  simp [heartbeatsCounted, heartbeatUpdates, Update.counterWeight]

/-- A step of the echo loop keeps the streams in agreement and counts each
packet when it is decoded. -/
theorem driveSession_echoAt (hecho : EchoAt history drive)
    (hstep : driveSession heartbeatRecvTimeout label startTs drive clock completion =
      some (drive', updates)) :
    EchoAt (history.record drive completion) drive' ∧
      (history.record drive completion).decoded.length =
        history.decoded.length + heartbeatsCounted label updates := by
  unfold driveSession at hstep
  split at hstep
  · cases hstep
    exact ⟨hecho, rfl⟩
  · split at hstep <;> cases hstep
    exact ⟨⟨_, _, hecho.1, fun hsome => absurd rfl hsome⟩, rfl⟩
  · next reader deadline outcome =>
      obtain ⟨hagrees, hfailed⟩ := hecho
      split at hstep
      · cases hstep
      · next reader' hread =>
          cases hstep
          exact ⟨⟨agrees_of_read_unfinished hagrees hread, by rw [record_read hread]; exact hfailed⟩,
            by simp [record_read hread, heartbeatsCounted]⟩
      · next error hread =>
          cases hstep
          exact ⟨⟨_, _, agrees_of_read_error hagrees hread, fun hsome => absurd rfl hsome⟩,
            by simp [record_read hread, heartbeatsCounted]⟩
      · next heartbeat hread =>
          cases hstep
          have hnonempty : heartbeat.frame ≠ [] :=
            List.ne_nil_of_length_pos (by rw [heartbeat.length_frame]; decide)
          refine ⟨⟨agrees_of_read_packet hagrees hread, hnonempty,
            by rw [record_read hread]; exact hfailed⟩, ?_⟩
          rw [heartbeatsCounted_heartbeatUpdates, record_read hread]
          simp
  · next unsent count =>
      obtain ⟨hagrees, hunsent, hfailed⟩ := hecho
      split at hstep
      · cases hstep
      · next hvalid =>
          have hwritten := agrees_of_write hagrees hunsent (by omega : count ≤ _)
          split at hstep <;> cases hstep
          · next hall =>
              rw [hall, List.drop_length] at hwritten
              exact ⟨⟨hall ▸ hwritten, hfailed⟩, rfl⟩
          · next hsome =>
              refine ⟨⟨hwritten, ?_, hfailed⟩, rfl⟩
              rw [Ne, List.drop_eq_nil_iff]
              omega
  · cases hstep
    obtain ⟨hagrees, -, -⟩ := hecho
    refine ⟨⟨[], _, ⟨hagrees.received_eq, hagrees.rest_lt, hagrees.written_eq,
      hagrees.unsent_le, hagrees.decoded_eq⟩, fun _ => rfl⟩, rfl⟩
  · cases hstep

end Drive

/-! ## One connection on its stream -/

/-- A connection, the metrics, and the history: the bytes the handshake took,
the label of the session, and the history of its echo loop. -/
structure ServerStream (F64 : Type) where
  connection : Connection F64
  metrics : Metrics F64
  handshake : List UInt8
  session : Option PeerLabel
  history : EchoHistory

section Stream

variable {F64 : Type} [UnicodeTables] [WallClock F64]

/-- A connection that has just been accepted. -/
def ServerStream.start (heartbeatRecvTimeout : UInt64) (metrics : Metrics F64) :
    ServerStream F64 :=
  ⟨⟨heartbeatRecvTimeout, .accepted⟩, metrics, [], none, EchoHistory.empty⟩

/-- The label of a session that is being driven. -/
def sessionLabel : Point F64 → Option PeerLabel
  | .driving label _ _ => some label
  | _ => none

/-- What a step adds to the bytes of the handshake. -/
def handshakeBytes : Point F64 → Completion → List UInt8
  | .handshake _ _, .read (.ok bytes) => bytes
  | _, _ => []

/-- What a step adds to the history of the echo loop. -/
def recordAt (history : EchoHistory) (completion : Completion) : Point F64 → EchoHistory
  | .driving _ _ drive => history.record drive completion
  | _ => history

/-- A step of the connection.  The updates of the straight-line code between
two await points are all made before the next one. -/
def step (nodeName : String) (state : ServerStream F64) (input : Reading F64 × Completion) :
    Option (ServerStream F64) :=
  (handleConnection nodeName state.metrics.serverPeers state.connection input.1 input.2).map
    fun (peers, connection, updates) =>
      { connection := connection
        metrics := Update.applyAll updates { state.metrics with serverPeers := peers }
        handshake := state.handshake ++ handshakeBytes state.connection.point input.2
        session := (sessionLabel connection.point).or state.session
        history := recordAt state.history input.2 state.connection.point }

/-- `server_heartbeats_rx` of a label. -/
def heartbeatsRx (metrics : Metrics F64) (label : PeerLabel) : ℕ :=
  (metrics.counter .serverHeartbeatsRx).valueOr 0 label

/-- The history fits the point the connection has reached. -/
def HistoryAt (point : Point F64) (session : Option PeerLabel) (history : EchoHistory) : Prop :=
  match point with
  | .driving label _ drive => session = some label ∧ EchoAt history drive
  | .closed (.ended reason) => session.isSome = true ∧ EchoAt history (.ended reason)
  | _ => session = none ∧ history = EchoHistory.empty

/-- The session has counted every packet it decoded, in addition to what the
metrics counted before. -/
def CountsDecoded (earlier metrics : Metrics F64) (session : Option PeerLabel)
    (history : EchoHistory) : Prop :=
  ∀ label, heartbeatsRx metrics label =
    heartbeatsRx earlier label + if session = some label then history.decoded.length else 0

variable {nodeName : String} {earlier metrics : Metrics F64} {state next : ServerStream F64}
variable {input : Reading F64 × Completion} {timeout : UInt64}
variable {session : Option PeerLabel} {history : EchoHistory}

omit [UnicodeTables] [WallClock F64] in
theorem historyAt_of_no_session {point : Point F64}
    (hpoint : point.BeforeSession ∨ point.Rejected) :
    HistoryAt point session history ↔ session = none ∧ history = EchoHistory.empty := by
  unfold HistoryAt
  split
  · simp [Point.BeforeSession, Point.Rejected] at hpoint
  · simp [Point.BeforeSession, Point.Rejected] at hpoint
  · exact Iff.rfl

omit [UnicodeTables] [WallClock F64] in
theorem sessionLabel_of_no_session {point : Point F64}
    (hpoint : point.BeforeSession ∨ point.Rejected) : sessionLabel point = none := by
  cases point with
  | driving => simp [Point.BeforeSession, Point.Rejected] at hpoint
  | accepted | handshake | registering | closed => rfl

omit [UnicodeTables] [WallClock F64] in
theorem recordAt_of_beforeSession {point : Point F64} (hpoint : point.BeforeSession)
    (completion : Completion) : recordAt history completion point = history := by
  cases point with
  | driving => simp [Point.BeforeSession] at hpoint
  | accepted | handshake | registering | closed => rfl

omit [UnicodeTables] [WallClock F64] in
theorem CountsDecoded.applyAll (hcounts : CountsDecoded earlier metrics session history)
    {session' : Option PeerLabel} {history' : EchoHistory} {peers : ServerPeers}
    {updates : List (Update F64)}
    (hadded : ∀ label,
      (if session' = some label then history'.decoded.length else 0) =
        (if session = some label then history.decoded.length else 0) +
          heartbeatsCounted label updates) :
    CountsDecoded earlier (Update.applyAll updates { metrics with serverPeers := peers })
      session' history' := by
  intro label
  have hrx := Update.counter_applyAll updates { metrics with serverPeers := peers }
    .serverHeartbeatsRx label
  rw [heartbeatsRx, hrx, hadded, ← Nat.add_assoc, ← hcounts label]
  rfl

omit [UnicodeTables] [WallClock F64] in
theorem heartbeatsCounted_startUpdates (label label' : PeerLabel) (startTs : F64) :
    heartbeatsCounted label (startUpdates label' startTs) = 0 := by
  simp [heartbeatsCounted, startUpdates, initDisconnectLabels, Update.counterWeight,
    Function.comp_def]

omit [UnicodeTables] [WallClock F64] in
theorem heartbeatsCounted_append_endUpdates (label label' : PeerLabel) (duration : F64)
    (reason : String) (updates : List (Update F64)) :
    heartbeatsCounted label (updates ++ endUpdates label' duration reason) =
      heartbeatsCounted label updates := by
  simp [heartbeatsCounted, endUpdates, Update.counterWeight]

omit [UnicodeTables] in
/-- A step of the echo loop counts nothing under another label. -/
theorem heartbeatsCounted_of_ne {label label' : PeerLabel} (hne : label' ≠ label)
    {heartbeatRecvTimeout : UInt64} {startTs : F64} {drive drive' : Drive}
    {clock : Reading F64} {completion : Completion} {updates : List (Update F64)}
    (hstep : driveSession heartbeatRecvTimeout label' startTs drive clock completion =
      some (drive', updates)) : heartbeatsCounted label updates = 0 := by
  rcases (driveSession_updates hstep).1 with rfl | rfl
  · rfl
  · simp [heartbeatsCounted, heartbeatUpdates, Update.counterWeight, hne]

section Step

variable {connection : Connection F64} {peers : ServerPeers} {updates : List (Update F64)}

/-- A step of a session that is being driven. -/
theorem historyAt_driving {label : PeerLabel} {startTs : F64} {drive : Drive}
    (hpoint : state.connection.point = .driving label startTs drive)
    (hhistory : HistoryAt state.connection.point state.session state.history)
    (hcounts : CountsDecoded earlier state.metrics state.session state.history)
    (hhandle : handleConnection nodeName state.metrics.serverPeers state.connection input.1
      input.2 = some (peers, connection, updates)) :
    HistoryAt connection.point ((sessionLabel connection.point).or state.session)
        (recordAt state.history input.2 state.connection.point) ∧
      CountsDecoded earlier
        (Update.applyAll updates { state.metrics with serverPeers := peers })
        ((sessionLabel connection.point).or state.session)
        (recordAt state.history input.2 state.connection.point) := by
  obtain ⟨drive', driveUpdates, hdrive, hafter⟩ := handleConnection_driving hpoint hhandle
  rw [hpoint] at hhistory ⊢
  obtain ⟨hsession, hecho⟩ := hhistory
  obtain ⟨hecho', hdecoded⟩ := driveSession_echoAt hecho hdrive
  have hsession' : (sessionLabel connection.point).or state.session = some label := by
    rcases hafter with ⟨reason, -, hpoint', -⟩ | ⟨hpoint', -⟩
    · rw [hpoint']
      exact hsession
    · rw [hpoint']
      rfl
  have hcounted : ∀ label', heartbeatsCounted label' updates =
      heartbeatsCounted label' driveUpdates := by
    intro label'
    rcases hafter with ⟨reason, -, -, rfl⟩ | ⟨-, rfl⟩
    · exact heartbeatsCounted_append_endUpdates _ _ _ _ _
    · rfl
  rw [hsession']
  constructor
  · rcases hafter with ⟨reason, rfl, hpoint', -⟩ | ⟨hpoint', -⟩
    · rw [hpoint']
      exact ⟨rfl, hecho'⟩
    · rw [hpoint']
      exact ⟨rfl, hecho'⟩
  · refine hcounts.applyAll fun label' => ?_
    rw [hcounted, hsession]
    by_cases hlabel : label = label'
    · subst hlabel
      rw [if_pos rfl, if_pos rfl]
      exact hdecoded
    · rw [heartbeatsCounted_of_ne hlabel hdrive]
      simp [hlabel]

end Step

/-- A step of a connection keeps its history in agreement with its point, and
its counter in agreement with its history. -/
theorem historyAt_step
    (hhistory : HistoryAt state.connection.point state.session state.history)
    (hcounts : CountsDecoded earlier state.metrics state.session state.history)
    (hstep : step nodeName state input = some next) :
    HistoryAt next.connection.point next.session next.history ∧
      CountsDecoded earlier next.metrics next.session next.history := by
  obtain ⟨⟨peers, connection, updates⟩, hhandle, rfl⟩ := Option.map_eq_some_iff.mp hstep
  dsimp only
  rcases handleConnection_cases hhandle with
    ⟨hbefore, hafter, rfl, rfl⟩ | ⟨peerName, hpoint, haccepted, rfl, hpoint', rfl⟩ |
      ⟨label, startTs, drive, -, hpoint, -⟩ | ⟨label, startTs, drive, -, hpoint, -⟩
  · obtain ⟨hsession, hempty⟩ := (historyAt_of_no_session (Or.inl hbefore)).mp hhistory
    rw [recordAt_of_beforeSession hbefore, sessionLabel_of_no_session hafter, Option.none_or]
    exact ⟨(historyAt_of_no_session hafter).mpr ⟨hsession, hempty⟩,
      hcounts.applyAll fun label => rfl⟩
  · have hbefore : state.connection.point.BeforeSession := by
      rw [hpoint]
      trivial
    obtain ⟨hsession, hempty⟩ := (historyAt_of_no_session (Or.inl hbefore)).mp hhistory
    rw [recordAt_of_beforeSession hbefore, hpoint', sessionLabel, Option.some_or, hempty]
    refine ⟨⟨rfl, EchoHistory.agrees_empty, rfl⟩, hcounts.applyAll fun label => ?_⟩
    rw [heartbeatsCounted_startUpdates, hsession]
    simp [EchoHistory.empty]
  · exact historyAt_driving hpoint hhistory hcounts hhandle
  · exact historyAt_driving hpoint hhistory hcounts hhandle

theorem historyAt_of_reachable
    (hreach : Reachable (step nodeName) (ServerStream.start timeout earlier) state) :
    HistoryAt state.connection.point state.session state.history ∧
      CountsDecoded earlier state.metrics state.session state.history := by
  refine hreach.invariant
    (fun state => HistoryAt state.connection.point state.session state.history ∧
      CountsDecoded earlier state.metrics state.session state.history) ?_ ?_
  · have hhistory : HistoryAt (Point.accepted : Point F64) none EchoHistory.empty := ⟨rfl, rfl⟩
    exact ⟨hhistory, fun _ => rfl⟩
  · intro state input next hstate hstep
    exact historyAt_step hstate.1 hstate.2 hstep

omit [UnicodeTables] [WallClock F64] in
/-- At every point the streams agree; an echo is unfinished only while it is
being written or after a failed write. -/
theorem agrees_of_historyAt {point : Point F64} (hhistory : HistoryAt point session history) :
    ∃ rest unsent, history.Agrees rest unsent ∧
      (unsent ≠ [] → (∃ label startTs, point = .driving label startTs (.echoing unsent)) ∨
        history.writeFailed = true) := by
  unfold HistoryAt at hhistory
  split at hhistory
  · next label startTs drive =>
      obtain ⟨-, hecho⟩ := hhistory
      obtain ⟨rest, unsent, hagrees, hunfinished⟩ := agrees_of_echoAt hecho
      refine ⟨rest, unsent, hagrees, fun hsome => ?_⟩
      rcases hunfinished hsome with rfl | hfailed
      · exact Or.inl ⟨label, startTs, rfl⟩
      · exact Or.inr hfailed
  · obtain ⟨-, rest, unsent, hagrees, hfailed⟩ := hhistory
    exact ⟨rest, unsent, hagrees, fun hsome => Or.inr (hfailed hsome)⟩
  · rw [hhistory.2]
    exact ⟨[], [], EchoHistory.agrees_empty, fun hsome => absurd rfl hsome⟩

/-- The server is a byte-exact echo.  At every await point of a connection, the
bytes written back are a prefix of the bytes received after the handshake; they
contain `echoes` whole packets, and between two echoes they are exactly that
many; the session has counted the whole packets among the received bytes, of
which at most one is not yet echoed. -/
theorem server_echoes_received_bytes
    (hreach : Reachable (step nodeName) (ServerStream.start timeout earlier) state) :
    state.history.written <+: state.history.received ∧
      (packetSize * state.history.echoes ≤ state.history.written.length ∧
        state.history.written.length < packetSize * (state.history.echoes + 1)) ∧
      (state.history.decoded.length = state.history.echoes →
        state.history.written =
          state.history.received.take (packetSize * state.history.echoes)) ∧
      (state.history.decoded.length = state.history.received.length / packetSize ∧
        wire state.history.decoded =
          state.history.received.take (packetSize * state.history.decoded.length)) ∧
      (∀ label, state.session = some label →
        heartbeatsRx state.metrics label =
          heartbeatsRx earlier label + state.history.decoded.length) ∧
      (state.history.decoded.length = state.history.echoes ∨
        state.history.decoded.length = state.history.echoes + 1 ∧
          ((∃ label startTs unsent,
              state.connection.point = .driving label startTs (.echoing unsent)) ∨
            state.history.writeFailed = true)) := by
  obtain ⟨hhistory, hcounts⟩ := historyAt_of_reachable hreach
  obtain ⟨rest, unsent, hagrees, hunfinished⟩ := agrees_of_historyAt hhistory
  refine ⟨hagrees.written_initial, hagrees.length_written, hagrees.written_of_settled,
    ⟨hagrees.length_decoded, hagrees.wire_decoded⟩, ?_, ?_⟩
  · intro label hsession
    rw [hcounts label, if_pos hsession]
  · have hdecoded := hagrees.decoded_eq
    by_cases hnone : unsent = []
    · rw [if_pos hnone] at hdecoded
      exact Or.inl hdecoded
    · rw [if_neg hnone] at hdecoded
      refine Or.inr ⟨hdecoded, ?_⟩
      rcases hunfinished hnone with ⟨label, startTs, hpoint⟩ | hfailed
      · exact Or.inl ⟨label, startTs, unsent, hpoint⟩
      · exact Or.inr hfailed

end Stream

section Witness

local instance : UnicodeTables := asciiTables

/-- A packet with a NaN timestamp, echoed in two writes, and a partial one. -/
theorem server_echoes_received_bytes_nan :
    ∃ state : ServerStream WholeSeconds,
      state.history.received = List.replicate 24 0xff ∧
        state.history.written <+: state.history.received ∧
        state.history.written = state.history.received.take (packetSize * 1) := by
  obtain ⟨state, hrun, hview⟩ := Option.map_eq_some_iff.mp (show
    (run (step "srv") (ServerStream.start 15 (Metrics.new WholeSeconds))
      ([.ready, .read (.ok [0, 0, 0, 3]), .read (.ok [99, 108, 105]), .ready,
        .ready, .read (.ok (List.replicate 9 0xff)), .read (.ok (List.replicate 7 0xff)),
        .wrote (.ok 5), .wrote (.ok 11), .ready, .read (.ok (List.replicate 8 0xff))].map
          fun completion => (⟨0, ⟨0⟩⟩, completion))).map (fun state =>
        (state.history.received, state.history.decoded.length, state.history.echoes)) =
      some (List.replicate 24 0xff, 1, 1) by decide)
  obtain ⟨hreceived, hview⟩ := Prod.mk.inj hview
  obtain ⟨hdecoded, hechoes⟩ := Prod.mk.inj hview
  obtain ⟨hinitial, -, hsettled, -⟩ :=
    server_echoes_received_bytes (Reachable.of_run hrun)
  exact ⟨state, hreceived, hinitial, hechoes ▸ hsettled (hdecoded.trans hechoes.symm)⟩

end Witness

end TcpMonitor.ByteEcho
