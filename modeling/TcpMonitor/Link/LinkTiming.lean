import TcpMonitor.Core.PunctualChannel
import TcpMonitor.Client.EchoTiming
import TcpMonitor.EndToEnd
import TcpMonitor.Protocol.HandshakeParsing

/-!
# The timing of a link

One session from end to end on one monotonic clock.  The network delivers every
byte within a bounded delay, no operation fails, and both tasks run on as soon
as they can.  Heartbeats are then written on the beat, and neither side is ever
at the deadline of what it waits for.
-/

namespace TcpMonitor.LinkTiming

open TcpMonitor.TransitionSystem
open TcpMonitor.FifoChannel
open TcpMonitor.PunctualChannel
open TcpMonitor.Runtime
open TcpMonitor.Configuration
open TcpMonitor.LabelFamily
open TcpMonitor.MetricFamilies
open TcpMonitor.HeartbeatPacket
open TcpMonitor.HeartbeatReading
open TcpMonitor.Handshake
open TcpMonitor.PeerNames
open TcpMonitor.InboundSession
open TcpMonitor.ByteEcho
open TcpMonitor.Session
open TcpMonitor.SessionLog
open TcpMonitor.FaithfulEcho
open TcpMonitor.EndToEnd

/-- A link and the instants at which the bytes of its two channels were
written. -/
structure TimedLink (F64 : Type) where
  link : Link F64
  toServerAt : List Instant
  toClientAt : List Instant

/-- The longest time that a byte is in flight in each direction. -/
structure Delays where
  toServer : Duration
  toClient : Duration

section Waiting

variable {F64 : Type}

/-- The client waits: for the next heartbeat to be due, or for the rest of an
echo when it has read all that was delivered. -/
def clientWaits (channel : Channel UInt8) (later : Instant) : SessionPoint F64 → Bool
  | .sleeping vars => later ≤ vars.nextSend
  | .waiting _ _ _ _ _ => channel.delivered = []
  | .returned _ => true
  | .handshake _ | .loopHead _ | .sending _ _ _ _ => false

/-- The server waits for more bytes when it has read all that was delivered. -/
def serverWaits (channel : Channel UInt8) : Point F64 → Bool
  | .handshake _ _ | .driving _ _ (.receiving _ _) => channel.delivered = []
  | .closed _ => true
  | _ => false

/-- What an awaited operation completes with when nothing fails and nobody
cancels. -/
def unhindered : Completion → Bool
  | .ready | .elapsed | .wrote (.ok _) => true
  | .read (.ok chunk) => chunk ≠ []
  | _ => false

end Waiting

namespace TimedLink

variable {F64 : Type}

/-- The client has connected and the server has accepted. -/
def start (nodeName : String) (timeout : UInt64) (clientMetrics serverMetrics : Metrics F64) :
    TimedLink F64 :=
  ⟨Link.start nodeName timeout clientMetrics serverMetrics, [], []⟩

/-- Time passes only while both tasks wait and no byte in flight becomes too
old; both ends read one monotonic clock. -/
def allowed (delays : Delays) (state : TimedLink F64) : LinkEvent F64 → Bool
  | .tick later =>
      clientWaits state.link.toClient later state.link.client.point &&
        serverWaits state.link.toServer state.link.server.connection.point &&
        (underway state.link.toServer state.toServerAt).all
          (fun instant => later ≤ instant + delays.toServer) &&
        (underway state.link.toClient state.toClientAt).all
          (fun instant => later ≤ instant + delays.toClient)
  | .client _ completion => unhindered completion
  | .server clock completion => clock.now = state.link.now ∧ unhindered completion
  | .deliverToServer _ | .deliverToClient _ => true

/-- How many bytes an event puts on the channel to the server. -/
def sentToServer (link : Link F64) : LinkEvent F64 → ℕ
  | .client _ completion => (clientBytes link.client.point completion).length
  | _ => 0

/-- How many bytes an event puts on the channel to the client. -/
def sentToClient (link : Link F64) : LinkEvent F64 → ℕ
  | .server _ completion => (serverBytes link.server.connection.point completion).length
  | _ => 0

def step [UnicodeTables] [WallClock F64] (nodeName peerName serverName : String)
    (clientCfg : ClientConfig) (delays : Delays) (state : TimedLink F64) (event : LinkEvent F64) :
    Option (TimedLink F64) :=
  if state.allowed delays event then
    (state.link.step nodeName peerName serverName clientCfg event).map fun link =>
      { link := link
        toServerAt := state.toServerAt ++
          List.replicate (sentToServer state.link event) state.link.now
        toClientAt := state.toClientAt ++
          List.replicate (sentToClient state.link event) state.link.now }
  else none

end TimedLink

/-- What the delays must leave room for: an echo within an interval, the next
heartbeat within the receive timeout, and the handshake within its own. -/
structure WithinLimits (delays : Delays) (interval timeout : Duration) : Prop where
  round_trip : delays.toServer + delays.toClient < interval
  next_heartbeat : delays.toServer + interval < timeout
  handshake : delays.toServer < fromSecs handshakeTimeoutSecs

/-! ## On the beat -/

section OnBeat

variable {F64 : Type}

/-- When the byte at a position of the stream to the server is written: the
handshake at once, and heartbeat `k` after `k` intervals. -/
def beat (nodeName : String) (interval : Duration) (position : ℕ) : Instant :=
  (position - (sendHandshake nodeName).length) / packetSize * interval

/-- The client has written `count` heartbeats, the next one is due an interval
after the last, and none has been missed. -/
def ClientOnBeat (interval : Duration) (now : Instant) (count : ℕ) : SessionPoint F64 → Prop
  | .handshake _ => now = 0
  | .loopHead vars | .sleeping vars =>
      vars.nextSend = count * interval ∧ now ≤ count * interval ∧ vars.consecutiveMissed = 0
  | .sending vars _ _ unsent =>
      vars.nextSend = (count + 1) * interval ∧ now = count * interval ∧
        unsent.length ≤ packetSize ∧ vars.consecutiveMissed = 0
  | .waiting vars _ _ deadline _ =>
      vars.nextSend = count * interval ∧ deadline = count * interval ∧
        vars.consecutiveMissed = 0
  | .returned _ => False

/-- The server has decoded `count` heartbeats.  The echo of the last one is
written as soon as it is there, and the deadline of the next leaves the receive
timeout after the beat of the last. -/
def ServerOnBeat [UnicodeTables] (nodeName : String) (delays : Delays)
    (interval timeout : Duration) (now : Instant) (count : ℕ) : Point F64 → Prop
  | .accepted => now = 0
  | .handshake _ deadline => deadline = fromSecs handshakeTimeoutSecs
  | .registering peerName =>
      peerName = HandshakeParsing.peerName ((asBytes nodeName).take maxHandshakeNameLen) ∧
        now ≤ delays.toServer
  | .driving _ _ .loopHead => True
  | .driving _ _ (.receiving _ deadline) => count * interval + timeout ≤ deadline + interval
  | .driving _ _ (.echoing _) => now + interval ≤ count * interval + delays.toServer
  | .driving _ _ (.ended _) | .closed _ => False

/-- The whole link is on the beat. -/
structure OnBeat [UnicodeTables] [WallClock F64] (nodeName serverName : String)
    (timeout : UInt64) (serverMetrics : Metrics F64) (delays : Delays) (interval : Duration)
    (state : TimedLink F64) : Prop where
  agrees : Agreement nodeName serverName timeout serverMetrics interval state.link
  toServer : Punctual delays.toServer state.link.now state.toServerAt
    (state.link.announced ++ state.link.client.log.written)
    (state.link.server.handshake ++ state.link.server.history.received)
  toClient : Punctual delays.toClient state.link.now state.toClientAt
    state.link.server.history.written state.link.client.log.received
  client : ClientOnBeat interval state.link.now state.link.client.log.sent.length
    state.link.client.point
  server : ServerOnBeat nodeName delays interval (fromSecs timeout) state.link.now
    state.link.server.history.decoded.length state.link.server.connection.point
  matched : ∀ round ∈ state.link.client.log.rounds, round.Matched
  sentAt : ∀ position instant, state.toServerAt[position]? = some instant →
    instant = beat nodeName interval position
  echoedAt : ∀ position instant, state.toClientAt[position]? = some instant →
    instant ≤ position / packetSize * interval + delays.toServer
  recvTimeout : state.link.server.connection.heartbeatRecvTimeout = timeout
  peers : state.link.server.connection.point.BeforeSession →
    state.link.server.metrics.serverPeers = serverMetrics.serverPeers

variable [UnicodeTables] [WallClock F64] {nodeName peerName serverName : String}
variable {timeout : UInt64} {serverMetrics : Metrics F64} {delays : Delays}
variable {interval : Duration} {state next : TimedLink F64}

theorem onBeat_start (clientMetrics : Metrics F64) :
    OnBeat nodeName serverName timeout serverMetrics delays interval
      (TimedLink.start nodeName timeout clientMetrics serverMetrics) where
  agrees := agreement_start clientMetrics
  toServer := Punctual.empty
  toClient := Punctual.empty
  client := rfl
  server := rfl
  matched := by simp [TimedLink.start, Link.start, ClientStream.start, Log.empty]
  sentAt := by simp [TimedLink.start]
  echoedAt := by simp [TimedLink.start]
  recvTimeout := rfl
  peers := fun _ => rfl

/-! ### Where the two streams stand -/

/-- A client has announced its whole name, or no time has passed yet. -/
theorem OnBeat.announced_cases
    (hinv : OnBeat nodeName serverName timeout serverMetrics delays interval state) :
    (∃ unsent, state.link.client.point = .handshake unsent ∧
        state.link.announced ++ unsent = sendHandshake nodeName ∧
        state.link.client.log = Log.empty F64 ∧ state.link.now = 0) ∨
      (∀ unsent, state.link.client.point ≠ .handshake unsent) ∧
        state.link.announced = sendHandshake nodeName := by
  have hannounced := hinv.agrees.announcedAt
  have hat := hinv.agrees.faithful.at_point
  have hclient := hinv.client
  cases hpoint : state.link.client.point with
  | handshake unsent =>
      rw [hpoint] at hannounced hat hclient
      exact Or.inl ⟨unsent, rfl, hannounced, hat, hclient⟩
  | loopHead | sleeping | sending | waiting =>
      rw [hpoint] at hannounced
      exact Or.inr ⟨by simp, hannounced⟩
  | returned =>
      rw [hpoint] at hclient
      exact hclient.elim

/-- A client that waits for an echo has announced its whole name. -/
theorem OnBeat.announced_of_waiting
    (hinv : OnBeat nodeName serverName timeout serverMetrics delays interval state)
    {vars : SessionVars F64} {sentSeq : UInt64} {sendTs : F64} {deadline : Instant}
    {gotEcho : Bool}
    (hpoint : state.link.client.point = .waiting vars sentSeq sendTs deadline gotEcho) :
    state.link.announced = sendHandshake nodeName := by
  rcases hinv.announced_cases with ⟨unsent, hhandshake, -⟩ | ⟨-, hannounced⟩
  · rw [hpoint] at hhandshake
    cases hhandshake
  · exact hannounced

omit [UnicodeTables] in
/-- The first four bytes of a handshake. -/
theorem header_of_initial {name : String} {header tail : List UInt8} (hlength : header.length = 4)
    (hinitial : header <+: sendHandshake name ++ tail) :
    header = BigEndian.encode 4 ((asBytes name).take maxHandshakeNameLen).length := by
  rw [sendHandshake_eq_take, List.append_assoc] at hinitial
  have hsame := List.prefix_of_prefix_length_le hinitial (List.prefix_append _ _)
    (by rw [hlength, BigEndian.length_encode])
  exact hsame.eq_of_length (by rw [hlength, BigEndian.length_encode])

omit [UnicodeTables] in
/-- A reader that waits for more of a handshake has not read all of it. -/
theorem consumed_lt_of_waiting {name : String} {reader : HandshakeReader} {tail : List UInt8}
    (hwaiting : reader.Waiting) (hinitial : reader.consumed <+: sendHandshake name ++ tail) :
    reader.consumed.length < (sendHandshake name).length := by
  have hmax : ((asBytes name).take maxHandshakeNameLen).length ≤ maxHandshakeNameLen :=
    List.length_take_le _ _
  rw [sendHandshake_eq_take, List.length_append, BigEndian.length_encode]
  cases reader with
  | length received =>
      simp only [HandshakeReader.Waiting] at hwaiting
      simp only [HandshakeReader.consumed]
      omega
  | name len received =>
      obtain ⟨hlen, hreceived⟩ := hwaiting
      have hheader := header_of_initial (BigEndian.length_encode 4 len)
        ((List.prefix_append _ _).trans hinitial)
      have hsame : len = ((asBytes name).take maxHandshakeNameLen).length := by
        simp only [maxHandshakeNameLen] at hlen hmax ⊢
        exact BigEndian.eq_of_encode_eq (by omega) (by omega) hheader
      simp only [HandshakeReader.consumed, List.length_append, BigEndian.length_encode]
      omega

/-- What the server has taken is a prefix of the handshake and the heartbeats
written after it. -/
theorem OnBeat.taken_initial
    (hinv : OnBeat nodeName serverName timeout serverMetrics delays interval state) :
    state.link.server.handshake ++ state.link.server.history.received <+:
      sendHandshake nodeName ++ state.link.client.log.written :=
  hinv.agrees.toServer.taken_initial.trans
    (hinv.agrees.announcedAt.initial hinv.agrees.faithful.at_point)

/-- A server that drives its session has read the whole handshake. -/
theorem OnBeat.handshake_eq
    (hinv : OnBeat nodeName serverName timeout serverMetrics delays interval state)
    {label : PeerLabel} {startTs : F64} {drive : Drive}
    (hpoint : state.link.server.connection.point = .driving label startTs drive) :
    state.link.server.handshake = sendHandshake nodeName := by
  have hat := hinv.agrees.handshakeAt
  rw [hpoint] at hat
  obtain ⟨bytes, hlength, hbytes⟩ := hat
  have hinitial := hinv.taken_initial
  rw [hbytes] at hinitial ⊢
  exact (handshake_of_initial hlength hinitial).1

/-- While the server has not taken all that the client has written, no more
time has passed since the beat of the next byte than it may be in flight. -/
theorem OnBeat.now_le_of_untaken
    (hinv : OnBeat nodeName serverName timeout serverMetrics delays interval state)
    (hlt : (state.link.server.handshake ++ state.link.server.history.received).length <
      (state.link.announced ++ state.link.client.log.written).length) :
    state.link.now ≤ beat nodeName interval
        (state.link.server.handshake ++ state.link.server.history.received).length +
      delays.toServer := by
  obtain ⟨instant, hget, hnow⟩ := hinv.toServer.le_of_untaken le_rfl hlt
  rwa [hinv.sentAt _ instant hget] at hnow

/-- The same, by the number of packets that the server has decoded. -/
theorem OnBeat.now_le_of_driving
    (hinv : OnBeat nodeName serverName timeout serverMetrics delays interval state)
    {label : PeerLabel} {startTs : F64} {drive : Drive} {rest : List UInt8}
    (hpoint : state.link.server.connection.point = .driving label startTs drive)
    (hreceived : state.link.server.history.received =
      wire state.link.server.history.decoded ++ rest)
    (hrest : rest.length < packetSize)
    (hlt : (state.link.server.handshake ++ state.link.server.history.received).length <
      (state.link.announced ++ state.link.client.log.written).length) :
    state.link.now ≤
      state.link.server.history.decoded.length * interval + delays.toServer := by
  have hnow := hinv.now_le_of_untaken hlt
  rw [beat, List.length_append, hinv.handshake_eq hpoint, Nat.add_sub_cancel_left, hreceived,
    List.length_append, length_wire, Nat.mul_add_div (by decide), Nat.div_eq_of_lt hrest,
    Nat.add_zero] at hnow
  exact hnow

/-- A server that waits for the handshake has been given no time beyond the
delay. -/
theorem OnBeat.now_le_of_handshake
    (hinv : OnBeat nodeName serverName timeout serverMetrics delays interval state)
    {reader : HandshakeReader} {deadline : Instant}
    (hpoint : state.link.server.connection.point = .handshake reader deadline) :
    state.link.now ≤ delays.toServer := by
  have hat := hinv.agrees.handshakeAt
  have hhistory := hinv.agrees.historyAt
  have hinitial := hinv.taken_initial
  rw [hpoint] at hat hhistory
  obtain ⟨hwaiting, htaken⟩ := hat
  obtain ⟨-, hempty⟩ := hhistory
  rw [htaken, hempty, EchoHistory.empty, List.append_nil] at hinitial
  have hshort := consumed_lt_of_waiting hwaiting hinitial
  rcases hinv.announced_cases with ⟨unsent, -, -, -, hnow⟩ | ⟨-, hannounced⟩
  · rw [hnow]
    exact Nat.zero_le _
  · have hnow := hinv.now_le_of_untaken (by
      rw [htaken, hempty, hannounced]
      simp only [EchoHistory.empty, List.append_nil, List.length_append]
      omega)
    rw [htaken, hempty, beat, EchoHistory.empty, List.append_nil,
      Nat.sub_eq_zero_of_le hshort.le, Nat.zero_div, Nat.zero_mul, Nat.zero_add] at hnow
    exact hnow

/-! ### No deadline is reached -/

/-- While echo `k` of a heartbeat that was sent is not written in full, no more
time has passed since its beat than the heartbeat may be in flight. -/
theorem OnBeat.now_le_of_unechoed
    (hinv : OnBeat nodeName serverName timeout serverMetrics delays interval state) {k : ℕ}
    (hannounced : state.link.announced = sendHandshake nodeName)
    (hwritten : packetSize * (k + 1) ≤ state.link.client.log.written.length)
    (hechoed : state.link.server.history.written.length < packetSize * (k + 1)) :
    state.link.now ≤ k * interval + delays.toServer := by
  have hserver := hinv.server
  have hhistory := hinv.agrees.historyAt
  have hcount : ∀ {count : ℕ}, count ≤ k → count * interval ≤ k * interval :=
    Nat.mul_le_mul_right interval
  -- a session that has nothing left to echo has not taken heartbeat `k` either
  have hidle : ∀ {label startTs drive} {rest : List UInt8},
      state.link.server.connection.point = .driving label startTs drive →
      state.link.server.history.Agrees rest [] →
      state.link.now ≤ k * interval + delays.toServer := by
    intro label startTs drive rest hpoint hagrees
    have hechoes := congrArg List.length hagrees.written_eq
    rw [List.append_nil, length_wire] at hechoes
    have hle : state.link.server.history.decoded.length ≤ k := by
      rw [hechoes] at hechoed
      exact Nat.lt_succ_iff.mp (Nat.lt_of_mul_lt_mul_left hechoed)
    have hnow := hinv.now_le_of_driving hpoint hagrees.received_eq hagrees.rest_lt (by
      have hrest := hagrees.rest_lt
      have hmul := Nat.mul_le_mul_left packetSize hle
      rw [Nat.mul_add] at hwritten
      rw [hinv.handshake_eq hpoint, hannounced, hagrees.received_eq]
      simp only [List.length_append, length_wire]
      omega)
    exact hnow.trans (Nat.add_le_add_right (hcount hle) _)
  cases hpoint : state.link.server.connection.point with
  | accepted =>
      rw [hpoint] at hserver
      rw [show state.link.now = 0 from hserver]
      exact Nat.zero_le _
  | handshake => exact (hinv.now_le_of_handshake hpoint).trans (Nat.le_add_left _ _)
  | registering =>
      rw [hpoint] at hserver
      exact hserver.2.trans (Nat.le_add_left _ _)
  | driving label startTs drive =>
      rw [hpoint] at hserver hhistory
      cases drive with
      | loopHead => exact hidle hpoint hhistory.2.1
      | receiving => exact hidle hpoint hhistory.2.1
      | echoing unsent =>
          obtain ⟨-, hagrees, hunsent, -⟩ := hhistory
          have hdecoded := hagrees.decoded_eq
          rw [if_neg hunsent] at hdecoded
          have hechoes : state.link.server.history.echoes ≤ k :=
            Nat.lt_succ_iff.mp (Nat.lt_of_mul_lt_mul_left
              (hagrees.length_written.1.trans_lt hechoed))
          refine Nat.le_of_add_le_add_right (b := interval) ?_
          calc state.link.now + interval
              ≤ (state.link.server.history.echoes + 1) * interval + delays.toServer :=
                hdecoded ▸ hserver
            _ = state.link.server.history.echoes * interval + delays.toServer + interval := by
                rw [Nat.add_mul, Nat.one_mul, Nat.add_right_comm]
            _ ≤ k * interval + delays.toServer + interval :=
                Nat.add_le_add_right (Nat.add_le_add_right (hcount hechoes) _) _
      | ended => exact hserver.elim
  | closed =>
      rw [hpoint] at hserver
      exact hserver.elim

/-- A client does not wait for an echo longer than it takes a heartbeat to go
there and back. -/
theorem OnBeat.now_le_round_trip
    (hinv : OnBeat nodeName serverName timeout serverMetrics delays interval state)
    {vars : SessionVars F64} {sentSeq : UInt64} {sendTs : F64} {deadline : Instant}
    {gotEcho : Bool}
    (hpoint : state.link.client.point = .waiting vars sentSeq sendTs deadline gotEcho) :
    state.link.now + interval ≤ deadline + (delays.toServer + delays.toClient) := by
  have hfaithful := hinv.agrees.faithful
  have hclient := hinv.client
  have hannounced := hinv.announced_of_waiting hpoint
  rw [hpoint] at hfaithful hclient
  obtain ⟨hsent, -⟩ := position_of_waiting hfaithful.at_point
  obtain ⟨⟨-, -, hwritten⟩, -⟩ := hfaithful.at_point
  have hread := EchoTiming.received_le_lastByte hfaithful
  obtain ⟨-, hdeadline, -⟩ := hclient
  rw [hdeadline, hsent, Nat.add_mul, Nat.one_mul, Nat.add_right_comm]
  refine Nat.add_le_add_right ?_ _
  by_cases hechoed : lastByte state.link.client.log.rounds.length <
      state.link.server.history.written.length
  · obtain ⟨instant, hget, hnow⟩ := hinv.toClient.le_of_untaken hread hechoed
    have hinstant := hinv.echoedAt _ instant hget
    rw [lastByte, Nat.mul_add_div (by decide), Nat.div_eq_of_lt (by decide), Nat.add_zero]
      at hinstant
    calc state.link.now
        ≤ instant + delays.toClient := hnow
      _ ≤ state.link.client.log.rounds.length * interval + delays.toServer + delays.toClient :=
          Nat.add_le_add_right hinstant _
      _ = state.link.client.log.rounds.length * interval +
            (delays.toServer + delays.toClient) := Nat.add_assoc _ _ _
  · have hnow := hinv.now_le_of_unechoed (k := state.link.client.log.rounds.length) hannounced
      (by rw [hwritten, length_wire, hsent])
      (by rw [lastByte] at hechoed; simp only [packetSize] at hechoed ⊢; omega)
    exact hnow.trans (Nat.add_le_add_left (Nat.le_add_right _ _) _)

/-- A client that waits for an echo is before its deadline. -/
theorem OnBeat.now_lt_deadline
    (hinv : OnBeat nodeName serverName timeout serverMetrics delays interval state)
    (hlimits : WithinLimits delays interval (fromSecs timeout))
    {vars : SessionVars F64} {sentSeq : UInt64} {sendTs : F64} {deadline : Instant}
    {gotEcho : Bool}
    (hpoint : state.link.client.point = .waiting vars sentSeq sendTs deadline gotEcho) :
    state.link.now < deadline :=
  Nat.lt_of_add_lt_add_right
    ((hinv.now_le_round_trip hpoint).trans_lt (Nat.add_lt_add_left hlimits.round_trip _))

/-- No client is past the beat of the heartbeat that it sends next. -/
theorem OnBeat.now_le
    (hinv : OnBeat nodeName serverName timeout serverMetrics delays interval state)
    (hlimits : WithinLimits delays interval (fromSecs timeout)) :
    state.link.now ≤ state.link.client.log.sent.length * interval := by
  have hclient := hinv.client
  cases hpoint : state.link.client.point with
  | handshake =>
      rw [hpoint] at hclient
      rw [show state.link.now = 0 from hclient]
      exact Nat.zero_le _
  | loopHead | sleeping =>
      rw [hpoint] at hclient
      exact hclient.2.1
  | sending =>
      rw [hpoint] at hclient
      exact hclient.2.1.le
  | waiting =>
      rw [hpoint] at hclient
      exact hclient.2.1 ▸ (hinv.now_lt_deadline hlimits hpoint).le
  | returned =>
      rw [hpoint] at hclient
      exact hclient.elim

/-- The heartbeats that have been sent are among the bytes written. -/
theorem OnBeat.sent_le_written
    (hinv : OnBeat nodeName serverName timeout serverMetrics delays interval state) :
    packetSize * state.link.client.log.sent.length ≤ state.link.client.log.written.length := by
  have hat := hinv.agrees.faithful.at_point
  have hclient := hinv.client
  cases hpoint : state.link.client.point with
  | handshake =>
      rw [hpoint] at hat
      rw [show state.link.client.log = Log.empty F64 from hat]
      exact Nat.le_refl 0
  | loopHead | sleeping =>
      rw [hpoint] at hat
      rw [hat.2.2.2, length_wire]
  | sending =>
      rw [hpoint] at hat hclient
      have hlength := congrArg List.length hat.2.2.2
      have hunsent := hclient.2.2.1
      rw [List.length_append, length_wire, List.length_append, Nat.mul_add] at hlength
      simp only [List.length_singleton, Nat.mul_one] at hlength
      omega
  | waiting =>
      rw [hpoint] at hat
      rw [hat.1.2.2, length_wire]
  | returned =>
      rw [hpoint] at hclient
      exact hclient.elim

/-- A server that waits for a packet is before its deadline. -/
theorem OnBeat.now_lt_recv_deadline
    (hinv : OnBeat nodeName serverName timeout serverMetrics delays interval state)
    (hlimits : WithinLimits delays interval (fromSecs timeout))
    {label : PeerLabel} {startTs : F64} {reader : HeartbeatReader} {deadline : Instant}
    (hpoint : state.link.server.connection.point =
      .driving label startTs (.receiving reader deadline)) :
    state.link.now < deadline := by
  have hserver := hinv.server
  have hhistory := hinv.agrees.historyAt
  rw [hpoint] at hserver hhistory
  obtain ⟨-, hagrees, -⟩ := hhistory
  have hdeadline : state.link.server.history.decoded.length * interval + fromSecs timeout ≤
      deadline + interval := hserver
  -- either the next packet is on its way, or it is not due yet
  have hnow : state.link.now ≤
      state.link.server.history.decoded.length * interval + delays.toServer := by
    by_cases hlt : (state.link.server.handshake ++ state.link.server.history.received).length <
        (state.link.announced ++ state.link.client.log.written).length
    · exact hinv.now_le_of_driving hpoint hagrees.received_eq hagrees.rest_lt hlt
    · have hsent : state.link.client.log.sent.length ≤
          state.link.server.history.decoded.length := by
        rcases hinv.announced_cases with ⟨unsent, -, -, hempty, -⟩ | ⟨-, hannounced⟩
        · rw [hempty]
          exact Nat.zero_le _
        · have hwritten := hinv.sent_le_written
          have hrest := hagrees.rest_lt
          rw [hinv.handshake_eq hpoint, hagrees.received_eq, hannounced] at hlt
          simp only [List.length_append, length_wire, packetSize] at hlt hwritten hrest
          omega
      exact (hinv.now_le hlimits).trans
        ((Nat.mul_le_mul_right interval hsent).trans (Nat.le_add_right _ _))
  refine Nat.lt_of_add_lt_add_right (n := interval) ?_
  calc state.link.now + interval
      ≤ state.link.server.history.decoded.length * interval + delays.toServer + interval :=
        Nat.add_le_add_right hnow _
    _ < state.link.server.history.decoded.length * interval + fromSecs timeout := by
        rw [Nat.add_assoc]
        exact Nat.add_lt_add_left hlimits.next_heartbeat _
    _ ≤ deadline + interval := hdeadline

end OnBeat

end TcpMonitor.LinkTiming
