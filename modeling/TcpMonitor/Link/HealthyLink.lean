import TcpMonitor.Core.Simulation
import TcpMonitor.Client.MissedHeartbeats
import TcpMonitor.Link.LinkTiming

/-!
# A healthy link

If an echo is back within an interval and the next heartbeat is there before
the receive timeout, neither side ever times out and no heartbeat is ever
missed: every step of the two tasks, of the network and of the clock keeps the
link on the beat.
-/

namespace TcpMonitor.HealthyLink

open TcpMonitor.TransitionSystem
open TcpMonitor.Simulation
open TcpMonitor.PunctualChannel
open TcpMonitor.Runtime
open TcpMonitor.Configuration
open TcpMonitor.LabelFamily
open TcpMonitor.MetricFamilies
open TcpMonitor.HeartbeatPacket
open TcpMonitor.HeartbeatReading
open TcpMonitor.Handshake
open TcpMonitor.PeerNames
open TcpMonitor.InboundSession
open TcpMonitor.ByteEcho
open TcpMonitor.Session
open TcpMonitor.SessionLog
open TcpMonitor.FaithfulEcho
open TcpMonitor.MissedHeartbeats
open TcpMonitor.EndToEnd
open TcpMonitor.LinkTiming

section Steps

variable {F64 : Type} [UnicodeTables] [WallClock F64] {nodeName peerName serverName : String}
variable {timeout : UInt64} {serverMetrics : Metrics F64} {delays : Delays}
variable {interval : Duration} {state next : TimedLink F64}

/-! ## What the client does -/

section Client

variable {clientCfg : ClientConfig} {point : SessionPoint F64} {log : Log F64}
variable {clock : Reading F64} {completion : Completion}
variable {after : SessionPoint F64 × List (Update F64)}

omit [UnicodeTables] in
/-- A client that has matched all its rounds has decoded as many echoes. -/
theorem rounds_le_decoded {now : Instant} (hfaithful : Faithful interval now point log)
    (hmatched : ∀ round ∈ log.rounds, round.Matched) :
    log.rounds.length ≤ log.decoded.length := by
  obtain ⟨rest, hsound⟩ := sound_of_at hfaithful.at_point
  cases hlast : log.rounds.length with
  | zero => exact Nat.zero_le _
  | succ k =>
      have hget : log.rounds[k]? = some log.rounds[k] :=
        List.getElem?_eq_getElem (by omega)
      have hread := (hfaithful.counted k _ hget).2.mp (hmatched _ (List.getElem_mem _))
      rw [← hread, readBy, ← hlast, List.take_length, hsound.decoded_eq, Log.allRounds,
        List.flatMap_append, List.length_append]
      exact Nat.le_add_right _ _

omit [UnicodeTables] in
/-- The next echo is the one that the round waits for. -/
theorem echo_matches {now : Instant} {vars : SessionVars F64} {sentSeq : UInt64} {sendTs : F64}
    {deadline : Instant} {gotEcho : Bool} {outcome : Except ErrorKind (List UInt8)}
    {echoes : HeartbeatReader} {echo : Heartbeat}
    (hfaithful : Faithful interval now (.waiting vars sentSeq sendTs deadline gotEcho) log)
    (hmatched : ∀ round ∈ log.rounds, round.Matched) (hcount : log.sent.length < 2 ^ 64)
    (hread : vars.echoes.recvRead outcome = some (echoes, .returned (.ok echo)))
    (hafter : Faithful interval now
      (readEcho { vars with echoes := echoes } sentSeq sendTs deadline clock echo).1
      (log.record (.waiting vars sentSeq sendTs deadline gotEcho) (.read outcome)
        (readEcho { vars with echoes := echoes } sentSeq sendTs deadline clock echo))) :
    echo.seq = sentSeq := by
  by_contra hstale
  have hle := decoded_le_of_waiting hfaithful.at_point hfaithful.received_initial
    hfaithful.counted
  obtain ⟨rest, hsound⟩ := sound_of_at hafter.at_point
  have hdecoded := decoded_initial hsound hafter.received_initial
  obtain ⟨-, stale, hcurrent, -⟩ := hfaithful.at_point
  rw [Log.record_stale hread hcurrent hstale] at hdecoded
  exact hstale ((matches_iff_of_waiting hfaithful.at_point hfaithful.received_initial
    hfaithful.counted hcount hdecoded).mpr
      (hle.antisymm (rounds_le_decoded hfaithful hmatched)))

omit [UnicodeTables] in
theorem clientOnBeat_startRound {vars : SessionVars F64} {count : ℕ}
    (hclient : ClientOnBeat (fromSecs clientCfg.heartbeatInterval) clock.now count
      (.loopHead vars)) (hdue : vars.nextSend ≤ clock.now) :
    ClientOnBeat (fromSecs clientCfg.heartbeatInterval) clock.now count
      (startRound clientCfg vars clock) := by
  obtain ⟨hnext, hnow, hmissed⟩ := hclient
  refine ⟨?_, hnow.antisymm (hnext ▸ hdue), (encodePacket _ _).property.le, hmissed⟩
  rw [Nat.add_mul, Nat.one_mul, hnext]

omit [UnicodeTables] in
/-- A client that is before the deadline of its round and reads only the echo it
waits for stays on the beat. -/
theorem clientOnBeat_step (hat : log.At point)
    (hclient : ClientOnBeat (fromSecs clientCfg.heartbeatInterval) clock.now log.sent.length
      point)
    (hstep : SessionStep nodeName peerName clientCfg point clock completion after)
    (hunhindered : unhindered completion = true)
    (hearly : ∀ {vars sentSeq sendTs deadline gotEcho},
      point = .waiting vars sentSeq sendTs deadline gotEcho → clock.now < deadline)
    (hmatches : ∀ {vars sentSeq sendTs deadline gotEcho outcome echoes echo},
      point = .waiting vars sentSeq sendTs deadline gotEcho → completion = .read outcome →
      vars.echoes.recvRead outcome = some (echoes, .returned (.ok echo)) → echo.seq = sentSeq) :
    ClientOnBeat (fromSecs clientCfg.heartbeatInterval) clock.now
      (log.record point completion after).sent.length after.1 := by
  cases hstep with
  | handshakePart => exact hclient
  | established =>
      obtain rfl : log = Log.empty F64 := hat
      have hnow : clock.now = 0 := hclient
      simp [ClientOnBeat, Log.record, Log.empty, hnow]
  | sleep => exact hclient
  | due hdue => exact clientOnBeat_startRound hclient hdue
  | wake hdue => exact clientOnBeat_startRound hclient hdue
  | sendPart =>
      obtain ⟨hnext, hnow, hunsent, hmissed⟩ := hclient
      exact ⟨hnext, hnow, (by rw [List.length_drop]; omega), hmissed⟩
  | sent =>
      obtain ⟨hnext, hnow, -, hmissed⟩ := hclient
      simp only [Log.record, List.length_append, List.length_singleton]
      refine ⟨hnext, ?_, hmissed⟩
      rw [Nat.add_mul, Nat.one_mul, hnow]
  | deadline hdue => exact absurd (hearly rfl) (Nat.not_lt.mpr hdue)
  | readPart hread =>
      obtain ⟨-, stale, hcurrent, -⟩ := hat
      rw [Log.record_read hread hcurrent (by simp)]
      exact hclient
  | @echo vars sentSeq sendTs deadline gotEcho clock outcome echoes echo hread =>
      have hmatch := hmatches rfl rfl hread
      have hlt := hearly rfl
      obtain ⟨hnext, hdeadline, -⟩ := hclient
      obtain ⟨-, stale, hcurrent, -⟩ := hat
      rw [Log.record_matched hread hcurrent hmatch, readEcho, if_pos hmatch]
      exact ⟨hnext, hdeadline ▸ hlt.le, rfl⟩
  | @readError vars sentSeq sendTs deadline gotEcho clock outcome echoes error hread =>
      cases outcome with
      | error kind => cases hunhindered
      | ok chunk =>
          simp only [unhindered, decide_eq_true_eq] at hunhindered
          rcases HeartbeatReader.recvRead_ok_cases hunhindered hread with
            ⟨hrecv, -, -⟩ | ⟨heartbeat, hrecv, -, -, -⟩
          · cases hrecv
          · cases hrecv
  | handshakeError | writeError | cancelled => cases hunhindered

omit [UnicodeTables] in
/-- Before its deadline a round is completed only by its own echo. -/
theorem matched_step (hat : log.At point) (hmatched : ∀ round ∈ log.rounds, round.Matched)
    (hstep : SessionStep nodeName peerName clientCfg point clock completion after)
    (hearly : ∀ {vars sentSeq sendTs deadline gotEcho},
      point = .waiting vars sentSeq sendTs deadline gotEcho → clock.now < deadline) :
    ∀ round ∈ (log.record point completion after).rounds, round.Matched := by
  rcases Log.rounds_record hat hstep with hsame |
    ⟨vars, sentSeq, sendTs, deadline, gotEcho, closed, hpoint, hclosed, -, hend⟩
  · rw [hsame]
    exact hmatched
  · rw [hclosed]
    intro round hmem
    rcases List.mem_append.mp hmem with hold | hnew
    · exact hmatched round hold
    · rw [List.mem_singleton.mp hnew]
      rcases hend with ⟨-, hdue, -⟩ | ⟨-, hown⟩
      · exact absurd (hearly hpoint) (Nat.not_lt.mpr hdue)
      · exact hown

omit [UnicodeTables] [WallClock F64] in
/-- A client writes no more than what is left of its handshake or heartbeat. -/
theorem length_clientBytes_le (completion : Completion) (unsent : List UInt8)
    (hpoint : point = .handshake unsent ∨
      ∃ vars sentSeq sendTs, point = .sending vars sentSeq sendTs unsent) :
    (clientBytes point completion).length ≤ unsent.length := by
  rcases hpoint with rfl | ⟨vars, sentSeq, sendTs, rfl⟩ <;>
  · cases completion with
    | ready | elapsed | cancelled | connected | read => exact Nat.zero_le _
    | wrote outcome =>
        cases outcome with
        | error kind => exact Nat.zero_le _
        | ok count => exact (List.take_sublist _ _).length_le

omit [UnicodeTables] in
/-- The bytes that a client on the beat writes are due now. -/
theorem beat_of_client {announced : List UInt8} {now : Instant} (hat : log.At point)
    (hannounced : AnnouncedAt nodeName log announced point)
    (hclient : ClientOnBeat interval now log.sent.length point) {position : ℕ}
    (hold : (announced ++ log.written).length ≤ position)
    (hnew : position < (announced ++ log.written).length +
      (clientBytes point completion).length) :
    now = beat nodeName interval position := by
  cases point with
  | loopHead | sleeping | waiting | returned =>
      exact absurd hnew (Nat.not_lt.mpr hold)
  | handshake unsent =>
      obtain rfl : log = Log.empty F64 := hat
      have hbytes : (clientBytes (.handshake unsent : SessionPoint F64) completion).length ≤
          unsent.length := length_clientBytes_le completion unsent (Or.inl rfl)
      have hlength := congrArg List.length
        (show announced ++ unsent = sendHandshake nodeName from hannounced)
      rw [List.length_append] at hlength
      rw [List.length_append, Log.empty, List.length_nil] at hnew
      rw [beat, Nat.sub_eq_zero_of_le (by omega), Nat.zero_div, Nat.zero_mul]
      exact hclient
  | sending vars sentSeq sendTs unsent =>
      obtain ⟨-, hnow, hunsent, -⟩ := hclient
      have hbytes : (clientBytes (.sending vars sentSeq sendTs unsent) completion).length ≤
          unsent.length := length_clientBytes_le completion unsent (Or.inr ⟨_, _, _, rfl⟩)
      have hlength := congrArg List.length hat.2.2.2
      rw [List.length_append, length_wire, List.length_append, List.length_singleton] at hlength
      rw [show announced = sendHandshake nodeName from hannounced, List.length_append]
        at hold hnew
      have hquotient : (position - (sendHandshake nodeName).length) / packetSize =
          log.sent.length := by
        rw [Nat.div_eq_iff (by decide)]
        simp only [packetSize] at hlength hunsent ⊢
        omega
      rw [hnow, beat, hquotient]

end Client

/-! ## What the server does -/

section Server

variable {clock : Reading F64} {completion : Completion}

/-- The echo loop of a session that is driven. -/
theorem onBeat_drive
    (hinv : OnBeat nodeName serverName timeout serverMetrics delays interval state)
    (hlimits : WithinLimits delays interval (fromSecs timeout))
    (hclock : clock.now = state.link.now) (hunhindered : unhindered completion = true)
    (htaken : (state.link.server.handshake ++ state.link.server.history.received ++
        readBytes completion).length ≤
      (state.link.announced ++ state.link.client.log.written).length)
    {label : PeerLabel} {startTs : F64} {drive drive' : Drive} {updates : List (Update F64)}
    (hpoint : state.link.server.connection.point = .driving label startTs drive)
    (hstep : driveSession timeout label startTs drive clock completion =
      some (drive', updates)) :
    ServerOnBeat nodeName delays interval (fromSecs timeout) state.link.now
      (state.link.server.history.record drive completion).decoded.length
      (.driving label startTs drive' : Point F64) := by
  have hserver := hinv.server
  have hhistory := hinv.agrees.historyAt
  rw [hpoint] at hserver hhistory
  obtain ⟨-, hecho⟩ := hhistory
  unfold driveSession at hstep
  split at hstep
  · cases hstep
    have hpaced := hinv.agrees.faithful.paced.count_le
    have hcount := Nat.mul_le_mul_right interval hinv.agrees.decoded_server.length_le
    show _ * interval + fromSecs timeout ≤ clock.now + fromSecs timeout + interval
    rw [hclock, Nat.add_right_comm]
    exact Nat.add_le_add_right (hcount.trans hpaced) _
  · next reader deadline =>
      split at hstep
      · next hdue =>
          exact absurd (hinv.now_lt_recv_deadline hlimits hpoint)
            (Nat.not_lt.mpr (hclock ▸ hdue))
      · cases hstep
  · next reader deadline outcome =>
      cases outcome with
      | error kind => cases hunhindered
      | ok chunk =>
          simp only [unhindered, decide_eq_true_eq] at hunhindered
          split at hstep
          · cases hstep
          · next reader' hread =>
              cases hstep
              rw [record_read hread, Recv.packets_reading, List.append_nil]
              exact hserver
          · next hread =>
              rcases HeartbeatReader.recvRead_ok_cases hunhindered hread with
                ⟨hrecv, -, -⟩ | ⟨heartbeat, hrecv, -, -, -⟩
              · cases hrecv
              · cases hrecv
          · next heartbeat hread =>
              cases hstep
              obtain ⟨hagrees, -⟩ := hecho
              have hchunk := List.length_pos_iff.mpr hunhindered
              have hnow := hinv.now_le_of_driving hpoint hagrees.received_eq hagrees.rest_lt (by
                rw [List.length_append] at htaken
                simp only [readBytes] at htaken
                omega)
              rw [record_read hread, Recv.packets_ok, List.length_append, List.length_singleton]
              show state.link.now + interval ≤ _ * interval + delays.toServer
              rw [Nat.add_mul, Nat.one_mul, Nat.add_right_comm]
              exact Nat.add_le_add_right hnow _
  · next unsent count =>
      split at hstep
      · cases hstep
      · split at hstep
        · cases hstep
          trivial
        · cases hstep
          exact hserver
  · cases hunhindered
  · cases hstep

/-- A read of the handshake. -/
theorem onBeat_handshake
    (hinv : OnBeat nodeName serverName timeout serverMetrics delays interval state)
    (hname : nodeName ≠ "") {reader : HandshakeReader} {deadline : Instant} {chunk : List UInt8}
    {result : ReadHandshake}
    (hpoint : state.link.server.connection.point = .handshake reader deadline)
    (hchunk : chunk ≠ [])
    (htaken : state.link.server.handshake ++ state.link.server.history.received ++ chunk <+:
      state.link.announced ++ state.link.client.log.written)
    (hread : reader.onRead (.ok chunk) = some result) :
    (∃ next, result = .reading next) ∨
      result = .returned (.ok
        (HandshakeParsing.peerName ((asBytes nodeName).take maxHandshakeNameLen))) := by
  have hat := hinv.agrees.handshakeAt
  have hhistory := hinv.agrees.historyAt
  have hinitial := htaken.trans
    (hinv.agrees.announcedAt.initial hinv.agrees.faithful.at_point)
  rw [hpoint] at hat hhistory
  obtain ⟨hwaiting, hconsumed⟩ := hat
  rw [hconsumed, hhistory.2, EchoHistory.empty, List.append_nil] at hinitial
  rcases HandshakeReader.onRead_ok_cases hwaiting hchunk hread with
    ⟨next, rfl, -⟩ | ⟨bytes, rfl, -, hlength, hbytes⟩ | ⟨rfl, hfour, hbad⟩
  · exact Or.inl ⟨next, rfl⟩
  · rw [hbytes, ← List.append_nil (BigEndian.encode 4 bytes.length ++ bytes)] at hinitial
    obtain ⟨hframe, -⟩ := handshake_of_initial hlength hinitial
    rw [sendHandshake_eq_take] at hframe
    have hsame := (List.append_inj hframe
      (by rw [BigEndian.length_encode, BigEndian.length_encode])).2
    rw [HandshakeParsing.sanitizePeerName_fromUtf8OrDefault, hsame]
    exact Or.inr rfl
  · -- the announced length is never refused
    have hheader := header_of_initial hfour hinitial
    have hmax : ((asBytes nodeName).take maxHandshakeNameLen).length ≤ maxHandshakeNameLen :=
      List.length_take_le _ _
    have hpositive : 0 < ((asBytes nodeName).take maxHandshakeNameLen).length := by
      rw [List.length_take]
      exact Nat.lt_min.mpr ⟨by decide, List.length_pos_iff.mpr (asBytes_ne_nil hname)⟩
    rw [hheader, BigEndian.decode_encode, Nat.mod_eq_of_lt (hmax.trans_lt (by decide))] at hbad
    omega

/-- Every step of the server. -/
theorem onBeat_server
    (hinv : OnBeat nodeName serverName timeout serverMetrics delays interval state)
    (hlimits : WithinLimits delays interval (fromSecs timeout)) (hname : nodeName ≠ "")
    (hadmits : (serverMetrics.serverPeers.tryRegister
      (HandshakeParsing.peerName ((asBytes nodeName).take maxHandshakeNameLen))).1 = true)
    (hclock : clock.now = state.link.now) (hunhindered : unhindered completion = true)
    (htaken : state.link.server.handshake ++ state.link.server.history.received ++
        readBytes completion <+: state.link.announced ++ state.link.client.log.written)
    {peers : ServerPeers} {connection : Connection F64} {updates : List (Update F64)}
    (hstep : handleConnection serverName state.link.server.metrics.serverPeers
      state.link.server.connection clock completion = some (peers, connection, updates)) :
    ServerOnBeat nodeName delays interval (fromSecs timeout) state.link.now
      (recordAt state.link.server.history completion
        state.link.server.connection.point).decoded.length connection.point := by
  have hserver := hinv.server
  cases hpoint : state.link.server.connection.point with
  | accepted =>
      rw [hpoint] at hserver
      simp only [handleConnection, hpoint] at hstep
      cases completion with
      | ready =>
          cases hstep
          show clock.now + fromSecs handshakeTimeoutSecs = fromSecs handshakeTimeoutSecs
          rw [hclock, show state.link.now = 0 from hserver, Nat.zero_add]
      | elapsed | cancelled | connected | read | wrote => cases hstep
  | handshake reader deadline =>
      rw [hpoint] at hserver
      have hnow := hinv.now_le_of_handshake hpoint
      simp only [handleConnection, hpoint] at hstep
      cases completion with
      | elapsed =>
          simp only at hstep
          split at hstep
          · next hdue =>
              rw [hclock, show deadline = fromSecs handshakeTimeoutSecs from hserver] at hdue
              exact absurd (hnow.trans_lt hlimits.handshake) (Nat.not_lt.mpr hdue)
          · cases hstep
      | read outcome =>
          cases outcome with
          | error kind => cases hunhindered
          | ok chunk =>
              simp only [unhindered, decide_eq_true_eq] at hunhindered
              simp only at hstep
              cases hread : reader.onRead (.ok chunk) with
              | none =>
                  rw [hread] at hstep
                  cases hstep
              | some result =>
                  rw [hread] at hstep
                  rcases onBeat_handshake hinv hname hpoint hunhindered htaken hread with
                    ⟨next, rfl⟩ | rfl
                  · cases hstep
                    exact hserver
                  · cases hstep
                    exact ⟨rfl, hnow⟩
      | ready | cancelled | connected | wrote => cases hstep
  | registering peer =>
      rw [hpoint] at hserver
      obtain ⟨rfl, -⟩ := hserver
      have hpeers := hinv.peers (by rw [hpoint]; trivial)
      simp only [handleConnection, hpoint, hpeers] at hstep
      cases completion with
      | ready =>
          simp only at hstep
          split at hstep
          · next hrefused =>
              rw [hrefused] at hadmits
              cases hadmits
          · cases hstep
            trivial
      | elapsed | cancelled | connected | read | wrote => cases hstep
  | driving label startTs drive =>
      obtain ⟨drive', driveUpdates, hdrive, hafter⟩ := handleConnection_driving hpoint hstep
      rw [hinv.recvTimeout] at hdrive
      have hbeat := onBeat_drive hinv hlimits hclock hunhindered htaken.length_le hpoint hdrive
      rcases hafter with ⟨reason, rfl, -⟩ | ⟨hpoint', -⟩
      · exact hbeat.elim
      · rw [hpoint']
        exact hbeat
  | closed =>
      rw [hpoint] at hserver
      exact hserver.elim

/-- The bytes of an echo are written within the delay of the heartbeat's
beat. -/
theorem now_le_of_echoing
    (hinv : OnBeat nodeName serverName timeout serverMetrics delays interval state)
    {position : ℕ} (hold : state.link.server.history.written.length ≤ position)
    (hnew : position < state.link.server.history.written.length +
      (serverBytes state.link.server.connection.point completion).length) :
    state.link.now ≤ position / packetSize * interval + delays.toServer := by
  have hserver := hinv.server
  have hhistory := hinv.agrees.historyAt
  cases hpoint : state.link.server.connection.point with
  | accepted | handshake | registering | closed =>
      rw [hpoint] at hnew
      exact absurd hnew (Nat.not_lt.mpr hold)
  | driving label startTs drive =>
      rw [hpoint] at hnew hserver hhistory
      cases drive with
      | loopHead | receiving | ended => exact absurd hnew (Nat.not_lt.mpr hold)
      | echoing unsent =>
          obtain ⟨-, hagrees, hunsent, -⟩ := hhistory
          have hdecoded := hagrees.decoded_eq
          rw [if_neg hunsent] at hdecoded
          have hechoes : state.link.server.history.echoes ≤ position / packetSize := by
            rw [Nat.le_div_iff_mul_le (by decide), Nat.mul_comm]
            exact hagrees.length_written.1.trans hold
          refine Nat.le_of_add_le_add_right (b := interval) ?_
          calc state.link.now + interval
              ≤ (state.link.server.history.echoes + 1) * interval + delays.toServer :=
                hdecoded ▸ hserver
            _ = state.link.server.history.echoes * interval + delays.toServer + interval := by
                rw [Nat.add_mul, Nat.one_mul, Nat.add_right_comm]
            _ ≤ position / packetSize * interval + delays.toServer + interval :=
                Nat.add_le_add_right
                  (Nat.add_le_add_right (Nat.mul_le_mul_right interval hechoes) _) _

end Server

/-! ## Every step of the link -/

omit [UnicodeTables] [WallClock F64] in
/-- An instant among those of `count` more bytes written now. -/
theorem getElem?_stamped {writtenAt : List Instant} {count position : ℕ} {now instant : Instant}
    (hget : (writtenAt ++ List.replicate count now)[position]? = some instant) :
    writtenAt[position]? = some instant ∨
      writtenAt.length ≤ position ∧ position < writtenAt.length + count ∧ instant = now := by
  rcases Nat.lt_or_ge position writtenAt.length with hold | hnew
  · rw [List.getElem?_append_left hold] at hget
    exact Or.inl hget
  · have hlt := (List.getElem?_eq_some_iff.mp hget).1
    rw [List.length_append, List.length_replicate] at hlt
    rw [List.getElem?_append_right hnew] at hget
    exact Or.inr ⟨hnew, hlt, List.eq_of_mem_replicate (List.mem_of_getElem? hget)⟩

/-- A client between two heartbeats has read all that the server has written. -/
theorem written_le_received
    (hinv : OnBeat nodeName serverName timeout serverMetrics delays interval state)
    {vars : SessionVars F64} (hpoint : state.link.client.point = .sleeping vars) :
    state.link.server.history.written.length ≤ state.link.client.log.received.length := by
  have hfaithful := hinv.agrees.faithful
  have hrounds := rounds_le_decoded hfaithful hinv.matched
  rw [hpoint] at hfaithful
  obtain ⟨hsound, hidle, -⟩ := hfaithful.at_point
  have hsent := congrArg List.length hsound.sent_eq
  rw [Log.allRounds, hidle, Option.toList_none, List.append_nil, List.length_map] at hsent
  have hwritten := hinv.agrees.written_initial.length_le
  have hdecoded := Nat.mul_le_mul_left packetSize hinv.agrees.decoded_server.length_le
  rw [length_wire] at hwritten
  rw [hsound.received_eq, List.length_append, length_wire]
  have hread := Nat.mul_le_mul_left packetSize (hsent ▸ hrounds)
  omega

variable {clientCfg : ClientConfig} {link : Link F64}

/-- Time passes. -/
theorem onBeat_tick
    (hinv : OnBeat nodeName serverName timeout serverMetrics delays interval state)
    {later : Instant} (hallowed : state.allowed delays (.tick later) = true)
    (hagrees : Agreement nodeName serverName timeout serverMetrics interval
      { state.link with now := later }) :
    OnBeat nodeName serverName timeout serverMetrics delays interval
      { state with link := { state.link with now := later } } := by
  simp only [TimedLink.allowed, Bool.and_eq_true, List.all_eq_true, decide_eq_true_eq] at hallowed
  obtain ⟨⟨⟨hclientWaits, hserverWaits⟩, hservers⟩, hclients⟩ := hallowed
  have hclient := hinv.client
  have hserver := hinv.server
  refine {
    agrees := hagrees
    toServer := ?_
    toClient := ?_
    client := ?_
    server := ?_
    matched := hinv.matched
    sentAt := hinv.sentAt
    echoedAt := hinv.echoedAt
    recvTimeout := hinv.recvTimeout
    peers := hinv.peers }
  · refine hinv.toServer.wait hinv.agrees.toServer ?_ hservers
    cases hpoint : state.link.server.connection.point with
    | accepted | registering =>
        rw [hpoint] at hserverWaits
        cases hserverWaits
    | handshake =>
        rw [hpoint] at hserverWaits
        exact of_decide_eq_true hserverWaits
    | driving label startTs drive =>
        rw [hpoint] at hserverWaits
        cases drive with
        | receiving => exact of_decide_eq_true hserverWaits
        | loopHead | echoing | ended => cases hserverWaits
    | closed =>
        rw [hpoint] at hserver
        exact hserver.elim
  · cases hpoint : state.link.client.point with
    | handshake | loopHead | sending =>
        rw [hpoint] at hclientWaits
        cases hclientWaits
    | sleeping =>
        exact hinv.toClient.wait_of_all (written_le_received hinv hpoint) later
    | waiting =>
        rw [hpoint] at hclientWaits
        exact hinv.toClient.wait hinv.agrees.toClient (of_decide_eq_true hclientWaits) hclients
    | returned =>
        rw [hpoint] at hclient
        exact hclient.elim
  · dsimp only
    cases hpoint : state.link.client.point with
    | handshake | loopHead | sending =>
        rw [hpoint] at hclientWaits
        cases hclientWaits
    | sleeping =>
        rw [hpoint] at hclient hclientWaits
        obtain ⟨hnext, -, hmissed⟩ := hclient
        exact ⟨hnext, hnext ▸ of_decide_eq_true hclientWaits, hmissed⟩
    | waiting =>
        rw [hpoint] at hclient
        exact hclient
    | returned =>
        rw [hpoint] at hclient
        exact hclient.elim
  · dsimp only
    cases hpoint : state.link.server.connection.point with
    | accepted | registering =>
        rw [hpoint] at hserverWaits
        cases hserverWaits
    | handshake =>
        rw [hpoint] at hserver
        exact hserver
    | driving label startTs drive =>
        rw [hpoint] at hserver hserverWaits
        cases drive with
        | receiving => exact hserver
        | loopHead | echoing | ended => cases hserverWaits
    | closed =>
        rw [hpoint] at hserver
        exact hserver.elim

/-- The client runs to its next await point. -/
theorem onBeat_act_client
    (hinv : OnBeat nodeName serverName timeout serverMetrics delays
      (fromSecs clientCfg.heartbeatInterval) state)
    (hlimits : WithinLimits delays (fromSecs clientCfg.heartbeatInterval) (fromSecs timeout))
    (hinterval : 1 ≤ clientCfg.heartbeatInterval) {wall : F64} {completion : Completion}
    (hunhindered : unhindered completion = true)
    (hstep : state.link.step nodeName peerName serverName clientCfg (.client wall completion) =
      some link)
    (hagrees : Agreement nodeName serverName timeout serverMetrics
      (fromSecs clientCfg.heartbeatInterval) link) :
    OnBeat nodeName serverName timeout serverMetrics delays
      (fromSecs clientCfg.heartbeatInterval)
      ⟨link, state.toServerAt ++ List.replicate
        (clientBytes state.link.client.point completion).length state.link.now,
        state.toClientAt⟩ := by
  obtain ⟨toClient, htake, hmap⟩ := Option.bind_eq_some_iff.mp hstep
  obtain ⟨client, hclient, rfl⟩ := Option.map_eq_some_iff.mp hmap
  obtain ⟨after, hrun, rfl⟩ := ClientStream.step_eq_some.mp hclient
  have hcases := sessionStep_of_runSession hrun
  have hfaithful := hinv.agrees.faithful
  have hat := hfaithful.at_point
  have hearly : ∀ {vars sentSeq sendTs deadline gotEcho},
      state.link.client.point = .waiting vars sentSeq sendTs deadline gotEcho →
        state.link.now < deadline := fun hpoint => hinv.now_lt_deadline hlimits hpoint
  have hcount := hfaithful.paced.count_lt (Nat.le_mul_of_pos_left _
    (UInt64.le_iff_toNat_le.mp hinterval)) hinv.agrees.now_lt
  refine {
    agrees := hagrees
    toServer := ?_
    toClient := ?_
    client := ?_
    server := hinv.server
    matched := matched_step hat hinv.matched hcases hearly
    sentAt := ?_
    echoedAt := hinv.echoedAt
    recvTimeout := hinv.recvTimeout
    peers := hinv.peers }
  · have hwritten := hinv.toServer.write (clientBytes state.link.client.point completion)
    rwa [← written_record hat hcases] at hwritten
  · have htaken := hinv.toClient.take (readBytes completion)
    rwa [← (Log.streams_record hat hcases).1] at htaken
  · refine clientOnBeat_step hat hinv.client hcases hunhindered hearly ?_
    intro vars sentSeq sendTs deadline gotEcho outcome echoes echo hpoint houtcome hread
    have hafter := hagrees.faithful
    subst houtcome
    dsimp only at hafter
    rw [hpoint] at hfaithful hafter hrun
    simp only [runSession, hread, Option.some.injEq] at hrun
    rw [← hrun] at hafter
    exact echo_matches hfaithful hinv.matched hcount hread hafter
  · intro position instant hget
    rcases getElem?_stamped hget with hold | ⟨hle, hlt, rfl⟩
    · exact hinv.sentAt position instant hold
    · rw [hinv.toServer.length_eq] at hle hlt
      exact beat_of_client hat hinv.agrees.announcedAt hinv.client hle hlt

/-- The server runs to its next await point. -/
theorem onBeat_act_server
    (hinv : OnBeat nodeName serverName timeout serverMetrics delays interval state)
    (hlimits : WithinLimits delays interval (fromSecs timeout)) (hname : nodeName ≠ "")
    (hadmits : (serverMetrics.serverPeers.tryRegister
      (HandshakeParsing.peerName ((asBytes nodeName).take maxHandshakeNameLen))).1 = true)
    {clock : Reading F64} {completion : Completion} (hclock : clock.now = state.link.now)
    (hunhindered : unhindered completion = true)
    (hstep : state.link.step nodeName peerName serverName clientCfg (.server clock completion) =
      some link)
    (hagrees : Agreement nodeName serverName timeout serverMetrics interval link) :
    OnBeat nodeName serverName timeout serverMetrics delays interval
      ⟨link, state.toServerAt, state.toClientAt ++ List.replicate
        (serverBytes state.link.server.connection.point completion).length state.link.now⟩ := by
  obtain ⟨toServer, htake, hmap⟩ := Option.bind_eq_some_iff.mp hstep
  obtain ⟨server, hserver, rfl⟩ := Option.map_eq_some_iff.mp hmap
  obtain ⟨htaken, hwritten⟩ := server_bytes hinv.agrees.historyAt hserver
  have hinitial := hagrees.toServer.taken_initial
  dsimp only at hinitial
  rw [htaken] at hinitial
  refine {
    agrees := hagrees
    toServer := ?_
    toClient := ?_
    client := hinv.client
    server := ?_
    matched := hinv.matched
    sentAt := hinv.sentAt
    echoedAt := ?_
    recvTimeout := ?_
    peers := ?_ }
  · dsimp only
    rw [htaken]
    exact hinv.toServer.take _
  · dsimp only
    rw [hwritten]
    exact hinv.toClient.write _
  · obtain ⟨⟨peers, connection, updates⟩, hhandle, rfl⟩ := Option.map_eq_some_iff.mp hserver
    exact onBeat_server hinv hlimits hname hadmits hclock hunhindered hinitial hhandle
  · intro position instant hget
    rcases getElem?_stamped hget with hold | ⟨hle, hlt, rfl⟩
    · exact hinv.echoedAt position instant hold
    · rw [hinv.toClient.length_eq] at hle hlt
      exact now_le_of_echoing hinv hle hlt
  · obtain ⟨⟨peers, connection, updates⟩, hhandle, rfl⟩ := Option.map_eq_some_iff.mp hserver
    exact (handleConnection_timeout hhandle).trans hinv.recvTimeout
  · obtain ⟨⟨peers, connection, updates⟩, hhandle, rfl⟩ := Option.map_eq_some_iff.mp hserver
    dsimp only
    intro hbefore
    rcases handleConnection_cases hhandle with
      ⟨hpoint, -, rfl, rfl⟩ | ⟨peer, -, -, -, hpoint, -⟩ |
        ⟨label, startTs, drive, drive', -, hpoint, -⟩ |
          ⟨label, startTs, drive, reason, -, hpoint, -⟩
    · exact hinv.peers hpoint
    · rw [hpoint] at hbefore
      exact hbefore.elim
    · rw [hpoint] at hbefore
      exact hbefore.elim
    · rw [hpoint] at hbefore
      exact hbefore.elim

/-- Every step of a link within its limits. -/
theorem onBeat_step
    (hinv : OnBeat nodeName serverName timeout serverMetrics delays
      (fromSecs clientCfg.heartbeatInterval) state)
    (hlimits : WithinLimits delays (fromSecs clientCfg.heartbeatInterval) (fromSecs timeout))
    (hinterval : 1 ≤ clientCfg.heartbeatInterval) (hname : nodeName ≠ "")
    (hadmits : (serverMetrics.serverPeers.tryRegister
      (HandshakeParsing.peerName ((asBytes nodeName).take maxHandshakeNameLen))).1 = true)
    {event : LinkEvent F64}
    (hstep : state.step nodeName peerName serverName clientCfg delays event = some next) :
    OnBeat nodeName serverName timeout serverMetrics delays
      (fromSecs clientCfg.heartbeatInterval) next := by
  simp only [TimedLink.step] at hstep
  split at hstep
  · next hallowed =>
      obtain ⟨link, hlink, rfl⟩ := Option.map_eq_some_iff.mp hstep
      have hagrees := hinv.agrees.step hinterval hlink
      cases event with
      | tick later =>
          simp only [TimedLink.sentToServer, TimedLink.sentToClient, List.replicate_zero,
            List.append_nil]
          simp only [Link.step] at hlink
          split at hlink
          · cases hlink
            exact onBeat_tick hinv hallowed hagrees
          · cases hlink
      | client wall completion =>
          simp only [TimedLink.sentToServer, TimedLink.sentToClient, List.replicate_zero,
            List.append_nil]
          exact onBeat_act_client hinv hlimits hinterval hallowed hlink hagrees
      | server clock completion =>
          simp only [TimedLink.sentToServer, TimedLink.sentToClient, List.replicate_zero,
            List.append_nil]
          obtain ⟨hclock, hunhindered⟩ := of_decide_eq_true hallowed
          exact onBeat_act_server hinv hlimits hname hadmits hclock hunhindered hlink hagrees
      | deliverToServer count | deliverToClient count =>
          simp only [TimedLink.sentToServer, TimedLink.sentToClient, List.replicate_zero,
            List.append_nil]
          obtain ⟨channel, -, rfl⟩ := Option.map_eq_some_iff.mp hlink
          exact { hinv with agrees := hagrees }
  · cases hstep

/-- Every reachable state of a link within its limits is on the beat, and the
session it shows is a run of the client. -/
theorem onBeat_of_reachable {clientCfg : AcceptedClientConfig} {clientMetrics : Metrics F64}
    (hlimits : WithinLimits delays (fromSecs clientCfg.heartbeatInterval) (fromSecs timeout))
    (hname : nodeName ≠ "")
    (hadmits : (serverMetrics.serverPeers.tryRegister
      (HandshakeParsing.peerName ((asBytes nodeName).take maxHandshakeNameLen))).1 = true)
    (hreach : Reachable
      (TimedLink.step nodeName peerName serverName clientCfg.toClientConfig delays)
      (TimedLink.start nodeName timeout clientMetrics serverMetrics) state) :
    OnBeat nodeName serverName timeout serverMetrics delays
        (fromSecs clientCfg.heartbeatInterval) state ∧
      Reachable (ClientStream.step nodeName peerName clientCfg.toClientConfig)
        (ClientStream.start nodeName clientMetrics) state.link.client := by
  have hfollows : Follows
      (TimedLink.step nodeName peerName serverName clientCfg.toClientConfig delays)
      (ClientStream.step nodeName peerName clientCfg.toClientConfig)
      (OnBeat nodeName serverName timeout serverMetrics delays
        (fromSecs clientCfg.heartbeatInterval)) (fun state => state.link.client) := by
    constructor
    · intro state event next hinv hstep
      exact onBeat_step hinv hlimits clientCfg.heartbeatInterval_accepted.1 hname hadmits hstep
    · intro state event next hinv hstep
      simp only [TimedLink.step] at hstep
      split at hstep
      · obtain ⟨link, hlink, rfl⟩ := Option.map_eq_some_iff.mp hstep
        cases event with
        | tick later =>
            simp only [Link.step] at hlink
            split at hlink <;> cases hlink
            exact Or.inl rfl
        | client wall completion =>
            obtain ⟨toClient, -, hmap⟩ := Option.bind_eq_some_iff.mp hlink
            obtain ⟨client, hclient, rfl⟩ := Option.map_eq_some_iff.mp hmap
            exact Or.inr ⟨_, hclient⟩
        | server clock completion =>
            obtain ⟨toServer, -, hmap⟩ := Option.bind_eq_some_iff.mp hlink
            obtain ⟨server, -, rfl⟩ := Option.map_eq_some_iff.mp hmap
            exact Or.inl rfl
        | deliverToServer count | deliverToClient count =>
            obtain ⟨channel, -, rfl⟩ := Option.map_eq_some_iff.mp hlink
            exact Or.inl rfl
      · cases hstep
  have hstart : OnBeat nodeName serverName timeout serverMetrics delays
      (fromSecs clientCfg.heartbeatInterval)
      (TimedLink.start nodeName timeout clientMetrics serverMetrics) :=
    onBeat_start clientMetrics
  exact ⟨hfollows.invariant hstart hreach, hfollows.reachable hstart hreach⟩

/-- A healthy link never fails.  If an echo can be back within an interval, the
next heartbeat there before the receive timeout, and the handshake within its
own, then in every run in which no operation fails and nobody cancels, neither
side ever ends the session.  Every round reads its own echo, no heartbeat is
missed or counted as missed, heartbeat `k` is sent exactly `k` intervals after
the connection, and no wait outlasts the two delays. -/
theorem healthy_link_never_fails {clientCfg : AcceptedClientConfig}
    {clientMetrics : Metrics F64}
    (hlimits : WithinLimits delays (fromSecs clientCfg.heartbeatInterval) (fromSecs timeout))
    (hname : nodeName ≠ "")
    (hadmits : (serverMetrics.serverPeers.tryRegister
      (HandshakeParsing.peerName ((asBytes nodeName).take maxHandshakeNameLen))).1 = true)
    (hreach : Reachable
      (TimedLink.step nodeName peerName serverName clientCfg.toClientConfig delays)
      (TimedLink.start nodeName timeout clientMetrics serverMetrics) state) :
    (∀ reason, state.link.client.point ≠ .returned reason) ∧
      (∀ outcome, state.link.server.connection.point ≠ .closed outcome) ∧
      (∀ round ∈ state.link.client.log.rounds, round.Matched) ∧
      (heartbeatsMissed state.link.client.metrics ⟨nodeName, peerName⟩ =
          heartbeatsMissed clientMetrics ⟨nodeName, peerName⟩ ∧
        ∀ vars, state.link.client.point.live = some vars → vars.consecutiveMissed = 0) ∧
      (∀ position instant, state.toServerAt[position]? = some instant →
        instant = beat nodeName (fromSecs clientCfg.heartbeatInterval) position) ∧
      ∀ vars sentSeq sendTs deadline gotEcho,
        state.link.client.point = .waiting vars sentSeq sendTs deadline gotEcho →
          state.link.now + fromSecs clientCfg.heartbeatInterval ≤
            deadline + (delays.toServer + delays.toClient) := by
  obtain ⟨hinv, hclient⟩ := onBeat_of_reachable hlimits hname hadmits hreach
  refine ⟨?_, ?_, hinv.matched, ⟨?_, ?_⟩, hinv.sentAt, ?_⟩
  · intro reason hpoint
    have hbeat := hinv.client
    rw [hpoint] at hbeat
    exact hbeat
  · intro outcome hpoint
    have hbeat := hinv.server
    rw [hpoint] at hbeat
    exact hbeat
  · rw [(counts_of_reachable hclient).1, Nat.add_eq_left, List.countP_eq_zero]
    intro round hmem hsilent
    obtain ⟨stale, own, nowTs, hreads, -⟩ := hinv.matched round hmem
    simp [silent, hreads] at hsilent
  · intro vars hlive
    have hbeat := hinv.client
    cases hpoint : state.link.client.point with
    | handshake | returned =>
        rw [hpoint] at hlive
        cases hlive
    | loopHead | sleeping | waiting =>
        rw [hpoint] at hlive hbeat
        cases hlive
        exact hbeat.2.2
    | sending =>
        rw [hpoint] at hlive hbeat
        cases hlive
        exact hbeat.2.2.2
  · intro vars sentSeq sendTs deadline gotEcho hpoint
    exact hinv.now_le_round_trip hpoint

end Steps

section Witness

local instance : UnicodeTables := asciiTables

/-- A fifth of a second in each direction. -/
def fifthOfSecond : Delays where
  toServer := 200000000
  toClient := 200000000

/-- The first heartbeat is there after a tenth of a second, its echo is back
after a quarter, and the second heartbeat is due. -/
def firstRound : List (LinkEvent WholeSeconds) :=
  [.client ⟨0⟩ (.wrote (.ok 7)), .server ⟨0, ⟨0⟩⟩ .ready, .client ⟨0⟩ .ready,
    .client ⟨0⟩ (.wrote (.ok 16)), .tick 100000000, .deliverToServer 23,
    .server ⟨100000000, ⟨0⟩⟩ (.read (.ok [0, 0, 0, 3])),
    .server ⟨100000000, ⟨0⟩⟩ (.read (.ok [99, 108, 105])),
    .server ⟨100000000, ⟨0⟩⟩ .ready, .server ⟨100000000, ⟨0⟩⟩ .ready,
    .server ⟨100000000, ⟨0⟩⟩ (.read (.ok (Heartbeat.frame ⟨0, 0⟩))),
    .server ⟨100000000, ⟨0⟩⟩ (.wrote (.ok 16)), .server ⟨100000000, ⟨0⟩⟩ .ready,
    .tick 250000000, .deliverToClient 16,
    .client ⟨0⟩ (.read (.ok (Heartbeat.frame ⟨0, 0⟩))), .client ⟨0⟩ .ready,
    .tick 1000000000, .client ⟨1⟩ .elapsed, .client ⟨1⟩ (.wrote (.ok 16)), .tick 1150000000]

/-- After one round the second heartbeat is on its way, and nothing is missed. -/
theorem healthy_link_never_fails_first_round :
    ∃ state, run (TimedLink.step "cli" "srv" "srv" everySecond.toClientConfig fifthOfSecond)
        (TimedLink.start "cli" 15 (Metrics.new WholeSeconds) (Metrics.new WholeSeconds))
        firstRound = some state ∧
      (state.link.now, state.link.client.log.rounds.length, state.toServerAt[23]?) =
        (1150000000, 1, some 1000000000) ∧
      heartbeatsMissed state.link.client.metrics ⟨"cli", "srv"⟩ = 0 := by
  obtain ⟨state, hrun, hview⟩ := Option.map_eq_some_iff.mp (show
    (run (TimedLink.step "cli" "srv" "srv" everySecond.toClientConfig fifthOfSecond)
      (TimedLink.start "cli" 15 (Metrics.new WholeSeconds) (Metrics.new WholeSeconds))
      firstRound).map (fun state => (state.link.now, state.link.client.log.rounds.length,
        state.toServerAt[23]?)) = some (1150000000, 1, some 1000000000) by decide)
  have hlimits : WithinLimits fifthOfSecond (fromSecs everySecond.heartbeatInterval)
      (fromSecs 15) := ⟨by decide, by decide, by decide⟩
  obtain ⟨-, -, -, ⟨hmissed, -⟩, -⟩ :=
    healthy_link_never_fails hlimits (by decide) (by decide) (Reachable.of_run hrun)
  exact ⟨state, hrun, hview, hmissed⟩

end Witness

end TcpMonitor.HealthyLink
