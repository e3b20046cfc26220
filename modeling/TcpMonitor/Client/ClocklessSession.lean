import TcpMonitor.Core.Observation
import TcpMonitor.Client.SessionLog

/-!
# A session without a wall clock

`run_session` moves the readings of the wall clock to the packets it sends and
to the metrics it sets, and never looks at them; of an echo it looks at the
sequence number only.  So the same function, with a wall clock that shows
nothing and with the timestamps blanked out of the bytes it reads, follows every
session step by step.
-/

namespace TcpMonitor.ClocklessSession

open TcpMonitor.Runtime
open TcpMonitor.Configuration
open TcpMonitor.MetricFamilies
open TcpMonitor.HeartbeatPacket
open TcpMonitor.HeartbeatReading
open TcpMonitor.Session
open TcpMonitor.SessionLog

/-- A wall clock that shows nothing. -/
instance : WallClock Unit where
  sub _ _ := ()
  toBits _ := 0

/-! ## Timestamps in a stream of packets -/

/-- The bytes of a stream of packets from a position on, with zeros for those of
the timestamps. -/
def withoutTimestamps (position : ℕ) (bytes : List UInt8) : List UInt8 :=
  bytes.mapIdx fun index byte => if (position + index) % packetSize < 8 then byte else 0

section Bytes

variable (position count : ℕ) (bytes : List UInt8)

theorem getElem?_withoutTimestamps (index : ℕ) :
    (withoutTimestamps position bytes)[index]? =
      bytes[index]?.map fun byte =>
        if (position + index) % packetSize < 8 then byte else 0 := by
  rw [withoutTimestamps, List.getElem?_mapIdx]

@[simp]
theorem length_withoutTimestamps : (withoutTimestamps position bytes).length = bytes.length := by
  rw [withoutTimestamps, List.length_mapIdx]

theorem withoutTimestamps_append (front back : List UInt8) :
    withoutTimestamps position (front ++ back) =
      withoutTimestamps position front ++ withoutTimestamps (position + front.length) back := by
  have hshift : ∀ index, position + (index + front.length) = position + front.length + index := by
    intro index
    omega
  rw [withoutTimestamps, List.mapIdx_append]
  simp only [withoutTimestamps, hshift]

theorem take_withoutTimestamps :
    (withoutTimestamps position bytes).take count = withoutTimestamps position (bytes.take count) := by
  apply List.ext_getElem?
  intro index
  rw [List.getElem?_take, getElem?_withoutTimestamps, getElem?_withoutTimestamps,
    List.getElem?_take]
  split
  · rfl
  · rfl

theorem drop_withoutTimestamps :
    (withoutTimestamps position bytes).drop count =
      withoutTimestamps (position + count) (bytes.drop count) := by
  apply List.ext_getElem?
  intro index
  rw [List.getElem?_drop, getElem?_withoutTimestamps, getElem?_withoutTimestamps,
    List.getElem?_drop, Nat.add_assoc]

/-- Only the position in a packet counts. -/
theorem withoutTimestamps_mod :
    withoutTimestamps (position % packetSize) bytes = withoutTimestamps position bytes := by
  apply List.ext_getElem?
  intro index
  rw [getElem?_withoutTimestamps, getElem?_withoutTimestamps, Nat.mod_add_mod]

end Bytes

/-- Sequence numbers stay. -/
theorem withoutTimestamps_seq {bytes : List UInt8} (hlength : bytes.length ≤ 8) :
    withoutTimestamps 0 bytes = bytes := by
  apply List.ext_getElem?
  intro index
  rw [getElem?_withoutTimestamps]
  cases hbyte : bytes[index]? with
  | none => rfl
  | some byte =>
      have hindex := (List.getElem?_eq_some_iff.mp hbyte).1
      have hmod : (0 + index) % packetSize < 8 := by
        rw [Nat.zero_add, Nat.mod_eq_of_lt (by simp only [packetSize]; omega)]
        omega
      rw [Option.map_some, if_pos hmod]

/-- Timestamps are blanked out. -/
theorem withoutTimestamps_timestamp {bytes : List UInt8} (hlength : bytes.length ≤ 8) :
    withoutTimestamps 8 bytes = List.replicate bytes.length 0 := by
  apply List.ext_getElem?
  intro index
  rw [getElem?_withoutTimestamps, List.getElem?_replicate]
  by_cases hindex : index < bytes.length
  · have hmod : ¬(8 + index) % packetSize < 8 := by
      rw [Nat.mod_eq_of_lt (by simp only [packetSize]; omega)]
      omega
    rw [List.getElem?_eq_getElem hindex, Option.map_some, if_neg hmod, if_pos hindex]
  · rw [List.getElem?_eq_none (Nat.le_of_not_lt hindex), Option.map_none, if_neg hindex]

/-- A packet without its timestamp is the packet of the same heartbeat at time
zero. -/
theorem withoutTimestamps_encodePacket (seq timestamp : UInt64) :
    withoutTimestamps 0 (encodePacket seq timestamp).val = (encodePacket seq 0).val := by
  have hseq := BigEndian.length_encode 8 seq.toNat
  have htimestamp := BigEndian.length_encode 8 timestamp.toNat
  rw [encodePacket, encodePacket]
  dsimp only
  rw [withoutTimestamps_append, withoutTimestamps_seq hseq.le, hseq, Nat.zero_add,
    withoutTimestamps_timestamp htimestamp.le, htimestamp]
  rfl

/-- A heartbeat without its timestamp. -/
def eraseHeartbeat (heartbeat : Heartbeat) : Heartbeat := { heartbeat with timestamp := 0 }

/-- A packet buffer without its timestamp. -/
def erasePacket (buf : Packet) : Packet :=
  ⟨withoutTimestamps 0 buf.val, by rw [length_withoutTimestamps, buf.property]⟩

theorem decodePacket_erasePacket (buf : Packet) :
    decodePacket (erasePacket buf) = eraseHeartbeat (decodePacket buf) := by
  have hpacket : erasePacket buf = encodePacket (decodePacket buf).seq 0 := by
    apply Subtype.ext
    rw [erasePacket, ← withoutTimestamps_encodePacket _ (decodePacket buf).timestamp,
      encodePacket_decodePacket]
  rw [hpacket, decodePacket_encodePacket]
  rfl

/-! ## The reader -/

def eraseReader (reader : HeartbeatReader) : HeartbeatReader :=
  { reader with buf := erasePacket reader.buf }

def eraseRecv : Recv → Recv
  | .reading => .reading
  | .returned result => .returned (result.map eraseHeartbeat)

theorem store_eraseReader {reader : HeartbeatReader} {chunk : List UInt8}
    (hfits : chunk.length ≤ reader.offered)
    (hfits' : (withoutTimestamps reader.filled chunk).length ≤ (eraseReader reader).offered) :
    (eraseReader reader).store (withoutTimestamps reader.filled chunk) hfits' =
      eraseReader (reader.store chunk hfits) := by
  have hreceived : (eraseReader reader).received = withoutTimestamps 0 reader.received :=
    take_withoutTimestamps 0 reader.filled reader.buf.val
  have hbuf : (eraseReader reader).received ++ withoutTimestamps reader.filled chunk ++
      (erasePacket reader.buf).val.drop (reader.filled + chunk.length) =
        withoutTimestamps 0 (reader.received ++ chunk ++
          reader.buf.val.drop (reader.filled + chunk.length)) := by
    rw [withoutTimestamps_append, withoutTimestamps_append, List.length_append,
      HeartbeatReader.length_received, Nat.zero_add, Nat.zero_add, hreceived, erasePacket,
      drop_withoutTimestamps, Nat.zero_add]
  simp only [HeartbeatReader.store, length_withoutTimestamps, eraseReader,
    HeartbeatReader.mk.injEq]
  exact ⟨Subtype.ext hbuf, trivial⟩

theorem recvLoop_eraseReader (reader : HeartbeatReader) :
    (eraseReader reader).recvLoop = Prod.map eraseReader eraseRecv reader.recvLoop := by
  have hfilled : (eraseReader reader).filled = reader.filled := rfl
  rw [HeartbeatReader.recvLoop, HeartbeatReader.recvLoop, hfilled]
  split
  · rfl
  · rw [Prod.map, eraseRecv, Except.map, ← decodePacket_erasePacket]
    rfl

/-- A read without timestamps gives a heartbeat without its timestamp. -/
theorem recvRead_eraseReader (reader : HeartbeatReader)
    (outcome : Except ErrorKind (List UInt8)) :
    (eraseReader reader).recvRead (outcome.map (withoutTimestamps reader.filled)) =
      (reader.recvRead outcome).map (Prod.map eraseReader eraseRecv) := by
  cases outcome with
  | error error => rfl
  | ok chunk =>
      have hlength := length_withoutTimestamps reader.filled chunk
      rw [Except.map, HeartbeatReader.recvRead, HeartbeatReader.recvRead]
      by_cases hfits : chunk.length ≤ reader.offered
      · have hfits' : (withoutTimestamps reader.filled chunk).length ≤
            (eraseReader reader).offered := by rwa [hlength]
        rw [dif_pos hfits, dif_pos hfits', hlength]
        split
        · rfl
        · rw [store_eraseReader hfits, recvLoop_eraseReader, Option.map_some]
      · have hfits' : ¬(withoutTimestamps reader.filled chunk).length ≤
            (eraseReader reader).offered := by rwa [hlength]
        rw [dif_neg hfits, dif_neg hfits', Option.map_none]

/-- The reader holds as many bytes as have arrived since the last packet. -/
theorem filled_recvRead {reader reader' : HeartbeatReader} {chunk : List UInt8} {recv : Recv}
    {position : ℕ} (hfilled : reader.filled = position % packetSize)
    (hread : reader.recvRead (.ok chunk) = some (reader', recv)) :
    reader'.filled = (position + chunk.length) % packetSize := by
  have hsize : 0 < packetSize := by decide
  have hlt := HeartbeatReader.recvRead_filled_lt (hfilled ▸ Nat.mod_lt position hsize) hread
  have hlength := congrArg List.length (HeartbeatReader.recvRead_aligned hread)
  rw [List.length_append, List.length_append, HeartbeatReader.length_received,
    HeartbeatReader.length_received, length_wire, hfilled] at hlength
  calc
    reader'.filled = reader'.filled % packetSize := (Nat.mod_eq_of_lt hlt).symm
    _ = (packetSize * recv.packets.length + reader'.filled) % packetSize :=
      (Nat.mul_add_mod packetSize _ _).symm
    _ = (position + chunk.length) % packetSize := by rw [← hlength, Nat.mod_add_mod]

/-! ## The session -/

/-- A completion without the timestamps in the bytes that it delivers, which
start at a position of the stream. -/
def eraseCompletion (position : ℕ) : Completion → Completion
  | .read outcome => .read (outcome.map (withoutTimestamps position))
  | completion => completion

section Erase

variable {F64 : Type}

def eraseReading (clock : Reading F64) : Reading Unit := ⟨clock.now, ()⟩

def eraseVars (vars : SessionVars F64) : SessionVars Unit where
  label := vars.label
  startTs := ()
  seq := vars.seq
  consecutiveMissed := vars.consecutiveMissed
  nextSend := vars.nextSend
  echoes := eraseReader vars.echoes

/-- A session without its timestamps; of a packet, the end is unsent. -/
def erasePoint : SessionPoint F64 → SessionPoint Unit
  | .handshake unsent => .handshake unsent
  | .loopHead vars => .loopHead (eraseVars vars)
  | .sleeping vars => .sleeping (eraseVars vars)
  | .sending vars sentSeq _ unsent =>
      .sending (eraseVars vars) sentSeq () (withoutTimestamps (packetSize - unsent.length) unsent)
  | .waiting vars sentSeq _ deadline gotEcho =>
      .waiting (eraseVars vars) sentSeq () deadline gotEcho
  | .returned reason => .returned reason

/-- An update without the reading that it stores. -/
def eraseUpdate : Update F64 → Update Unit
  | .setGauge family label value => .setGauge family label value
  | .setFloat family label _ => .setFloat family label ()
  | .incCounter family label => .incCounter family label
  | .incDisconnect family label => .incDisconnect family label
  | .createDisconnect family label => .createDisconnect family label

/-- What a step leads to, without the readings. -/
def eraseAfter (after : SessionPoint F64 × List (Update F64)) :
    SessionPoint Unit × List (Update Unit) :=
  (erasePoint after.1, after.2.map eraseUpdate)

/-- The session has read so many bytes of its stream that the next one is at
this position, and at most one packet is unsent. -/
def Fits (position : ℕ) : SessionPoint F64 → Prop
  | .handshake _ => position % packetSize = 0
  | .loopHead vars | .sleeping vars | .waiting vars _ _ _ _ =>
      vars.echoes.filled = position % packetSize
  | .sending vars _ _ unsent =>
      vars.echoes.filled = position % packetSize ∧ unsent.length ≤ packetSize
  | .returned _ => True

variable [WallClock F64] {nodeName peerName : String} {clientCfg : ClientConfig}
variable {vars : SessionVars F64} {clock : Reading F64} {position : ℕ}

theorem erase_breakSession (reason : String) :
    breakSession (eraseVars vars) (eraseReading clock) reason =
      eraseAfter (breakSession vars clock reason) := by
  simp only [breakSession, eraseAfter, sessionEnd]
  split
  · rfl
  · rfl

theorem erase_startRound :
    startRound clientCfg (eraseVars vars) (eraseReading clock) =
      erasePoint (startRound clientCfg vars clock) := by
  have hlength := (encodePacket vars.seq (WallClock.toBits clock.wall)).property
  rw [startRound, startRound, erasePoint, hlength, Nat.sub_self, withoutTimestamps_encodePacket]
  rfl

theorem erase_endWait (gotEcho : Bool) :
    endWait clientCfg (eraseVars vars) gotEcho (eraseReading clock) =
      eraseAfter (endWait clientCfg vars gotEcho clock) := by
  cases gotEcho with
  | true => rfl
  | false =>
      simp only [endWait, Bool.false_eq_true, if_false]
      have hmissed : (eraseVars vars).consecutiveMissed = vars.consecutiveMissed := rfl
      rw [hmissed]
      split
      · rfl
      · rfl

theorem erase_readEcho (vars : SessionVars F64) (sentSeq : UInt64) (sendTs : F64)
    (deadline : Instant) (echo : Heartbeat) :
    readEcho (eraseVars vars) sentSeq () deadline (eraseReading clock) (eraseHeartbeat echo) =
      eraseAfter (readEcho vars sentSeq sendTs deadline clock echo) := by
  have hseq : (eraseHeartbeat echo).seq = echo.seq := rfl
  rw [readEcho, readEcho, hseq]
  split
  · rfl
  · rfl

/-- A read in a session without a wall clock. -/
theorem erase_runSession_read {sentSeq : UInt64} {sendTs : F64} {deadline : Instant}
    {gotEcho : Bool} {outcome : Except ErrorKind (List UInt8)}
    (hfilled : vars.echoes.filled = position % packetSize) :
    runSession nodeName peerName clientCfg
        (erasePoint (.waiting vars sentSeq sendTs deadline gotEcho)) (eraseReading clock)
        (eraseCompletion position (.read outcome)) =
      (runSession nodeName peerName clientCfg (.waiting vars sentSeq sendTs deadline gotEcho)
        clock (.read outcome)).map eraseAfter := by
  have hposition : withoutTimestamps position = withoutTimestamps vars.echoes.filled := by
    funext bytes
    rw [hfilled, withoutTimestamps_mod]
  have hread : (eraseVars vars).echoes.recvRead (outcome.map (withoutTimestamps position)) =
      (vars.echoes.recvRead outcome).map (Prod.map eraseReader eraseRecv) := by
    rw [hposition]
    exact recvRead_eraseReader vars.echoes outcome
  simp only [runSession, erasePoint, eraseCompletion, hread]
  cases hrecv : vars.echoes.recvRead outcome with
  | none => rfl
  | some read =>
      obtain ⟨echoes, recv⟩ := read
      cases recv with
      | reading => rfl
      | returned result =>
          cases result with
          | error error => exact congrArg some (erase_breakSession _)
          | ok echo =>
              exact congrArg some
                (erase_readEcho { vars with echoes := echoes } sentSeq sendTs deadline echo)

/-- A write of a packet in a session without a wall clock. -/
theorem erase_runSession_write {sentSeq : UInt64} {sendTs : F64} {unsent : List UInt8}
    {count : ℕ} (hunsent : unsent.length ≤ packetSize) :
    runSession nodeName peerName clientCfg (erasePoint (.sending vars sentSeq sendTs unsent))
        (eraseReading clock) (.wrote (.ok count)) =
      (runSession nodeName peerName clientCfg (.sending vars sentSeq sendTs unsent)
        clock (.wrote (.ok count))).map eraseAfter := by
  simp only [runSession, erasePoint, length_withoutTimestamps]
  split
  · rfl
  · next hcount =>
      split
      · rfl
      · have hposition : packetSize - (unsent.drop count).length =
            packetSize - unsent.length + count := by
          rw [List.length_drop]
          omega
        rw [Option.map_some, eraseAfter, erasePoint, drop_withoutTimestamps, hposition]
        rfl

/-- The session without a wall clock follows every session: it makes a step if
and only if the session does, and the same one. -/
theorem erase_runSession {point : SessionPoint F64} {completion : Completion}
    (hfits : Fits position point) :
    runSession nodeName peerName clientCfg (erasePoint point) (eraseReading clock)
        (eraseCompletion position completion) =
      (runSession nodeName peerName clientCfg point clock completion).map eraseAfter := by
  cases point with
  | handshake unsent =>
      cases completion with
      | wrote result =>
          cases result with
          | error error => rfl
          | ok count =>
              simp only [runSession, erasePoint, eraseCompletion]
              split
              · rfl
              · split
                · rfl
                · rfl
      | _ => rfl
  | loopHead vars =>
      cases completion with
      | ready =>
          have hnext : (eraseVars vars).nextSend = vars.nextSend := rfl
          have hnow : (eraseReading clock).now = clock.now := rfl
          simp only [runSession, erasePoint, eraseCompletion, hnext, hnow]
          split
          · rfl
          · rw [Option.map_some, eraseAfter, ← erase_startRound]
            rfl
      | _ => rfl
  | sleeping vars =>
      cases completion with
      | elapsed =>
          have hnext : (eraseVars vars).nextSend = vars.nextSend := rfl
          have hnow : (eraseReading clock).now = clock.now := rfl
          simp only [runSession, erasePoint, eraseCompletion, hnext, hnow]
          split
          · rw [Option.map_some, eraseAfter, ← erase_startRound]
            rfl
          · rfl
      | cancelled => exact congrArg some (erase_breakSession _)
      | _ => rfl
  | sending vars sentSeq sendTs unsent =>
      cases completion with
      | wrote result =>
          cases result with
          | error error => exact congrArg some (erase_breakSession _)
          | ok count => exact erase_runSession_write hfits.2
      | cancelled => exact congrArg some (erase_breakSession _)
      | _ => rfl
  | waiting vars sentSeq sendTs deadline gotEcho =>
      cases completion with
      | elapsed =>
          have hnow : (eraseReading clock).now = clock.now := rfl
          simp only [runSession, erasePoint, eraseCompletion, hnow]
          split
          · exact congrArg some (erase_endWait gotEcho)
          · rfl
      | read outcome => exact erase_runSession_read hfits
      | cancelled => exact congrArg some (erase_breakSession _)
      | _ => rfl
  | returned reason =>
      cases completion with
      | _ => rfl

/-- The position in the stream moves with the bytes that are read. -/
theorem Fits.step {point : SessionPoint F64} {completion : Completion}
    {after : SessionPoint F64 × List (Update F64)} (hfits : Fits position point)
    (hstep : SessionStep nodeName peerName clientCfg point clock completion after) :
    Fits (position + (readBytes completion).length) after.1 := by
  cases hstep with
  | handshakePart hcount => exact hfits
  | established hunsent => exact hfits.symm
  | handshakeError | writeError | readError | cancelled => trivial
  | sleep hearly => exact hfits
  | due hdue | wake hdue =>
      exact ⟨hfits, (encodePacket _ _).property.le⟩
  | sendPart hcount =>
      refine ⟨hfits.1, ?_⟩
      rw [List.length_drop]
      exact (Nat.sub_le _ _).trans hfits.2
  | sent hunsent => exact hfits.1
  | @deadline vars sentSeq sendTs deadline gotEcho clock hdue =>
      rcases endWait_cases clientCfg vars gotEcho clock with
        ⟨-, heq⟩ | ⟨-, -, heq⟩ | ⟨-, -, heq⟩
      · rw [heq]
        exact hfits
      · rw [heq]
        exact hfits
      · rw [heq]
        trivial
  | @readPart vars sentSeq sendTs deadline gotEcho clock outcome echoes hread =>
      cases outcome with
      | error error => cases (HeartbeatReader.recvRead_error_eq_some.mp hread).2
      | ok chunk => exact filled_recvRead hfits hread
  | @echo vars sentSeq sendTs deadline gotEcho clock outcome echoes echo hread =>
      cases outcome with
      | error error => cases (HeartbeatReader.recvRead_error_eq_some.mp hread).2
      | ok chunk =>
          have hfilled := filled_recvRead hfits hread
          rcases readEcho_cases { vars with echoes := echoes } sentSeq sendTs deadline clock
            echo with ⟨-, heq⟩ | ⟨-, heq⟩ <;>
          · rw [heq]
            exact hfilled

end Erase

end TcpMonitor.ClocklessSession
