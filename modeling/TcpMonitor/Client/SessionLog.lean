import TcpMonitor.Core.TransitionSystem
import TcpMonitor.Client.Session

/-!
# The rounds of an outbound session

The history of a session: the heartbeats it wrote, the echoes it decoded, and
its rounds with the echoes and the round-trip times of each.  The invariant
relates the history to the variables of the loop at every await point, whatever
the peer sends.
-/

namespace TcpMonitor.SessionLog

open TcpMonitor.TransitionSystem
open TcpMonitor.Runtime
open TcpMonitor.Configuration
open TcpMonitor.LabelFamily
open TcpMonitor.MetricFamilies
open TcpMonitor.HeartbeatPacket
open TcpMonitor.HeartbeatReading
open TcpMonitor.Session

/-- One round: the heartbeat that was sent, the deadline of its echo, and the
echoes read in the round, each with the value that `client_rtt` was set to when
it was read. -/
structure Round (F64 : Type) where
  sentSeq : UInt64
  sendTs : F64
  deadline : Instant
  reads : List (Heartbeat × Option F64)
  deriving DecidableEq

/-- What has happened in a session after its handshake.  `rounds` are the
completed rounds; a round that an error or a cancellation cuts off stays
`current`. -/
structure Log (F64 : Type) where
  written : List UInt8
  sent : List Heartbeat
  received : List UInt8
  decoded : List Heartbeat
  rounds : List (Round F64)
  current : Option (Round F64)
  deriving DecidableEq

/-- The value an update stores in `client_rtt`. -/
def rttWrite {F64 : Type} : Update F64 → Option F64
  | .setFloat .clientRtt _ value => some value
  | _ => none

/-- Echoes that were read without setting `client_rtt`. -/
def unmeasured {F64 : Type} (echoes : List Heartbeat) : List (Heartbeat × Option F64) :=
  echoes.map fun echo => (echo, none)

/-- The bytes that an awaited read delivered. -/
def readBytes : Completion → List UInt8
  | .read (.ok chunk) => chunk
  | _ => []

/-- The echoes read in a round. -/
def Round.echoes {F64 : Type} (round : Round F64) : List Heartbeat := round.reads.map Prod.fst

@[simp]
theorem fst_unmeasured {F64 : Type} (echoes : List Heartbeat) :
    (unmeasured echoes : List (Heartbeat × Option F64)).map Prod.fst = echoes := by
  simp [unmeasured, Function.comp_def]

section Definitions

variable {F64 : Type} [WallClock F64]

/-- The heartbeat of a round as it was sent. -/
def Round.heartbeat (round : Round F64) : Heartbeat :=
  ⟨round.sentSeq, WallClock.toBits round.sendTs⟩

/-- The round read its own echo last, and recorded one RTT, for that echo. -/
def Round.Matched (round : Round F64) : Prop :=
  ∃ stale own nowTs, round.reads = unmeasured stale ++ [(own, some (nowTs - round.sendTs))] ∧
    own.seq = round.sentSeq ∧ ∀ echo ∈ stale, echo.seq ≠ round.sentSeq

/-- The round did not read its own echo, and recorded no RTT. -/
def Round.Unmatched (round : Round F64) : Prop :=
  ∃ stale, round.reads = unmeasured stale ∧ ∀ echo ∈ stale, echo.seq ≠ round.sentSeq

namespace Log

def empty (F64 : Type) : Log F64 := ⟨[], [], [], [], [], none⟩

/-- All rounds, the unfinished one last. -/
def allRounds (log : Log F64) : List (Round F64) := log.rounds ++ log.current.toList

/-- What a step of the session adds to its history. -/
def record (log : Log F64) (point : SessionPoint F64) (completion : Completion)
    (after : SessionPoint F64 × List (Update F64)) : Log F64 :=
  match point, completion with
  | .sending _ sentSeq sendTs unsent, .wrote (.ok count) =>
      let log := { log with written := log.written ++ unsent.take count }
      match after.1 with
      | .waiting _ _ _ deadline _ =>
          { log with
            sent := log.sent ++ [⟨sentSeq, WallClock.toBits sendTs⟩]
            current := some ⟨sentSeq, sendTs, deadline, []⟩ }
      | _ => log
  | .waiting vars _ _ _ _, .read outcome =>
      let packets := ((vars.echoes.recvRead outcome).map fun read => read.2.packets).getD []
      let current := log.current.map fun round =>
        { round with
          reads := round.reads ++
            packets.map fun echo => (echo, (after.2.filterMap rttWrite).getLast?) }
      let log := { log with
        received := log.received ++ outcome.toOption.getD []
        decoded := log.decoded ++ packets }
      match after.1 with
      | .loopHead _ => { log with rounds := log.rounds ++ current.toList, current := none }
      | _ => { log with current := current }
  | .waiting _ _ _ _ _, .elapsed =>
      { log with rounds := log.rounds ++ log.current.toList, current := none }
  | _, _ => log

/-- The history hangs together: `rest` has been read and not decoded. -/
structure Sound (log : Log F64) (rest : List UInt8) : Prop where
  received_eq : log.received = wire log.decoded ++ rest
  rest_lt : rest.length < packetSize
  decoded_eq : log.decoded = log.allRounds.flatMap Round.echoes
  sent_eq : log.sent = log.allRounds.map Round.heartbeat
  seqs : log.sent.map Heartbeat.seq = (List.range log.sent.length).map UInt64.ofNat
  settled : ∀ round ∈ log.rounds, round.Matched ∨ round.Unmatched

/-- How the history and the control point of a session fit together. -/
def At (log : Log F64) : SessionPoint F64 → Prop
  | .handshake _ => log = empty F64
  | .loopHead vars | .sleeping vars =>
      log.Sound vars.echoes.received ∧ log.current = none ∧
        vars.seq = UInt64.ofNat log.sent.length ∧ log.written = wire log.sent
  | .sending vars sentSeq sendTs unsent =>
      (log.Sound vars.echoes.received ∧ log.current = none ∧
        vars.seq = UInt64.ofNat log.sent.length) ∧ sentSeq = vars.seq ∧ unsent ≠ [] ∧
        log.written ++ unsent =
          wire (log.sent ++ [⟨sentSeq, WallClock.toBits sendTs⟩])
  | .waiting vars sentSeq sendTs deadline gotEcho =>
      (log.Sound vars.echoes.received ∧ vars.seq = UInt64.ofNat log.sent.length ∧
        log.written = wire log.sent) ∧ ∃ stale,
          log.current = some ⟨sentSeq, sendTs, deadline, unmeasured stale⟩ ∧
            (∀ echo ∈ stale, echo.seq ≠ sentSeq) ∧ (gotEcho = true ↔ stale ≠ [])
  | .returned _ =>
      ∃ rest unsent next, log.Sound rest ∧ ((unsent = [] ↔ next = []) ∧ next.length ≤ 1 ∧
        log.written ++ unsent = wire (log.sent ++ next)) ∧
          ∀ round, log.current = some round → round.Unmatched

theorem sound_empty : (empty F64).Sound [] where
  received_eq := rfl
  rest_lt := by decide
  decoded_eq := rfl
  sent_eq := rfl
  seqs := rfl
  settled := by simp [empty]

variable {log : Log F64} {rest : List UInt8}

/-- A heartbeat has been written: its round begins. -/
theorem Sound.openRound (hsound : log.Sound rest) (hidle : log.current = none)
    {sentSeq : UInt64} (hseq : sentSeq = UInt64.ofNat log.sent.length) (sendTs : F64)
    (deadline : Instant) (written : List UInt8) :
    Sound { log with
      written := written
      sent := log.sent ++ [⟨sentSeq, WallClock.toBits sendTs⟩]
      current := some ⟨sentSeq, sendTs, deadline, []⟩ } rest where
  received_eq := hsound.received_eq
  rest_lt := hsound.rest_lt
  decoded_eq := by
    rw [hsound.decoded_eq]
    simp [allRounds, hidle, Round.echoes]
  sent_eq := by
    dsimp only
    rw [hsound.sent_eq]
    simp [allRounds, hidle, Round.heartbeat]
  seqs := by
    dsimp only
    rw [List.map_append, hsound.seqs, List.length_append, List.length_singleton,
      List.range_succ, List.map_append, hseq]
    rfl
  settled := hsound.settled

/-- A read moves bytes to the packets of the current round and to the rest. -/
theorem Sound.readRound (hsound : log.Sound rest) {round : Round F64}
    (hcurrent : log.current = some round) {chunk rest' : List UInt8} {packets : List Heartbeat}
    (haligned : rest ++ chunk = wire packets ++ rest') (hrest : rest'.length < packetSize)
    (rtt : Option F64) :
    Sound { log with
      received := log.received ++ chunk
      decoded := log.decoded ++ packets
      current := some { round with
        reads := round.reads ++ packets.map fun echo => (echo, rtt) } } rest' where
  received_eq := by
    dsimp only
    rw [hsound.received_eq, wire_append, List.append_assoc, haligned, List.append_assoc]
  rest_lt := hrest
  decoded_eq := by
    dsimp only
    rw [hsound.decoded_eq]
    simp [allRounds, hcurrent, Round.echoes, Function.comp_def]
  sent_eq := by
    dsimp only
    rw [hsound.sent_eq]
    simp [allRounds, hcurrent, Round.heartbeat]
  seqs := hsound.seqs
  settled := hsound.settled

/-- The current round is completed. -/
theorem Sound.closeRound (hsound : log.Sound rest) {round : Round F64}
    (hcurrent : log.current = some round) (hsettled : round.Matched ∨ round.Unmatched) :
    Sound { log with rounds := log.rounds ++ [round], current := none } rest where
  received_eq := hsound.received_eq
  rest_lt := hsound.rest_lt
  decoded_eq := by
    dsimp only
    rw [hsound.decoded_eq]
    simp [allRounds, hcurrent]
  sent_eq := by
    dsimp only
    rw [hsound.sent_eq]
    simp [allRounds, hcurrent]
  seqs := hsound.seqs
  settled := by
    intro earlier hmem
    rcases List.mem_append.mp hmem with hold | hnew
    · exact hsound.settled earlier hold
    · rw [List.mem_singleton.mp hnew]
      exact hsettled

/-- A session that is left keeps a sound history. -/
theorem At.returned {point : SessionPoint F64} (hat : log.At point) (reason : String) :
    log.At (.returned reason) := by
  cases point with
  | handshake unsent =>
      obtain rfl : log = empty F64 := hat
      exact ⟨[], [], [], sound_empty, ⟨by simp, Nat.zero_le 1, rfl⟩, by simp [empty]⟩
  | loopHead vars | sleeping vars =>
      obtain ⟨hsound, hidle, -, hwritten⟩ := hat
      exact ⟨_, [], [], hsound, ⟨by simp, Nat.zero_le 1, by simpa using hwritten⟩,
        by simp [hidle]⟩
  | sending vars sentSeq sendTs unsent =>
      obtain ⟨⟨hsound, hidle, -⟩, -, hunsent, hwritten⟩ := hat
      exact ⟨_, unsent, _, hsound, ⟨by simp [hunsent], le_refl 1, hwritten⟩, by simp [hidle]⟩
  | waiting vars sentSeq sendTs deadline gotEcho =>
      obtain ⟨⟨hsound, -, hwritten⟩, stale, hcurrent, hstale, -⟩ := hat
      refine ⟨_, [], [], hsound, ⟨by simp, Nat.zero_le 1, by simpa using hwritten⟩, ?_⟩
      intro round hround
      obtain rfl := Option.some.inj (hcurrent.symm.trans hround)
      exact ⟨stale, rfl, hstale⟩
  | returned earlier => exact hat

/-- Starting a round only prepares its packet. -/
theorem at_startRound {clientCfg : ClientConfig} {vars : SessionVars F64} {clock : Reading F64}
    (hat : log.At (.loopHead vars)) : log.At (startRound clientCfg vars clock) := by
  obtain ⟨hsound, hidle, hseq, hwritten⟩ := hat
  refine ⟨⟨hsound, hidle, hseq⟩, rfl, ?_, ?_⟩
  · exact List.ne_nil_of_length_pos (by rw [(encodePacket _ _).property]; decide)
  · rw [wire_append, wire_singleton, hwritten]
    rfl

variable {nodeName peerName : String} {clientCfg : ClientConfig} {point : SessionPoint F64}
variable {clock : Reading F64} {completion : Completion}
variable {after : SessionPoint F64 × List (Update F64)}

/-- A write that leaves bytes of the heartbeat unwritten. -/
theorem at_sendPart {vars : SessionVars F64} {sentSeq : UInt64} {sendTs : F64}
    {unsent : List UInt8} {count : ℕ} (hcount : 0 < count ∧ count < unsent.length)
    (hat : log.At (.sending vars sentSeq sendTs unsent)) :
    At { log with written := log.written ++ unsent.take count }
      (.sending vars sentSeq sendTs (unsent.drop count)) := by
  obtain ⟨⟨hsound, hidle, hseq⟩, hsent, hunsent, hwritten⟩ := hat
  refine ⟨⟨⟨hsound.received_eq, hsound.rest_lt, hsound.decoded_eq, hsound.sent_eq,
    hsound.seqs, hsound.settled⟩, hidle, hseq⟩, hsent, ?_, ?_⟩
  · rw [Ne, List.drop_eq_nil_iff]
    omega
  · rw [List.append_assoc, List.take_append_drop, hwritten]

/-- The write of the last byte of a heartbeat begins its round. -/
theorem at_sent {vars : SessionVars F64} {sentSeq : UInt64} {sendTs : F64}
    {unsent : List UInt8} (hat : log.At (.sending vars sentSeq sendTs unsent)) :
    (log.record (.sending vars sentSeq sendTs unsent) (.wrote (.ok unsent.length))
        (.waiting { vars with seq := vars.seq + 1 } sentSeq sendTs
            (clock.now + fromSecs clientCfg.heartbeatInterval) false,
          [.incCounter .clientHeartbeatsSent vars.label])).At
      (.waiting { vars with seq := vars.seq + 1 } sentSeq sendTs
        (clock.now + fromSecs clientCfg.heartbeatInterval) false) := by
  obtain ⟨⟨hsound, hidle, hseq⟩, hsent, hunsent, hwritten⟩ := hat
  have hopened := hsound.openRound hidle (hsent.trans hseq) sendTs
    (clock.now + fromSecs clientCfg.heartbeatInterval) (log.written ++ unsent)
  simp only [record, List.take_length]
  refine ⟨⟨hopened, ?_, hwritten⟩, [], rfl, by simp, by simp⟩
  simp [hseq, UInt64.ofNat_add]

/-- The deadline completes the current round. -/
theorem record_deadline {vars : SessionVars F64} {sentSeq : UInt64} {sendTs : F64}
    {deadline : Instant} {gotEcho : Bool} {round : Round F64}
    (hcurrent : log.current = some round) :
    log.record (.waiting vars sentSeq sendTs deadline gotEcho) .elapsed after =
      { log with rounds := log.rounds ++ [round], current := none } := by
  simp [record, hcurrent]

/-- The deadline completes the round without its own echo. -/
theorem at_elapsed {vars : SessionVars F64} {sentSeq : UInt64} {sendTs : F64}
    {deadline : Instant} {gotEcho : Bool}
    (hat : log.At (.waiting vars sentSeq sendTs deadline gotEcho)) :
    (log.record (.waiting vars sentSeq sendTs deadline gotEcho) .elapsed
      (endWait clientCfg vars gotEcho clock)).At (endWait clientCfg vars gotEcho clock).1 := by
  obtain ⟨⟨hsound, hseq, hwritten⟩, stale, hcurrent, hstale, -⟩ := hat
  have hclosed := hsound.closeRound hcurrent (Or.inr ⟨stale, rfl, hstale⟩)
  rw [record_deadline hcurrent]
  have hloop : At _ (.loopHead vars) := ⟨hclosed, rfl, hseq, hwritten⟩
  rcases endWait_cases clientCfg vars gotEcho clock with ⟨-, heq⟩ | ⟨-, -, heq⟩ | ⟨-, -, heq⟩
  · rw [heq]
    exact hloop
  · rw [heq]
    exact hloop
  · rw [heq]
    exact hloop.returned "timeout"

/-- What a read of a waiting session adds to its history. -/
theorem record_read {vars : SessionVars F64} {sentSeq : UInt64} {sendTs : F64}
    {deadline : Instant} {gotEcho : Bool} {outcome : Except ErrorKind (List UInt8)}
    {echoes : HeartbeatReader} {recv : Recv} {round : Round F64}
    (hread : vars.echoes.recvRead outcome = some (echoes, recv))
    (hcurrent : log.current = some round)
    (hopen : ∀ vars, after.1 ≠ .loopHead vars) :
    log.record (.waiting vars sentSeq sendTs deadline gotEcho) (.read outcome) after =
      { log with
        received := log.received ++ outcome.toOption.getD []
        decoded := log.decoded ++ recv.packets
        current := some { round with
          reads := round.reads ++
            recv.packets.map fun echo => (echo, (after.2.filterMap rttWrite).getLast?) } } := by
  simp only [record, hread, Option.map_some, Option.getD_some, hcurrent]

/-- The bytes of a read and of its reader, before and after it. -/
theorem read_aligned {vars : SessionVars F64} (hsound : log.Sound vars.echoes.received)
    {outcome : Except ErrorKind (List UInt8)} {echoes : HeartbeatReader} {recv : Recv}
    (hread : vars.echoes.recvRead outcome = some (echoes, recv)) :
    vars.echoes.received ++ outcome.toOption.getD [] = wire recv.packets ++ echoes.received ∧
      echoes.received.length < packetSize := by
  have hlt : vars.echoes.filled < packetSize := vars.echoes.length_received ▸ hsound.rest_lt
  constructor
  · cases outcome with
    | error kind =>
        obtain ⟨rfl, rfl⟩ := HeartbeatReader.recvRead_error_eq_some.mp hread
        simp [Except.toOption]
    | ok chunk => exact HeartbeatReader.recvRead_aligned hread
  · rw [echoes.length_received]
    exact HeartbeatReader.recvRead_filled_lt hlt hread

/-- A read that returns an error leaves the rounds as they were. -/
theorem at_read_error {vars : SessionVars F64} {sentSeq : UInt64} {sendTs : F64}
    {deadline : Instant} {gotEcho : Bool} {outcome : Except ErrorKind (List UInt8)}
    {echoes : HeartbeatReader} {error : ErrorKind} {reason : String}
    (hat : log.At (.waiting vars sentSeq sendTs deadline gotEcho))
    (hread : vars.echoes.recvRead outcome = some (echoes, .returned (.error error))) :
    (log.record (.waiting vars sentSeq sendTs deadline gotEcho) (.read outcome)
      (breakSession vars clock reason)).At (.returned reason) := by
  have hreturned := hat.returned reason
  obtain ⟨-, reads, hcurrent, -⟩ := hat
  have hbytes : outcome.toOption.getD [] = [] := by
    cases outcome with
    | error kind => rfl
    | ok chunk =>
        by_contra hchunk
        rcases HeartbeatReader.recvRead_ok_cases hchunk hread with
          ⟨hrecv, -, -⟩ | ⟨heartbeat, hrecv, -, -, -⟩
        · cases hrecv
        · cases hrecv
  have hopen : ∀ vars', (breakSession vars clock reason).1 ≠ .loopHead vars' := by
    simp [breakSession]
  rw [record_read hread hcurrent hopen, hbytes, Recv.packets_error]
  simpa [← hcurrent] using hreturned

/-- A read that completes no packet goes on waiting. -/
theorem at_read_partial {vars : SessionVars F64} {sentSeq : UInt64} {sendTs : F64}
    {deadline : Instant} {gotEcho : Bool} {outcome : Except ErrorKind (List UInt8)}
    {echoes : HeartbeatReader} (hat : log.At (.waiting vars sentSeq sendTs deadline gotEcho))
    (hread : vars.echoes.recvRead outcome = some (echoes, .reading)) :
    (log.record (.waiting vars sentSeq sendTs deadline gotEcho) (.read outcome)
      (.waiting { vars with echoes := echoes } sentSeq sendTs deadline gotEcho, [])).At
      (.waiting { vars with echoes := echoes } sentSeq sendTs deadline gotEcho) := by
  obtain ⟨⟨hsound, hseq, hwritten⟩, stale, hcurrent, hstale, hgot⟩ := hat
  obtain ⟨haligned, hrest⟩ := read_aligned hsound hread
  rw [record_read hread hcurrent (by simp)]
  refine ⟨⟨hsound.readRound hcurrent haligned hrest _, hseq, hwritten⟩, stale, ?_, hstale, hgot⟩
  simp

/-- `record_echo` records an RTT exactly for the matching echo. -/
theorem filterMap_recordEcho (label : PeerLabel) (startTs nowTs : F64) (sendTs : Option F64) :
    (recordEcho label startTs nowTs sendTs).filterMap rttWrite =
      (sendTs.map fun sendTs => nowTs - sendTs).toList := by
  cases sendTs <;> rfl

/-- The matching echo completes the current round and gives it its RTT. -/
theorem record_matched {vars : SessionVars F64} {sentSeq : UInt64} {sendTs : F64}
    {deadline : Instant} {gotEcho : Bool} {outcome : Except ErrorKind (List UInt8)}
    {echoes : HeartbeatReader} {echo : Heartbeat} {round : Round F64}
    (hread : vars.echoes.recvRead outcome = some (echoes, .returned (.ok echo)))
    (hcurrent : log.current = some round) (hmatch : echo.seq = sentSeq) :
    log.record (.waiting vars sentSeq sendTs deadline gotEcho) (.read outcome)
        (readEcho { vars with echoes := echoes } sentSeq sendTs deadline clock echo) =
      { log with
        received := log.received ++ outcome.toOption.getD []
        decoded := log.decoded ++ [echo]
        rounds := log.rounds ++
          [{ round with reads := round.reads ++ [(echo, some (clock.wall - sendTs))] }]
        current := none } := by
  simp [record, hread, readEcho, hmatch, hcurrent, filterMap_recordEcho]

/-- Any other echo is added to the current round. -/
theorem record_stale {vars : SessionVars F64} {sentSeq : UInt64} {sendTs : F64}
    {deadline : Instant} {gotEcho : Bool} {outcome : Except ErrorKind (List UInt8)}
    {echoes : HeartbeatReader} {echo : Heartbeat} {round : Round F64}
    (hread : vars.echoes.recvRead outcome = some (echoes, .returned (.ok echo)))
    (hcurrent : log.current = some round) (hstale : echo.seq ≠ sentSeq) :
    log.record (.waiting vars sentSeq sendTs deadline gotEcho) (.read outcome)
        (readEcho { vars with echoes := echoes } sentSeq sendTs deadline clock echo) =
      { log with
        received := log.received ++ outcome.toOption.getD []
        decoded := log.decoded ++ [echo]
        current := some { round with reads := round.reads ++ [(echo, none)] } } := by
  simp [record, hread, readEcho, hstale, hcurrent, filterMap_recordEcho]

/-- A read that completes an echo ends the wait if the echo matches. -/
theorem at_read_echo {vars : SessionVars F64} {sentSeq : UInt64} {sendTs : F64}
    {deadline : Instant} {gotEcho : Bool} {outcome : Except ErrorKind (List UInt8)}
    {echoes : HeartbeatReader} {echo : Heartbeat}
    (hat : log.At (.waiting vars sentSeq sendTs deadline gotEcho))
    (hread : vars.echoes.recvRead outcome = some (echoes, .returned (.ok echo))) :
    (log.record (.waiting vars sentSeq sendTs deadline gotEcho) (.read outcome)
      (readEcho { vars with echoes := echoes } sentSeq sendTs deadline clock echo)).At
      (readEcho { vars with echoes := echoes } sentSeq sendTs deadline clock echo).1 := by
  obtain ⟨⟨hsound, hseq, hwritten⟩, stale, hcurrent, hstale, hgot⟩ := hat
  obtain ⟨haligned, hrest⟩ := read_aligned hsound hread
  rw [Recv.packets_ok] at haligned
  by_cases hmatch : echo.seq = sentSeq
  · have hnoted := hsound.readRound hcurrent haligned hrest (some (clock.wall - sendTs))
    have hclosed := hnoted.closeRound rfl (Or.inl ⟨stale, echo, clock.wall, rfl, hmatch, hstale⟩)
    rw [record_matched hread hcurrent hmatch, readEcho, if_pos hmatch]
    exact ⟨hclosed, rfl, hseq, hwritten⟩
  · rw [record_stale hread hcurrent hmatch, readEcho, if_neg hmatch]
    refine ⟨⟨hsound.readRound hcurrent haligned hrest none, hseq, hwritten⟩, stale ++ [echo],
      by simp [unmeasured], ?_, by simp⟩
    intro other hmem
    rcases List.mem_append.mp hmem with hold | hnew
    · exact hstale other hold
    · rw [List.mem_singleton.mp hnew]
      exact hmatch

/-- A step of a session keeps its history in agreement with its point. -/
theorem at_step (hat : log.At point)
    (hstep : runSession nodeName peerName clientCfg point clock completion = some after) :
    (log.record point completion after).At after.1 := by
  cases sessionStep_of_runSession hstep with
  | handshakePart hcount => exact hat
  | established hunsent =>
      obtain rfl : log = empty F64 := hat
      exact ⟨sound_empty, rfl, rfl, rfl⟩
  | handshakeError => exact hat.returned _
  | sleep hearly => exact hat
  | due hdue => exact at_startRound hat
  | wake hdue => exact at_startRound hat
  | sendPart hcount => exact at_sendPart hcount hat
  | sent hunsent => exact at_sent hat
  | writeError => exact hat.returned _
  | deadline hdue => exact at_elapsed hat
  | readPart hread => exact at_read_partial hat hread
  | readError hread => exact at_read_error hat hread
  | echo hread => exact at_read_echo hat hread
  | cancelled hpoint =>
      cases point <;> exact hat.returned _

/-- The rounds a step completes: none, or the one that was waiting. -/
theorem rounds_record (hat : log.At point)
    (hstep : SessionStep nodeName peerName clientCfg point clock completion after) :
    (log.record point completion after).rounds = log.rounds ∨
      ∃ vars sentSeq sendTs deadline gotEcho round,
        point = .waiting vars sentSeq sendTs deadline gotEcho ∧
        (log.record point completion after).rounds = log.rounds ++ [round] ∧
        round.deadline = deadline ∧
        ((completion = .elapsed ∧ deadline ≤ clock.now ∧ round.Unmatched) ∨
          ((∃ outcome, completion = .read outcome) ∧ round.Matched)) := by
  cases hstep with
  | handshakePart | established | handshakeError | sleep | due | wake | sendPart | sent
  | writeError => exact Or.inl rfl
  | @deadline vars sentSeq sendTs deadline gotEcho clock hdue =>
      obtain ⟨-, stale, hcurrent, hstale, -⟩ := hat
      rw [record_deadline hcurrent]
      exact Or.inr ⟨vars, sentSeq, sendTs, deadline, gotEcho, _, rfl, rfl, rfl,
        Or.inl ⟨rfl, hdue, stale, rfl, hstale⟩⟩
  | readPart hread =>
      obtain ⟨-, stale, hcurrent, -⟩ := hat
      rw [record_read hread hcurrent (by simp)]
      exact Or.inl rfl
  | readError hread =>
      obtain ⟨-, stale, hcurrent, -⟩ := hat
      rw [record_read hread hcurrent (by simp [breakSession])]
      exact Or.inl rfl
  | @echo vars sentSeq sendTs deadline gotEcho clock outcome echoes echo hread =>
      obtain ⟨-, stale, hcurrent, hstale, -⟩ := hat
      by_cases hmatch : echo.seq = sentSeq
      · rw [record_matched hread hcurrent hmatch]
        exact Or.inr ⟨vars, sentSeq, sendTs, deadline, gotEcho, _, rfl, rfl, rfl,
          Or.inr ⟨⟨outcome, rfl⟩, stale, echo, clock.wall, rfl, hmatch, hstale⟩⟩
      · rw [record_stale hread hcurrent hmatch]
        exact Or.inl rfl
  | cancelled hpoint => cases point <;> exact Or.inl rfl

/-- What a step adds to the two streams: the bytes that it has read, and
heartbeats that it has written, but not both. -/
theorem streams_record (hat : log.At point)
    (hstep : SessionStep nodeName peerName clientCfg point clock completion after) :
    (log.record point completion after).received = log.received ++ readBytes completion ∧
      log.sent <+: (log.record point completion after).sent ∧
      (readBytes completion ≠ [] → (log.record point completion after).sent = log.sent) := by
  have hbytes : ∀ outcome : Except ErrorKind (List UInt8),
      outcome.toOption.getD [] = readBytes (.read outcome) := by
    intro outcome
    cases outcome <;> rfl
  cases hstep with
  | handshakePart | established | handshakeError | sleep | due | wake | sendPart
  | writeError =>
      exact ⟨(List.append_nil _).symm, List.prefix_rfl, fun _ => rfl⟩
  | sent =>
      exact ⟨(List.append_nil _).symm, List.prefix_append _ _, fun hread => absurd rfl hread⟩
  | deadline =>
      obtain ⟨-, stale, hcurrent, -⟩ := hat
      rw [record_deadline hcurrent]
      exact ⟨(List.append_nil _).symm, List.prefix_rfl, fun _ => rfl⟩
  | readPart hread =>
      obtain ⟨-, stale, hcurrent, -⟩ := hat
      rw [record_read hread hcurrent (by simp), hbytes]
      exact ⟨rfl, List.prefix_rfl, fun _ => rfl⟩
  | readError hread =>
      obtain ⟨-, stale, hcurrent, -⟩ := hat
      rw [record_read hread hcurrent (by simp [breakSession]), hbytes]
      exact ⟨rfl, List.prefix_rfl, fun _ => rfl⟩
  | @echo vars sentSeq sendTs deadline gotEcho clock outcome echoes echo hread =>
      obtain ⟨-, stale, hcurrent, -⟩ := hat
      by_cases hmatch : echo.seq = sentSeq
      · rw [record_matched hread hcurrent hmatch, hbytes]
        exact ⟨rfl, List.prefix_rfl, fun _ => rfl⟩
      · rw [record_stale hread hcurrent hmatch, hbytes]
        exact ⟨rfl, List.prefix_rfl, fun _ => rfl⟩
  | cancelled hpoint =>
      cases point <;> exact ⟨(List.append_nil _).symm, List.prefix_rfl, fun _ => rfl⟩

end Log

/-! ## One session on its stream -/

/-- A session, the metrics and the history. -/
structure ClientStream (F64 : Type) where
  point : SessionPoint F64
  metrics : Metrics F64
  log : Log F64

namespace ClientStream

/-- A session that is about to send its handshake. -/
def start (nodeName : String) (metrics : Metrics F64) : ClientStream F64 :=
  ⟨openSession F64 nodeName, metrics, Log.empty F64⟩

/-- A step of the session.  The updates of the straight-line code between two
await points are all made before the next one. -/
def step (nodeName peerName : String) (clientCfg : ClientConfig) (state : ClientStream F64)
    (input : Reading F64 × Completion) : Option (ClientStream F64) :=
  (runSession nodeName peerName clientCfg state.point input.1 input.2).map fun after =>
    ⟨after.1, Update.applyAll after.2 state.metrics, state.log.record state.point input.2 after⟩

variable {nodeName peerName : String} {clientCfg : ClientConfig} {metrics : Metrics F64}
variable {state next : ClientStream F64} {input : Reading F64 × Completion}

theorem step_eq_some :
    step nodeName peerName clientCfg state input = some next ↔
      ∃ after, runSession nodeName peerName clientCfg state.point input.1 input.2 = some after ∧
        next = ⟨after.1, Update.applyAll after.2 state.metrics,
          state.log.record state.point input.2 after⟩ := by
  rw [step, Option.map_eq_some_iff]
  exact exists_congr fun after => and_congr_right fun _ => eq_comm

theorem at_of_reachable
    (hreach : Reachable (step nodeName peerName clientCfg) (start nodeName metrics) state) :
    state.log.At state.point := by
  refine hreach.invariant (fun state => state.log.At state.point) rfl ?_
  intro state input next hat hstep
  obtain ⟨after, hrun, rfl⟩ := step_eq_some.mp hstep
  exact Log.at_step hat hrun

/-- A live session writes under the label of its node and peer. -/
theorem label_of_reachable
    (hreach : Reachable (step nodeName peerName clientCfg) (start nodeName metrics) state)
    {vars : SessionVars F64} (hlive : state.point.live = some vars) :
    vars.label = ⟨nodeName, peerName⟩ := by
  refine hreach.invariant
    (fun state => ∀ vars, state.point.live = some vars → vars.label = ⟨nodeName, peerName⟩)
    ?_ ?_ vars hlive
  · intro vars hlive
    cases hlive
  · intro state input next hlabel hstep
    obtain ⟨after, hrun, rfl⟩ := step_eq_some.mp hstep
    exact (sessionStep_of_runSession hrun).label_eq hlabel

end ClientStream

end Definitions

end TcpMonitor.SessionLog
