import TcpMonitor.Client.SessionLog

/-!
# A session with a faithful peer

What follows for the rounds of a session when the bytes it has received are a
prefix of the heartbeats it has sent.  Sequence numbers are 64 bits wide, but a
heartbeat is sent at most once per interval and no clock runs long enough for
them to wrap, so the echo that matches a round is the one at its own position.
-/

namespace TcpMonitor.FaithfulEcho

open TcpMonitor.Runtime
open TcpMonitor.Configuration
open TcpMonitor.MetricFamilies
open TcpMonitor.HeartbeatPacket
open TcpMonitor.HeartbeatReading
open TcpMonitor.Session
open TcpMonitor.SessionLog

/-! ## Sequence numbers do not wrap -/

/-- Heartbeats are sent at most once per interval: `count` heartbeats take at
least that many intervals. -/
def Paced {F64 : Type} (interval : Duration) (now : Instant) (count : ℕ) :
    SessionPoint F64 → Prop
  | .handshake _ => count = 0
  | .loopHead vars | .sleeping vars | .waiting vars _ _ _ _ =>
      count * interval ≤ vars.nextSend ∧ count * interval ≤ now + interval
  | .sending vars _ _ _ =>
      (count + 1) * interval ≤ vars.nextSend ∧ count * interval ≤ now
  | .returned _ => count * interval ≤ now + interval

section Paced

variable {F64 : Type} {interval : Duration} {now later : Instant} {count : ℕ}
variable {point : SessionPoint F64}

theorem Paced.count_le (hpaced : Paced interval now count point) :
    count * interval ≤ now + interval := by
  cases point with
  | handshake unsent =>
      obtain rfl : count = 0 := hpaced
      rw [Nat.zero_mul]
      exact Nat.zero_le _
  | loopHead | sleeping | waiting => exact hpaced.2
  | sending => exact hpaced.2.trans (Nat.le_add_right _ _)
  | returned => exact hpaced

theorem Paced.mono (hpaced : Paced interval now count point) (hlater : now ≤ later) :
    Paced interval later count point := by
  cases point with
  | handshake => exact hpaced
  | loopHead | sleeping | waiting =>
      exact ⟨hpaced.1, hpaced.2.trans (Nat.add_le_add_right hlater _)⟩
  | sending => exact ⟨hpaced.1, hpaced.2.trans hlater⟩
  | returned => exact hpaced.trans (Nat.add_le_add_right hlater _)

/-- No session sends so many heartbeats that their numbers wrap. -/
theorem Paced.count_lt (hpaced : Paced interval now count point)
    (hinterval : 1000000000 ≤ interval) (hnow : now < instantLimit) : count < 2 ^ 64 := by
  by_contra hlarge
  have hmany : (2 ^ 63 + 1) * interval ≤ now + interval :=
    (Nat.mul_le_mul_right interval (by omega)).trans hpaced.count_le
  rw [Nat.add_mul, Nat.one_mul] at hmany
  have hlong : instantLimit ≤ 2 ^ 63 * interval := Nat.mul_le_mul_left _ hinterval
  exact absurd (Nat.le_of_add_le_add_right hmany) (Nat.not_le.mpr (hnow.trans_le hlong))

end Paced

section Rounds

variable {F64 : Type} [WallClock F64]

/-- How many echoes have been read when the first `count` rounds are over. -/
def readBy (rounds : List (Round F64)) (count : ℕ) : ℕ :=
  ((rounds.take count).flatMap Round.echoes).length

/-- After round `k` at most `k + 1` echoes have been read, and that many exactly
if the round was matched. -/
def Counted (rounds : List (Round F64)) : Prop :=
  ∀ k round, rounds[k]? = some round →
    readBy rounds (k + 1) ≤ k + 1 ∧ (round.Matched ↔ readBy rounds (k + 1) = k + 1)

theorem Round.not_matched_of_unmatched {round : Round F64} (hunmatched : round.Unmatched) :
    ¬ round.Matched := by
  obtain ⟨stale, hreads, -⟩ := hunmatched
  rintro ⟨stale', own, nowTs, hreads', -⟩
  have hmem : (own, some (nowTs - round.sendTs)) ∈ unmeasured stale := by
    rw [← hreads, hreads']
    simp
  simp [unmeasured] at hmem

/-- Before the current round, no more echoes than rounds have been read. -/
theorem Counted.length_le {rounds : List (Round F64)} (hcounted : Counted rounds) :
    (rounds.flatMap Round.echoes).length ≤ rounds.length := by
  cases hlast : rounds.length with
  | zero =>
      rw [List.length_eq_zero_iff.mp hlast]
      rfl
  | succ count =>
      have hget : rounds[count]? = some rounds[count] :=
        List.getElem?_eq_getElem (by omega)
      have hle := (hcounted count _ hget).1
      rwa [readBy, ← hlast, List.take_length, hlast] at hle

theorem Counted.concat {rounds : List (Round F64)} (hcounted : Counted rounds)
    {round : Round F64}
    (hle : ((rounds ++ [round]).flatMap Round.echoes).length ≤ rounds.length + 1)
    (hmatched : round.Matched ↔
      ((rounds ++ [round]).flatMap Round.echoes).length = rounds.length + 1) :
    Counted (rounds ++ [round]) := by
  intro k other hget
  rcases Nat.lt_or_ge k rounds.length with hold | hnew
  · rw [List.getElem?_append_left hold] at hget
    have hsame : readBy (rounds ++ [round]) (k + 1) = readBy rounds (k + 1) := by
      rw [readBy, List.take_append_of_le_length hold, readBy]
    rw [hsame]
    exact hcounted k other hget
  · have hlength := (List.getElem?_eq_some_iff.mp hget).1
    rw [List.length_append, List.length_singleton] at hlength
    obtain rfl : k = rounds.length := by omega
    obtain rfl : round = other := by
      simpa using hget
    have hall : readBy (rounds ++ [round]) (rounds.length + 1) =
        ((rounds ++ [round]).flatMap Round.echoes).length := by
      rw [readBy, List.take_of_length_le (by simp)]
    rw [hall]
    exact ⟨hle, hmatched⟩

/-- The session has received a prefix of what it sent, and its rounds and
heartbeats are counted. -/
structure Faithful (interval : Duration) (now : Instant) (point : SessionPoint F64)
    (log : Log F64) : Prop where
  at_point : log.At point
  received_initial : log.received <+: wire log.sent
  counted : Counted log.rounds
  paced : Paced interval now log.sent.length point

end Rounds

/-! ## Positions in the stream of echoes -/

section Positions

variable {F64 : Type} [WallClock F64] {log : Log F64} {rest : List UInt8}
variable {point : SessionPoint F64}

theorem sound_of_at (hat : log.At point) : ∃ rest, log.Sound rest := by
  obtain ⟨rest, -, -, hsound, -⟩ := hat.returned ""
  exact ⟨rest, hsound⟩

theorem decoded_initial (hsound : log.Sound rest) (hreceived : log.received <+: wire log.sent) :
    log.decoded <+: log.sent := by
  rw [hsound.received_eq] at hreceived
  exact prefix_of_wire_prefix hreceived

theorem getElem?_of_initial {Element : Type} {front whole : List Element} {position : ℕ}
    {element : Element} (hinitial : front <+: whole) (hget : front[position]? = some element) :
    whole[position]? = some element := by
  obtain ⟨back, rfl⟩ := hinitial
  rw [List.getElem?_append_left (List.getElem?_eq_some_iff.mp hget).1]
  exact hget

theorem seq_of_sent (hsound : log.Sound rest) {position : ℕ} {heartbeat : Heartbeat}
    (hget : log.sent[position]? = some heartbeat) : heartbeat.seq = UInt64.ofNat position := by
  have hlt := (List.getElem?_eq_some_iff.mp hget).1
  have hseq := congrArg (fun seqs => seqs[position]?) hsound.seqs
  simpa [List.getElem?_map, hget, List.getElem?_range hlt] using hseq

theorem seq_of_decoded (hsound : log.Sound rest) (hdecoded : log.decoded <+: log.sent)
    {position : ℕ} {echo : Heartbeat} (hget : log.decoded[position]? = some echo) :
    echo.seq = UInt64.ofNat position :=
  seq_of_sent hsound (getElem?_of_initial hdecoded hget)

/-- Numbers that have not wrapped are different at different positions. -/
theorem ofNat_inj {left right : ℕ} (hleft : left < 2 ^ 64) (hright : right < 2 ^ 64) :
    UInt64.ofNat left = UInt64.ofNat right ↔ left = right := by
  constructor
  · intro heq
    have hnat := congrArg UInt64.toNat heq
    rwa [UInt64.toNat_ofNat', UInt64.toNat_ofNat', Nat.mod_eq_of_lt hleft,
      Nat.mod_eq_of_lt hright] at hnat
  · rintro rfl
    rfl

theorem seq_of_round (hat : log.At point) {position : ℕ} {round : Round F64}
    (hget : log.allRounds[position]? = some round) :
    round.sentSeq = UInt64.ofNat position ∧ position < log.sent.length := by
  obtain ⟨rest, hsound⟩ := sound_of_at hat
  have hsent : log.sent[position]? = some round.heartbeat := by
    rw [hsound.sent_eq, List.getElem?_map, hget]
    rfl
  exact ⟨seq_of_sent hsound hsent, (List.getElem?_eq_some_iff.mp hsent).1⟩

/-- Every round is matched, and then completed, or has measured nothing. -/
theorem settled_of_at (hat : log.At point) {k : ℕ} {round : Round F64}
    (hget : log.allRounds[k]? = some round) :
    (log.rounds[k]? = some round ∧ round.Matched) ∨ round.Unmatched := by
  obtain ⟨rest, -, -, hsound, -, hopen⟩ := hat.returned ""
  rcases Nat.lt_or_ge k log.rounds.length with hold | hnew
  · rw [Log.allRounds, List.getElem?_append_left hold] at hget
    exact (hsound.settled round (List.mem_of_getElem? hget)).imp_left fun hmatched =>
      ⟨hget, hmatched⟩
  · rw [Log.allRounds, List.getElem?_append_right hnew] at hget
    exact Or.inr (hopen round (Option.mem_toList.mp (List.mem_of_getElem? hget)))

variable {vars : SessionVars F64} {sentSeq : UInt64} {sendTs : F64} {deadline : Instant}
variable {gotEcho : Bool}

/-- The round after `k` completed rounds waits for heartbeat `k`. -/
theorem position_of_waiting (hat : log.At (.waiting vars sentSeq sendTs deadline gotEcho)) :
    log.sent.length = log.rounds.length + 1 ∧ sentSeq = UInt64.ofNat log.rounds.length := by
  obtain ⟨⟨hsound, -, -⟩, stale, hcurrent, -, -⟩ := hat
  have hsent := hsound.sent_eq
  rw [Log.allRounds, hcurrent, Option.toList_some, List.map_append] at hsent
  have hget : log.sent[log.rounds.length]? =
      some (Round.heartbeat ⟨sentSeq, sendTs, deadline, unmeasured stale⟩) := by
    rw [hsent]
    simp
  refine ⟨?_, ?_⟩
  · rw [hsent]
    simp
  · exact seq_of_sent hsound hget

/-- Before the echo of a round has been read, no more echoes have been decoded
than rounds were completed before it. -/
theorem decoded_le_of_open (hsound : log.Sound rest) (hreceived : log.received <+: wire log.sent)
    (hcounted : Counted log.rounds) {round : Round F64} (hcurrent : log.current = some round)
    (hunmatched : round.Unmatched) : log.decoded.length ≤ log.rounds.length := by
  obtain ⟨stale, hreads, hstale⟩ := hunmatched
  by_contra hmany
  have hdecoded := hsound.decoded_eq
  have hsent := hsound.sent_eq
  rw [Log.allRounds, hcurrent, Option.toList_some, List.map_append] at hsent
  rw [Log.allRounds, hcurrent, Option.toList_some, List.flatMap_append] at hdecoded
  have hechoes : [round].flatMap Round.echoes = stale := by
    simp [Round.echoes, hreads]
  have hround : log.sent[log.rounds.length]? = some round.heartbeat := by
    rw [hsent]
    simp
  have hsentSeq : round.sentSeq = UInt64.ofNat log.rounds.length := seq_of_sent hsound hround
  rw [hechoes] at hdecoded
  -- the echo at the round's own position is one of those read in the round
  have hown : log.rounds.length < log.decoded.length := by omega
  obtain ⟨own, hget⟩ : ∃ own, log.decoded[log.rounds.length]? = some own :=
    ⟨_, List.getElem?_eq_getElem hown⟩
  have hseq := seq_of_decoded hsound (decoded_initial hsound hreceived) hget
  rw [hdecoded, List.getElem?_append_right hcounted.length_le] at hget
  exact hstale own (List.mem_of_getElem? hget) (hseq.trans hsentSeq.symm)

/-- While the session waits for the echo of heartbeat `k`, it has decoded at
most `k` echoes. -/
theorem decoded_le_of_waiting (hat : log.At (.waiting vars sentSeq sendTs deadline gotEcho))
    (hreceived : log.received <+: wire log.sent) (hcounted : Counted log.rounds) :
    log.decoded.length ≤ log.rounds.length := by
  obtain ⟨⟨hsound, -, -⟩, stale, hcurrent, hstale, -⟩ := hat
  exact decoded_le_of_open hsound hreceived hcounted hcurrent ⟨stale, rfl, hstale⟩

/-- The count includes a round that is not completed. -/
theorem Faithful.counted_allRounds {interval : Duration} {now : Instant}
    (hfaithful : Faithful interval now point log) : Counted log.allRounds := by
  obtain ⟨rest, -, -, hsound, -, hopen⟩ := hfaithful.at_point.returned ""
  cases hcurrent : log.current with
  | none =>
      rw [Log.allRounds, hcurrent, Option.toList_none, List.append_nil]
      exact hfaithful.counted
  | some round =>
      have hunmatched := hopen round hcurrent
      have hle := decoded_le_of_open hsound hfaithful.received_initial hfaithful.counted
        hcurrent hunmatched
      rw [hsound.decoded_eq, Log.allRounds, hcurrent, Option.toList_some] at hle
      rw [Log.allRounds, hcurrent, Option.toList_some]
      exact hfaithful.counted.concat (Nat.le_succ_of_le hle)
        (iff_of_false (Round.not_matched_of_unmatched hunmatched) (by omega))

/-- The next echo is the session's own exactly if all earlier ones have been
decoded. -/
theorem matches_iff_of_waiting (hat : log.At (.waiting vars sentSeq sendTs deadline gotEcho))
    (hreceived : log.received <+: wire log.sent) (hcounted : Counted log.rounds)
    (hcount : log.sent.length < 2 ^ 64) {echo : Heartbeat}
    (hnext : log.decoded ++ [echo] <+: log.sent) :
    echo.seq = sentSeq ↔ log.decoded.length = log.rounds.length := by
  obtain ⟨hlength, rfl⟩ := position_of_waiting hat
  have hle := decoded_le_of_waiting hat hreceived hcounted
  have hget : log.sent[log.decoded.length]? = some echo :=
    getElem?_of_initial hnext (by simp)
  rw [seq_of_sent hat.1.1 hget]
  exact ofNat_inj (by omega) (by omega)

omit [WallClock F64] in
theorem readBy_succ {rounds : List (Round F64)} {k : ℕ} {round : Round F64}
    (hget : rounds[k]? = some round) :
    readBy rounds (k + 1) = readBy rounds k + round.reads.length := by
  rw [readBy, List.take_add_one, hget, Option.toList_some, List.flatMap_append,
    List.length_append, readBy]
  simp [Round.echoes]

/-- An echo read in round `k` is one of those decoded by the end of the round. -/
theorem exists_position (hsound : log.Sound rest) {k : ℕ} {round : Round F64}
    (hget : log.allRounds[k]? = some round) {echo : Heartbeat} (hmem : echo ∈ round.echoes) :
    ∃ position, position < readBy log.allRounds (k + 1) ∧
      log.decoded[position]? = some echo := by
  have hround : round ∈ log.allRounds.take (k + 1) :=
    List.mem_of_getElem? ((List.getElem?_take_of_lt (Nat.lt_succ_self k)).trans hget)
  obtain ⟨position, hposition⟩ :=
    List.mem_iff_getElem?.mp (List.mem_flatMap.mpr ⟨round, hround, hmem⟩)
  have hinitial : (log.allRounds.take (k + 1)).flatMap Round.echoes <+: log.decoded := by
    rw [hsound.decoded_eq]
    exact (List.take_prefix _ _).flatMap _
  exact ⟨position, (List.getElem?_eq_some_iff.mp hposition).1,
    getElem?_of_initial hinitial hposition⟩

end Positions

/-! ## What a step keeps -/

section Step

variable {F64 : Type} [WallClock F64] {nodeName peerName : String} {clientCfg : ClientConfig}
variable {point : SessionPoint F64} {log : Log F64} {clock : Reading F64}
variable {completion : Completion} {after : SessionPoint F64 × List (Update F64)}

theorem paced_startRound {vars : SessionVars F64} {count : ℕ}
    (hvars : count * fromSecs clientCfg.heartbeatInterval ≤ vars.nextSend)
    (hdue : vars.nextSend ≤ clock.now) :
    Paced (fromSecs clientCfg.heartbeatInterval) clock.now count
      (startRound clientCfg vars clock) := by
  refine ⟨?_, hvars.trans hdue⟩
  rw [Nat.add_mul, Nat.one_mul]
  exact Nat.add_le_add_right hvars _

theorem paced_endWait {vars : SessionVars F64} {gotEcho : Bool} {count : ℕ}
    (hpaced : Paced (fromSecs clientCfg.heartbeatInterval) clock.now count (.loopHead vars)) :
    Paced (fromSecs clientCfg.heartbeatInterval) clock.now count
      (endWait clientCfg vars gotEcho clock).1 := by
  obtain ⟨hnextSend, hnow⟩ := hpaced
  rcases endWait_cases clientCfg vars gotEcho clock with ⟨-, heq⟩ | ⟨-, -, heq⟩ | ⟨-, -, heq⟩
  · rw [heq]
    exact ⟨hnextSend, hnow⟩
  · rw [heq]
    exact ⟨hnow, hnow⟩
  · rw [heq]
    exact hnow

/-- A step keeps the pace: the next heartbeat is due an interval after the last
one was, or later. -/
theorem paced_step (hat : log.At point)
    (hpaced : Paced (fromSecs clientCfg.heartbeatInterval) clock.now log.sent.length point)
    (hstep : SessionStep nodeName peerName clientCfg point clock completion after) :
    Paced (fromSecs clientCfg.heartbeatInterval) clock.now
      (log.record point completion after).sent.length after.1 := by
  cases hstep with
  | handshakePart hcount => exact hpaced
  | established hunsent =>
      obtain rfl : log = Log.empty F64 := hat
      exact ⟨by simp [Log.record, Log.empty], by simp [Log.record, Log.empty]⟩
  | handshakeError => exact hpaced.count_le
  | sleep hearly => exact hpaced
  | due hdue => exact paced_startRound hpaced.1 hdue
  | wake hdue => exact paced_startRound hpaced.1 hdue
  | sendPart hcount => exact hpaced
  | sent hunsent =>
      simp only [Log.record, List.length_append, List.length_singleton]
      refine ⟨hpaced.1, ?_⟩
      rw [Nat.add_mul, Nat.one_mul]
      exact Nat.add_le_add_right hpaced.2 _
  | writeError => exact hpaced.count_le
  | deadline hdue =>
      obtain ⟨-, stale, hcurrent, -⟩ := hat
      rw [Log.record_deadline hcurrent]
      exact paced_endWait hpaced
  | readPart hread =>
      obtain ⟨-, stale, hcurrent, -⟩ := hat
      rw [Log.record_read hread hcurrent (by simp)]
      exact hpaced
  | readError hread =>
      obtain ⟨-, stale, hcurrent, -⟩ := hat
      rw [Log.record_read hread hcurrent (by simp [breakSession])]
      exact hpaced.count_le
  | @echo vars sentSeq sendTs deadline gotEcho clock outcome echoes echo hread =>
      obtain ⟨-, stale, hcurrent, -⟩ := hat
      by_cases hmatch : echo.seq = sentSeq
      · rw [Log.record_matched hread hcurrent hmatch, readEcho, if_pos hmatch]
        exact hpaced
      · rw [Log.record_stale hread hcurrent hmatch, readEcho, if_neg hmatch]
        exact hpaced
  | cancelled hpoint =>
      cases point <;> exact hpaced.count_le

/-- A round closed by its deadline leaves at most as many echoes read as rounds
completed before it. -/
theorem counted_deadline {vars : SessionVars F64} {sentSeq : UInt64} {sendTs : F64}
    {deadline : Instant} {gotEcho : Bool}
    (hat : log.At (.waiting vars sentSeq sendTs deadline gotEcho))
    (hreceived : log.received <+: wire log.sent) (hcounted : Counted log.rounds) :
    Counted (log.record (.waiting vars sentSeq sendTs deadline gotEcho) .elapsed after).rounds := by
  have hle := decoded_le_of_waiting hat hreceived hcounted
  obtain ⟨⟨hsound, -, -⟩, stale, hcurrent, hstale, -⟩ := hat
  have hread := hsound.decoded_eq
  rw [Log.allRounds, hcurrent, Option.toList_some] at hread
  rw [hread] at hle
  have hnot : ¬ Round.Matched ⟨sentSeq, sendTs, deadline, unmeasured stale⟩ :=
    Round.not_matched_of_unmatched ⟨stale, rfl, hstale⟩
  rw [Log.record_deadline hcurrent]
  exact hcounted.concat (Nat.le_succ_of_le hle) (iff_of_false hnot (by omega))

/-- A round closed by its own echo is the one in which the number of echoes
catches up with the number of rounds. -/
theorem counted_echo {vars : SessionVars F64} {sentSeq : UInt64} {sendTs : F64}
    {deadline : Instant} {gotEcho : Bool} {outcome : Except ErrorKind (List UInt8)}
    {echoes : HeartbeatReader} {echo : Heartbeat}
    (hat : log.At (.waiting vars sentSeq sendTs deadline gotEcho))
    (hreceived : log.received <+: wire log.sent) (hcounted : Counted log.rounds)
    (hcount : log.sent.length < 2 ^ 64)
    (hread : vars.echoes.recvRead outcome = some (echoes, .returned (.ok echo)))
    (hnext : log.decoded ++ [echo] <+: log.sent) :
    Counted (log.record (.waiting vars sentSeq sendTs deadline gotEcho) (.read outcome)
      (readEcho { vars with echoes := echoes } sentSeq sendTs deadline clock echo)).rounds := by
  have hiff := matches_iff_of_waiting hat hreceived hcounted hcount hnext
  obtain ⟨⟨hsound, -, -⟩, stale, hcurrent, hstale, -⟩ := hat
  by_cases hmatch : echo.seq = sentSeq
  · have hdecoded := hsound.decoded_eq
    rw [Log.allRounds, hcurrent, Option.toList_some] at hdecoded
    have hlength : ((log.rounds ++ [{ (⟨sentSeq, sendTs, deadline, unmeasured stale⟩ : Round F64)
        with reads := unmeasured stale ++ [(echo, some (clock.wall - sendTs))] }]).flatMap
          Round.echoes).length = log.rounds.length + 1 := by
      rw [← hiff.mp hmatch, hdecoded]
      simp [Round.echoes, Nat.add_assoc]
    rw [Log.record_matched hread hcurrent hmatch]
    exact hcounted.concat hlength.le
      (iff_of_true ⟨stale, echo, clock.wall, rfl, hmatch, hstale⟩ hlength)
  · rw [Log.record_stale hread hcurrent hmatch]
    exact hcounted

/-- A step of the session keeps it faithful as long as what it has received
stays a prefix of what it has sent. -/
theorem Faithful.step (hfaithful : Faithful (fromSecs clientCfg.heartbeatInterval) clock.now
      point log)
    (hinterval : 1 ≤ clientCfg.heartbeatInterval) (hnow : clock.now < instantLimit)
    (hstep : runSession nodeName peerName clientCfg point clock completion = some after)
    (hreceived : (log.record point completion after).received <+:
      wire (log.record point completion after).sent) :
    Faithful (fromSecs clientCfg.heartbeatInterval) clock.now after.1
      (log.record point completion after) := by
  obtain ⟨hat, hbefore, hcounted, hpaced⟩ := hfaithful
  have hat' := Log.at_step hat hstep
  have hcases := sessionStep_of_runSession hstep
  refine ⟨hat', hreceived, ?_, paced_step hat hpaced hcases⟩
  have hcount : log.sent.length < 2 ^ 64 :=
    hpaced.count_lt (Nat.le_mul_of_pos_left _ (UInt64.le_iff_toNat_le.mp hinterval)) hnow
  cases hcases with
  | handshakePart | established | handshakeError | sleep | due | wake | sendPart | sent
  | writeError => exact hcounted
  | deadline hdue => exact counted_deadline hat hbefore hcounted
  | readPart hread =>
      obtain ⟨-, stale, hcurrent, -⟩ := hat
      rw [Log.record_read hread hcurrent (by simp)]
      exact hcounted
  | readError hread =>
      obtain ⟨-, stale, hcurrent, -⟩ := hat
      rw [Log.record_read hread hcurrent (by simp [breakSession])]
      exact hcounted
  | @echo vars sentSeq sendTs deadline gotEcho clock outcome echoes echo hread =>
      refine counted_echo hat hbefore hcounted hcount hread ?_
      obtain ⟨rest, hsound'⟩ := sound_of_at hat'
      have hdecoded := decoded_initial hsound' hreceived
      obtain ⟨-, stale, hcurrent, -⟩ := hat
      by_cases hmatch : echo.seq = sentSeq
      · rwa [Log.record_matched hread hcurrent hmatch] at hdecoded
      · rwa [Log.record_stale hread hcurrent hmatch] at hdecoded
  | cancelled hpoint => cases point <;> exact hcounted

end Step

end TcpMonitor.FaithfulEcho
