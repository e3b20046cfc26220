import TcpMonitor.TimerBounds

/-!
# How long a connection keeps its slot

The steps of one connection and of one probe connection on the monotonic clock.
Every wait of a connection ends at a deadline: the handshake as a whole has one
of its own, and so has every packet.  Counted from any instant, a connection
therefore keeps its permit for the handshake timeout and one receive timeout
for each heartbeat that it counts from then on and the one that does not come.
The drain of a probe has a single deadline, whatever is sent.
-/

namespace TcpMonitor.SlotTiming

open TcpMonitor.TaskPool
open TcpMonitor.Runtime
open TcpMonitor.MetricFamilies
open TcpMonitor.InboundSession
open TcpMonitor.SessionPool
open TcpMonitor.Handshake
open TcpMonitor.HeartbeatReading
open TcpMonitor.WholeProcess

/-! ## What a connection waits for -/

section Waits

variable {F64 : Type}

/-- The update that counts a heartbeat. -/
def countsHeartbeat : Update F64 → Bool
  | .incCounter .serverHeartbeatsRx _ => true
  | _ => false

/-- The heartbeats that a connection has counted or is about to count. -/
def heartbeatsCounted (task : SessionTask F64) : ℕ :=
  (task.made ++ task.pending).countP countsHeartbeat

/-- A connection lets time pass until the deadline of its handshake or of its
packet.  Everywhere else it runs on at once, and the sixteen bytes of an echo
fit into the buffers of the socket. -/
def connectionWaits (later : Instant) (task : SessionTask F64) : Bool :=
  match task.control.point, task.pending with
  | .handshake _ deadline, [] | .driving _ _ (.receiving _ deadline), [] => later ≤ deadline
  | .closed _, [] => true
  | _, _ => false

/-- A probe connection lets time pass while it drains. -/
def probeWaits (later : Instant) (probe : Probe) : Bool :=
  match probe.point with
  | .banner _ => false
  | .draining deadline => later ≤ deadline
  | .closed => true

end Waits

/-! ## One step of a connection -/

section Connection

variable {F64 : Type}

/-- Everything a step of a connection can be on the clock, with the number of
heartbeats that it counts. -/
inductive ConnectionStep (timeout : UInt64) (now : Instant) : Point F64 → Point F64 → ℕ → Prop
  | accepted {reader : HandshakeReader} :
      ConnectionStep timeout now .accepted
        (.handshake reader (now + fromSecs handshakeTimeoutSecs)) 0
  | handshakePart {reader reader' : HandshakeReader} {deadline : Instant} :
      ConnectionStep timeout now (.handshake reader deadline) (.handshake reader' deadline) 0
  | announced {reader : HandshakeReader} {deadline : Instant} {peerName : String} :
      ConnectionStep timeout now (.handshake reader deadline) (.registering peerName) 0
  | handshakeFailed {reader : HandshakeReader} {deadline : Instant} :
      ConnectionStep timeout now (.handshake reader deadline) (.closed .handshakeFailed) 0
  | refused {peerName : String} :
      ConnectionStep timeout now (.registering peerName) (.closed .refused) 0
  | admitted {peerName : String} {label : PeerLabel} {startTs : F64} :
      ConnectionStep timeout now (.registering peerName) (.driving label startTs .loopHead) 0
  | call {label : PeerLabel} {startTs : F64} {reader : HeartbeatReader} :
      ConnectionStep timeout now (.driving label startTs .loopHead)
        (.driving label startTs (.receiving reader (now + fromSecs timeout))) 0
  | readPart {label : PeerLabel} {startTs : F64} {reader reader' : HeartbeatReader}
      {deadline : Instant} :
      ConnectionStep timeout now (.driving label startTs (.receiving reader deadline))
        (.driving label startTs (.receiving reader' deadline)) 0
  | heartbeat {label : PeerLabel} {startTs : F64} {reader : HeartbeatReader}
      {deadline : Instant} {unsent : List UInt8} :
      ConnectionStep timeout now (.driving label startTs (.receiving reader deadline))
        (.driving label startTs (.echoing unsent)) 1
  | echoPart {label : PeerLabel} {startTs : F64} {unsent unsent' : List UInt8} :
      ConnectionStep timeout now (.driving label startTs (.echoing unsent))
        (.driving label startTs (.echoing unsent')) 0
  | echoed {label : PeerLabel} {startTs : F64} {unsent : List UInt8} :
      ConnectionStep timeout now (.driving label startTs (.echoing unsent))
        (.driving label startTs .loopHead) 0
  | timedOut {label : PeerLabel} {startTs : F64} {reader : HeartbeatReader} {deadline : Instant}
      {reason : String} :
      ConnectionStep timeout now (.driving label startTs (.receiving reader deadline))
        (.closed (.ended reason)) 0
  | echoFailed {label : PeerLabel} {startTs : F64} {unsent : List UInt8} {reason : String} :
      ConnectionStep timeout now (.driving label startTs (.echoing unsent))
        (.closed (.ended reason)) 0

variable [WallClock F64] {clock : Reading F64} {completion : Completion}
variable {updates : List (Update F64)}

omit [WallClock F64] in
theorem countP_startUpdates (label : PeerLabel) (startTs : F64) :
    (startUpdates label startTs).countP countsHeartbeat = 0 := by
  refine List.countP_eq_zero.mpr (List.forall_mem_append.mpr ⟨fun update hmem => ?_, ?_⟩)
  · rcases List.mem_append.mp hmem with hserver | hclient
    · obtain ⟨reason, -, rfl⟩ := List.mem_map.mp hserver
      simp [countsHeartbeat]
    · obtain ⟨reason, -, rfl⟩ := List.mem_map.mp hclient
      simp [countsHeartbeat]
  · simp [countsHeartbeat]

omit [WallClock F64] in
theorem countP_endUpdates (label : PeerLabel) (duration : F64) (reason : String) :
    (endUpdates label duration reason).countP countsHeartbeat = 0 := by
  simp [endUpdates, countsHeartbeat]

theorem countP_heartbeatUpdates (label : PeerLabel) (startTs now : F64) :
    (heartbeatUpdates label startTs now).countP countsHeartbeat = 1 := rfl

/-- A step of the echo loop, which counts a heartbeat or none. -/
theorem connectionStep_of_driveSession {timeout : UInt64} {label : PeerLabel} {startTs : F64}
    {drive drive' : Drive}
    (hdrive : driveSession timeout label startTs drive clock completion =
      some (drive', updates)) :
    (∃ reason, drive' = .ended reason ∧ updates = [] ∧
        ConnectionStep timeout clock.now (.driving label startTs drive)
          (.closed (.ended reason)) 0) ∨
      (∀ reason, drive' ≠ .ended reason) ∧
        ConnectionStep timeout clock.now (.driving label startTs drive)
          (.driving label startTs drive') (updates.countP countsHeartbeat) := by
  unfold driveSession at hdrive
  split at hdrive
  · cases hdrive
    exact Or.inr ⟨nofun, .call⟩
  · split at hdrive <;> cases hdrive
    exact Or.inl ⟨_, rfl, rfl, .timedOut⟩
  · split at hdrive <;> cases hdrive
    · exact Or.inr ⟨nofun, .readPart⟩
    · exact Or.inl ⟨_, rfl, rfl, .timedOut⟩
    · refine Or.inr ⟨nofun, ?_⟩
      rw [countP_heartbeatUpdates]
      exact .heartbeat
  · split at hdrive
    · cases hdrive
    · split at hdrive <;> cases hdrive
      · exact Or.inr ⟨nofun, .echoed⟩
      · exact Or.inr ⟨nofun, .echoPart⟩
  · cases hdrive
    exact Or.inl ⟨_, rfl, rfl, .echoFailed⟩
  · cases hdrive

variable [UnicodeTables]

theorem connectionStep_of_handleConnection {nodeName : String} {peers peers' : ServerPeers}
    {connection connection' : Connection F64}
    (hhandle : handleConnection nodeName peers connection clock completion =
      some (peers', connection', updates)) :
    ConnectionStep connection.heartbeatRecvTimeout clock.now connection.point connection'.point
      (updates.countP countsHeartbeat) := by
  unfold handleConnection at hhandle
  simp only at hhandle
  split at hhandle
  · next hpoint =>
      cases hhandle
      rw [hpoint]
      exact .accepted
  · next hpoint =>
      rw [hpoint]
      split at hhandle <;> cases hhandle
      exact .handshakeFailed
  · next hpoint =>
      rw [hpoint]
      split at hhandle <;> cases hhandle
      · exact .handshakePart
      · exact .handshakeFailed
      · exact .announced
  · next hpoint =>
      rw [hpoint]
      split at hhandle <;> cases hhandle
      · exact .refused
      · rw [countP_startUpdates]
        exact .admitted
  · next label startTs drive hpoint =>
      rw [hpoint]
      split at hhandle
      · cases hhandle
      · next hdrive =>
          cases hhandle
          obtain ⟨reason, hended, rfl, hstep⟩ | ⟨hrunning, -⟩ :=
            connectionStep_of_driveSession hdrive
          · cases hended
            rw [List.nil_append, countP_endUpdates]
            exact hstep
          · exact absurd rfl (hrunning _)
      · next hnot hdrive =>
          cases hhandle
          obtain ⟨reason, hended, -, -⟩ | ⟨-, hstep⟩ := connectionStep_of_driveSession hdrive
          · exact absurd hended (hnot reason)
          · exact hstep
  · cases hhandle

end Connection

/-! ## How long it takes -/

section Slots

variable {F64 : Type}

/-- The end of a slot that is held for the handshake and for a number of packets,
counted from an instant. -/
def slotEnd (since : Instant) (timeout : UInt64) (packets : ℕ) : Instant :=
  since + fromSecs handshakeTimeoutSecs + packets * fromSecs timeout

theorem slotEnd_mono (since : Instant) (timeout : UInt64) {packets packets' : ℕ}
    (hle : packets ≤ packets') : slotEnd since timeout packets ≤ slotEnd since timeout packets' :=
  Nat.add_le_add_left (Nat.mul_le_mul_right _ hle) _

theorem slotEnd_succ (since : Instant) (timeout : UInt64) (packets : ℕ) :
    slotEnd since timeout (packets + 1) = slotEnd since timeout packets + fromSecs timeout := by
  rw [slotEnd, slotEnd, Nat.succ_mul, ← Nat.add_assoc]

theorem le_slotEnd (since : Instant) (timeout : UInt64) (packets : ℕ) :
    since ≤ slotEnd since timeout packets :=
  Nat.le_trans (Nat.le_add_right _ _) (Nat.le_add_right _ _)

/-- The deadline of a connection has not passed, and it is at most one of its
timeouts away. -/
def DeadlineAhead (timeout : UInt64) (now : Instant) : Point F64 → Prop
  | .handshake _ deadline => now ≤ deadline ∧ deadline ≤ now + fromSecs handshakeTimeoutSecs
  | .driving _ _ (.receiving _ deadline) => now ≤ deadline ∧ deadline ≤ now + fromSecs timeout
  | _ => True

/-- Where a connection can be at an instant when it has counted `count`
heartbeats since an earlier one. -/
def WithinSlot (timeout : UInt64) (since now : Instant) (count : ℕ) : Point F64 → Prop
  | .accepted => now ≤ since
  | .handshake _ deadline => now ≤ deadline ∧ deadline ≤ slotEnd since timeout 0
  | .registering _ => now ≤ slotEnd since timeout 0
  | .driving _ _ (.receiving _ deadline) =>
      now ≤ deadline ∧ deadline ≤ slotEnd since timeout (count + 1)
  | .driving _ _ _ => now ≤ slotEnd since timeout count
  | .closed _ => now ≤ slotEnd since timeout (count + 1)

variable {timeout : UInt64} {since now : Instant} {count counted : ℕ} {point point' : Point F64}

theorem deadlineAhead_step (hpoint : DeadlineAhead timeout now point)
    (hstep : ConnectionStep timeout now point point' counted) :
    DeadlineAhead timeout now point' := by
  cases hstep with
  | accepted | call => exact ⟨Nat.le_add_right _ _, Nat.le_refl _⟩
  | handshakePart | readPart => exact hpoint
  | announced | handshakeFailed | refused | admitted | heartbeat | echoPart | echoed | timedOut
  | echoFailed => trivial

/-- A step takes no time and counts its heartbeat. -/
theorem withinSlot_step (hpoint : WithinSlot timeout since now count point)
    (hstep : ConnectionStep timeout now point point' counted) :
    WithinSlot timeout since now (count + counted) point' := by
  cases hstep with
  | accepted =>
      refine ⟨Nat.le_add_right _ _, ?_⟩
      rw [slotEnd, Nat.zero_mul]
      exact Nat.add_le_add_right hpoint _
  | handshakePart | echoPart | echoed => exact hpoint
  | announced => exact Nat.le_trans hpoint.1 hpoint.2
  | handshakeFailed =>
      exact Nat.le_trans (Nat.le_trans hpoint.1 hpoint.2) (slotEnd_mono _ _ (Nat.zero_le _))
  | refused => exact Nat.le_trans hpoint (slotEnd_mono _ _ (Nat.zero_le _))
  | admitted => exact Nat.le_trans hpoint (slotEnd_mono _ _ (Nat.zero_le _))
  | call =>
      refine ⟨Nat.le_add_right _ _, ?_⟩
      rw [slotEnd_succ]
      exact Nat.add_le_add_right hpoint _
  | readPart => exact hpoint
  | heartbeat | timedOut => exact Nat.le_trans hpoint.1 hpoint.2
  | echoFailed => exact Nat.le_trans hpoint (slotEnd_mono _ _ (Nat.le_succ _))

/-- At the instant from which a slot is counted. -/
theorem withinSlot_now (hpoint : DeadlineAhead timeout now point) :
    WithinSlot timeout now now 0 point := by
  cases point with
  | accepted => exact Nat.le_refl now
  | handshake reader deadline =>
      refine ⟨hpoint.1, ?_⟩
      rw [slotEnd, Nat.zero_mul]
      exact hpoint.2
  | registering peerName => exact le_slotEnd _ _ _
  | driving label startTs drive =>
      cases drive with
      | receiving reader deadline =>
          refine ⟨hpoint.1, Nat.le_trans hpoint.2 ?_⟩
          rw [slotEnd_succ]
          exact Nat.add_le_add_right (le_slotEnd _ _ _) _
      | loopHead | echoing | ended => exact le_slotEnd _ _ _
  | closed outcome => exact le_slotEnd _ _ _

/-- A connection that holds its permit has not come to the end of its slot. -/
theorem WithinSlot.now_le (hpoint : WithinSlot timeout since now count point) :
    now ≤ slotEnd since timeout (count + 1) := by
  have hmono : ∀ packets, packets ≤ count + 1 → now ≤ slotEnd since timeout packets →
      now ≤ slotEnd since timeout (count + 1) :=
    fun packets hle hnow => Nat.le_trans hnow (slotEnd_mono _ _ hle)
  cases point with
  | accepted => exact Nat.le_trans hpoint (le_slotEnd _ _ _)
  | handshake => exact hmono 0 (Nat.zero_le _) (Nat.le_trans hpoint.1 hpoint.2)
  | registering => exact hmono 0 (Nat.zero_le _) hpoint
  | driving label startTs drive =>
      cases drive with
      | receiving => exact Nat.le_trans hpoint.1 hpoint.2
      | loopHead | echoing | ended => exact hmono count (Nat.le_succ _) hpoint
  | closed => exact hpoint

end Slots

/-! ## The task of a connection -/

section Tasks

variable {F64 : Type} {now later since : Instant} {base : ℕ} {task task' : SessionTask F64}

/-- The slot of a connection that had counted `base` heartbeats at an earlier
instant.  Once the permit is released nothing is promised. -/
def InSlot (since : Instant) (base : ℕ) (now : Instant) (task : SessionTask F64) : Prop :=
  ∃ count, heartbeatsCounted task = base + count ∧
    (holdsPermit F64 task = true →
      WithinSlot task.control.heartbeatRecvTimeout since now count task.control.point)

theorem inSlot_now
    (hahead : DeadlineAhead task.control.heartbeatRecvTimeout now task.control.point) :
    InSlot now (heartbeatsCounted task) now task :=
  ⟨0, rfl, fun _ => withinSlot_now hahead⟩

/-- A connection that has not ended holds its permit. -/
theorem holdsPermit_of_running {control : Connection F64} {pending made : List (Update F64)}
    (hrunning : ∀ outcome, control.point ≠ .closed outcome) :
    holdsPermit F64 ⟨control, pending, made⟩ = true := by
  obtain ⟨timeout, point⟩ := control
  cases point with
  | accepted | handshake | registering | driving => rfl
  | closed outcome => exact absurd rfl (hrunning outcome)

/-- So does one that has an update left to make. -/
theorem holdsPermit_of_pending {control : Connection F64} {update : Update F64}
    {rest made : List (Update F64)} :
    holdsPermit F64 ⟨control, update :: rest, made⟩ = true := by
  obtain ⟨timeout, point⟩ := control
  cases point <;> rfl

theorem ConnectionStep.running {timeout : UInt64} {point point' : Point F64} {counted : ℕ}
    (hstep : ConnectionStep timeout now point point' counted) (outcome : Closed) :
    point ≠ .closed outcome := by
  cases hstep <;> nofun

/-- Everything that a connection can be when it lets time pass. -/
theorem connectionWaits_cases (hwaits : connectionWaits later task = true) :
    (∃ reader deadline, task.control.point = .handshake reader deadline ∧ later ≤ deadline) ∨
      (∃ label startTs reader deadline,
        task.control.point = .driving label startTs (.receiving reader deadline) ∧
          later ≤ deadline) ∨
      (∃ outcome, task.control.point = .closed outcome) ∧ holdsPermit F64 task = false := by
  unfold connectionWaits at hwaits
  split at hwaits
  · next reader deadline hpoint hpending =>
      exact Or.inl ⟨reader, deadline, hpoint, of_decide_eq_true hwaits⟩
  · next label startTs reader deadline hpoint hpending =>
      exact Or.inr (Or.inl ⟨label, startTs, reader, deadline, hpoint, of_decide_eq_true hwaits⟩)
  · next outcome hpoint hpending =>
      refine Or.inr (Or.inr ⟨⟨outcome, hpoint⟩, ?_⟩)
      rw [holdsPermit, hpoint, hpending]
  · cases hwaits

theorem DeadlineAhead.wait
    (hahead : DeadlineAhead task.control.heartbeatRecvTimeout now task.control.point)
    (hlater : now ≤ later) (hwaits : connectionWaits later task = true) :
    DeadlineAhead task.control.heartbeatRecvTimeout later task.control.point := by
  rcases connectionWaits_cases hwaits with ⟨reader, deadline, hpoint, hdeadline⟩ |
    ⟨label, startTs, reader, deadline, hpoint, hdeadline⟩ | ⟨⟨outcome, hpoint⟩, -⟩
  · rw [hpoint] at hahead ⊢
    exact ⟨hdeadline, Nat.le_trans hahead.2 (Nat.add_le_add_right hlater _)⟩
  · rw [hpoint] at hahead ⊢
    exact ⟨hdeadline, Nat.le_trans hahead.2 (Nat.add_le_add_right hlater _)⟩
  · rw [hpoint]
    trivial

/-- Time passes. -/
theorem InSlot.wait (hslot : InSlot since base now task)
    (hwaits : connectionWaits later task = true) : InSlot since base later task := by
  obtain ⟨count, hcount, hwithin⟩ := hslot
  refine ⟨count, hcount, fun hholds => ?_⟩
  have hbefore := hwithin hholds
  rcases connectionWaits_cases hwaits with ⟨reader, deadline, hpoint, hdeadline⟩ |
    ⟨label, startTs, reader, deadline, hpoint, hdeadline⟩ | ⟨-, hreleased⟩
  · rw [hpoint] at hbefore ⊢
    exact ⟨hdeadline, hbefore.2⟩
  · rw [hpoint] at hbefore ⊢
    exact ⟨hdeadline, hbefore.2⟩
  · rw [hreleased] at hholds
    cases hholds

/-- The connection makes its next update. -/
theorem InSlot.flush {control : Connection F64} {update : Update F64}
    {rest made : List (Update F64)}
    (hslot : InSlot since base now ⟨control, update :: rest, made⟩) :
    InSlot since base now ⟨control, rest, made ++ [update]⟩ := by
  obtain ⟨count, hcount, hwithin⟩ := hslot
  refine ⟨count, ?_, fun _ => hwithin holdsPermit_of_pending⟩
  rw [← hcount, heartbeatsCounted, heartbeatsCounted, List.append_assoc]
  rfl

/-- The connection runs to its next await point. -/
theorem InSlot.act {control control' : Connection F64} {updates made : List (Update F64)}
    (hslot : InSlot since base now ⟨control, [], made⟩)
    (hkept : control'.heartbeatRecvTimeout = control.heartbeatRecvTimeout)
    (hstep : ConnectionStep control.heartbeatRecvTimeout now control.point control'.point
      (updates.countP countsHeartbeat)) :
    InSlot since base now ⟨control', updates, made⟩ := by
  obtain ⟨count, hcount, hwithin⟩ := hslot
  have hbefore := hwithin (holdsPermit_of_running hstep.running)
  refine ⟨count + updates.countP countsHeartbeat, ?_,
    fun _ => hkept ▸ withinSlot_step hbefore hstep⟩
  rw [heartbeatsCounted, List.append_nil] at hcount
  rw [heartbeatsCounted, List.countP_append, hcount, Nat.add_assoc]

/-- How long the permit can still be held. -/
theorem InSlot.now_le (hslot : InSlot since base now task)
    (hholds : holdsPermit F64 task = true) :
    now ≤ since + fromSecs handshakeTimeoutSecs +
      (heartbeatsCounted task - base + 1) * fromSecs task.control.heartbeatRecvTimeout := by
  obtain ⟨count, hcount, hwithin⟩ := hslot
  rw [hcount, Nat.add_sub_cancel_left]
  exact (hwithin hholds).now_le

end Tasks

/-! ## Probe connections -/

section Probes

variable {F64 : Type} {now later since : Instant} {probe probe' : Probe}

/-- The banner has just been begun, or the drain is in its one window. -/
def ProbeInSlot (since now : Instant) (probe : Probe) : Prop :=
  match probe.point with
  | .banner _ => now ≤ since
  | .draining deadline => now ≤ deadline ∧ deadline ≤ since + fromSecs probe.idleSecs
  | .closed => True

/-- Counted from a later instant, a slot ends later. -/
theorem ProbeInSlot.mono {since' : Instant} (hslot : ProbeInSlot since now probe)
    (hsince : since ≤ since') : ProbeInSlot since' now probe := by
  obtain ⟨idleSecs, point⟩ := probe
  cases point with
  | banner unsent => exact Nat.le_trans hslot hsince
  | draining deadline => exact ⟨hslot.1, Nat.le_trans hslot.2 (Nat.add_le_add_right hsince _)⟩
  | closed => trivial

theorem ProbeInSlot.wait (hslot : ProbeInSlot since now probe)
    (hwaits : probeWaits later probe = true) : ProbeInSlot since later probe := by
  obtain ⟨idleSecs, point⟩ := probe
  cases point with
  | banner unsent => cases hwaits
  | draining deadline => exact ⟨of_decide_eq_true hwaits, hslot.2⟩
  | closed => trivial

/-- Neither a byte that is read nor anything else moves the deadline. -/
theorem ProbeInSlot.serve {clock : Reading F64} {completion : Completion}
    (hslot : ProbeInSlot since clock.now probe)
    (hserve : probe.serve clock completion = some probe') :
    ProbeInSlot since clock.now probe' := by
  unfold Probe.serve at hserve
  unfold ProbeInSlot at hslot
  split at hserve
  · next hpoint =>
      rw [hpoint] at hslot
      split at hserve
      · cases hserve
      · split at hserve <;> cases hserve
        · exact ⟨Nat.le_add_right _ _, Nat.add_le_add_right hslot _⟩
        · exact hslot
  · cases hserve
    trivial
  · split at hserve <;> cases hserve
    trivial
  · cases hserve
    trivial
  · cases hserve
    trivial
  · next hpoint =>
      split at hserve <;> cases hserve
      unfold ProbeInSlot
      exact hslot
  · cases hserve

theorem ProbeInSlot.now_le (hslot : ProbeInSlot since now probe)
    (hholds : probe.holdsPermit = true) : now ≤ since + fromSecs probe.idleSecs := by
  obtain ⟨idleSecs, point⟩ := probe
  cases point with
  | banner unsent => exact Nat.le_trans hslot (Nat.le_add_right _ _)
  | draining deadline => exact Nat.le_trans hslot.1 hslot.2
  | closed => cases hholds

end Probes

end TcpMonitor.SlotTiming
