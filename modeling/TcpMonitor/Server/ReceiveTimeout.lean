import TcpMonitor.Server.ByteEcho

/-!
# The receive timeout

`drive_session` on the monotonic clock, with bytes that arrive at any instants.
The timeout is wrapped around the loop that reads a whole packet, so a call has
one window of time for its packet: partial progress does not extend it, and
every echo opens the next one.
-/

namespace TcpMonitor.ReceiveTimeout

open TcpMonitor.TransitionSystem
open TcpMonitor.Runtime
open TcpMonitor.MetricFamilies
open TcpMonitor.HeartbeatPacket
open TcpMonitor.HeartbeatReading
open TcpMonitor.InboundSession
open TcpMonitor.ByteEcho

/-- The time for one packet: when the window was opened, and how many bytes had
arrived by then. -/
structure Window where
  opened : Instant
  buffered : ℕ
  deriving DecidableEq

/-- An echo loop on its stream: the bytes that have arrived with their instants,
what the loop has done with them, the window opened at its start and by each
echo, and the instant at which it returned. -/
structure TimedDrive where
  drive : Drive
  now : Instant
  arrivals : List (UInt8 × Instant)
  history : EchoHistory
  windows : List Window
  returned : Option Instant

/-- What happens next: time passes, bytes arrive, or the loop runs to its next
await point. -/
inductive DriveEvent (F64 : Type) where
  | tick (now : Instant)
  | arrive (bytes : List UInt8)
  | act (wall : F64) (completion : Completion)

namespace TimedDrive

/-- `drive_session` before its first call; bytes that are there already count as
arriving now. -/
def start (now : Instant) (buffered : List UInt8) : TimedDrive where
  drive := .loopHead
  now := now
  arrivals := buffered.map fun byte => (byte, now)
  history := .empty
  windows := [⟨now, buffered.length⟩]
  returned := none

/-- The bytes that have arrived and have not been read. -/
def unread (state : TimedDrive) : List UInt8 :=
  (state.arrivals.map Prod.fst).drop state.history.received.length

/-- What an awaited operation can complete with when the stream does not end and
there is no I/O error.  A read takes at least one of the bytes that have
arrived, and the timeout polls its read before its timer. -/
def permitted (state : TimedDrive) : Completion → Bool
  | .ready | .wrote (.ok _) => true
  | .read (.ok chunk) => chunk ≠ [] ∧ state.unread.take chunk.length = chunk
  | .elapsed => state.unread = []
  | _ => false

/-- An echo that has been written in full opens a window. -/
def windowsAfter (state : TimedDrive) (drive : Drive) : List Window :=
  match state.drive, drive with
  | .echoing _, .loopHead => state.windows ++ [⟨state.now, state.arrivals.length⟩]
  | _, _ => state.windows

/-- The loop has run to its next await point. -/
def advance (state : TimedDrive) (completion : Completion) (drive : Drive) : TimedDrive where
  drive := drive
  now := state.now
  arrivals := state.arrivals
  history := state.history.record state.drive completion
  windows := state.windowsAfter drive
  returned :=
    match drive with
    | .ended _ => some state.now
    | _ => state.returned

def step {F64 : Type} [WallClock F64] (heartbeatRecvTimeout : UInt64) (label : PeerLabel)
    (startTs : F64) (state : TimedDrive) : DriveEvent F64 → Option TimedDrive
  | .tick now => if state.now ≤ now then some { state with now := now } else none
  | .arrive bytes =>
      some { state with
        arrivals := state.arrivals ++ bytes.map fun byte => (byte, state.now) }
  | .act wall completion =>
      if state.permitted completion then
        (driveSession heartbeatRecvTimeout label startTs state.drive ⟨state.now, wall⟩
          completion).map fun after => state.advance completion after.1
      else none

/-- Echo writes and wake-ups take no time: the clock moves only while the loop
waits for bytes that have not arrived, and not past the end of the wait. -/
def prompt {F64 : Type} (state : TimedDrive) : DriveEvent F64 → Bool
  | .tick now =>
      match state.drive with
      | .loopHead | .echoing _ => now = state.now
      | .receiving _ deadline => now = state.now ∨ (state.unread = [] ∧ now ≤ deadline)
      | .ended _ => true
  | _ => true

end TimedDrive

open TimedDrive

/-! ## One step of the loop -/

/-- Everything that a permitted step of the loop can be: a call of
`recv_heartbeat`, its timeout, a read that leaves the packet unfinished or
completes it, a part of an echo, or the end of one. -/
inductive LoopStep (timeout : Duration) (state : TimedDrive) : Drive → EchoHistory → Prop
  | call (hdrive : state.drive = .loopHead) :
      LoopStep timeout state (.receiving HeartbeatReader.new (state.now + timeout)) state.history
  | elapse {reader : HeartbeatReader} {deadline : Instant}
      (hdrive : state.drive = .receiving reader deadline) (hunread : state.unread = [])
      (hdue : deadline ≤ state.now) :
      LoopStep timeout state (.ended "timeout") state.history
  | read {reader reader' : HeartbeatReader} {deadline : Instant} {history : EchoHistory}
      (hdrive : state.drive = .receiving reader deadline)
      (hreceived : state.history.received.length ≤ history.received.length)
      (htaken : history.received <+: state.arrivals.map Prod.fst)
      (hechoes : history.echoes = state.history.echoes) :
      LoopStep timeout state (.receiving reader' deadline) history
  | complete {reader : HeartbeatReader} {deadline : Instant} {unsent : List UInt8}
      {history : EchoHistory} (hdrive : state.drive = .receiving reader deadline)
      (htaken : history.received <+: state.arrivals.map Prod.fst)
      (hechoes : history.echoes = state.history.echoes) :
      LoopStep timeout state (.echoing unsent) history
  | write {unsent unsent' : List UInt8} {history : EchoHistory}
      (hdrive : state.drive = .echoing unsent)
      (hreceived : history.received = state.history.received)
      (hechoes : history.echoes = state.history.echoes) :
      LoopStep timeout state (.echoing unsent') history
  | echo {unsent : List UInt8} {history : EchoHistory} (hdrive : state.drive = .echoing unsent)
      (hreceived : history.received = state.history.received)
      (hechoes : history.echoes = state.history.echoes + 1) :
      LoopStep timeout state .loopHead history

section Steps

variable {F64 : Type} [WallClock F64] {heartbeatRecvTimeout : UInt64} {label : PeerLabel}
variable {startTs : F64} {state next : TimedDrive}

/-- What a permitted read takes stays within what has arrived. -/
theorem taken_of_permitted {chunk : List UInt8}
    (htaken : state.history.received <+: state.arrivals.map Prod.fst)
    (hpermitted : state.permitted (.read (.ok chunk)) = true) :
    chunk ≠ [] ∧ state.history.received ++ chunk <+: state.arrivals.map Prod.fst := by
  simp only [permitted, Bool.decide_and, Bool.and_eq_true, decide_eq_true_eq] at hpermitted
  obtain ⟨hchunk, htake⟩ := hpermitted
  refine ⟨hchunk, ?_⟩
  obtain ⟨rest, hrest⟩ := htaken
  rw [unread, ← hrest, List.drop_left] at htake
  rw [← hrest, ← htake, List.prefix_append_right_inj]
  exact List.take_prefix _ _

/-- A read goes on with the same packet or completes it. -/
theorem loopStep_of_read {reader : HeartbeatReader} {deadline : Instant} {wall : F64}
    {outcome : Except ErrorKind (List UInt8)} {after : Drive × List (Update F64)}
    {timeout : Duration} (hdrive : state.drive = .receiving reader deadline)
    (htaken : state.history.received <+: state.arrivals.map Prod.fst)
    (hpermitted : state.permitted (.read outcome) = true)
    (hstep : driveSession heartbeatRecvTimeout label startTs (.receiving reader deadline)
      ⟨state.now, wall⟩ (.read outcome) = some after) :
    LoopStep timeout state after.1
      (state.history.record (.receiving reader deadline) (.read outcome)) := by
  cases outcome with
  | error error => cases hpermitted
  | ok chunk =>
      obtain ⟨hchunk, htake⟩ := taken_of_permitted htaken hpermitted
      simp only [driveSession] at hstep
      split at hstep
      · cases hstep
      · next reader' hread =>
          cases hstep
          rw [record_read hread]
          exact .read hdrive (by simp [Except.toOption]) htake rfl
      · next reader' error hread =>
          rcases HeartbeatReader.recvRead_ok_cases hchunk hread with
            ⟨hrecv, -, -⟩ | ⟨heartbeat, hrecv, -, -, -⟩
          · cases hrecv
          · cases hrecv
      · next reader' heartbeat hread =>
          cases hstep
          rw [record_read hread]
          exact .complete hdrive htake rfl

theorem loopStep_of_act {wall : F64} {completion : Completion}
    {after : Drive × List (Update F64)}
    (htaken : state.history.received <+: state.arrivals.map Prod.fst)
    (hpermitted : state.permitted completion = true)
    (hstep : driveSession heartbeatRecvTimeout label startTs state.drive ⟨state.now, wall⟩
      completion = some after) :
    LoopStep (fromSecs heartbeatRecvTimeout) state after.1
      (state.history.record state.drive completion) := by
  cases hdrive : state.drive with
  | loopHead =>
      rw [hdrive] at hstep
      cases completion with
      | ready =>
          cases hstep
          exact .call hdrive
      | elapsed | cancelled | connected | read | wrote => cases hstep
  | receiving reader deadline =>
      rw [hdrive] at hstep
      cases completion with
      | elapsed =>
          obtain ⟨hdue, heq⟩ := Option.ite_none_right_eq_some.mp hstep
          cases heq
          exact .elapse hdrive (of_decide_eq_true hpermitted) hdue
      | read outcome => exact loopStep_of_read hdrive htaken hpermitted hstep
      | ready | cancelled | connected | wrote => cases hstep
  | echoing unsent =>
      rw [hdrive] at hstep
      cases completion with
      | wrote outcome =>
          cases outcome with
          | error error => cases hpermitted
          | ok count =>
              simp only [driveSession] at hstep
              split at hstep
              · cases hstep
              · split at hstep
                · next hall =>
                    cases hstep
                    exact .echo hdrive rfl (by simp [EchoHistory.record, hall])
                · next hsome =>
                    cases hstep
                    exact .write hdrive rfl (by simp [EchoHistory.record, hsome])
      | ready | elapsed | cancelled | connected | read => cases hstep
  | ended reason =>
      rw [hdrive] at hstep
      cases completion with
      | ready | elapsed | cancelled | connected | read | wrote => cases hstep

end Steps

/-! ## What holds at every instant -/

/-- The packet at a position was complete before its window closed, and its echo
was written when it was complete and its window open. -/
def InTime (timeout : Duration) (arrivals : List (UInt8 × Instant)) (position : ℕ)
    (window : Window) (echo : Instant) : Prop :=
  ∃ byte arrival, arrivals[lastByte position]? = some (byte, arrival) ∧
    arrival ≤ window.opened + timeout ∧ echo = max window.opened arrival

/-- What the current window says about the clock, at each point of the loop. -/
def Current (timeout : Duration) (state : TimedDrive) (window : Window) : Prop :=
  match state.drive with
  | .loopHead => window.opened = state.now
  | .receiving _ deadline =>
      deadline = window.opened + timeout ∧ state.now ≤ deadline ∧
        ∀ k arrival, state.history.received.length ≤ k → state.arrivals[k]? = some arrival →
          max window.opened arrival.2 = state.now
  | .echoing _ => InTime timeout state.arrivals state.history.echoes window state.now
  | .ended reason =>
      reason = "timeout" ∧ state.returned = some (window.opened + timeout) ∧
        window.opened + timeout ≤ state.now ∧ window.buffered ≤ lastByte state.history.echoes ∧
        ∀ arrival, state.arrivals[lastByte state.history.echoes]? = some arrival →
          window.opened + timeout ≤ arrival.2

/-- Every echo was written in time, and the current window is respected. -/
structure OnTime (timeout : Duration) (state : TimedDrive) : Prop where
  echo : EchoAt state.history state.drive
  taken : state.history.received <+: state.arrivals.map Prod.fst
  arrived : ∀ arrival ∈ state.arrivals, arrival.2 ≤ state.now
  counted : state.windows.length = state.history.echoes + 1
  echoed : ∀ i window next, state.windows[i]? = some window →
    state.windows[i + 1]? = some next → InTime timeout state.arrivals i window next.opened
  current : ∀ window, state.windows[state.history.echoes]? = some window →
    window.opened ≤ state.now ∧ window.buffered ≤ state.arrivals.length ∧
      Current timeout state window

section Invariant

variable {timeout : Duration} {state : TimedDrive}

theorem onTime_start (now : Instant) (buffered : List UInt8) :
    OnTime timeout (start now buffered) where
  echo := ⟨EchoHistory.agrees_empty, rfl⟩
  taken := List.nil_prefix
  arrived := by
    intro arrival hmem
    obtain ⟨byte, -, rfl⟩ := List.mem_map.mp hmem
    exact Nat.le_refl now
  counted := rfl
  echoed := by
    intro i window next hwindow hnext
    simp [start] at hnext
  current := by
    intro window hwindow
    obtain rfl : (⟨now, buffered.length⟩ : Window) = window := Option.some.inj hwindow
    exact ⟨Nat.le_refl now, by simp [start], rfl⟩

/-- Bytes that arrive later change nothing for a packet that is complete. -/
theorem InTime.append {arrivals : List (UInt8 × Instant)} {position : ℕ} {window : Window}
    {echo : Instant} (hintime : InTime timeout arrivals position window echo)
    (more : List (UInt8 × Instant)) :
    InTime timeout (arrivals ++ more) position window echo := by
  obtain ⟨byte, arrival, hget, hbefore, hecho⟩ := hintime
  have hlt : lastByte position < arrivals.length := (List.getElem?_eq_some_iff.mp hget).1
  exact ⟨byte, arrival, by rw [List.getElem?_append_left hlt, hget], hbefore, hecho⟩

/-- While a packet is received, its last byte has not been read. -/
theorem received_le_lastByte {reader : HeartbeatReader} {deadline : Instant}
    (hecho : EchoAt state.history (.receiving reader deadline)) :
    state.history.received.length ≤ lastByte state.history.echoes := by
  obtain ⟨hagrees, -⟩ := hecho
  have hrest := hagrees.rest_lt
  have hdecoded := hagrees.decoded_eq
  rw [if_pos rfl, Nat.add_zero] at hdecoded
  rw [hagrees.received_eq, List.length_append, length_wire, hdecoded, lastByte]
  omega

/-- While a packet is echoed, its last byte has been read. -/
theorem lastByte_lt_received {history : EchoHistory} {unsent : List UInt8}
    (hecho : EchoAt history (.echoing unsent)) :
    lastByte history.echoes < history.received.length := by
  obtain ⟨hagrees, hunsent, -⟩ := hecho
  have hdecoded := hagrees.decoded_eq
  rw [if_neg hunsent] at hdecoded
  rw [hagrees.received_eq, List.length_append, length_wire, hdecoded, lastByte]
  simp only [packetSize]
  omega

theorem OnTime.received_le (hinv : OnTime timeout state) :
    state.history.received.length ≤ state.arrivals.length := by
  simpa using hinv.taken.length_le

/-- Bytes arrive. -/
theorem OnTime.arrive (hinv : OnTime timeout state) (bytes : List UInt8) :
    OnTime timeout { state with
      arrivals := state.arrivals ++ bytes.map fun byte => (byte, state.now) } where
  echo := hinv.echo
  taken := by
    rw [List.map_append]
    exact hinv.taken.trans (List.prefix_append _ _)
  arrived := by
    intro arrival hmem
    rcases List.mem_append.mp hmem with hold | hnew
    · exact hinv.arrived arrival hold
    · obtain ⟨byte, -, rfl⟩ := List.mem_map.mp hnew
      exact Nat.le_refl state.now
  counted := hinv.counted
  echoed := fun i window next hwindow hnext => (hinv.echoed i window next hwindow hnext).append _
  current := by
    intro window hwindow
    obtain ⟨hopened, hbuffered, hcurrent⟩ := hinv.current window hwindow
    -- A byte that was not there before arrives now.
    have hnew : ∀ (k : ℕ) (arrival : UInt8 × Instant),
        (state.arrivals ++ bytes.map fun byte => (byte, state.now))[k]? = some arrival →
          state.arrivals[k]? = some arrival ∨ arrival.2 = state.now := by
      intro k arrival hget
      rcases Nat.lt_or_ge k state.arrivals.length with hold | hlater
      · rw [List.getElem?_append_left hold] at hget
        exact Or.inl hget
      · rw [List.getElem?_append_right hlater, List.getElem?_map] at hget
        obtain ⟨byte, -, rfl⟩ := Option.map_eq_some_iff.mp hget
        exact Or.inr rfl
    refine ⟨hopened, by rw [List.length_append]; omega, ?_⟩
    cases hdrive : state.drive with
    | loopHead =>
        simp only [Current, hdrive] at hcurrent ⊢
        exact hcurrent
    | receiving reader deadline =>
        simp only [Current, hdrive] at hcurrent ⊢
        obtain ⟨hdeadline, hbefore, hunread⟩ := hcurrent
        refine ⟨hdeadline, hbefore, fun k arrival hk hget => ?_⟩
        rcases hnew k arrival hget with hold | hnow
        · exact hunread k arrival hk hold
        · rw [hnow, Nat.max_eq_right hopened]
    | echoing unsent =>
        simp only [Current, hdrive] at hcurrent ⊢
        exact hcurrent.append _
    | ended reason =>
        simp only [Current, hdrive] at hcurrent ⊢
        obtain ⟨hreason, hreturned, hover, hfew, hlate⟩ := hcurrent
        refine ⟨hreason, hreturned, hover, hfew, fun arrival hget => ?_⟩
        rcases hnew _ arrival hget with hold | hnow
        · exact hlate arrival hold
        · rw [hnow]
          exact hover

/-- Time passes as promptness allows. -/
theorem OnTime.tick {F64 : Type} (hinv : OnTime timeout state) {now : Instant}
    (hlater : state.now ≤ now) (hprompt : prompt state (.tick now : DriveEvent F64) = true) :
    OnTime timeout { state with now := now } where
  echo := hinv.echo
  taken := hinv.taken
  arrived := fun arrival hmem => (hinv.arrived arrival hmem).trans hlater
  counted := hinv.counted
  echoed := hinv.echoed
  current := by
    intro window hwindow
    obtain ⟨hopened, hbuffered, hcurrent⟩ := hinv.current window hwindow
    refine ⟨hopened.trans hlater, hbuffered, ?_⟩
    cases hdrive : state.drive with
    | loopHead =>
        simp only [prompt, hdrive, decide_eq_true_eq] at hprompt
        simp only [Current, hdrive] at hcurrent ⊢
        rw [hprompt, hcurrent]
    | receiving reader deadline =>
        simp only [prompt, hdrive, Bool.decide_or, Bool.or_eq_true, Bool.decide_and,
          Bool.and_eq_true, decide_eq_true_eq] at hprompt
        simp only [Current, hdrive] at hcurrent ⊢
        obtain ⟨hdeadline, hbefore, hunread⟩ := hcurrent
        rcases hprompt with rfl | ⟨hnone, hearly⟩
        · exact ⟨hdeadline, hbefore, hunread⟩
        · refine ⟨hdeadline, hearly, fun k arrival hk hget => ?_⟩
          -- Nothing is left unread.
          have hall := List.drop_eq_nil_iff.mp hnone
          rw [List.length_map] at hall
          have hlt := (List.getElem?_eq_some_iff.mp hget).1
          omega
    | echoing unsent =>
        simp only [prompt, hdrive, decide_eq_true_eq] at hprompt
        simp only [Current, hdrive] at hcurrent ⊢
        rw [hprompt]
        exact hcurrent
    | ended reason =>
        simp only [Current, hdrive] at hcurrent ⊢
        obtain ⟨hreason, hreturned, hover, hfew, hlate⟩ := hcurrent
        exact ⟨hreason, hreturned, hover.trans hlater, hfew, hlate⟩

/-- A step that opens no window keeps what holds of the earlier ones. -/
theorem OnTime.advance (hinv : OnTime timeout state) {completion : Completion} {drive : Drive}
    (hecho : EchoAt (state.history.record state.drive completion) drive)
    (htaken : (state.history.record state.drive completion).received <+:
      state.arrivals.map Prod.fst)
    (hechoes : (state.history.record state.drive completion).echoes = state.history.echoes)
    (hwindows : state.windowsAfter drive = state.windows)
    (hcurrent : ∀ window, window.opened ≤ state.now → window.buffered ≤ state.arrivals.length →
      Current timeout state window → Current timeout (state.advance completion drive) window) :
    OnTime timeout (state.advance completion drive) where
  echo := hecho
  taken := htaken
  arrived := hinv.arrived
  counted := by
    simp only [TimedDrive.advance, hwindows, hechoes]
    exact hinv.counted
  echoed := by
    simp only [TimedDrive.advance, hwindows]
    exact hinv.echoed
  current := by
    intro window hwindow
    simp only [TimedDrive.advance, hwindows, hechoes] at hwindow
    obtain ⟨hopened, hbuffered, hbefore⟩ := hinv.current window hwindow
    exact ⟨hopened, hbuffered, hcurrent window hopened hbuffered hbefore⟩

/-- The end of an echo opens the next window. -/
theorem OnTime.echo_end (hinv : OnTime timeout state) {completion : Completion}
    {unsent : List UInt8} (hdrive : state.drive = .echoing unsent)
    (hecho : EchoAt (state.history.record state.drive completion) .loopHead)
    (htaken : (state.history.record state.drive completion).received <+:
      state.arrivals.map Prod.fst)
    (hechoes : (state.history.record state.drive completion).echoes =
      state.history.echoes + 1) :
    OnTime timeout (state.advance completion .loopHead) := by
  have hwindows : state.windowsAfter .loopHead =
      state.windows ++ [⟨state.now, state.arrivals.length⟩] := by
    simp only [windowsAfter, hdrive]
  have hcounted := hinv.counted
  constructor
  case echo => exact hecho
  case taken => exact htaken
  case arrived => exact hinv.arrived
  case counted =>
    simp only [TimedDrive.advance, hwindows, hechoes, List.length_append, List.length_singleton]
    omega
  case echoed =>
    intro i window next hwindow hnext
    simp only [TimedDrive.advance, hwindows] at hwindow hnext
    have hlt := (List.getElem?_eq_some_iff.mp hnext).1
    rw [List.length_append, List.length_singleton] at hlt
    rw [List.getElem?_append_left (by omega)] at hwindow
    rcases Nat.lt_or_ge (i + 1) state.windows.length with hold | hlast
    · rw [List.getElem?_append_left hold] at hnext
      exact hinv.echoed i window next hwindow hnext
    · have hi : i = state.history.echoes := by omega
      rw [List.getElem?_append_right hlast, hi, hcounted, Nat.sub_self] at hnext
      cases hnext
      rw [hi] at hwindow ⊢
      have hcurrent := (hinv.current window hwindow).2.2
      simp only [Current, hdrive] at hcurrent
      exact hcurrent
  case current =>
    intro window hwindow
    simp only [TimedDrive.advance, hwindows, hechoes] at hwindow
    rw [← hcounted, List.getElem?_concat_length] at hwindow
    cases hwindow
    exact ⟨Nat.le_refl _, Nat.le_refl _, rfl⟩

/-- A step of the loop, whatever it is. -/
theorem OnTime.act (hinv : OnTime timeout state) {completion : Completion} {drive : Drive}
    (hecho : EchoAt (state.history.record state.drive completion) drive)
    (hloop : LoopStep timeout state drive (state.history.record state.drive completion)) :
    OnTime timeout (state.advance completion drive) := by
  generalize hhistory : state.history.record state.drive completion = history at hecho hloop
  cases hloop with
  | call hdrive =>
      refine hinv.advance (by rw [hhistory]; exact hecho) (by rw [hhistory]; exact hinv.taken)
        (by rw [hhistory]) ?_ ?_
      · simp only [windowsAfter, hdrive]
      · intro window hopened hbuffered hcurrent
        simp only [Current, hdrive] at hcurrent
        refine ⟨by rw [hcurrent], Nat.le_add_right _ _, fun k arrival hk hget => ?_⟩
        rw [hcurrent]
        exact Nat.max_eq_left (hinv.arrived arrival (List.mem_of_getElem? hget))
  | elapse hdrive hunread hdue =>
      refine hinv.advance (by rw [hhistory]; exact hecho) (by rw [hhistory]; exact hinv.taken)
        (by rw [hhistory]) ?_ ?_
      · simp only [windowsAfter, hdrive]
      · intro window hopened hbuffered hcurrent
        simp only [Current, hdrive] at hcurrent
        obtain ⟨rfl, hbefore, -⟩ := hcurrent
        have hnow : state.now = window.opened + timeout := Nat.le_antisymm hbefore hdue
        -- All that has arrived is a part of the packet.
        have hread := received_le_lastByte (hdrive ▸ hinv.echo)
        have hall := List.drop_eq_nil_iff.mp hunread
        rw [List.length_map] at hall
        refine ⟨rfl, congrArg some hnow, hdue, ?_, fun arrival hget => ?_⟩
        · simp only [TimedDrive.advance, hhistory]
          omega
        · simp only [TimedDrive.advance, hhistory] at hget
          have hlt := (List.getElem?_eq_some_iff.mp hget).1
          omega
  | read hdrive hreceived htaken hechoes =>
      refine hinv.advance (hhistory ▸ hecho) (hhistory ▸ htaken) (hhistory ▸ hechoes) ?_ ?_
      · simp only [windowsAfter, hdrive]
      · intro window hopened hbuffered hcurrent
        simp only [Current, hdrive] at hcurrent
        obtain ⟨hdeadline, hbefore, hunread⟩ := hcurrent
        refine ⟨hdeadline, hbefore, fun k arrival hk hget => hunread k arrival ?_ hget⟩
        simp only [TimedDrive.advance, hhistory] at hk
        exact hreceived.trans hk
  | complete hdrive htaken hechoes =>
      refine hinv.advance (hhistory ▸ hecho) (hhistory ▸ htaken) (hhistory ▸ hechoes) ?_ ?_
      · simp only [windowsAfter, hdrive]
      · intro window hopened hbuffered hcurrent
        simp only [Current, hdrive] at hcurrent
        obtain ⟨rfl, hbefore, hunread⟩ := hcurrent
        have hread := lastByte_lt_received hecho
        have hlength := htaken.length_le
        rw [List.length_map] at hlength
        have harrived : lastByte state.history.echoes < state.arrivals.length := by
          rw [← hechoes]
          omega
        have hlast := hunread _ _ (received_le_lastByte (hdrive ▸ hinv.echo))
          (List.getElem?_eq_getElem harrived)
        refine ⟨state.arrivals[lastByte state.history.echoes].1,
          state.arrivals[lastByte state.history.echoes].2, ?_, ?_, hlast.symm⟩
        · simp only [TimedDrive.advance, hhistory, hechoes]
          exact List.getElem?_eq_getElem harrived
        · exact (Nat.le_max_right _ _).trans (hlast.le.trans hbefore)
  | write hdrive hreceived hechoes =>
      refine hinv.advance (hhistory ▸ hecho) (by rw [hhistory, hreceived]; exact hinv.taken)
        (hhistory ▸ hechoes) ?_ ?_
      · simp only [windowsAfter, hdrive]
      · intro window hopened hbuffered hcurrent
        simp only [Current, hdrive] at hcurrent
        simp only [Current, TimedDrive.advance, hhistory, hechoes]
        exact hcurrent
  | echo hdrive hreceived hechoes =>
      exact hinv.echo_end hdrive (hhistory ▸ hecho)
        (by rw [hhistory, hreceived]; exact hinv.taken) (hhistory ▸ hechoes)

section Run

variable {F64 : Type} [WallClock F64] {heartbeatRecvTimeout : UInt64} {label : PeerLabel}
variable {startTs : F64} {next : TimedDrive} {event : DriveEvent F64}

theorem onTime_step (hinv : OnTime (fromSecs heartbeatRecvTimeout) state)
    (hstep : restrict prompt (step heartbeatRecvTimeout label startTs) state event =
      some next) : OnTime (fromSecs heartbeatRecvTimeout) next := by
  obtain ⟨hprompt, hstep⟩ := restrict_eq_some.mp hstep
  cases event with
  | tick now =>
      obtain ⟨hlater, heq⟩ := Option.ite_none_right_eq_some.mp hstep
      cases heq
      exact hinv.tick hlater hprompt
  | arrive bytes =>
      cases hstep
      exact hinv.arrive bytes
  | act wall completion =>
      obtain ⟨hpermitted, hact⟩ := Option.ite_none_right_eq_some.mp hstep
      obtain ⟨after, hdrive, rfl⟩ := Option.map_eq_some_iff.mp hact
      exact hinv.act (driveSession_echoAt hinv.echo hdrive).1
        (loopStep_of_act hinv.taken hpermitted hdrive)

theorem onTime_of_reachable {now : Instant} {buffered : List UInt8}
    (hreach : Reachable (restrict prompt (step heartbeatRecvTimeout label startTs))
      (start now buffered) state) : OnTime (fromSecs heartbeatRecvTimeout) state :=
  hreach.invariant (OnTime (fromSecs heartbeatRecvTimeout)) (onTime_start now buffered)
    fun _ _ _ hinv hstep => onTime_step hinv hstep

/-- The first window is the one opened at the start. -/
theorem first_window {now : Instant} {buffered : List UInt8}
    (hreach : Reachable (restrict prompt (step heartbeatRecvTimeout label startTs))
      (start now buffered) state) : state.windows[0]? = some ⟨now, buffered.length⟩ := by
  refine hreach.invariant (fun state => state.windows[0]? = some ⟨now, buffered.length⟩) rfl ?_
  intro state event next hfirst hstep
  obtain ⟨-, hstep⟩ := restrict_eq_some.mp hstep
  cases event with
  | tick now' =>
      obtain ⟨-, heq⟩ := Option.ite_none_right_eq_some.mp hstep
      cases heq
      exact hfirst
  | arrive bytes =>
      cases hstep
      exact hfirst
  | act wall completion =>
      obtain ⟨-, hact⟩ := Option.ite_none_right_eq_some.mp hstep
      obtain ⟨after, -, rfl⟩ := Option.map_eq_some_iff.mp hact
      have hlt := (List.getElem?_eq_some_iff.mp hfirst).1
      simp only [TimedDrive.advance, windowsAfter]
      split
      · rw [List.getElem?_append_left hlt]
        exact hfirst
      · exact hfirst

/-! ## Time can go on -/

theorem act_of_drive {completion : Completion} {after : Drive × List (Update F64)}
    (hpermitted : state.permitted completion = true)
    (hdrive : driveSession heartbeatRecvTimeout label startTs state.drive
      ⟨state.now, startTs⟩ completion = some after) :
    restrict prompt (step heartbeatRecvTimeout label startTs) state (.act startTs completion) =
      some (state.advance completion after.1) := by
  refine restrict_eq_some.mpr ⟨rfl, ?_⟩
  simp only [TimedDrive.step, hpermitted, if_true, hdrive, Option.map_some]

/-- The loop has nothing to do until time passes or bytes arrive. -/
def Idle (state : TimedDrive) : Prop :=
  match state.drive with
  | .receiving _ _ => state.unread = []
  | .ended _ => True
  | _ => False

/-- What the loop still has to do, counted down by every step. -/
def backlog (state : TimedDrive) : ℕ :=
  3 * state.unread.length +
    match state.drive with
    | .echoing _ => 2
    | .loopHead => 1
    | _ => 0

variable (heartbeatRecvTimeout label startTs)

/-- A loop that waits for bytes can read one that has arrived. -/
theorem exists_read {reader : HeartbeatReader} {deadline : Instant}
    (hdrive : state.drive = .receiving reader deadline)
    (hecho : EchoAt state.history (.receiving reader deadline)) (hunread : state.unread ≠ []) :
    ∃ completion after,
      state.permitted completion = true ∧
      driveSession heartbeatRecvTimeout label startTs (.receiving reader deadline)
        ⟨state.now, startTs⟩ completion = some after ∧
      backlog (state.advance completion after.1) < backlog state := by
  obtain ⟨byte, others, hcons⟩ := List.exists_cons_of_ne_nil hunread
  have hfits : [byte].length ≤ reader.offered := by
    have hrest := hecho.1.rest_lt
    rw [reader.length_received] at hrest
    exact Nat.sub_pos_of_lt hrest
  have hpermitted : state.permitted (.read (.ok [byte])) = true := by
    simp [permitted, hcons]
  have hshorter : ∀ drive,
      (state.advance (.read (.ok [byte])) drive).unread.length + 1 = state.unread.length := by
    intro drive
    have hlength := congrArg List.length hcons
    simp only [unread, List.length_drop, List.length_map, List.length_cons] at hlength
    simp only [unread, TimedDrive.advance, hdrive, EchoHistory.record, List.length_drop,
      List.length_map, List.length_append, Except.toOption, Option.getD_some, List.length_singleton]
    omega
  have hbacklog : ∀ drive, backlog (state.advance (.read (.ok [byte])) drive) < backlog state := by
    intro drive
    have hlength := hshorter drive
    have hrank : backlog (state.advance (.read (.ok [byte])) drive) ≤
        3 * (state.advance (.read (.ok [byte])) drive).unread.length + 2 := by
      simp only [backlog]
      split
      · exact Nat.le_refl _
      · omega
      · omega
    have hbefore : 3 * state.unread.length ≤ backlog state := Nat.le_add_right _ _
    omega
  obtain ⟨after, hafter⟩ : ∃ after, driveSession heartbeatRecvTimeout label startTs
      (.receiving reader deadline) ⟨state.now, startTs⟩ (.read (.ok [byte])) = some after := by
    refine Option.isSome_iff_exists.mp ?_
    simp only [driveSession, HeartbeatReader.recvRead, dif_pos hfits]
    split <;> simp_all
  exact ⟨_, after, hpermitted, hafter, hbacklog after.1⟩

/-- A loop that has something to do can do it now. -/
theorem exists_act (hecho : EchoAt state.history state.drive) (hbusy : ¬Idle state) :
    ∃ completion after,
      state.permitted completion = true ∧
      driveSession heartbeatRecvTimeout label startTs state.drive ⟨state.now, startTs⟩
        completion = some after ∧
      backlog (state.advance completion after.1) < backlog state := by
  cases hdrive : state.drive with
  | loopHead =>
      refine ⟨.ready, _, rfl, rfl, ?_⟩
      simp [backlog, unread, TimedDrive.advance, EchoHistory.record, hdrive]
  | echoing unsent =>
      rw [hdrive] at hecho
      have hunsent : unsent.length ≠ 0 := fun hzero =>
        hecho.2.1 (List.length_eq_zero_iff.mp hzero)
      refine ⟨.wrote (.ok unsent.length), (.loopHead, []), rfl, by simp [driveSession, hunsent], ?_⟩
      simp [backlog, unread, TimedDrive.advance, EchoHistory.record, hdrive]
  | ended reason => exact absurd (by simp only [Idle, hdrive]) hbusy
  | receiving reader deadline =>
      exact exists_read heartbeatRecvTimeout label startTs hdrive (hdrive ▸ hecho) fun hnone =>
        hbusy (by simpa only [Idle, hdrive] using hnone)

/-- The loop catches up with its stream without any time passing. -/
theorem idle_reachable (hinv : OnTime (fromSecs heartbeatRecvTimeout) state) :
    ∃ idle, Reachable (restrict prompt (step heartbeatRecvTimeout label startTs)) state idle ∧
      Idle idle ∧ idle.now = state.now ∧ idle.arrivals = state.arrivals := by
  induction hbacklog : backlog state using Nat.strong_induction_on generalizing state with
  | _ size ih =>
      by_cases hidle : Idle state
      · exact ⟨state, Reachable.refl state, hidle, rfl, rfl⟩
      · obtain ⟨completion, after, hpermitted, hdrive, hless⟩ :=
          exists_act heartbeatRecvTimeout label startTs hinv.echo hidle
        have hstep := act_of_drive hpermitted hdrive
        obtain ⟨idle, hreach, hdone, hnow, harrivals⟩ :=
          ih _ (hbacklog ▸ hless) (onTime_step hinv hstep) rfl
        exact ⟨idle, ((Reachable.refl state).tail hstep).trans hreach, hdone, hnow, harrivals⟩

theorem tick_of_prompt {now : Instant} (hlater : state.now ≤ now)
    (hprompt : prompt state (.tick now : DriveEvent F64) = true) :
    restrict prompt (step heartbeatRecvTimeout label startTs) state (.tick now) =
      some { state with now := now } :=
  restrict_eq_some.mpr ⟨hprompt, if_pos hlater⟩

/-- An idle loop lets time go on, ending its wait if that is due. -/
theorem time_goes_on_of_idle (hinv : OnTime (fromSecs heartbeatRecvTimeout) state)
    (hidle : Idle state) {later : Instant} (hlater : state.now ≤ later) :
    ∃ next, Reachable (restrict prompt (step heartbeatRecvTimeout label startTs)) state next ∧
      next.now = later ∧ next.arrivals = state.arrivals := by
  cases hdrive : state.drive with
  | loopHead => simp only [Idle, hdrive] at hidle
  | echoing unsent => simp only [Idle, hdrive] at hidle
  | ended reason =>
      have htick := tick_of_prompt heartbeatRecvTimeout label startTs hlater
        (by simp only [prompt, hdrive])
      exact ⟨_, (Reachable.refl state).tail htick, rfl, rfl⟩
  | receiving reader deadline =>
      simp only [Idle, hdrive] at hidle
      have hprompt : ∀ now ≤ deadline, prompt state (.tick now : DriveEvent F64) = true := by
        intro now hbefore
        simp [prompt, hdrive, hidle, hbefore]
      rcases Nat.le_total later deadline with hbefore | hover
      · have htick := tick_of_prompt heartbeatRecvTimeout label startTs hlater
          (hprompt later hbefore)
        exact ⟨_, (Reachable.refl state).tail htick, rfl, rfl⟩
      · have hlt : state.history.echoes < state.windows.length := by
          rw [hinv.counted]
          exact Nat.lt_succ_self _
        have hcurrent := (hinv.current _ (List.getElem?_eq_getElem hlt)).2.2
        simp only [Current, hdrive] at hcurrent
        have hwait := tick_of_prompt heartbeatRecvTimeout label startTs hcurrent.2.1
          (hprompt deadline (Nat.le_refl deadline))
        have hpermitted : ({ state with now := deadline } : TimedDrive).permitted .elapsed =
            true := decide_eq_true hidle
        have hend : driveSession heartbeatRecvTimeout label startTs state.drive
            ⟨deadline, startTs⟩ .elapsed = some (.ended "timeout", []) := by
          simp [driveSession, hdrive]
        have hrest := tick_of_prompt heartbeatRecvTimeout label startTs hover
          (show prompt (({ state with now := deadline } : TimedDrive).advance .elapsed
            (.ended "timeout")) (.tick later : DriveEvent F64) = true from rfl)
        exact ⟨_, (((Reachable.refl state).tail hwait).tail (act_of_drive hpermitted hend)).tail
          hrest, rfl, rfl⟩

/-- Time can always go on, whether or not further bytes arrive. -/
theorem time_goes_on (hinv : OnTime (fromSecs heartbeatRecvTimeout) state) {later : Instant}
    (hlater : state.now ≤ later) :
    ∃ next, Reachable (restrict prompt (step heartbeatRecvTimeout label startTs)) state next ∧
      next.now = later ∧ next.arrivals = state.arrivals := by
  obtain ⟨idle, hreach, hidle, hnow, harrivals⟩ :=
    idle_reachable heartbeatRecvTimeout label startTs hinv
  have hinv' := hreach.invariant (OnTime (fromSecs heartbeatRecvTimeout)) hinv
    fun _ _ _ hinv hstep => onTime_step hinv hstep
  obtain ⟨next, hnext, hlast, hsame⟩ :=
    time_goes_on_of_idle heartbeatRecvTimeout label startTs hinv' hidle (hnow ▸ hlater)
  exact ⟨next, hreach.trans hnext, hlast, hsame.trans harrivals⟩

end Run

end Invariant

/-! ## When a session times out -/

section Windows

variable {timeout : Duration} {state : TimedDrive} {i : ℕ} {window : Window}

/-- A window is the current one, or an echo has closed it. -/
theorem OnTime.window_cases (hinv : OnTime timeout state)
    (hwindow : state.windows[i]? = some window) :
    (∃ next, state.windows[i + 1]? = some next ∧
      InTime timeout state.arrivals i window next.opened) ∨
    (i = state.history.echoes ∧ Current timeout state window) := by
  have hlt := (List.getElem?_eq_some_iff.mp hwindow).1
  rw [hinv.counted] at hlt
  rcases Nat.lt_or_eq_of_le (Nat.le_of_lt_succ hlt) with hclosed | hcurrent
  · have hopened : i + 1 < state.windows.length := by
      rw [hinv.counted]
      omega
    have hnext := List.getElem?_eq_getElem hopened
    exact Or.inl ⟨_, hnext, hinv.echoed i window _ hwindow hnext⟩
  · subst hcurrent
    exact Or.inr ⟨rfl, (hinv.current window hwindow).2.2⟩

/-- A packet that is complete before its window closes is echoed. -/
theorem OnTime.echoed_of_early (hinv : OnTime timeout state) {byte : UInt8} {arrival : Instant}
    (hwindow : state.windows[i]? = some window)
    (harrival : state.arrivals[lastByte i]? = some (byte, arrival))
    (hearly : arrival < window.opened + timeout ∨ lastByte i < window.buffered)
    (hpast : max window.opened arrival < state.now) :
    ∃ next, state.windows[i + 1]? = some next ∧ next.opened = max window.opened arrival := by
  rcases hinv.window_cases hwindow with ⟨next, hnext, byte', arrival', harrival', -, hecho⟩ |
    ⟨rfl, hcurrent⟩
  · rw [harrival] at harrival'
    cases harrival'
    exact ⟨next, hnext, hecho⟩
  · exfalso
    have hopened : window.opened < state.now := (Nat.le_max_left _ _).trans_lt hpast
    cases hdrive : state.drive with
    | loopHead =>
        simp only [Current, hdrive] at hcurrent
        exact hopened.ne hcurrent
    | receiving reader deadline =>
        simp only [Current, hdrive] at hcurrent
        have hnow := hcurrent.2.2 _ _ (received_le_lastByte (hdrive ▸ hinv.echo)) harrival
        exact hpast.ne hnow
    | echoing unsent =>
        simp only [Current, hdrive] at hcurrent
        obtain ⟨byte', arrival', harrival', -, hnow⟩ := hcurrent
        rw [harrival] at harrival'
        cases harrival'
        exact hpast.ne hnow.symm
    | ended reason =>
        simp only [Current, hdrive] at hcurrent
        obtain ⟨-, -, -, hfew, hlate⟩ := hcurrent
        rcases hearly with hbefore | hbuffered
        · exact Nat.not_le.mpr hbefore (hlate _ harrival)
        · exact Nat.not_le.mpr hbuffered hfew

/-- A packet that is not complete when its window closes ends the session. -/
theorem OnTime.times_out (hinv : OnTime timeout state)
    (hwindow : state.windows[i]? = some window)
    (hlate : ∀ byte arrival, state.arrivals[lastByte i]? = some (byte, arrival) →
      window.opened + timeout < arrival)
    (hpast : window.opened + timeout < state.now) :
    state.drive = .ended "timeout" ∧ state.returned = some (window.opened + timeout) ∧
      state.history.echoes = i := by
  rcases hinv.window_cases hwindow with ⟨next, -, byte, arrival, harrival, hbefore, -⟩ |
    ⟨rfl, hcurrent⟩
  · exact absurd (hlate byte arrival harrival) (Nat.not_lt.mpr hbefore)
  · cases hdrive : state.drive with
    | loopHead =>
        simp only [Current, hdrive] at hcurrent
        exact absurd hpast (Nat.not_lt.mpr (hcurrent ▸ Nat.le_add_right _ _))
    | receiving reader deadline =>
        simp only [Current, hdrive] at hcurrent
        obtain ⟨rfl, hbefore, -⟩ := hcurrent
        exact absurd hpast (Nat.not_lt.mpr hbefore)
    | echoing unsent =>
        simp only [Current, hdrive] at hcurrent
        obtain ⟨byte, arrival, harrival, hbefore, -⟩ := hcurrent
        exact absurd (hlate byte arrival harrival) (Nat.not_lt.mpr hbefore)
    | ended reason =>
        simp only [Current, hdrive] at hcurrent
        obtain ⟨rfl, hreturned, -⟩ := hcurrent
        exact ⟨rfl, hreturned, rfl⟩

/-- The echoes consist of the first bytes that arrived. -/
theorem OnTime.written_initial (hinv : OnTime timeout state) :
    state.history.written <+: state.arrivals.map Prod.fst ∧
      packetSize * state.history.echoes ≤ state.history.written.length := by
  obtain ⟨rest, unsent, hagrees, -⟩ := agrees_of_echoAt hinv.echo
  exact ⟨hagrees.written_initial.trans hinv.taken, hagrees.length_written.1⟩

end Windows

/-- Every echo is written when its packet is complete and its window open; a
packet that is complete before its window closes is echoed, and one that is not
ends the session as a timeout at the end of the window, whatever has arrived of
it; the echoed bytes are the first ones that arrived, and time can always go
on. -/
theorem receive_timeout {F64 : Type} [WallClock F64] {heartbeatRecvTimeout : UInt64}
    {label : PeerLabel} {startTs : F64} {now : Instant} {buffered : List UInt8}
    {state : TimedDrive}
    (hreach : Reachable (restrict prompt (step heartbeatRecvTimeout label startTs))
      (start now buffered) state) :
    (state.windows[0]? = some ⟨now, buffered.length⟩ ∧
      state.windows.length = state.history.echoes + 1) ∧
    (∀ i window next, state.windows[i]? = some window → state.windows[i + 1]? = some next →
      ∃ byte arrival, state.arrivals[lastByte i]? = some (byte, arrival) ∧
        arrival ≤ window.opened + fromSecs heartbeatRecvTimeout ∧
        next.opened = max window.opened arrival) ∧
    (∀ i window byte arrival, state.windows[i]? = some window →
      state.arrivals[lastByte i]? = some (byte, arrival) →
      (arrival < window.opened + fromSecs heartbeatRecvTimeout ∨
        lastByte i < window.buffered) →
      max window.opened arrival < state.now →
      ∃ next, state.windows[i + 1]? = some next ∧ next.opened = max window.opened arrival) ∧
    (∀ i window, state.windows[i]? = some window →
      (∀ byte arrival, state.arrivals[lastByte i]? = some (byte, arrival) →
        window.opened + fromSecs heartbeatRecvTimeout < arrival) →
      window.opened + fromSecs heartbeatRecvTimeout < state.now →
      state.drive = .ended "timeout" ∧
        state.returned = some (window.opened + fromSecs heartbeatRecvTimeout) ∧
        state.history.echoes = i) ∧
    (state.history.written <+: state.arrivals.map Prod.fst ∧
      packetSize * state.history.echoes ≤ state.history.written.length) ∧
    ∀ later, state.now ≤ later →
      ∃ next, Reachable (restrict prompt (step heartbeatRecvTimeout label startTs)) state next ∧
        next.now = later ∧ next.arrivals = state.arrivals := by
  have hinv := onTime_of_reachable hreach
  exact ⟨⟨first_window hreach, hinv.counted⟩, hinv.echoed,
    fun i window byte arrival => hinv.echoed_of_early, fun i window => hinv.times_out,
    hinv.written_initial, fun later => time_goes_on heartbeatRecvTimeout label startTs hinv⟩

/-- One packet in time, in two pieces, then six bytes of the next one, which do
not keep the session alive. -/
theorem receive_timeout_while_dribbling :
    ∃ state : TimedDrive, state.drive = .ended "timeout" ∧
      state.returned = some 3000000000 ∧ state.history.echoes = 1 := by
  let events : List (DriveEvent WholeSeconds) :=
    [.act ⟨0⟩ .ready, .act ⟨0⟩ (.read (.ok [1, 1, 1, 1, 1])), .tick 1000000000,
      .arrive [2, 2, 2, 2, 2, 2, 2, 2, 2, 2, 2],
      .act ⟨1⟩ (.read (.ok [2, 2, 2, 2, 2, 2, 2, 2, 2, 2, 2])), .act ⟨1⟩ (.wrote (.ok 16)),
      .act ⟨1⟩ .ready, .arrive [3, 3, 3], .act ⟨1⟩ (.read (.ok [3, 3, 3])),
      .tick 2900000000, .arrive [4, 4, 4], .act ⟨2⟩ (.read (.ok [4, 4, 4])),
      .tick 3000000000, .act ⟨3⟩ .elapsed, .tick 3000000001]
  obtain ⟨state, hrun, hview⟩ := Option.map_eq_some_iff.mp
    (show (run (restrict prompt (step 2 ⟨"near", "far"⟩ (⟨0⟩ : WholeSeconds)))
        (start 0 [1, 1, 1, 1, 1]) events).map
          (fun state => (state.windows[1]?, state.arrivals[lastByte 1]?, state.now)) =
        some (some ⟨1000000000, 16⟩, none, 3000000001) by decide +kernel)
  simp only [Prod.mk.injEq] at hview
  obtain ⟨hwindow, harrival, hnow⟩ := hview
  refine ⟨state, ?_⟩
  have htimeout := (receive_timeout (Reachable.of_run hrun)).2.2.2.1 1 _ hwindow
    (by rw [harrival]; exact nofun) (by rw [hnow]; decide)
  exact htimeout

end TcpMonitor.ReceiveTimeout
