import TcpMonitor.Core.TransitionSystem
import TcpMonitor.Protocol.HeartbeatReading

/-!
# One reader kept for a whole stream

Any stream, cut into reads in any way, with calls of `recv` started and dropped
at will.  The invariant ties the buffer, the fill count and the stream position
together: what the reads have taken is the packets returned followed by the
received part of the next one.
-/

namespace TcpMonitor.ReaderAlignment

open TcpMonitor.TransitionSystem
open TcpMonitor.Runtime
open TcpMonitor.HeartbeatPacket
open TcpMonitor.HeartbeatReading

/-- A reader, whether a call of `recv` is suspended at its read, and the
stream.  `arrived`, `consumed` and `results` are history variables: the bytes
that have arrived, the bytes the reads took, and what the calls returned. -/
structure ReaderStream where
  reader : HeartbeatReader
  suspended : Bool
  unread : List UInt8
  closed : Bool
  arrived : List UInt8
  consumed : List UInt8
  results : List (Except ErrorKind Heartbeat)

/-- What can happen around a reader.  `drop` is a cancellation: the future of
the suspended call is dropped. -/
inductive StreamStep where
  | arrive (bytes : List UInt8)
  | close
  | call
  | drop
  | read (count : ℕ)
  | fail (error : ErrorKind)

namespace ReaderStream

/-- A fresh reader on a stream from which nothing has arrived. -/
def start : ReaderStream := ⟨HeartbeatReader.new, false, [], false, [], [], []⟩

/-- Continue a call of `recv`, from its start or from its read. -/
def continueCall (state : ReaderStream) (reader : HeartbeatReader) : Recv → ReaderStream
  | .reading => { state with reader := reader, suspended := true }
  | .returned result =>
      { state with
        reader := reader, suspended := false, results := state.results ++ [result] }

/-- A read returns between one byte and the slice it was offered.  It returns
no bytes only if the slice is empty or the stream has ended; the end of the
stream is not an error of the read. -/
def step (state : ReaderStream) : StreamStep → Option ReaderStream
  | .arrive bytes =>
      if state.closed then none
      else some { state with
        unread := state.unread ++ bytes, arrived := state.arrived ++ bytes }
  | .close => some { state with closed := true }
  | .call =>
      if state.suspended then none
      else some (state.continueCall state.reader.recvLoop.1 state.reader.recvLoop.2)
  | .drop => if state.suspended then some { state with suspended := false } else none
  | .read count =>
      if state.suspended ∧ count ≤ state.unread.length ∧
          (count = 0 → state.reader.offered = 0 ∨ (state.closed ∧ state.unread = [])) then
        (state.reader.recvRead (.ok (state.unread.take count))).map fun after =>
          { state with
            unread := state.unread.drop count
            consumed := state.consumed ++ state.unread.take count }.continueCall after.1 after.2
      else none
  | .fail error =>
      if state.suspended ∧ error ≠ .unexpectedEof then
        (state.reader.recvRead (.error error)).map fun after =>
          state.continueCall after.1 after.2
      else none

/-- The packets that the calls have returned, in order. -/
def packets (state : ReaderStream) : List Heartbeat :=
  state.results.filterMap Except.toOption

@[simp]
theorem packets_continueCall (state : ReaderStream) (reader : HeartbeatReader) (recv : Recv) :
    (state.continueCall reader recv).packets = state.packets ++ recv.packets := by
  cases recv with
  | reading => simp [continueCall, packets]
  | returned result =>
      cases result <;> simp [continueCall, packets, Except.toOption]

theorem continueCall_frame (state : ReaderStream) (reader : HeartbeatReader) (recv : Recv) :
    (state.continueCall reader recv).reader = reader ∧
      (state.continueCall reader recv).unread = state.unread ∧
      (state.continueCall reader recv).closed = state.closed ∧
      (state.continueCall reader recv).arrived = state.arrived ∧
      (state.continueCall reader recv).consumed = state.consumed := by
  cases recv <;> simp [continueCall]

end ReaderStream

/-- The representation invariant of a reader on its stream. -/
structure Aligned (state : ReaderStream) : Prop where
  arrived_eq : state.arrived = state.consumed ++ state.unread
  consumed_eq : state.consumed = wire state.packets ++ state.reader.received
  filled_lt : state.reader.filled < packetSize
  ended_of_eof : .error .unexpectedEof ∈ state.results →
    state.closed = true ∧ state.unread = []

theorem aligned_start : Aligned ReaderStream.start where
  arrived_eq := rfl
  consumed_eq := rfl
  filled_lt := by decide
  ended_of_eof := by simp [ReaderStream.start]

/-- The slice offered to a read is never empty. -/
theorem Aligned.offered_pos {state : ReaderStream} (haligned : Aligned state) :
    0 < state.reader.offered :=
  Nat.sub_pos_of_lt haligned.filled_lt

/-- A completed read keeps the stream aligned. -/
theorem Aligned.read {state : ReaderStream} (haligned : Aligned state) {count : ℕ}
    (hended : count = 0 → state.closed = true ∧ state.unread = [])
    {reader : HeartbeatReader} {recv : Recv} (hcount : count ≤ state.unread.length)
    (hread : state.reader.recvRead (.ok (state.unread.take count)) = some (reader, recv)) :
    Aligned ({ state with
      unread := state.unread.drop count
      consumed := state.consumed ++ state.unread.take count }.continueCall reader recv) := by
  obtain ⟨hreader, hunread, hclosed, harrived, hconsumed⟩ :=
    ReaderStream.continueCall_frame { state with
      unread := state.unread.drop count
      consumed := state.consumed ++ state.unread.take count } reader recv
  refine ⟨?_, ?_, ?_, ?_⟩
  · rw [harrived, hconsumed, hunread, haligned.arrived_eq, List.append_assoc,
      List.take_append_drop]
  · have hbytes := HeartbeatReader.recvRead_aligned hread
    have hpackets : ReaderStream.packets { state with
        unread := state.unread.drop count
        consumed := state.consumed ++ state.unread.take count } = state.packets := rfl
    rw [hconsumed, hreader, ReaderStream.packets_continueCall, hpackets, wire_append,
      List.append_assoc, ← hbytes, ← List.append_assoc, ← haligned.consumed_eq]
  · rw [hreader]
    exact HeartbeatReader.recvRead_filled_lt haligned.filled_lt hread
  · intro heof
    rw [hclosed, hunread]
    by_cases hchunk : state.unread.take count = []
    · have hzero : count = 0 := by
        have hlength := congrArg List.length hchunk
        rw [List.length_take, List.length_nil] at hlength
        omega
      obtain ⟨hclosed', hunread'⟩ := hended hzero
      exact ⟨hclosed', by simp [hunread']⟩
    · -- a read of at least one byte never ends a call with an error
      have hold : .error .unexpectedEof ∈ state.results := by
        rcases HeartbeatReader.recvRead_ok_cases hchunk hread with
          ⟨rfl, -⟩ | ⟨heartbeat, rfl, -⟩
        · exact heof
        · simpa [ReaderStream.continueCall] using heof
      have hempty := (haligned.ended_of_eof hold).2
      simp [hempty] at hchunk

/-- Every step of the stream or of the reader keeps the stream aligned. -/
theorem Aligned.step {state next : ReaderStream} {move : StreamStep}
    (haligned : Aligned state) (hstep : state.step move = some next) : Aligned next := by
  cases move with
  | arrive bytes =>
      simp only [ReaderStream.step] at hstep
      split at hstep
      · cases hstep
      · next hopen =>
          cases hstep
          refine ⟨?_, haligned.consumed_eq, haligned.filled_lt, fun heof => ?_⟩
          · simp only [haligned.arrived_eq, List.append_assoc]
          · exact absurd (haligned.ended_of_eof heof).1 hopen
  | close =>
      cases hstep
      exact ⟨haligned.arrived_eq, haligned.consumed_eq, haligned.filled_lt,
        fun heof => ⟨rfl, (haligned.ended_of_eof heof).2⟩⟩
  | call =>
      simp only [ReaderStream.step, HeartbeatReader.recvLoop_of_lt haligned.filled_lt] at hstep
      split at hstep
      · cases hstep
      · cases hstep
        exact ⟨haligned.arrived_eq, haligned.consumed_eq, haligned.filled_lt,
          haligned.ended_of_eof⟩
  | drop =>
      simp only [ReaderStream.step] at hstep
      split at hstep
      · cases hstep
        exact ⟨haligned.arrived_eq, haligned.consumed_eq, haligned.filled_lt,
          haligned.ended_of_eof⟩
      · cases hstep
  | read count =>
      simp only [ReaderStream.step] at hstep
      split at hstep
      · next hguard =>
          obtain ⟨-, hcount, hzero⟩ := hguard
          obtain ⟨⟨reader, recv⟩, hread, rfl⟩ := Option.map_eq_some_iff.mp hstep
          refine haligned.read (fun hnone => ?_) hcount hread
          exact (hzero hnone).resolve_left haligned.offered_pos.ne'
      · cases hstep
  | fail error =>
      simp only [ReaderStream.step] at hstep
      split at hstep
      · next hguard =>
          obtain ⟨-, hkind⟩ := hguard
          obtain ⟨⟨reader, recv⟩, hread, rfl⟩ := Option.map_eq_some_iff.mp hstep
          obtain ⟨rfl, rfl⟩ := HeartbeatReader.recvRead_error_eq_some.mp hread
          refine ⟨haligned.arrived_eq, ?_, haligned.filled_lt, fun heof => ?_⟩
          · rw [ReaderStream.packets_continueCall, Recv.packets_error, List.append_nil]
            exact haligned.consumed_eq
          · refine haligned.ended_of_eof ?_
            simpa [ReaderStream.continueCall, hkind.symm] using heof
      · cases hstep

/-- A call that ends with an error leaves the reader and the stream position as
they were. -/
theorem error_keeps_reader {state next : ReaderStream} {move : StreamStep} {error : ErrorKind}
    (haligned : Aligned state) (hstep : state.step move = some next)
    (hresult : next.results = state.results ++ [.error error]) :
    next.reader = state.reader ∧ next.consumed = state.consumed ∧
      next.unread = state.unread := by
  cases move with
  | arrive bytes =>
      simp only [ReaderStream.step] at hstep
      split at hstep <;> cases hstep
      simp at hresult
  | close =>
      cases hstep
      simp at hresult
  | call =>
      simp only [ReaderStream.step, HeartbeatReader.recvLoop_of_lt haligned.filled_lt] at hstep
      split at hstep <;> cases hstep
      simp [ReaderStream.continueCall] at hresult
  | drop =>
      simp only [ReaderStream.step] at hstep
      split at hstep <;> cases hstep
      simp at hresult
  | read count =>
      simp only [ReaderStream.step] at hstep
      split at hstep
      · obtain ⟨⟨reader, recv⟩, hread, rfl⟩ := Option.map_eq_some_iff.mp hstep
        by_cases hchunk : state.unread.take count = []
        · rw [hchunk] at hread
          obtain ⟨rfl, rfl⟩ := HeartbeatReader.recvRead_nil_eq_some.mp hread
          have hdrop : state.unread.drop count = state.unread := by
            have hsplit := List.take_append_drop count state.unread
            rwa [hchunk, List.nil_append] at hsplit
          simp [ReaderStream.continueCall, hchunk, hdrop]
        · rcases HeartbeatReader.recvRead_ok_cases hchunk hread with
            ⟨rfl, -⟩ | ⟨heartbeat, rfl, -⟩ <;>
            simp [ReaderStream.continueCall] at hresult
      · cases hstep
  | fail failure =>
      simp only [ReaderStream.step] at hstep
      split at hstep
      · obtain ⟨⟨reader, recv⟩, hread, rfl⟩ := Option.map_eq_some_iff.mp hstep
        obtain ⟨rfl, rfl⟩ := HeartbeatReader.recvRead_error_eq_some.mp hread
        simp [ReaderStream.continueCall]
      · cases hstep

theorem aligned_of_reachable {state : ReaderStream}
    (hreach : Reachable ReaderStream.step .start state) : Aligned state :=
  hreach.invariant Aligned aligned_start fun _ _ _ haligned hstep => haligned.step hstep

/-- The bytes of a run of heartbeats, as the blocks they were decoded from. -/
theorem exists_blocks (heartbeats : List Heartbeat) :
    ∃ blocks : List Packet, blocks.map decodePacket = heartbeats ∧
      blocks.flatMap Subtype.val = wire heartbeats := by
  refine ⟨heartbeats.map fun heartbeat => encodePacket heartbeat.seq heartbeat.timestamp,
    ?_, ?_⟩
  · simp [Function.comp_def]
  · rw [List.flatMap_map]
    rfl

/-- `HeartbeatReader` is cancellation-safe.  For every stream, every way to cut
it into reads and every placement of cancelled calls, the packets returned are
the decoded successive blocks of the stream, the reader holds the bytes taken
after the last of them, a read is never offered an empty slice, `UnexpectedEof`
means that the stream has ended, and a failed call loses nothing. -/
theorem reader_cancellation_safe {state : ReaderStream}
    (hreach : Reachable ReaderStream.step .start state) :
    (∃ blocks : List Packet, state.packets = blocks.map decodePacket ∧
      state.consumed =
        blocks.flatMap Subtype.val ++ state.reader.buf.val.take state.reader.filled) ∧
    state.arrived = state.consumed ++ state.unread ∧
    state.consumed.length = packetSize * state.packets.length + state.reader.filled ∧
    state.reader.filled < packetSize ∧
    state.reader.buf.val.take state.reader.filled =
      state.consumed.drop (state.consumed.length - state.reader.filled) ∧
    0 < state.reader.offered ∧
    (.error .unexpectedEof ∈ state.results → state.closed = true ∧ state.unread = []) ∧
    (∀ move next error, state.step move = some next →
      next.results = state.results ++ [.error error] →
        next.reader = state.reader ∧ next.consumed = state.consumed ∧
          next.unread = state.unread) := by
  have haligned := aligned_of_reachable hreach
  have hlength : state.consumed.length =
      packetSize * state.packets.length + state.reader.filled := by
    rw [haligned.consumed_eq, List.length_append, length_wire,
      HeartbeatReader.length_received]
  refine ⟨?_, haligned.arrived_eq, hlength, haligned.filled_lt, ?_, haligned.offered_pos,
    haligned.ended_of_eof, fun move next error => error_keeps_reader haligned⟩
  · obtain ⟨blocks, hpackets, hbytes⟩ := exists_blocks state.packets
    refine ⟨blocks, hpackets.symm, ?_⟩
    rw [hbytes]
    exact haligned.consumed_eq
  · have hcut : state.consumed.length - state.reader.filled = (wire state.packets).length := by
      rw [hlength, length_wire]
      omega
    rw [hcut, haligned.consumed_eq, List.drop_left]
    rfl

/-- Ten bytes of a packet, a cancelled call, then the other six and a new call:
the packet arrives whole. -/
theorem reader_cancellation_safe_split :
    ∃ state, run ReaderStream.step .start
        [.arrive ((encodePacket 9 0x4004000000000000).val.take 10), .call, .read 10, .drop,
          .arrive ((encodePacket 9 0x4004000000000000).val.drop 10), .call, .read 6] =
          some state ∧
      state.packets = [⟨9, 0x4004000000000000⟩] ∧
      state.consumed.length = packetSize * state.packets.length + state.reader.filled := by
  obtain ⟨state, hrun, hpackets⟩ := Option.map_eq_some_iff.mp
    (show (run ReaderStream.step .start
        [.arrive ((encodePacket 9 0x4004000000000000).val.take 10), .call, .read 10, .drop,
          .arrive ((encodePacket 9 0x4004000000000000).val.drop 10), .call, .read 6]).map
          ReaderStream.packets = some [⟨9, 0x4004000000000000⟩] by decide)
  exact ⟨state, hrun, hpackets,
    (reader_cancellation_safe (Reachable.of_run hrun)).2.2.1⟩

end TcpMonitor.ReaderAlignment
