import TcpMonitor.Core.TransitionSystem
import TcpMonitor.Protocol.PeerNames

/-!
# Parsing a handshake

Any stream, cut into reads in any way.  What `read_handshake` returns, and how
much of the stream it has taken by then, is given by a grammar of the bytes
that have arrived: a length within its bounds and that many bytes.
-/

namespace TcpMonitor.HandshakeParsing

open TcpMonitor.TransitionSystem
open TcpMonitor.Runtime
open TcpMonitor.Handshake
open TcpMonitor.PeerNames

/-! ## The grammar -/

/-- The number in the first four bytes. -/
def announced (bytes : List UInt8) : ℕ := BigEndian.decode (bytes.take 4)

/-- A length within its bounds, and that many bytes. -/
def Accepted (bytes : List UInt8) : Prop :=
  4 ≤ bytes.length ∧ 1 ≤ announced bytes ∧ announced bytes ≤ maxHandshakeNameLen ∧
    4 + announced bytes ≤ bytes.length

/-- A length out of its bounds, whatever follows. -/
def Refused (bytes : List UInt8) : Prop :=
  4 ≤ bytes.length ∧ (announced bytes = 0 ∨ maxHandshakeNameLen < announced bytes)

/-- The bytes of the name in an accepted stream. -/
def nameBytes (bytes : List UInt8) : List UInt8 := (bytes.drop 4).take (announced bytes)

/-- The name that the server uses for a peer that announced these bytes. -/
def peerName [UnicodeTables] (bytes : List UInt8) : String :=
  match String.fromUTF8? ⟨bytes.toArray⟩ with
  | some name => sanitizePeerName name
  | none => "unknown"

theorem not_refused_of_accepted {bytes : List UInt8} (haccepted : Accepted bytes) :
    ¬Refused bytes := by
  rintro ⟨-, hbad⟩
  obtain ⟨-, hpositive, hmax, -⟩ := haccepted
  omega

theorem announced_append {header : List UInt8} (hheader : header.length = 4)
    (rest : List UInt8) : announced (header ++ rest) = BigEndian.decode header := by
  rw [announced, List.take_left' hheader]

theorem announced_frame {len : ℕ} (hmax : len ≤ maxHandshakeNameLen) (rest : List UInt8) :
    announced (BigEndian.encode 4 len ++ rest) = len := by
  rw [announced_append (BigEndian.length_encode 4 len), BigEndian.decode_encode]
  simp only [maxHandshakeNameLen] at hmax
  exact Nat.mod_eq_of_lt (by omega)

/-- A frame is accepted, and its name is found in it. -/
theorem accepted_frame {name : List UInt8} (hpositive : 0 < name.length)
    (hmax : name.length ≤ maxHandshakeNameLen) (rest : List UInt8) :
    Accepted (BigEndian.encode 4 name.length ++ name ++ rest) ∧
      nameBytes (BigEndian.encode 4 name.length ++ name ++ rest) = name ∧
      (BigEndian.encode 4 name.length ++ name ++ rest).take
          (4 + announced (BigEndian.encode 4 name.length ++ name ++ rest)) =
        BigEndian.encode 4 name.length ++ name := by
  have hheader := BigEndian.length_encode 4 name.length
  have hannounced := announced_frame hmax (name ++ rest)
  rw [← List.append_assoc] at hannounced
  refine ⟨⟨?_, ?_, ?_, ?_⟩, ?_, ?_⟩
  · simp only [List.length_append, hheader]
    omega
  · rw [hannounced]
    exact hpositive
  · rw [hannounced]
    exact hmax
  · rw [hannounced]
    simp only [List.length_append, hheader]
    omega
  · rw [nameBytes, hannounced, List.append_assoc, List.drop_left' hheader, List.take_left' rfl]
  · rw [hannounced, List.take_left' (by rw [List.length_append, hheader])]

/-- A reader that waits for more has taken bytes that decide nothing. -/
theorem undecided_of_waiting {reader : HandshakeReader} (hwaiting : reader.Waiting) :
    ¬Accepted reader.consumed ∧ ¬Refused reader.consumed := by
  cases reader with
  | length received =>
      have hshort : received.length < 4 := hwaiting
      exact ⟨fun haccepted => absurd haccepted.1 (Nat.not_le.mpr hshort),
        fun hrefused => absurd hrefused.1 (Nat.not_le.mpr hshort)⟩
  | name len received =>
      obtain ⟨hmax, hlt⟩ := hwaiting
      have hannounced := announced_frame hmax received
      refine ⟨?_, ?_⟩
      · rintro ⟨-, -, -, hlength⟩
        rw [HandshakeReader.consumed, hannounced, List.length_append,
          BigEndian.length_encode] at hlength
        omega
      · rintro ⟨-, hbad⟩
        rw [HandshakeReader.consumed, hannounced] at hbad
        omega

theorem sanitizePeerName_fromUtf8OrDefault [UnicodeTables] (bytes : List UInt8) :
    sanitizePeerName (fromUtf8OrDefault bytes) = peerName bytes := by
  rw [fromUtf8OrDefault, peerName]
  cases String.fromUTF8? ⟨bytes.toArray⟩ with
  | some name => rfl
  | none =>
      rw [sanitizePeerName_eq]
      rfl

/-- What the server makes of the bytes of a name. -/
theorem peerName_asBytes [UnicodeTables] (name : String) :
    peerName (asBytes name) = sanitizePeerName name := by
  rw [← sanitizePeerName_fromUtf8OrDefault, fromUtf8OrDefault_asBytes]

/-! ## A call of `read_handshake` on a stream -/

/-- Where the call stands, and the stream.  `arrived` and `consumed` are history
variables: the bytes that have arrived and the bytes the reads took. -/
structure HandshakeStream where
  point : ReadHandshake
  unread : List UInt8
  closed : Bool
  arrived : List UInt8
  consumed : List UInt8
  deriving DecidableEq

/-- What can happen around a call. -/
inductive StreamEvent where
  | arrive (bytes : List UInt8)
  | close
  | read (count : ℕ)

namespace HandshakeStream

/-- The call before its first read, on a stream from which nothing has
arrived. -/
def start : HandshakeStream := ⟨.reading readHandshake, [], false, [], []⟩

/-- A read returns between one byte and the part of the buffer it was offered.
It returns no bytes only if that part is empty or the stream has ended. -/
def step [UnicodeTables] (state : HandshakeStream) : StreamEvent → Option HandshakeStream
  | .arrive bytes =>
      if state.closed then none
      else some { state with
        unread := state.unread ++ bytes, arrived := state.arrived ++ bytes }
  | .close => some { state with closed := true }
  | .read count =>
      match state.point with
      | .returned _ => none
      | .reading reader =>
          if count ≤ state.unread.length ∧
              (count = 0 → reader.offered = 0 ∨ (state.closed ∧ state.unread = [])) then
            (reader.onRead (.ok (state.unread.take count))).map fun point =>
              { state with
                point := point
                unread := state.unread.drop count
                consumed := state.consumed ++ state.unread.take count }
          else none

/-- What the reads have taken, at each point of the call. -/
def Decided [UnicodeTables] (state : HandshakeStream) : Prop :=
  match state.point with
  | .reading reader => reader.Waiting ∧ reader.consumed = state.consumed
  | .returned (.ok name) =>
      ∃ bytes : List UInt8, 0 < bytes.length ∧ bytes.length ≤ maxHandshakeNameLen ∧
        state.consumed = BigEndian.encode 4 bytes.length ++ bytes ∧ name = peerName bytes
  | .returned (.error .invalidData) =>
      state.consumed.length = 4 ∧
        (BigEndian.decode state.consumed = 0 ∨
          maxHandshakeNameLen < BigEndian.decode state.consumed)
  | .returned (.error .unexpectedEof) =>
      state.closed = true ∧ state.unread = [] ∧
        ¬Accepted state.consumed ∧ ¬Refused state.consumed
  | .returned (.error _) => False

/-- Nothing is lost of the stream, and what was taken of it decides what the
call does. -/
structure Inv [UnicodeTables] (state : HandshakeStream) : Prop where
  stream : state.consumed ++ state.unread = state.arrived
  decided : state.Decided

end HandshakeStream

open HandshakeStream

section Calls

variable [tables : UnicodeTables]

omit tables in
theorem offered_pos {reader : HandshakeReader} (hwaiting : reader.Waiting) :
    0 < reader.offered := by
  cases reader with
  | length received => exact Nat.sub_pos_of_lt hwaiting
  | name len received => exact Nat.sub_pos_of_lt hwaiting.2

theorem inv_start : Inv start :=
  ⟨rfl, (show ([] : List UInt8).length < 4 by decide), rfl⟩

/-- One read: the end of the stream, or a part of the unread bytes. -/
theorem inv_read {state next : HandshakeStream} {count : ℕ} (hinv : state.Inv)
    (hstep : step state (.read count) = some next) : next.Inv := by
  obtain ⟨hstream, hdecided⟩ := hinv
  simp only [step] at hstep
  split at hstep
  · cases hstep
  · next reader hpoint =>
      simp only [Decided, hpoint] at hdecided
      obtain ⟨hwaiting, htaken⟩ := hdecided
      split at hstep
      · next hcount =>
          obtain ⟨point, hread, rfl⟩ := Option.map_eq_some_iff.mp hstep
          have hrest : state.consumed ++ state.unread.take count ++ state.unread.drop count =
              state.arrived := by
            rw [List.append_assoc, List.take_append_drop, hstream]
          refine ⟨hrest, ?_⟩
          by_cases hzero : count = 0
          · subst hzero
            rcases hcount.2 rfl with hoffered | ⟨hclosed, hunread⟩
            · exact absurd hoffered (offered_pos hwaiting).ne'
            · have hpoint' : point = .returned (.error .unexpectedEof) := by
                simpa [HandshakeReader.onRead] using hread.symm
              subst hpoint'
              have hundecided := undecided_of_waiting hwaiting
              rw [htaken] at hundecided
              simpa [Decided, hclosed, hunread] using hundecided
          · have hchunk : state.unread.take count ≠ [] := by
              intro hnil
              have hlength := congrArg List.length hnil
              rw [List.length_take_of_le hcount.1] at hlength
              exact hzero hlength
            have hcases := HandshakeReader.onRead_ok_cases hwaiting hchunk hread
            rw [htaken] at hcases
            rcases hcases with ⟨reading, rfl, hconsumed, hnext⟩ |
              ⟨bytes, rfl, hpositive, hmax, hconsumed⟩ | ⟨rfl, hfour, hbad⟩
            · exact ⟨hnext, hconsumed⟩
            · exact ⟨bytes, hpositive, hmax, hconsumed, sanitizePeerName_fromUtf8OrDefault bytes⟩
            · exact ⟨hfour, hbad⟩
      · cases hstep

/-- What has been decided does not depend on bytes that come later. -/
theorem decided_of_frame {state next : HandshakeStream} (hdecided : state.Decided)
    (hpoint : next.point = state.point) (hconsumed : next.consumed = state.consumed)
    (hended : state.closed = true → next.closed = true ∧ next.unread = state.unread) :
    next.Decided := by
  simp only [Decided] at hdecided ⊢
  rw [hpoint, hconsumed]
  split at hdecided
  · exact hdecided
  · exact hdecided
  · exact hdecided
  · obtain ⟨hclosed, hunread, hundecided⟩ := hdecided
    obtain ⟨hclosed', hunread'⟩ := hended hclosed
    exact ⟨hclosed', hunread'.trans hunread, hundecided⟩
  · exact hdecided

theorem inv_step {state next : HandshakeStream} {event : StreamEvent} (hinv : state.Inv)
    (hstep : step state event = some next) : next.Inv := by
  cases event with
  | read count => exact inv_read hinv hstep
  | close =>
      cases hstep
      exact ⟨hinv.stream, decided_of_frame hinv.decided rfl rfl fun _ => ⟨rfl, rfl⟩⟩
  | arrive bytes =>
      simp only [step] at hstep
      split at hstep
      · cases hstep
      · next hopen =>
          cases hstep
          refine ⟨?_, decided_of_frame hinv.decided rfl rfl fun hclosed => absurd hclosed hopen⟩
          rw [← List.append_assoc, hinv.stream]

theorem inv_of_reachable {state : HandshakeStream} (hreach : Reachable step start state) :
    state.Inv :=
  hreach.invariant Inv inv_start fun _ _ _ hinv hstep => inv_step hinv hstep

/-! ## What a call returns -/

/-- Which streams are accepted, which are refused, and what has been taken. -/
structure Verdict (state : HandshakeStream) (result : Except ErrorKind String) : Prop where
  accepts : (∃ name, result = .ok name) ↔ Accepted state.arrived
  refuses : result = .error .invalidData ↔ Refused state.arrived
  ends : result = .error .unexpectedEof ↔
    state.closed = true ∧ ¬Accepted state.arrived ∧ ¬Refused state.arrived
  takesFrame : Accepted state.arrived →
    state.consumed = state.arrived.take (4 + announced state.arrived)
  takesLength : Refused state.arrived → state.consumed = state.arrived.take 4
  named : ∀ name, result = .ok name → name = peerName (nameBytes state.arrived)

theorem verdict_of_inv {state : HandshakeStream} {result : Except ErrorKind String}
    (hinv : state.Inv) (hreturned : state.point = .returned result) : Verdict state result := by
  obtain ⟨hstream, hdecided⟩ := hinv
  simp only [Decided, hreturned] at hdecided
  cases result with
  | ok name =>
      obtain ⟨bytes, hpositive, hmax, hconsumed, hname⟩ := hdecided
      obtain ⟨haccepted, hbytes, htake⟩ := accepted_frame hpositive hmax state.unread
      rw [← hconsumed, hstream] at haccepted hbytes htake
      have hnot := not_refused_of_accepted haccepted
      refine ⟨⟨fun _ => haccepted, fun _ => ⟨name, rfl⟩⟩, ⟨nofun, fun hrefused => absurd hrefused hnot⟩,
        ⟨nofun, fun hends => absurd haccepted hends.2.1⟩, fun _ => htake.symm,
        fun hrefused => absurd hrefused hnot, ?_⟩
      intro name' hname'
      cases hname'
      rw [hbytes]
      exact hname
  | error error =>
      cases error with
      | invalidData =>
          obtain ⟨hfour, hbad⟩ := hdecided
          have hannounced := announced_append hfour state.unread
          rw [hstream] at hannounced
          have htake : state.arrived.take 4 = state.consumed := by
            rw [← hstream, List.take_left' hfour]
          have hlength : 4 ≤ state.arrived.length := by
            rw [← hstream, List.length_append, hfour]
            omega
          have hrefused : Refused state.arrived := ⟨hlength, by rwa [hannounced]⟩
          have hnot : ¬Accepted state.arrived := fun haccepted =>
            not_refused_of_accepted haccepted hrefused
          exact ⟨⟨nofun, fun haccepted => absurd haccepted hnot⟩, ⟨fun _ => hrefused, fun _ => rfl⟩,
            ⟨nofun, fun hends => absurd hrefused hends.2.2⟩,
            fun haccepted => absurd haccepted hnot, fun _ => htake.symm, nofun⟩
      | unexpectedEof =>
          obtain ⟨hclosed, hunread, haccepted, hrefused⟩ := hdecided
          rw [hunread, List.append_nil] at hstream
          rw [hstream] at haccepted hrefused
          exact ⟨⟨nofun, fun hyes => absurd hyes haccepted⟩,
            ⟨nofun, fun hyes => absurd hyes hrefused⟩,
            ⟨fun _ => ⟨hclosed, haccepted, hrefused⟩, fun _ => rfl⟩,
            fun hyes => absurd hyes haccepted, fun hyes => absurd hyes hrefused, nofun⟩
      | connectionReset => exact hdecided.elim
      | brokenPipe => exact hdecided.elim
      | timedOut => exact hdecided.elim
      | other => exact hdecided.elim

/-! ## Every call returns -/

/-- A call that has not returned can read, unless it has taken all that has
arrived and that decides nothing. -/
theorem can_read {state : HandshakeStream} (hinv : state.Inv)
    (hreading : ∀ result, state.point ≠ .returned result)
    (hdue : Accepted state.arrived ∨ Refused state.arrived ∨ state.closed = true) :
    ∃ count next, step state (.read count) = some next := by
  obtain ⟨hstream, hdecided⟩ := hinv
  cases hpoint : state.point with
  | returned result => exact absurd hpoint (hreading result)
  | reading reader =>
      simp only [Decided, hpoint] at hdecided
      obtain ⟨hwaiting, htaken⟩ := hdecided
      have hoffered := offered_pos hwaiting
      by_cases hunread : state.unread = []
      · rw [hunread, List.append_nil] at hstream
        have hundecided := undecided_of_waiting hwaiting
        rw [htaken, hstream] at hundecided
        have hclosed : state.closed = true := by
          rcases hdue with haccepted | hrefused | hclosed
          · exact absurd haccepted hundecided.1
          · exact absurd hrefused hundecided.2
          · exact hclosed
        refine ⟨0, ?_⟩
        simp [step, hpoint, hclosed, hunread, HandshakeReader.onRead]
      · have hone : 1 ≤ state.unread.length := List.length_pos_iff.mpr hunread
        have hchunk : (state.unread.take 1).length = 1 := List.length_take_of_le hone
        refine ⟨1, ?_⟩
        simp [step, hpoint, HandshakeReader.onRead, hchunk, hone,
          Nat.one_le_iff_ne_zero.mpr hoffered.ne']

omit tables in
/-- A read takes a byte, or it is the last one. -/
theorem read_progress [UnicodeTables] {state next : HandshakeStream} {count : ℕ}
    (hstep : step state (.read count) = some next) :
    next.unread.length < state.unread.length ∨ ∃ result, next.point = .returned result := by
  simp only [step] at hstep
  split at hstep
  · cases hstep
  · next reader hpoint =>
      split at hstep
      · next hcount =>
          obtain ⟨point, hread, rfl⟩ := Option.map_eq_some_iff.mp hstep
          by_cases hzero : count = 0
          · subst hzero
            refine Or.inr ⟨.error .unexpectedEof, ?_⟩
            simpa [HandshakeReader.onRead] using hread.symm
          · refine Or.inl ?_
            have hle := hcount.1
            rw [List.length_drop]
            omega
      · cases hstep

omit tables in
/-- A read takes from the stream and adds nothing to it. -/
theorem frame_of_read [UnicodeTables] {state next : HandshakeStream} {count : ℕ}
    (hstep : step state (.read count) = some next) :
    next.arrived = state.arrived ∧ next.closed = state.closed := by
  simp only [step] at hstep
  split at hstep
  · cases hstep
  · split at hstep
    · obtain ⟨point, -, rfl⟩ := Option.map_eq_some_iff.mp hstep
      exact ⟨rfl, rfl⟩
    · cases hstep

theorem arrived_of_reads {state last : HandshakeStream} {counts : List ℕ}
    (hrun : run step state (counts.map StreamEvent.read) = some last) :
    last.arrived = state.arrived := by
  induction counts generalizing state with
  | nil =>
      cases hrun
      rfl
  | cons count counts ih =>
      obtain ⟨next, hstep, hrest⟩ := run_cons_eq_some.mp hrun
      exact (ih hrest).trans (frame_of_read hstep).1

/-- The reads that a call still makes are at most one more than the bytes it
has not read. -/
theorem reads_bounded {state last : HandshakeStream} {counts : List ℕ}
    (hrun : run step state (counts.map StreamEvent.read) = some last) :
    counts.length ≤ state.unread.length + 1 := by
  induction counts generalizing state with
  | nil => exact Nat.zero_le _
  | cons count counts ih =>
      obtain ⟨next, hstep, hrest⟩ := run_cons_eq_some.mp hrun
      rw [List.length_cons]
      rcases read_progress hstep with hless | ⟨result, hreturned⟩
      · have hcounts := ih hrest
        omega
      · -- A call that has returned makes no further read.
        cases counts with
        | nil => exact Nat.le_add_left _ _
        | cons count' counts =>
            obtain ⟨after, hstep', -⟩ := run_cons_eq_some.mp hrest
            simp [step, hreturned] at hstep'

/-- A call that the bytes decide can be brought to its end. -/
theorem completed_of_due {state : HandshakeStream} (hinv : state.Inv)
    (hdue : Accepted state.arrived ∨ Refused state.arrived ∨ state.closed = true) :
    ∃ (counts : List ℕ) (last : HandshakeStream) (result : Except ErrorKind String),
      run step state (counts.map StreamEvent.read) = some last ∧
        last.point = .returned result := by
  induction hsize : state.unread.length using Nat.strong_induction_on generalizing state with
  | _ size ih =>
      subst hsize
      cases hpoint : state.point with
      | returned result => exact ⟨[], state, result, rfl, hpoint⟩
      | reading reader =>
          obtain ⟨count, next, hstep⟩ := can_read hinv (by simp [hpoint]) hdue
          obtain ⟨harrived, hclosed⟩ := frame_of_read hstep
          rcases read_progress hstep with hless | ⟨result, hreturned⟩
          · rw [← harrived, ← hclosed] at hdue
            obtain ⟨counts, last, result, hrun, hlast⟩ :=
              ih _ hless (inv_step hinv hstep) hdue rfl
            exact ⟨count :: counts, last, result, run_cons_eq_some.mpr ⟨next, hstep, hrun⟩, hlast⟩
          · exact ⟨[count], next, result, run_cons_eq_some.mpr ⟨next, hstep, rfl⟩, hreturned⟩

/-! ## A stream that starts with a frame -/

section Frame

variable {bytes rest : List UInt8} {state : HandshakeStream}
variable (hpositive : 0 < bytes.length) (hmax : bytes.length ≤ maxHandshakeNameLen)
variable (hreach : Reachable step start state)
variable (harrived : state.arrived = BigEndian.encode 4 bytes.length ++ bytes ++ rest)

include hpositive hmax hreach harrived

/-- What a call returns, and what it leaves. -/
theorem received_of_frame {result : Except ErrorKind String}
    (hreturned : state.point = .returned result) :
    result = .ok (peerName bytes) ∧ state.unread = rest := by
  have hinv := inv_of_reachable hreach
  have hverdict := verdict_of_inv hinv hreturned
  obtain ⟨haccepted, hbytes, htake⟩ := accepted_frame hpositive hmax rest
  rw [← harrived] at haccepted hbytes htake
  obtain ⟨received, hreceived⟩ := hverdict.accepts.mpr haccepted
  have hname := hverdict.named received hreceived
  rw [hbytes] at hname
  have hconsumed := (hverdict.takesFrame haccepted).trans htake
  have hstream := hinv.stream
  rw [hconsumed, harrived] at hstream
  exact ⟨by rw [hreceived, hname], List.append_cancel_left hstream⟩

/-- A call that has not returned goes on reading. -/
theorem goes_on_of_frame (hreading : ∀ result, state.point ≠ .returned result) :
    ∃ count next, step state (.read count) = some next := by
  obtain ⟨haccepted, -, -⟩ := accepted_frame hpositive hmax rest
  rw [← harrived] at haccepted
  exact can_read (inv_of_reachable hreach) hreading (Or.inl haccepted)

/-- A call can be brought to its end, and returns the name of the frame. -/
theorem completed_of_frame :
    ∃ (counts : List ℕ) (last : HandshakeStream),
      run step state (counts.map StreamEvent.read) = some last ∧
      last.point = .returned (.ok (peerName bytes)) := by
  obtain ⟨haccepted, -, -⟩ := accepted_frame hpositive hmax rest
  rw [← harrived] at haccepted
  obtain ⟨counts, last, result, hrun, hlast⟩ :=
    completed_of_due (inv_of_reachable hreach) (Or.inl haccepted)
  have hresult := (received_of_frame hpositive hmax (hreach.trans (Reachable.of_run hrun))
    ((arrived_of_reads hrun).trans harrived) hlast).1
  rw [hresult] at hlast
  exact ⟨counts, last, hrun, hlast⟩

end Frame

/-- However the stream is cut, the call returns the verdict of the grammar on
the bytes that have arrived, having taken a frame, a length or all of them; it
returns as soon as the bytes decide or the stream ends, after at most one read
for each byte and one for the end; and what it returns is a safe name. -/
theorem handshake_parsed (htables : StandardTables tables) {state : HandshakeStream}
    (hreach : Reachable step start state) :
    (∀ result, state.point = .returned result → Verdict state result) ∧
      state.consumed ++ state.unread = state.arrived ∧
      ((∀ result, state.point ≠ .returned result) →
        (Accepted state.arrived ∨ Refused state.arrived ∨ state.closed = true) →
        ∃ count next, step state (.read count) = some next) ∧
      (∀ (counts : List ℕ) last, run step state (counts.map StreamEvent.read) = some last →
        counts.length ≤ state.unread.length + 1) ∧
      ∀ name, state.point = .returned (.ok name) →
        name ≠ "" ∧ name.length ≤ maxPeerNameChars ∧ ∀ char ∈ name.toList,
          (UnicodeTables.isAlphanumeric char = true ∨ char = '-' ∨ char = '_' ∨ char = '.') ∧
            breaksOut char = false := by
  have hinv := inv_of_reachable hreach
  refine ⟨fun result hreturned => verdict_of_inv hinv hreturned, hinv.stream,
    can_read hinv, fun counts last hrun => reads_bounded hrun, ?_⟩
  intro name hreturned
  have hname : name = sanitizePeerName (fromUtf8OrDefault (nameBytes state.arrived)) := by
    rw [sanitizePeerName_fromUtf8OrDefault]
    exact (verdict_of_inv hinv hreturned).named name rfl
  obtain ⟨hnonempty, hshort, hsafe⟩ :=
    sanitizePeerName_safe htables (fromUtf8OrDefault (nameBytes state.arrived))
  rw [← hname] at hnonempty hshort hsafe
  refine ⟨hnonempty, hshort, fun char hmem => ⟨?_, breaksOut_of_isSafe htables (hsafe char hmem)⟩⟩
  simpa [isSafe, or_assoc] using hsafe char hmem

end Calls

section Witness

local instance : UnicodeTables := asciiTables

/-- A name with a quote in it arrives in two pieces and is read in three. -/
theorem handshake_parsed_in_pieces :
    ∃ state, Reachable step start state ∧ state.point = .returned (.ok "li") ∧
      Verdict state (.ok "li") ∧ ∀ char ∈ "li".toList, breaksOut char = false := by
  obtain ⟨state, hrun, hpoint⟩ := Option.map_eq_some_iff.mp
    (show (run step start [.arrive [0, 0, 0, 3, 108], .read 3, .read 1, .read 1,
        .arrive [34, 105, 0], .read 2]).map HandshakeStream.point = some (.returned (.ok "li")) by
      decide +kernel)
  obtain ⟨hverdict, -, -, -, hsafe⟩ :=
    handshake_parsed standardTables_ascii (Reachable.of_run hrun)
  exact ⟨state, Reachable.of_run hrun, hpoint, hverdict _ hpoint,
    fun char hmem => ((hsafe "li" hpoint).2.2 char hmem).2⟩

end Witness

end TcpMonitor.HandshakeParsing
