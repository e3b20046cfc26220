import TcpMonitor.Protocol.HeartbeatPacket
import TcpMonitor.Runtime

/-!
# The cancellation-safe heartbeat reader

`HeartbeatReader::recv` has one await point, the read inside its loop.  It is
modelled by the code from the head of the loop to that read (`recvLoop`) and
the code after the read (`recvRead`).  Everything `recv` knows between two
reads is in the reader, so dropping the future at the await point is the
identity on the reader.
-/

namespace TcpMonitor.HeartbeatReading

open TcpMonitor.Runtime
open TcpMonitor.HeartbeatPacket

/-- Reads heartbeat packets from one stream, cancellation-safely. -/
structure HeartbeatReader where
  buf : Packet
  filled : ℕ
  filled_le : filled ≤ packetSize
  deriving DecidableEq

/-- Where a call of `recv` stands: suspended at its read, or finished. -/
inductive Recv where
  | reading
  | returned (result : Except ErrorKind Heartbeat)
  deriving DecidableEq

/-- The packet that a call has returned, if it has. -/
def Recv.packets : Recv → List Heartbeat
  | returned (.ok heartbeat) => [heartbeat]
  | _ => []

@[simp]
theorem Recv.packets_reading : Recv.packets reading = [] := rfl

@[simp]
theorem Recv.packets_ok (heartbeat : Heartbeat) :
    Recv.packets (returned (.ok heartbeat)) = [heartbeat] := rfl

@[simp]
theorem Recv.packets_error (error : ErrorKind) :
    Recv.packets (returned (.error error)) = [] := rfl

namespace HeartbeatReader

def new : HeartbeatReader where
  buf := ⟨List.replicate packetSize 0, by simp⟩
  filled := 0
  filled_le := Nat.zero_le _

/-- The received part of the packet, `buf[..filled]`. -/
def received (reader : HeartbeatReader) : List UInt8 := reader.buf.val.take reader.filled

/-- The length of the slice offered to the read. -/
def offered (reader : HeartbeatReader) : ℕ := packetSize - reader.filled

/-- What a read of `chunk` into the unfilled part leaves: the bytes behind it
keep their values. -/
def store (reader : HeartbeatReader) (chunk : List UInt8)
    (hfits : chunk.length ≤ reader.offered) : HeartbeatReader where
  buf := ⟨reader.received ++ chunk ++ reader.buf.val.drop (reader.filled + chunk.length), by
    have hbuf := reader.buf.property
    have hfilled := reader.filled_le
    simp only [offered] at hfits
    simp only [received, List.length_append, List.length_take, List.length_drop, hbuf]
    omega⟩
  filled := reader.filled + chunk.length
  filled_le := by
    have hfilled := reader.filled_le
    simp only [offered] at hfits
    omega

/-- `recv` from the head of its loop to the next read, or to its return. -/
def recvLoop (reader : HeartbeatReader) : HeartbeatReader × Recv :=
  if reader.filled < packetSize then (reader, .reading)
  else ({ reader with filled := 0, filled_le := Nat.zero_le _ },
    .returned (.ok (decodePacket reader.buf)))

/-- `recv` after its read completed.  A read returns at most the slice it was
offered. -/
def recvRead (reader : HeartbeatReader) :
    Except ErrorKind (List UInt8) → Option (HeartbeatReader × Recv)
  | .error error => some (reader, .returned (.error error))
  | .ok chunk =>
      if hfits : chunk.length ≤ reader.offered then
        if chunk.length = 0 then some (reader, .returned (.error .unexpectedEof))
        else some (reader.store chunk hfits).recvLoop
      else none

variable {reader reader' : HeartbeatReader} {recv : Recv}

@[simp]
theorem received_new : new.received = [] := rfl

theorem length_received (reader : HeartbeatReader) :
    reader.received.length = reader.filled := by
  have hbuf := reader.buf.property
  have hfilled := reader.filled_le
  rw [received, List.length_take]
  omega

theorem received_store {chunk : List UInt8} (hfits : chunk.length ≤ reader.offered) :
    (reader.store chunk hfits).received = reader.received ++ chunk := by
  have hlength : (reader.received ++ chunk).length = reader.filled + chunk.length := by
    rw [List.length_append, length_received]
  rw [received, store]
  exact List.take_left' hlength

theorem recvLoop_of_lt (hlt : reader.filled < packetSize) :
    reader.recvLoop = (reader, .reading) := if_pos hlt

/-- A full buffer is returned as a packet and the reader starts afresh. -/
theorem recvLoop_of_full (hfull : reader.filled = packetSize) :
    (reader.recvLoop).1.received = [] ∧ (reader.recvLoop).1.filled = 0 ∧
      ∃ heartbeat, (reader.recvLoop).2 = .returned (.ok heartbeat) ∧
        heartbeat.frame = reader.received := by
  have hloop : reader.recvLoop =
      ({ reader with filled := 0, filled_le := Nat.zero_le _ },
        .returned (.ok (decodePacket reader.buf))) := if_neg (by omega)
  rw [hloop]
  refine ⟨by simp [received], rfl, decodePacket reader.buf, rfl, ?_⟩
  rw [Heartbeat.frame_decodePacket, received, hfull]
  exact (List.take_of_length_le (by rw [reader.buf.property])).symm

/-- A failed read returns the error and leaves the reader as it was. -/
theorem recvRead_error_eq_some {error : ErrorKind} :
    reader.recvRead (.error error) = some (reader', recv) ↔
      reader' = reader ∧ recv = .returned (.error error) := by
  simp [recvRead, eq_comm]

/-- A read of no bytes ends the call with `UnexpectedEof` and leaves the reader
as it was. -/
theorem recvRead_nil_eq_some :
    reader.recvRead (.ok []) = some (reader', recv) ↔
      reader' = reader ∧ recv = .returned (.error .unexpectedEof) := by
  simp [recvRead, eq_comm]

/-- What a read of at least one byte can lead to: the packet is complete and
returned, or the call waits for the rest of it. -/
theorem recvRead_ok_cases {chunk : List UInt8} (hchunk : chunk ≠ [])
    (hread : reader.recvRead (.ok chunk) = some (reader', recv)) :
    (recv = .reading ∧ reader'.received = reader.received ++ chunk ∧
        reader'.filled < packetSize) ∨
      ∃ heartbeat, recv = .returned (.ok heartbeat) ∧
        heartbeat.frame = reader.received ++ chunk ∧
        reader'.received = [] ∧ reader'.filled = 0 := by
  have hlength : chunk.length ≠ 0 := fun hzero => hchunk (List.length_eq_zero_iff.mp hzero)
  rw [recvRead] at hread
  split at hread
  · next hfits =>
      rw [Option.some.injEq] at hread
      have hstored := received_store hfits
      have hfilled := (reader.store chunk hfits).filled_le
      rcases Nat.lt_or_eq_of_le hfilled with hlt | hfull
      · rw [recvLoop_of_lt hlt, Prod.mk.injEq] at hread
        obtain ⟨rfl, rfl⟩ := hread
        exact Or.inl ⟨rfl, hstored, hlt⟩
      · obtain ⟨hempty, hzero, heartbeat, hreturned, hframe⟩ := recvLoop_of_full hfull
        rw [hread] at hempty hzero hreturned
        exact Or.inr ⟨heartbeat, hreturned, hframe.trans hstored, hempty, hzero⟩
  · cases hread

/-- Alignment, for every outcome of a read: the bytes held before the read and
the bytes it delivered are the packets returned and the bytes held after it. -/
theorem recvRead_aligned {chunk : List UInt8}
    (hread : reader.recvRead (.ok chunk) = some (reader', recv)) :
    reader.received ++ chunk = wire recv.packets ++ reader'.received := by
  by_cases hchunk : chunk = []
  · subst hchunk
    obtain ⟨rfl, rfl⟩ := recvRead_nil_eq_some.mp hread
    simp
  · rcases recvRead_ok_cases hchunk hread with
      ⟨rfl, hreceived, -⟩ | ⟨heartbeat, rfl, hframe, hreceived, -⟩
    · simp [hreceived]
    · simp [hframe, hreceived]

theorem recvRead_filled_lt {result : Except ErrorKind (List UInt8)}
    (hlt : reader.filled < packetSize)
    (hread : reader.recvRead result = some (reader', recv)) :
    reader'.filled < packetSize := by
  cases result with
  | error error =>
      obtain ⟨rfl, -⟩ := recvRead_error_eq_some.mp hread
      exact hlt
  | ok chunk =>
      by_cases hchunk : chunk = []
      · subst hchunk
        obtain ⟨rfl, -⟩ := recvRead_nil_eq_some.mp hread
        exact hlt
      · rcases recvRead_ok_cases hchunk hread with ⟨-, -, hfilled⟩ | ⟨-, -, -, -, hfilled⟩
        · exact hfilled
        · rw [hfilled]
          decide

end HeartbeatReader

end TcpMonitor.HeartbeatReading
