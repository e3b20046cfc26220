import TcpMonitor.Core.BigEndian
import TcpMonitor.Core.FixedFraming
import TcpMonitor.Runtime

/-!
# The handshake

The client announces its node name behind a four-byte big-endian length.  The
server reads the length, checks it, reads that many bytes and keeps the
characters of the name that are safe in a label.  Both `read_u32` and
`read_exact` fill their buffer over any number of reads, so the reader is
modelled by what it still waits for.
-/

namespace TcpMonitor.Handshake

open TcpMonitor.Runtime

/-- Longest node name, in bytes, that is sent or accepted. -/
def maxHandshakeNameLen : ℕ := 256

/-- Longest peer name kept after sanitising. -/
def maxPeerNameChars : ℕ := 64

/-- The Unicode tables of the standard library. -/
class UnicodeTables where
  isAlphanumeric : Char → Bool

/-- The part of the tables that concrete runs need. -/
@[reducible]
def asciiTables : UnicodeTables := ⟨Char.isAlphanum⟩

/-- `str::as_bytes`. -/
def asBytes (name : String) : List UInt8 := name.toUTF8.data.toList

/-- The bytes `send_handshake` writes: names longer than 256 bytes are cut. -/
def sendHandshake (name : String) : List UInt8 :=
  let bytes := asBytes name
  let kept := if maxHandshakeNameLen ≤ bytes.length then bytes.take maxHandshakeNameLen else bytes
  BigEndian.encode 4 kept.length ++ kept

/-- Keep only characters that are safe in Prometheus label values and log
lines. -/
def sanitizePeerName [UnicodeTables] (name : String) : String :=
  let kept := String.ofList ((name.toList.filter fun char =>
    UnicodeTables.isAlphanumeric char || char == '-' || char == '_' || char == '.').take
      maxPeerNameChars)
  if kept.isEmpty then "unknown" else kept

/-- `String::from_utf8(bytes).unwrap_or_default()`. -/
def fromUtf8OrDefault (bytes : List UInt8) : String :=
  (String.fromUTF8? ⟨bytes.toArray⟩).getD ""

/-- Which buffer `read_handshake` is filling, and what it holds. -/
inductive HandshakeReader where
  | length (received : List UInt8)
  | name (len : ℕ) (received : List UInt8)
  deriving DecidableEq

/-- Where `read_handshake` stands. -/
inductive ReadHandshake where
  | reading (reader : HandshakeReader)
  | returned (result : Except ErrorKind String)
  deriving DecidableEq

namespace HandshakeReader

/-- The unfilled part of the buffer. -/
def offered : HandshakeReader → ℕ
  | length received => 4 - received.length
  | name len received => len - received.length

/-- `read_handshake` once its current buffer holds `received`. -/
def resume [UnicodeTables] : HandshakeReader → ReadHandshake
  | length received =>
      if received.length < 4 then .reading (length received)
      else
        let len := BigEndian.decode received
        if len = 0 ∨ len > maxHandshakeNameLen then .returned (.error .invalidData)
        else .reading (name len [])
  | name len received =>
      if received.length < len then .reading (name len received)
      else .returned (.ok (sanitizePeerName (fromUtf8OrDefault received)))

def append (chunk : List UInt8) : HandshakeReader → HandshakeReader
  | length received => length (received ++ chunk)
  | name len received => name len (received ++ chunk)

/-- `read_handshake` after a read completed. -/
def onRead [UnicodeTables] (reader : HandshakeReader) :
    Except ErrorKind (List UInt8) → Option ReadHandshake
  | .error error => some (.returned (.error error))
  | .ok chunk =>
      if chunk.length ≤ reader.offered then
        if chunk.length = 0 then some (.returned (.error .unexpectedEof))
        else some (reader.append chunk).resume
      else none

/-- Every byte read so far. -/
def consumed : HandshakeReader → List UInt8
  | length received => received
  | name len received => BigEndian.encode 4 len ++ received

@[simp]
theorem consumed_append (reader : HandshakeReader) (chunk : List UInt8) :
    (reader.append chunk).consumed = reader.consumed ++ chunk := by
  cases reader <;> simp [append, consumed]

/-- A reader waits for more: its buffer is not full, and a length it has read
is one it accepts. -/
def Waiting : HandshakeReader → Prop
  | length received => received.length < 4
  | name len received => len ≤ maxHandshakeNameLen ∧ received.length < len

/-- What a reader whose buffer is not overfull does next: it waits, holding the
same bytes, or it returns a name after exactly a length and that many bytes, or
it refuses the length as soon as it has read it. -/
theorem resume_cases [UnicodeTables] {reader : HandshakeReader}
    (hlength : ∀ received, reader = length received → received.length ≤ 4)
    (hname : ∀ len received, reader = name len received →
      0 < len ∧ len ≤ maxHandshakeNameLen ∧ received.length ≤ len) :
    (∃ next, reader.resume = .reading next ∧ next.consumed = reader.consumed ∧ next.Waiting) ∨
      (∃ bytes, reader.resume = .returned (.ok (sanitizePeerName (fromUtf8OrDefault bytes))) ∧
        0 < bytes.length ∧ bytes.length ≤ maxHandshakeNameLen ∧
        reader.consumed = BigEndian.encode 4 bytes.length ++ bytes) ∨
      (reader.resume = .returned (.error .invalidData) ∧ reader.consumed.length = 4 ∧
        (BigEndian.decode reader.consumed = 0 ∨
          maxHandshakeNameLen < BigEndian.decode reader.consumed)) := by
  cases reader with
  | length received =>
      have hle := hlength received rfl
      by_cases hlt : received.length < 4
      · exact Or.inl ⟨length received, by simp [resume, hlt], rfl, hlt⟩
      · have hfour : received.length = 4 := by omega
        by_cases hbad : BigEndian.decode received = 0 ∨
            BigEndian.decode received > maxHandshakeNameLen
        · exact Or.inr (Or.inr ⟨by simp only [resume, hlt, if_false, hbad, if_true], hfour, hbad⟩)
        · refine Or.inl ⟨name (BigEndian.decode received) [],
            by simp only [resume, hlt, if_false, hbad], ?_, ?_, ?_⟩
          · have hbytes := BigEndian.encode_decode received
            rw [hfour] at hbytes
            simp [consumed, hbytes]
          · omega
          · simp only [List.length_nil]
            omega
  | name len received =>
      obtain ⟨hpositive, hmax, hle⟩ := hname len received rfl
      by_cases hlt : received.length < len
      · exact Or.inl ⟨name len received, by simp [resume, hlt], rfl, hmax, hlt⟩
      · have hfull : received.length = len := by omega
        refine Or.inr (Or.inl ⟨received, by simp [resume, hlt], by omega, by omega, ?_⟩)
        rw [consumed, hfull]

/-- What a read can lead to, for a reader that waits for more. -/
theorem onRead_ok_cases [UnicodeTables] {reader : HandshakeReader} {chunk : List UInt8}
    {outcome : ReadHandshake} (hwaiting : reader.Waiting) (hchunk : chunk ≠ [])
    (hread : reader.onRead (.ok chunk) = some outcome) :
    (∃ next, outcome = .reading next ∧ next.consumed = reader.consumed ++ chunk ∧
        next.Waiting) ∨
      (∃ bytes, outcome = .returned (.ok (sanitizePeerName (fromUtf8OrDefault bytes))) ∧
        0 < bytes.length ∧ bytes.length ≤ maxHandshakeNameLen ∧
        reader.consumed ++ chunk = BigEndian.encode 4 bytes.length ++ bytes) ∨
      (outcome = .returned (.error .invalidData) ∧ (reader.consumed ++ chunk).length = 4 ∧
        (BigEndian.decode (reader.consumed ++ chunk) = 0 ∨
          maxHandshakeNameLen < BigEndian.decode (reader.consumed ++ chunk))) := by
  rw [onRead] at hread
  split at hread
  · next hfits =>
      have hnonempty : ¬ chunk.length = 0 := fun hzero =>
        hchunk (List.length_eq_zero_iff.mp hzero)
      rw [if_neg hnonempty, Option.some.injEq] at hread
      rw [← consumed_append, ← hread]
      apply resume_cases
      · intro received hreader
        cases reader with
        | length earlier =>
            simp only [append, length.injEq] at hreader
            simp only [offered] at hfits
            simp only [Waiting] at hwaiting
            rw [← hreader, List.length_append]
            omega
        | name len earlier => cases hreader
      · intro len received hreader
        cases reader with
        | length earlier => cases hreader
        | name len' earlier =>
            simp only [append, name.injEq] at hreader
            obtain ⟨rfl, rfl⟩ := hreader
            simp only [offered] at hfits
            obtain ⟨hmax, hlt⟩ := hwaiting
            rw [List.length_append]
            exact ⟨by omega, hmax, by omega⟩
  · cases hread

end HandshakeReader

/-- `read_handshake` before its first read. -/
def readHandshake : HandshakeReader := .length []

/-- `send_handshake` writes the first 256 bytes of a name behind their
number. -/
theorem sendHandshake_eq_take (name : String) :
    sendHandshake name =
      BigEndian.encode 4 ((asBytes name).take maxHandshakeNameLen).length ++
        (asBytes name).take maxHandshakeNameLen := by
  rw [sendHandshake]
  split
  · rfl
  · next hshort =>
      rw [List.take_of_length_le (Nat.lt_of_not_le hshort).le]

/-- It writes a length that the other side accepts, unless the name is empty,
and that many bytes. -/
theorem exists_sendHandshake (name : String) :
    ∃ kept, sendHandshake name = BigEndian.encode 4 kept.length ++ kept ∧
      kept.length ≤ maxHandshakeNameLen :=
  ⟨_, sendHandshake_eq_take name, List.length_take_le _ _⟩

/-- A reader that has read a length and that many bytes of a stream that starts
with a handshake has read the handshake and nothing else. -/
theorem handshake_of_initial {name : String} {bytes rest tail : List UInt8}
    (hbytes : bytes.length ≤ maxHandshakeNameLen)
    (hinitial : BigEndian.encode 4 bytes.length ++ bytes ++ rest <+:
      sendHandshake name ++ tail) :
    BigEndian.encode 4 bytes.length ++ bytes = sendHandshake name ∧ rest <+: tail := by
  obtain ⟨kept, hkept, hlength⟩ := exists_sendHandshake name
  rw [hkept] at hinitial ⊢
  have hheader : ∀ left right, left ≤ maxHandshakeNameLen → right ≤ maxHandshakeNameLen →
      BigEndian.encode 4 left = BigEndian.encode 4 right → left = right := by
    intro left right hleft hright
    simp only [maxHandshakeNameLen] at hleft hright
    exact BigEndian.eq_of_encode_eq (by omega) (by omega)
  obtain ⟨rfl, hrest⟩ := FixedFraming.frame_of_header_prefix (BigEndian.length_encode 4) hheader
    hbytes hlength hinitial
  exact ⟨rfl, hrest⟩

end TcpMonitor.Handshake
