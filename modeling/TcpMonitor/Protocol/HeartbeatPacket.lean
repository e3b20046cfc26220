import TcpMonitor.Core.BigEndian
import TcpMonitor.Core.FixedFraming

/-!
# Heartbeat packets

A packet is sixteen bytes: the sequence number and the timestamp, both
big-endian.  The timestamp is an `f64` that the code only ever moves through
`to_bits` and `from_bits`, so it is represented by its bit pattern and every
pattern, NaN included, is a timestamp.
-/

namespace TcpMonitor.HeartbeatPacket

open TcpMonitor.FixedFraming

/-- `PACKET_SIZE`. -/
def packetSize : ℕ := 16

/-- The byte of a stream of packets that completes the packet at a position. -/
def lastByte (position : ℕ) : ℕ := packetSize * position + (packetSize - 1)

/-- `[u8; PACKET_SIZE]`. -/
abbrev Packet := Block UInt8 packetSize

/-- One heartbeat packet as sent by the client and echoed by the server. -/
structure Heartbeat where
  seq : UInt64
  timestamp : UInt64
  deriving DecidableEq

def encodePacket (seq timestamp : UInt64) : Packet :=
  ⟨BigEndian.encode 8 seq.toNat ++ BigEndian.encode 8 timestamp.toNat, by simp [packetSize]⟩

def decodePacket (buf : Packet) : Heartbeat where
  seq := UInt64.ofNat (BigEndian.decode (buf.val.take 8))
  timestamp := UInt64.ofNat (BigEndian.decode (buf.val.drop 8))

private theorem ofNat_decode_encode (value : UInt64) :
    UInt64.ofNat (BigEndian.decode (BigEndian.encode 8 value.toNat)) = value := by
  have hfits : value.toNat < 256 ^ 8 := value.toNat_lt
  rw [BigEndian.decode_encode, Nat.mod_eq_of_lt hfits, UInt64.ofNat_toNat]

private theorem encode_ofNat_decode {bytes : List UInt8} (hlength : bytes.length = 8) :
    BigEndian.encode 8 (UInt64.ofNat (BigEndian.decode bytes)).toNat = bytes := by
  have hfits : BigEndian.decode bytes < 2 ^ 64 := by
    have hlt := BigEndian.decode_lt bytes
    rw [hlength] at hlt
    exact hlt
  rw [UInt64.toNat_ofNat', Nat.mod_eq_of_lt hfits, ← hlength]
  exact BigEndian.encode_decode bytes

/-- `decode_packet` is a left inverse of `encode_packet`. -/
@[simp]
theorem decodePacket_encodePacket (seq timestamp : UInt64) :
    decodePacket (encodePacket seq timestamp) = ⟨seq, timestamp⟩ := by
  have hcut : 8 = (BigEndian.encode 8 seq.toNat).length := by simp
  rw [decodePacket, encodePacket]
  conv_lhs =>
    congr
    · rw [List.take_left' hcut.symm, ofNat_decode_encode]
    · rw [List.drop_left' hcut.symm, ofNat_decode_encode]

/-- Encoding what was decoded returns the sixteen bytes, whatever they are. -/
theorem encodePacket_decodePacket (buf : Packet) :
    encodePacket (decodePacket buf).seq (decodePacket buf).timestamp = buf := by
  have hbuf : buf.val.length = 16 := buf.property
  apply Subtype.ext
  rw [encodePacket, decodePacket]
  dsimp only
  rw [encode_ofNat_decode (by simp [hbuf]), encode_ofNat_decode (by simp [hbuf]),
    List.take_append_drop]

namespace Heartbeat

/-- The bytes of a heartbeat on the wire. -/
def frame (heartbeat : Heartbeat) : List UInt8 :=
  (encodePacket heartbeat.seq heartbeat.timestamp).val

@[simp]
theorem length_frame (heartbeat : Heartbeat) : heartbeat.frame.length = packetSize :=
  (encodePacket heartbeat.seq heartbeat.timestamp).property

@[simp]
theorem decodePacket_frame (heartbeat : Heartbeat) (hlength) :
    decodePacket ⟨heartbeat.frame, hlength⟩ = heartbeat :=
  decodePacket_encodePacket heartbeat.seq heartbeat.timestamp

@[simp]
theorem frame_decodePacket (buf : Packet) : (decodePacket buf).frame = buf.val :=
  congrArg Subtype.val (encodePacket_decodePacket buf)

theorem frame_injective : Function.Injective frame := by
  intro left right hframe
  have hdecode : decodePacket ⟨left.frame, left.length_frame⟩ =
      decodePacket ⟨right.frame, right.length_frame⟩ := by
    simp only [hframe]
  simpa using hdecode

end Heartbeat

/-- The bytes of a run of heartbeats. -/
def wire (heartbeats : List Heartbeat) : List UInt8 := heartbeats.flatMap Heartbeat.frame

@[simp]
theorem wire_nil : wire [] = [] := rfl

theorem wire_append (front back : List Heartbeat) : wire (front ++ back) = wire front ++ wire back :=
  List.flatMap_append

@[simp]
theorem wire_singleton (heartbeat : Heartbeat) : wire [heartbeat] = heartbeat.frame := by
  simp [wire]

theorem length_wire (heartbeats : List Heartbeat) :
    (wire heartbeats).length = packetSize * heartbeats.length :=
  length_flatMap Heartbeat.length_frame heartbeats

/-- A stream of heartbeats that goes on with further bytes starts with the same
heartbeats. -/
theorem prefix_of_wire_prefix {front whole : List Heartbeat} {rest : List UInt8}
    (hinitial : wire front ++ rest <+: wire whole) : front <+: whole :=
  prefix_of_flatMap_prefix Heartbeat.length_frame Heartbeat.frame_injective (by decide) hinitial

/-- The wire format is a contract with peers running other versions; 1.5 is
`0x3FF8_0000_0000_0000`. -/
example : (encodePacket 0x0102030405060708 0x3FF8000000000000).val =
    [1, 2, 3, 4, 5, 6, 7, 8, 0x3f, 0xf8, 0, 0, 0, 0, 0, 0] := by decide

end TcpMonitor.HeartbeatPacket
