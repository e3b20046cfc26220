import Mathlib.Data.List.Induction
import Mathlib.Tactic.Ring

/-!
# Big-endian integers

The network byte order of an unsigned integer: the most significant byte
comes first.  Writing and reading are inverse in both directions, on numbers
that fit the width and on byte strings of the width.
-/

namespace TcpMonitor.BigEndian

/-- The `width` low bytes of `value`, most significant byte first. -/
def encode : ℕ → ℕ → List UInt8
  | 0, _ => []
  | width + 1, value => encode width (value / 256) ++ [UInt8.ofNat value]

/-- The number that a byte string denotes. -/
def decode (bytes : List UInt8) : ℕ :=
  bytes.foldl (fun high byte => 256 * high + byte.toNat) 0

@[simp]
theorem length_encode (width value : ℕ) : (encode width value).length = width := by
  induction width generalizing value with
  | zero => rfl
  | succ width ih => simp [encode, ih]

theorem decode_concat (bytes : List UInt8) (byte : UInt8) :
    decode (bytes ++ [byte]) = 256 * decode bytes + byte.toNat := by
  simp [decode, List.foldl_append]

theorem decode_lt (bytes : List UInt8) : decode bytes < 256 ^ bytes.length := by
  induction bytes using List.reverseRecOn with
  | nil => simp [decode]
  | append_singleton bytes byte ih =>
      have hbyte : byte.toNat < 256 := byte.toNat_lt
      rw [decode_concat, List.length_append, List.length_singleton, pow_succ]
      omega

/-- Reading what was written returns the low bytes of the number. -/
theorem decode_encode (width value : ℕ) :
    decode (encode width value) = value % 256 ^ width := by
  induction width generalizing value with
  | zero => simp [encode, decode, Nat.mod_one]
  | succ width ih =>
      have hbyte : (UInt8.ofNat value).toNat = value % 256 := by simp
      rw [encode, decode_concat, ih, hbyte, pow_succ', Nat.mod_mul]
      omega

/-- Numbers that fit the width are told apart by their bytes. -/
theorem eq_of_encode_eq {width left right : ℕ} (hleft : left < 256 ^ width)
    (hright : right < 256 ^ width) (hencode : encode width left = encode width right) :
    left = right := by
  have hdecode := congrArg decode hencode
  rwa [decode_encode, decode_encode, Nat.mod_eq_of_lt hleft, Nat.mod_eq_of_lt hright] at hdecode

/-- Writing what was read returns the byte string. -/
theorem encode_decode (bytes : List UInt8) :
    encode bytes.length (decode bytes) = bytes := by
  induction bytes using List.reverseRecOn with
  | nil => rfl
  | append_singleton bytes byte ih =>
      have hbyte : byte.toNat < 256 := byte.toNat_lt
      have hhigh : (256 * decode bytes + byte.toNat) / 256 = decode bytes := by omega
      have hlow : UInt8.ofNat (256 * decode bytes + byte.toNat) = byte := by
        apply UInt8.toNat_inj.mp
        rw [UInt8.toNat_ofNat']
        omega
      rw [List.length_append, List.length_singleton, decode_concat, encode, hhigh, hlow, ih]

end TcpMonitor.BigEndian
