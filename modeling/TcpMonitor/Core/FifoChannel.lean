import Mathlib.Data.List.Basic
import Mathlib.Data.Option.Basic

/-!
# First-in first-out byte channels

One direction of a connection.  Bytes that are written are in flight until they
are delivered in chunks of any size, and the reader takes them from what has
been delivered.  Nothing is lost, duplicated or reordered: what was written is
what was taken, followed by what the channel holds.
-/

namespace TcpMonitor.FifoChannel

variable {Byte : Type}

structure Channel (Byte : Type) where
  delivered : List Byte
  inFlight : List Byte
  deriving DecidableEq

namespace Channel

def empty : Channel Byte := ⟨[], []⟩

def write (channel : Channel Byte) (bytes : List Byte) : Channel Byte :=
  { channel with inFlight := channel.inFlight ++ bytes }

/-- Deliver a chunk of at least one byte. -/
def deliver (channel : Channel Byte) (count : ℕ) : Option (Channel Byte) :=
  if 0 < count ∧ count ≤ channel.inFlight.length then
    some ⟨channel.delivered ++ channel.inFlight.take count, channel.inFlight.drop count⟩
  else none

/-- Take exactly these bytes, if they are the next ones. -/
def take [DecidableEq Byte] (channel : Channel Byte) (chunk : List Byte) :
    Option (Channel Byte) :=
  if channel.delivered.take chunk.length = chunk then
    some { channel with delivered := channel.delivered.drop chunk.length }
  else none

/-- All bytes written and all bytes taken so far, and what is in between. -/
def Carries (channel : Channel Byte) (written taken : List Byte) : Prop :=
  written = taken ++ channel.delivered ++ channel.inFlight

variable {channel next : Channel Byte} {written taken : List Byte}

theorem carries_empty : (empty : Channel Byte).Carries [] [] := rfl

/-- The reader never runs ahead of the writer, and reads what was written. -/
theorem Carries.taken_initial (hcarries : channel.Carries written taken) :
    taken <+: written := by
  rw [hcarries, List.append_assoc]
  exact List.prefix_append _ _

theorem Carries.write (hcarries : channel.Carries written taken) (bytes : List Byte) :
    (channel.write bytes).Carries (written ++ bytes) taken := by
  rw [Carries, hcarries]
  simp only [Channel.write, List.append_assoc]

theorem Carries.deliver (hcarries : channel.Carries written taken) {count : ℕ}
    (hdeliver : channel.deliver count = some next) : next.Carries written taken := by
  simp only [Channel.deliver] at hdeliver
  split at hdeliver
  · cases hdeliver
    rw [Carries, hcarries]
    simp only [List.append_assoc, List.take_append_drop]
  · cases hdeliver

theorem Carries.take [DecidableEq Byte] (hcarries : channel.Carries written taken)
    {chunk : List Byte} (htake : channel.take chunk = some next) :
    next.Carries written (taken ++ chunk) := by
  simp only [Channel.take] at htake
  split at htake
  · next hchunk =>
      cases htake
      have hsplit := List.take_append_drop chunk.length channel.delivered
      rw [hchunk] at hsplit
      rw [Carries, hcarries]
      dsimp only
      rw [List.append_assoc taken chunk, hsplit]
  · cases htake

end Channel

end TcpMonitor.FifoChannel
