import TcpMonitor.Core.FifoChannel

/-!
# Channels with a bounded delay

A first-in first-out channel together with the instants at which its bytes were
written.  The network delivers every byte within a fixed delay, and a reader
that takes what has been delivered before time passes has every byte within
that delay of its being written.
-/

namespace TcpMonitor.PunctualChannel

open TcpMonitor.FifoChannel

variable {Byte : Type}

/-- The instants at which the bytes that are in flight were written. -/
def underway (channel : Channel Byte) (writtenAt : List ℕ) : List ℕ :=
  writtenAt.drop (writtenAt.length - channel.inFlight.length)

/-- Every byte written has its instant, and none that has not been taken is
older than `delay`. -/
structure Punctual (delay now : ℕ) (writtenAt : List ℕ) (written taken : List Byte) : Prop where
  length_eq : writtenAt.length = written.length
  untaken : ∀ position instant, taken.length ≤ position →
    writtenAt[position]? = some instant → now ≤ instant + delay

namespace Punctual

variable {delay now : ℕ} {writtenAt : List ℕ} {written taken : List Byte}
variable {channel : Channel Byte}

theorem empty : Punctual delay now [] ([] : List Byte) [] where
  length_eq := rfl
  untaken := by simp

theorem write (hpunctual : Punctual delay now writtenAt written taken) (bytes : List Byte) :
    Punctual delay now (writtenAt ++ List.replicate bytes.length now) (written ++ bytes)
      taken where
  length_eq := by
    rw [List.length_append, List.length_replicate, List.length_append, hpunctual.length_eq]
  untaken := by
    intro position instant hposition hget
    rcases Nat.lt_or_ge position writtenAt.length with hold | hnew
    · rw [List.getElem?_append_left hold] at hget
      exact hpunctual.untaken position instant hposition hget
    · rw [List.getElem?_append_right hnew] at hget
      rw [List.eq_of_mem_replicate (List.mem_of_getElem? hget)]
      exact Nat.le_add_right _ _

theorem take (hpunctual : Punctual delay now writtenAt written taken) (chunk : List Byte) :
    Punctual delay now writtenAt written (taken ++ chunk) where
  length_eq := hpunctual.length_eq
  untaken := by
    intro position instant hposition hget
    rw [List.length_append] at hposition
    exact hpunctual.untaken position instant (Nat.le_of_add_right_le hposition) hget

/-- Time passes when the reader has taken all that was delivered and nothing in
flight becomes too old. -/
theorem wait (hpunctual : Punctual delay now writtenAt written taken)
    (hcarries : channel.Carries written taken) (hdelivered : channel.delivered = [])
    {later : ℕ} (hdelay : ∀ instant ∈ underway channel writtenAt, later ≤ instant + delay) :
    Punctual delay later writtenAt written taken where
  length_eq := hpunctual.length_eq
  untaken := by
    intro position instant hposition hget
    have hlength := congrArg List.length hcarries
    rw [hdelivered, List.append_nil, List.length_append, ← hpunctual.length_eq] at hlength
    refine hdelay instant (List.mem_iff_getElem?.mpr ⟨position - taken.length, ?_⟩)
    rw [underway, List.getElem?_drop, ← hget]
    congr 1
    omega

/-- Time passes at will while everything that was written has been taken. -/
theorem wait_of_all (hpunctual : Punctual delay now writtenAt written taken)
    (hall : written.length ≤ taken.length) (later : ℕ) :
    Punctual delay later writtenAt written taken where
  length_eq := hpunctual.length_eq
  untaken := by
    intro position instant hposition hget
    have hlt := (List.getElem?_eq_some_iff.mp hget).1
    have hlength := hpunctual.length_eq
    omega

/-- While a byte that was written is not taken, its age is bounded. -/
theorem le_of_untaken (hpunctual : Punctual delay now writtenAt written taken) {position : ℕ}
    (htaken : taken.length ≤ position) (hwritten : position < written.length) :
    ∃ instant, writtenAt[position]? = some instant ∧ now ≤ instant + delay := by
  have hlt : position < writtenAt.length := hpunctual.length_eq ▸ hwritten
  exact ⟨_, List.getElem?_eq_getElem hlt,
    hpunctual.untaken position _ htaken (List.getElem?_eq_getElem hlt)⟩

end Punctual

end TcpMonitor.PunctualChannel
