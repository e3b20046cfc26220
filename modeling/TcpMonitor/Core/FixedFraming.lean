import Mathlib.Data.List.Basic
import Mathlib.Tactic.Ring

/-!
# Streams of fixed-size frames

A stream that is the concatenation of frames of one size can be cut into its
frames without any delimiter.  These lemmas give its length and the fact every
reader relies on: two such streams, one a prefix of the other, have frames that
are a prefix of each other, so alignment is never lost.
-/

namespace TcpMonitor.FixedFraming

variable {Frame Byte : Type*}

/-- A byte string of a fixed length. -/
abbrev Block (Byte : Type*) (size : ℕ) := {bytes : List Byte // bytes.length = size}

section Frames

variable {size : ℕ} {frame : Frame → List Byte}
variable (hsize : ∀ value, (frame value).length = size)

include hsize

theorem length_flatMap (frames : List Frame) :
    (frames.flatMap frame).length = size * frames.length := by
  induction frames with
  | nil => rfl
  | cons head tail ih =>
      rw [List.flatMap_cons, List.length_append, hsize, ih, List.length_cons]
      ring

/-- A stream that continues another one, in the middle of a frame or not,
starts with all its frames. -/
theorem prefix_of_flatMap_prefix (hinjective : Function.Injective frame)
    (hpositive : 0 < size) {front whole : List Frame} {rest : List Byte}
    (hinitial : front.flatMap frame ++ rest <+: whole.flatMap frame) : front <+: whole := by
  induction front generalizing whole with
  | nil => exact List.nil_prefix
  | cons head tail ih =>
      cases whole with
      | nil =>
          have hlength := hinitial.length_le
          simp only [List.flatMap_cons, List.append_assoc, List.length_append, hsize,
            List.flatMap_nil, List.length_nil] at hlength
          omega
      | cons first others =>
          obtain ⟨suffix, hsuffix⟩ := hinitial
          simp only [List.flatMap_cons, List.append_assoc] at hsuffix
          have hpair := List.append_inj hsuffix (by rw [hsize, hsize])
          have hhead : head = first := hinjective hpair.1
          have htail : tail.flatMap frame ++ rest <+: others.flatMap frame :=
            ⟨suffix, by simpa only [List.append_assoc] using hpair.2⟩
          rw [hhead]
          exact List.cons_prefix_cons.mpr ⟨rfl, ih htail⟩

end Frames

/-! ## A frame behind its length -/

/-- A header of a fixed size that determines the length of what follows makes
the frame self-delimiting. -/
theorem frame_of_header_prefix {size bound : ℕ} {header : ℕ → List Byte}
    (hsize : ∀ length, (header length).length = size)
    (hinjective : ∀ left right, left ≤ bound → right ≤ bound →
      header left = header right → left = right)
    {left right rest tail : List Byte} (hleft : left.length ≤ bound)
    (hright : right.length ≤ bound)
    (hinitial : header left.length ++ left ++ rest <+: header right.length ++ right ++ tail) :
    left = right ∧ rest <+: tail := by
  obtain ⟨suffix, hsuffix⟩ := hinitial
  simp only [List.append_assoc] at hsuffix
  obtain ⟨hheader, hbody⟩ := List.append_inj hsuffix (by rw [hsize, hsize])
  have hlength := hinjective _ _ hleft hright hheader
  obtain ⟨hframe, htail⟩ := List.append_inj hbody hlength
  exact ⟨hframe, suffix, htail⟩

end TcpMonitor.FixedFraming
