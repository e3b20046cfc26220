import Mathlib.Algebra.Group.Nat.Defs
import Mathlib.Data.Nat.Notation

/-!
# What the program uses of its runtime

The source is asynchronous Rust on tokio.  A task runs from one await point to
the next without interruption of its own control flow, so each task is
modelled by a step function that takes what the awaited operation completed
with.  This module fixes those completions, the two clocks, and the part of
`std::io::ErrorKind` that the source inspects.
-/

namespace TcpMonitor.Runtime

/-- `std::io::ErrorKind`; `other` stands for every kind the source does not
name. -/
inductive ErrorKind where
  | connectionReset
  | brokenPipe
  | unexpectedEof
  | invalidData
  | timedOut
  | other
  deriving DecidableEq

/-- A reading of the monotonic clock, in nanoseconds. -/
abbrev Instant := ℕ

/-- A span of monotonic time, in nanoseconds. -/
abbrev Duration := ℕ

/-- `Duration::from_secs`. -/
def fromSecs (seconds : UInt64) : Duration := seconds.toNat * 1000000000

/-- `std::time::Instant` holds a signed 64-bit number of seconds, so no clock
reading ever reaches this one. -/
def instantLimit : Instant := 2 ^ 63 * 1000000000

/-- Wall-clock readings are `f64` values.  The program subtracts them and sends
their bit patterns; nothing else about their arithmetic is used. -/
class WallClock (F64 : Type) extends Sub F64 where
  /-- `f64::to_bits`. -/
  toBits : F64 → UInt64

/-- Wall-clock readings for concrete runs. -/
structure WholeSeconds where
  seconds : ℕ
  deriving DecidableEq

instance : WallClock WholeSeconds where
  sub later earlier := ⟨later.seconds - earlier.seconds⟩
  toBits reading := UInt64.ofNat reading.seconds

/-- The clocks while a piece of straight-line code runs: `Instant::now()` and
`now_f64()`. -/
structure Reading (F64 : Type) where
  now : Instant
  wall : F64
  deriving DecidableEq

instance decidableEqExcept {Error Value : Type} [DecidableEq Error] [DecidableEq Value] :
    DecidableEq (Except Error Value)
  | .ok left, .ok right => decidable_of_iff (left = right) ⟨congrArg Except.ok, Except.ok.inj⟩
  | .error left, .error right =>
      decidable_of_iff (left = right) ⟨congrArg Except.error, Except.error.inj⟩
  | .ok _, .error _ => isFalse (by intro heq; cases heq)
  | .error _, .ok _ => isFalse (by intro heq; cases heq)

/-- What an awaited operation completed with.  `ready` lets a task continue
where it does not wait; `wrote` reports one write call inside `write_all`. -/
inductive Completion where
  | ready
  | elapsed
  | cancelled
  | connected (result : Except ErrorKind Unit)
  | read (result : Except ErrorKind (List UInt8))
  | wrote (result : Except ErrorKind ℕ)
  deriving DecidableEq

end TcpMonitor.Runtime
