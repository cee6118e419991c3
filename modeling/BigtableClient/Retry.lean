import BigtableClient.ProofSupport.Binary64
import BigtableClient.Status

/-!
# Retry policies and deadlines

Times are counted in nanoseconds.  The backoff is calculated in floating-point
numbers, and the random number behind it is drawn by whoever runs an operation.
-/

namespace BigtableClient

open ProofSupport.Binary64

/-! ## Time -/

/-- Nanoseconds (`std::time::Duration`). -/
abbrev Duration := Nat

/-- Seconds are kept in 64 bits. -/
def maxDuration : Duration := 2 ^ 64 * 1000000000 - 1

namespace Duration

def asSecsF64 (duration : Duration) : F64 :=
  (F64.ofNat (duration / 1000000000)).add
    ((F64.ofNat (duration % 1000000000)).divNat 1000000000)

/-- `Duration::from_secs_f64`, which panics on a number that is no duration. -/
def fromSecsF64 : F64 → Option Duration
  | .finite units =>
      let nanos := roundHalfEven (units * 1000000000) F64.unit
      if nanos ≤ maxDuration then some nanos else none
  | _ => none

end Duration

/-- A point on the monotonic clock, in nanoseconds (`tokio::time::Instant`). -/
abbrev Instant := Nat

/-- The last instant the clock can represent: seconds are kept in 63 bits. -/
def maxInstant : Instant := 2 ^ 63 * 1000000000 - 1

namespace Instant

def checkedAdd (instant : Instant) (duration : Duration) : Option Instant :=
  if instant + duration ≤ maxInstant then some (instant + duration) else none

def checkedDurationSince (instant earlier : Instant) : Option Duration :=
  if earlier ≤ instant then some (instant - earlier) else none

end Instant

/-! ## Policies -/

inductive Jitter where
  | full
  | none
  deriving DecidableEq, Repr

structure RetryPolicy where
  maxAttempts : UInt32
  initialBackoff : Duration
  maxBackoff : Duration
  multiplier : F64
  jitter : Jitter
  deriving DecidableEq, Repr

structure DeadlinePolicy where
  operationTimeout : Duration
  attemptTimeout : Duration
  deriving DecidableEq, Repr

structure ReadOptions where
  retry : RetryPolicy
  deadlines : DeadlinePolicy
  deriving DecidableEq, Repr

def RetryPolicy.default : RetryPolicy where
  maxAttempts := 10
  initialBackoff := 10 * 1000000
  maxBackoff := 60 * 1000000000
  multiplier := .ofNat 2
  jitter := .full

def ReadOptions.default : ReadOptions where
  retry := .default
  deadlines :=
    { operationTimeout := 600 * 1000000000
      attemptTimeout := 20 * 1000000000 }

inductive PolicyIssue where
  | zeroMaxAttempts
  | zeroInitialBackoff
  | zeroMaxBackoff
  | maxBackoffTooSmall
  | invalidBackoffMultiplier
  | zeroOperationTimeout
  | zeroAttemptTimeout
  deriving DecidableEq, Repr

/-- `!multiplier.is_finite() || multiplier < 1.0` -/
def invalidMultiplier : F64 → Bool
  | .finite units => units < F64.unit
  | _ => true

def validatePolicies (retry : RetryPolicy) (deadlines : DeadlinePolicy) :
    Except PolicyIssue Unit :=
  if retry.maxAttempts = 0 then
    .error .zeroMaxAttempts
  else if retry.initialBackoff = 0 then
    .error .zeroInitialBackoff
  else if retry.maxBackoff = 0 then
    .error .zeroMaxBackoff
  else if retry.maxBackoff < retry.initialBackoff then
    .error .maxBackoffTooSmall
  else if invalidMultiplier retry.multiplier then
    .error .invalidBackoffMultiplier
  else if deadlines.operationTimeout = 0 then
    .error .zeroOperationTimeout
  else if deadlines.attemptTimeout = 0 then
    .error .zeroAttemptTimeout
  else
    .ok ()

example :
    validatePolicies ReadOptions.default.retry ReadOptions.default.deadlines = .ok () := by
  decide +kernel

/-- What the client leaves to other packages: the protobuf encodings, the power of a number, whose
precision is not fixed, and whether a timeout fits into the header of a request. -/
structure Codec where
  encodeStatus : Proto.RpcStatus → Bytes
  decodeStatus : Bytes → Option Proto.RpcStatus
  decodeRetryInfo : Bytes → Option Proto.RetryInfo
  /-- `f64::powi` -/
  powi : F64 → Nat → F64
  /-- `Request::set_timeout` panics on a timeout that it does not take. -/
  takesTimeout : Duration → Bool

/-! ## Backoff -/

def i32Max : Nat := 2 ^ 31 - 1

def u64Max : Nat := 2 ^ 64 - 1

/-- The delay before the next attempt, with `draw` as the random number.  There is none when
`Duration::from_secs_f64` panics. -/
@[irreducible] def backoff (codec : Codec) (policy : RetryPolicy) (failedAttempt draw : Nat) :
    Option Duration := do
  let exponent := min (failedAttempt - 1) i32Max
  let factor := codec.powi policy.multiplier exponent
  let cappedSeconds :=
    (policy.initialBackoff.asSecsF64.mul factor).min policy.maxBackoff.asSecsF64
  let capped ← Duration.fromSecsF64 cappedSeconds
  match policy.jitter with
  | .none => return capped
  | .full => return min draw (min capped u64Max)

/-! ## Statuses -/

def isRetryable (status : Status) : Bool :=
  match status.code with
  | .cancelled | .deadlineExceeded | .unavailable | .aborted => true
  | _ => false

def isMutateRetryable (status : Status) : Bool :=
  match status.code with
  | .deadlineExceeded | .unavailable => true
  | _ => false

def retryInfoType : String := "type.googleapis.com/google.rpc.RetryInfo"

/-- The delay the server asks for, when its status carries a valid one. -/
def retryDelay (codec : Codec) (status : Status) : Option Duration := do
  let richStatus ← codec.decodeStatus status.details
  let detail ← richStatus.details.find? fun detail => detail.typeUrl = retryInfoType
  let retryInfo ← codec.decodeRetryInfo detail.value
  let delay ← retryInfo.retryDelay
  if delay.seconds < 0 ∨ ¬ (0 ≤ delay.nanos ∧ delay.nanos < 1000000000) then
    none
  else
    some (delay.seconds.toNat * 1000000000 + delay.nanos.toNat)

end BigtableClient
