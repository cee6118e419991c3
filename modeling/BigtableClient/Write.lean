import BigtableClient.Classify
import BigtableClient.Telemetry

/-!
# The loop of one batch

`BatchOperation::run` as a machine that moves from await point to await point.  An
input is what the awaited thing did, with the clock readings that the code makes up
to the next await point.  Next to the variables of the code a run keeps a record of
the attempts it made: what was sent, what was received, how it ended.
-/

namespace BigtableClient

open Proto (MutateRowsRequest MutateRowsResponse)

def u32Max : Nat := 2 ^ 32 - 1

/-- `u32::saturating_add` -/
def saturatingAdd (value increment : Nat) : Nat := min (value + increment) u32Max

/-! ## State -/

structure BatchOperation where
  tableName : String
  appProfileId : String
  options : BulkMutationOptions
  deadline : Instant
  pending : List PendingEntry
  successful : Nat
  failures : List MutationFailure
  rpcAttempts : Nat
  batch : Nat
  deriving DecidableEq, Repr

structure BatchOutcome where
  successful : Nat
  failures : List MutationFailure
  rpcAttempts : Nat
  deriving DecidableEq, Repr

inductive AttemptEnd where
  | refused (status : Status)
  | closed (streamEnd : StreamEnd)
  | malformed (issue : MutateRowsResponseIssue)
  deriving DecidableEq, Repr

/-- The record of an attempt.  Its entries are named by their positions in the bulk mutation. -/
structure WriteAttempt where
  indexes : List Nat
  request : MutateRowsRequest
  timeout : Option Duration
  messages : List MutateRowsResponse
  /-- `none` while the attempt is under way -/
  ending : Option AttemptEnd
  deriving DecidableEq, Repr

inductive BatchPanic where
  /-- the `unreachable!` branch behind a stream, or the assertion next to it -/
  | unreachable
  /-- the backoff is no duration -/
  | backoff
  /-- the timeout does not fit into the header of the request -/
  | timeout
  deriving DecidableEq, Repr

/-- Where a batch waits. -/
inductive BatchPhase where
  /-- not polled yet -/
  | waiting
  /-- for `mutate_rows` to answer -/
  | calling (current : List PendingEntry) (deadline : Instant) (telemetry : AttemptTracker)
      (attempt : WriteAttempt)
  /-- for the next message -/
  | streaming (current : List PendingEntry) (deadline : Instant) (telemetry : AttemptTracker)
      (attempt : WriteAttempt) (progress : StreamProgress)
  /-- in the backoff sleep -/
  | sleeping (delay : Duration)
  | finished
  | panicked (reason : BatchPanic)
  deriving DecidableEq, Repr

namespace BatchPhase

def isWaiting : BatchPhase → Bool
  | .waiting => true
  | _ => false

def isFinished : BatchPhase → Bool
  | .finished => true
  | _ => false

def isPanicked : BatchPhase → Bool
  | .panicked _ => true
  | _ => false

def telemetry : BatchPhase → Option AttemptTracker
  | .calling _ _ telemetry _ => some telemetry
  | .streaming _ _ telemetry _ _ => some telemetry
  | _ => none

end BatchPhase

/-- The future of one batch, and the record of its attempts that are over. -/
structure BatchRun where
  operation : BatchOperation
  phase : BatchPhase
  past : List WriteAttempt
  deriving DecidableEq, Repr

/-- The clock readings from the head of the loop to the call. -/
structure AttemptTurn where
  top : Instant
  arm : Instant
  start : Instant
  send : Instant
  deriving DecidableEq, Repr

/-- The random number that is drawn after an attempt, and the clock reading next to it. -/
structure RetryTurn where
  draw : Nat
  now : Instant
  deriving DecidableEq, Repr

inductive BatchInput where
  /-- the future is polled for the first time -/
  | polled (turn : AttemptTurn)
  /-- the service answers with a stream -/
  | opened
  /-- the service answers with a status -/
  | refused (status : Status) (turn : RetryTurn)
  | callTimedOut (turn : RetryTurn)
  | message (response : MutateRowsResponse) (turn : RetryTurn)
  | streamClosed (streamEnd : StreamEnd) (turn : RetryTurn)
  /-- the backoff sleep is over -/
  | woke (turn : AttemptTurn)
  /-- the operation deadline passes in the backoff sleep -/
  | sleepTimedOut
  deriving DecidableEq, Repr

/-! ## The operation -/

namespace BatchOperation

def maxAttempts (operation : BatchOperation) : Nat :=
  operation.options.retry.maxAttempts.toNat

def deadlineFailure (operation : BatchOperation) (entry : PendingEntry) : MutationFailure where
  index := entry.originalIndex
  attempts := entry.attempts
  cause := .deadlineExceeded operation.options.deadlines.operationTimeout

def failPendingDeadline (operation : BatchOperation) : BatchOperation :=
  { operation with
    failures := operation.failures ++ operation.pending.map operation.deadlineFailure
    pending := [] }

def attemptDeadline (operation : BatchOperation) (now : Instant) : Instant :=
  match Instant.checkedAdd now operation.options.deadlines.attemptTimeout with
  | none => operation.deadline
  | some deadline => min deadline operation.deadline

/-- The part of the loop after an attempt that books its outcome. -/
def book (operation : BatchOperation) (attempt : AttemptOutcome) : BatchOperation :=
  { operation with
    successful := operation.successful + attempt.successful
    failures := operation.failures ++ attempt.failures
    pending := attempt.retry }

def outcome (operation : BatchOperation) : BatchOutcome where
  successful := operation.successful
  failures := operation.failures
  rpcAttempts := operation.rpcAttempts

end BatchOperation

def PendingEntry.countAttempt (entry : PendingEntry) : PendingEntry :=
  { entry with attempts := saturatingAdd entry.attempts 1 }

/-! ## Steps -/

namespace BatchRun

def new (tableName appProfileId : String) (options : BulkMutationOptions) (deadline : Instant)
    (pending : List PendingEntry) (batch : Nat) : BatchRun where
  operation :=
    { tableName := tableName
      appProfileId := appProfileId
      options := options
      deadline := deadline
      pending := pending
      successful := 0
      failures := []
      rpcAttempts := 0
      batch := batch }
  phase := .waiting
  past := []

/-- The loop ends at the deadline of the operation. -/
def expire (run : BatchRun) : BatchRun :=
  { run with operation := run.operation.failPendingDeadline, phase := .finished }

def call (codec : Codec) (run : BatchRun) (shared : OperationState) (turn : AttemptTurn) :
    BatchRun × OperationState :=
  let operation := run.operation
  let rpcAttempts := saturatingAdd operation.rpcAttempts 1
  let current := operation.pending.map PendingEntry.countAttempt
  let attemptDeadline := operation.attemptDeadline turn.arm
  let attemptTimeout := (Instant.checkedDurationSince attemptDeadline turn.start).getD 0
  let timeout := Instant.checkedDurationSince attemptDeadline turn.send
  if timeout.any fun timeout => ¬ codec.takesTimeout timeout then
    ({ run with phase := .panicked .timeout }, shared)
  else
    let attempt : WriteAttempt :=
      { indexes := current.map PendingEntry.originalIndex
        request := mutateRowsRequest operation.tableName operation.appProfileId current
        timeout := timeout
        messages := []
        ending := none }
    let (telemetry, shared) :=
      shared.attempt (some operation.batch) rpcAttempts current.length attemptTimeout
    ({ run with
        operation := { operation with rpcAttempts := rpcAttempts, pending := [] }
        phase := .calling current attemptDeadline telemetry attempt }, shared)

/-- The loop from its head to the call. -/
def loop (codec : Codec) (run : BatchRun) (shared : OperationState) (turn : AttemptTurn) :
    BatchRun × OperationState :=
  if run.operation.pending = [] then
    ({ run with phase := .finished }, shared)
  else if turn.top ≥ run.operation.deadline then
    (run.expire, shared)
  else
    run.call codec shared turn

/-- An attempt is over and its outcome is booked. -/
def book (run : BatchRun) (attempt : WriteAttempt) (ending : AttemptEnd)
    (outcome : AttemptOutcome) : BatchRun where
  operation := run.operation.book outcome
  phase := .finished
  past := run.past ++ [{ attempt with ending := some ending }]

/-- The loop from a booked attempt to the backoff sleep. -/
def reschedule (codec : Codec) (run : BatchRun) (shared : OperationState)
    (outcome : AttemptOutcome) (turn : RetryTurn) : BatchRun × OperationState :=
  let operation := run.operation
  if operation.pending = [] then
    (run, shared)
  else
    let failedAttempt := ((operation.pending.map PendingEntry.attempts).max?).getD 1
    match backoff codec operation.options.retry failedAttempt turn.draw with
    | none => ({ run with phase := .panicked .backoff }, shared)
    | some drawn =>
        let delay := max drawn outcome.retryDelay
        match Instant.checkedDurationSince operation.deadline turn.now with
        | none => (run.expire, shared)
        | some remaining =>
            if delay ≥ remaining then
              (run.expire, shared)
            else
              ({ run with phase := .sleeping delay },
                shared.retry (some operation.batch) failedAttempt outcome.code delay
                  operation.pending.length)

/-- The loop from the end of an attempt to the backoff sleep. -/
def settle (codec : Codec) (run : BatchRun) (shared : OperationState)
    (telemetry : AttemptTracker) (attempt : WriteAttempt) (ending : AttemptEnd)
    (outcome : AttemptOutcome) (turn : RetryTurn) : BatchRun × OperationState :=
  let shared := (telemetry.finish shared outcome.code
    { successfulEntries := outcome.successful
      failedEntries := outcome.failures.length + outcome.retry.length }).2
  (run.book attempt ending outcome).reschedule codec shared outcome turn

def receive (codec : Codec) (run : BatchRun) (shared : OperationState)
    (current : List PendingEntry) (deadline : Instant) (telemetry : AttemptTracker)
    (attempt : WriteAttempt) (progress : StreamProgress) (response : MutateRowsResponse)
    (turn : RetryTurn) : BatchRun × OperationState :=
  let (telemetry, shared) := telemetry.recordFirstResponse shared
  let attempt := { attempt with messages := attempt.messages ++ [response] }
  match recordResponse codec current.length progress response with
  | .error issue =>
      run.settle codec shared telemetry attempt (.malformed issue)
        (invalidResponseOutcome current issue) turn
  | .ok progress =>
      ({ run with phase := .streaming current deadline telemetry attempt progress }, shared)

def close (codec : Codec) (run : BatchRun) (shared : OperationState)
    (current : List PendingEntry) (telemetry : AttemptTracker) (attempt : WriteAttempt)
    (progress : StreamProgress) (streamEnd : StreamEnd) (turn : RetryTurn) :
    BatchRun × OperationState :=
  match streamOutcome codec run.operation.maxAttempts current progress streamEnd.failure with
  | some outcome => run.settle codec shared telemetry attempt (.closed streamEnd) outcome turn
  | none => ({ run with phase := .panicked .unreachable }, shared)

/-- The call ends without a stream. -/
def refuse (codec : Codec) (run : BatchRun) (shared : OperationState)
    (current : List PendingEntry) (telemetry : AttemptTracker) (attempt : WriteAttempt)
    (status : Status) (turn : RetryTurn) : BatchRun × OperationState :=
  run.settle codec shared telemetry attempt (.refused status)
    (rpcFailure codec run.operation.maxAttempts current status) turn

def step (codec : Codec) (run : BatchRun) (shared : OperationState) (input : BatchInput) :
    Option (BatchRun × OperationState) :=
  match run.phase, input with
  | .waiting, .polled turn => some (run.loop codec shared turn)
  | .calling current deadline telemetry attempt, .opened =>
      some ({ run with
        phase := .streaming current deadline telemetry attempt (.new current.length) }, shared)
  | .calling current _ telemetry attempt, .refused status turn =>
      some (run.refuse codec shared current telemetry attempt status turn)
  | .calling current _ telemetry attempt, .callTimedOut turn =>
      some (run.refuse codec shared current telemetry attempt attemptDeadlineStatus turn)
  | .streaming current deadline telemetry attempt progress, .message response turn =>
      some (run.receive codec shared current deadline telemetry attempt progress response turn)
  | .streaming current _ telemetry attempt progress, .streamClosed streamEnd turn =>
      some (run.close codec shared current telemetry attempt progress streamEnd turn)
  | .sleeping _, .woke turn => some (run.loop codec shared turn)
  | .sleeping _, .sleepTimedOut => some (run.expire, shared)
  | _, _ => none

/-! ## Panics -/

def FitsTimeout (codec : Codec) (run : BatchRun) (turn : AttemptTurn) : Prop :=
  run.operation.pending ≠ [] → turn.top < run.operation.deadline →
    ∀ timeout ∈ Instant.checkedDurationSince (run.operation.attemptDeadline turn.arm) turn.send,
      codec.takesTimeout timeout

def BacksOff (codec : Codec) (run : BatchRun) (entries : List PendingEntry) (turn : RetryTurn) :
    Prop :=
  entries ≠ [] →
    (backoff codec run.operation.options.retry
      (((entries.map PendingEntry.attempts).max?).getD 1) turn.draw).isSome

/-- Neither the backoff nor the timeout of a request panics in the step. -/
def Withstands (codec : Codec) (run : BatchRun) (input : BatchInput) : Prop :=
  match run.phase, input with
  | .waiting, .polled turn => run.FitsTimeout codec turn
  | .sleeping _, .woke turn => run.FitsTimeout codec turn
  | .calling current _ _ _, .refused status turn =>
      run.BacksOff codec (rpcFailure codec run.operation.maxAttempts current status).retry turn
  | .calling current _ _ _, .callTimedOut turn =>
      run.BacksOff codec
        (rpcFailure codec run.operation.maxAttempts current attemptDeadlineStatus).retry turn
  | .streaming current _ _ _ progress, .streamClosed streamEnd turn =>
      ∀ outcome ∈ streamOutcome codec run.operation.maxAttempts current progress
        streamEnd.failure, run.BacksOff codec outcome.retry turn
  | _, _ => True

/-! ## What a batch did -/

def underWay (run : BatchRun) : Option WriteAttempt :=
  match run.phase with
  | .calling _ _ _ attempt => some attempt
  | .streaming _ _ _ attempt _ => some attempt
  | _ => none

def attempts (run : BatchRun) : List WriteAttempt := run.past ++ run.underWay.toList

def live (run : BatchRun) : List PendingEntry :=
  match run.phase with
  | .calling current _ _ _ => current
  | .streaming current _ _ _ _ => current
  | _ => run.operation.pending

end BatchRun

end BigtableClient
