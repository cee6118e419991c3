import BigtableClient.Batching

/-!
# The outcome of one MutateRows attempt

`rpc_failure`, `consume_stream` and `classify_status`: what becomes of the entries
of one request.  Results arrive in any order, so the loop over the stream only
marks and counts them and keeps the failed ones aside; the entries are classified
after it, in the order of the request.
-/

namespace BigtableClient

open Proto (RpcStatus MutateRowsResult MutateRowsResponse)

/-! ## Failures -/

inductive MutateRowsResponseIssue where
  | negativeIndex (index : Int)
  | indexOutOfRange (index : Int) (entryCount : Nat)
  | duplicateIndex (index : Nat)
  | missingIndex (index : Nat)
  deriving DecidableEq, Repr

inductive MutationFailureCause where
  | entryStatus (status : Status) (retrySafe : Bool)
  | rpcStatus (status : Status) (retrySafe : Bool)
  | deadlineExceeded (timeout : Duration)
  | invalidResponse (issue : MutateRowsResponseIssue)
  deriving DecidableEq, Repr

structure MutationFailure where
  index : Nat
  attempts : Nat
  cause : MutationFailureCause
  deriving DecidableEq, Repr

structure AttemptOutcome where
  code : Code := .ok
  successful : Nat := 0
  failures : List MutationFailure := []
  retry : List PendingEntry := []
  retryDelay : Duration := 0
  deriving DecidableEq, Repr

inductive FailureOrigin where
  | entry
  | rpc
  deriving DecidableEq, Repr

/-! ## Statuses -/

def statusResult (codec : Codec) (status : Option RpcStatus) : Except Status Unit :=
  let status := status.getD {}
  if status.code = 0 then
    .ok ()
  else
    .error
      { code := .fromI32 status.code
        message := status.message
        details := codec.encodeStatus status }

def FailureOrigin.cause (origin : FailureOrigin) (status : Status) (retrySafe : Bool) :
    MutationFailureCause :=
  match origin with
  | .entry => .entryStatus status retrySafe
  | .rpc => .rpcStatus status retrySafe

def classifyStatus (codec : Codec) (maxAttempts : Nat) (entry : PendingEntry) (status : Status)
    (origin : FailureOrigin) (outcome : AttemptOutcome) : AttemptOutcome :=
  let canRetry := entry.retrySafe ∧ isMutateRetryable status ∧ entry.attempts < maxAttempts
  let code := if outcome.code = .ok then status.code else outcome.code
  if canRetry then
    { outcome with
      code := code
      retryDelay := max outcome.retryDelay ((retryDelay codec status).getD 0)
      retry := outcome.retry ++ [entry] }
  else
    { outcome with
      code := code
      failures := outcome.failures ++
        [{ index := entry.originalIndex
           attempts := entry.attempts
           cause := origin.cause status entry.retrySafe }] }

def rpcFailure (codec : Codec) (maxAttempts : Nat) (current : List PendingEntry)
    (status : Status) : AttemptOutcome :=
  current.foldl (fun outcome entry => classifyStatus codec maxAttempts entry status .rpc outcome)
    { code := status.code }

def invalidResponse (issue : MutateRowsResponseIssue) (entry : PendingEntry) :
    MutationFailure where
  index := entry.originalIndex
  attempts := entry.attempts
  cause := .invalidResponse issue

def invalidResponseOutcome (current : List PendingEntry) (issue : MutateRowsResponseIssue) :
    AttemptOutcome where
  code := .unknown
  failures := current.map (invalidResponse issue)

/-! ## The response stream -/

/-- The variables of the loop over the stream. -/
structure StreamProgress where
  seen : List Bool
  seenCount : Nat
  entryFailures : List (Nat × Status)
  deriving DecidableEq, Repr

def StreamProgress.new (entryCount : Nat) : StreamProgress where
  seen := List.replicate entryCount false
  seenCount := 0
  entryFailures := []

def StreamProgress.mark (progress : StreamProgress) (index : Nat) (result : Except Status Unit) :
    StreamProgress :=
  let progress :=
    { progress with
      seen := progress.seen.set index true
      seenCount := progress.seenCount + 1 }
  match result with
  | .ok () => progress
  | .error status =>
      { progress with entryFailures := progress.entryFailures ++ [(index, status)] }

def recordResult (codec : Codec) (entryCount : Nat) (progress : StreamProgress)
    (result : MutateRowsResult) : Except MutateRowsResponseIssue StreamProgress :=
  if result.index < 0 then
    .error (.negativeIndex result.index)
  else
    let index := result.index.toNat
    if index ≥ entryCount then
      .error (.indexOutOfRange result.index entryCount)
    else if progress.seen.getD index false then
      .error (.duplicateIndex index)
    else
      .ok (progress.mark index (statusResult codec result.status))

/-- The loop over one message. -/
def recordResponse (codec : Codec) (entryCount : Nat) (progress : StreamProgress)
    (response : MutateRowsResponse) : Except MutateRowsResponseIssue StreamProgress :=
  response.entries.foldlM (recordResult codec entryCount) progress

/-- The loop over the entries, with `peek` and `next` on the sorted failures.  It yields the
failures left over too; `none` stands for the `unreachable!` branch. -/
def classifyEntries (codec : Codec) (maxAttempts : Nat) (seen : List Bool)
    (streamFailure : Option Status) :
    Nat → List PendingEntry → List (Nat × Status) → AttemptOutcome →
      Option (AttemptOutcome × List (Nat × Status))
  | _, [], entryFailures, outcome => some (outcome, entryFailures)
  | localIndex, entry :: current, entryFailures, outcome =>
      if seen.getD localIndex false then
        if entryFailures.head?.any fun failure => failure.1 = localIndex then
          match entryFailures with
          | [] => none
          | (_, entryStatus) :: entryFailures =>
              classifyEntries codec maxAttempts seen streamFailure (localIndex + 1) current
                entryFailures (classifyStatus codec maxAttempts entry entryStatus .entry outcome)
        else
          classifyEntries codec maxAttempts seen streamFailure (localIndex + 1) current
            entryFailures { outcome with successful := outcome.successful + 1 }
      else
        match streamFailure with
        | some status =>
            classifyEntries codec maxAttempts seen streamFailure (localIndex + 1) current
              entryFailures (classifyStatus codec maxAttempts entry status .rpc outcome)
        | none =>
            classifyEntries codec maxAttempts seen streamFailure (localIndex + 1) current
              entryFailures
              { outcome with
                code := .unknown
                failures := outcome.failures ++
                  [invalidResponse (.missingIndex localIndex) entry] }

/-- What `consume_stream` does after its loop, when no protocol issue was found.  `none` stands for
a panic: the `unreachable!` branch or the assertion that no failure is left over. -/
def streamOutcome (codec : Codec) (maxAttempts : Nat) (current : List PendingEntry)
    (progress : StreamProgress) (streamFailure : Option Status) : Option AttemptOutcome :=
  if progress.seenCount = current.length ∧ progress.entryFailures = [] then
    some { successful := current.length }
  else
    let entryFailures := progress.entryFailures.mergeSort fun failure other => failure.1 ≤ other.1
    match
      classifyEntries codec maxAttempts progress.seen streamFailure 0 current entryFailures {}
    with
    | some (outcome, []) => some outcome
    | _ => none

def attemptDeadlineStatus : Status := .deadlineExceeded "MutateRows attempt deadline exceeded"

inductive StreamEnd where
  | ended
  | broke (status : Status)
  | timedOut
  deriving DecidableEq, Repr

def StreamEnd.failure : StreamEnd → Option Status
  | .ended => none
  | .broke status => some status
  | .timedOut => some attemptDeadlineStatus

/-- `consume_stream` on a whole stream. -/
def consumeStream (codec : Codec) (maxAttempts : Nat) (current : List PendingEntry)
    (messages : List MutateRowsResponse) (streamEnd : StreamEnd) : Option AttemptOutcome :=
  match messages.foldlM (recordResponse codec current.length) (.new current.length) with
  | .error issue => some (invalidResponseOutcome current issue)
  | .ok progress => streamOutcome codec maxAttempts current progress streamEnd.failure

end BigtableClient
