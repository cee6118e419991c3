import BigtableClient.Write

/-!
# The bulk mutation operation

`execute_with_service_and_telemetry` and `run_batches`: the batches of a bulk
mutation run concurrently over one shared telemetry state, in any interleaving, and
their outcomes are collected in the order in which they complete.
-/

namespace BigtableClient

/-! ## Results -/

structure BulkMutationResult where
  entries : Nat
  rpcAttempts : Nat
  requestBatches : Nat
  deriving DecidableEq, Repr

structure BulkMutationError where
  totalEntries : Nat
  successfulEntries : Nat
  rpcAttempts : Nat
  failures : List MutationFailure
  deriving DecidableEq, Repr

/-- One turn of the loop over the outcomes of several batches. -/
def gatherOutcome (total : Nat × Nat × List MutationFailure) (outcome : BatchOutcome) :
    Nat × Nat × List MutationFailure :=
  let (successfulEntries, rpcAttempts, failures) := total
  (successfulEntries + outcome.successful, saturatingAdd rpcAttempts outcome.rpcAttempts,
    failures ++ outcome.failures)

def gatherOutcomes (outcomes : List BatchOutcome) : Nat × Nat × List MutationFailure :=
  outcomes.foldl gatherOutcome (0, 0, [])

/-- What `run_batches` returns: a single batch is run directly. -/
def runBatches (outcomes : List BatchOutcome) : Nat × Nat × List MutationFailure :=
  match outcomes with
  | [outcome] => (outcome.successful, outcome.rpcAttempts, outcome.failures)
  | outcomes => gatherOutcomes outcomes

def mutationFailuresCode (failures : List MutationFailure) : Code :=
  match failures.head? with
  | none => .unknown
  | some failure =>
      match failure.cause with
      | .entryStatus status _ => status.code
      | .rpcStatus status _ => status.code
      | .deadlineExceeded _ => .deadlineExceeded
      | .invalidResponse _ => .unknown

/-! ## State -/

inductive BulkPhase where
  | running
  | finished (result : Except BulkMutationError BulkMutationResult)
  /-- the future was dropped -/
  | cancelled
  /-- a batch panicked, and the future went with it -/
  | panicked
  deriving DecidableEq, Repr

structure BulkState where
  telemetry : OperationTracker
  totalEntries : Nat
  maxInFlight : Nat
  batches : List BatchRun
  /-- the batches that are over, in the order of completion -/
  completed : List Nat
  phase : BulkPhase
  deriving DecidableEq, Repr

inductive BulkInput where
  | batch (number : Nat) (input : BatchInput)
  /-- the future is dropped, and with it the attempts of the batches in this order -/
  | dropped (order : List Nat)
  deriving DecidableEq, Repr

namespace BulkState

def start (encodedLen : EncodedLen) (config : ClientConfig) (bulk : BulkMutation)
    (options : BulkMutationOptions) (deadline : Instant) : BulkState :=
  let tableName := tableName config bulk.tableId.val
  let batches :=
    splitBatches encodedLen bulk.entries tableName config.appProfileId options.batch
  { telemetry := .start .mutateRows bulk.tableId.val bulk.entries.length
    totalEntries := bulk.entries.length
    maxInFlight := options.batch.maxInFlightRequests
    batches := batches.zipIdx.map fun (entries, batch) =>
      .new tableName config.appProfileId options deadline entries batch
    completed := []
    phase := .running }

def inFlight (state : BulkState) : Nat :=
  state.batches.countP fun run => ¬ run.phase.isWaiting ∧ ¬ run.phase.isFinished

/-- `buffer_unordered` takes the batches in order and keeps at most `max_in_flight` of them; a
single batch is awaited without it. -/
def mayStart (state : BulkState) (number : Nat) : Bool :=
  (state.batches.take number).all (fun run => ¬ run.phase.isWaiting) ∧
    (state.batches.length = 1 ∨ state.inFlight < state.maxInFlight)

def gathered (state : BulkState) : Nat × Nat × List MutationFailure :=
  let outcomes := state.completed.filterMap fun number =>
    state.batches[number]?.map fun run => run.operation.outcome
  let (successfulEntries, rpcAttempts, failures) := runBatches outcomes
  (successfulEntries, rpcAttempts,
    failures.mergeSort fun failure other => failure.index ≤ other.index)

def conclude (state : BulkState) : BulkState :=
  let (successfulEntries, rpcAttempts, failures) := state.gathered
  if failures = [] then
    { state with
      telemetry := state.telemetry.finish .ok { successfulEntries := successfulEntries }
      phase := .finished (.ok
        { entries := successfulEntries
          rpcAttempts := rpcAttempts
          requestBatches := state.batches.length }) }
  else
    { state with
      telemetry := state.telemetry.finish (mutationFailuresCode failures)
        { successfulEntries := successfulEntries
          failedEntries := failures.length }
      phase := .finished (.error
        { totalEntries := state.totalEntries
          successfulEntries := successfulEntries
          rpcAttempts := rpcAttempts
          failures := failures }) }

def collect (state : BulkState) (number : Nat) (run : BatchRun) : BulkState :=
  if run.phase.isFinished then
    let state := { state with completed := state.completed ++ [number] }
    if state.batches.all fun run => run.phase.isFinished then state.conclude else state
  else
    state

def panics (state : BulkState) : Bool :=
  state.batches.any fun run => run.phase.isPanicked

/-- The drop guards of the attempts, then that of the operation. -/
def drop (state : BulkState) (order : List Nat) : BulkState :=
  let shared := order.foldl
    (fun shared number =>
      match state.batches[number]?.bind fun run => run.phase.telemetry with
      | none => shared
      | some telemetry => telemetry.drop shared)
    state.telemetry.state
  { state with
    telemetry := { state.telemetry with state := shared }.drop
    phase := if state.panics then .panicked else .cancelled }

def stepBatch (codec : Codec) (state : BulkState) (number : Nat) (run : BatchRun)
    (input : BatchInput) : Option BulkState :=
  match run.step codec state.telemetry.state input with
  | none => none
  | some (run, shared) =>
      some ({ state with
        telemetry := { state.telemetry with state := shared }
        batches := state.batches.set number run }.collect number run)

/-- A panic unwinds through the future: from then on it can only be dropped. -/
def step (codec : Codec) (state : BulkState) (input : BulkInput) : Option BulkState :=
  match state.phase, input with
  | .running, .batch number input =>
      if state.panics then
        none
      else
        match state.batches[number]? with
        | none => none
        | some run =>
            if run.phase.isWaiting ∧ ¬ state.mayStart number then
              none
            else
              state.stepBatch codec number run input
  | .running, .dropped order =>
      if order.Perm (List.range state.batches.length) then some (state.drop order) else none
  | _, _ => none

/-- Neither the backoff nor the timeout of a request panics in the step. -/
def Withstands (codec : Codec) (state : BulkState) : BulkInput → Prop
  | .batch number input => ∀ run ∈ state.batches[number]?, run.Withstands codec input
  | .dropped _ => True

/-! ## What the operation did -/

def attemptsOf (state : BulkState) (index : Nat) : List WriteAttempt :=
  (state.batches.flatMap BatchRun.attempts).filter fun attempt => index ∈ attempt.indexes

def rpcs (state : BulkState) : Nat :=
  (state.batches.map fun run => run.attempts.length).sum

end BulkState

/-! ## Starting -/

inductive BulkStartError where
  | invalidBulkMutationPolicy (issue : BulkMutationPolicyIssue)
  /-- the table name does not fit into the routing header -/
  | invalidClientMetadata
  deriving DecidableEq, Repr

/-- What `execute` does before its first await point. -/
inductive BulkStart where
  | done (result : BulkMutationResult)
  | started (state : BulkState)
  deriving DecidableEq, Repr

/-- `execute_with_service_and_telemetry`, up to `run_batches`. -/
def executeBulk (encodedLen : EncodedLen) (parse : MetadataParser) (config : ClientConfig)
    (bulk : BulkMutation) (options : BulkMutationOptions) (now : Instant) :
    Except BulkStartError BulkStart :=
  match validateOptions options with
  | .error issue => .error (.invalidBulkMutationPolicy issue)
  | .ok () =>
      if bulk.entries.length = 0 then
        .ok (.done { entries := 0, rpcAttempts := 0, requestBatches := 0 })
      else
        match Instant.checkedAdd now options.deadlines.operationTimeout with
        | none => .error (.invalidBulkMutationPolicy .deadlineTooLarge)
        | some deadline =>
            match routingHeader parse (tableName config bulk.tableId.val) with
            | none => .error .invalidClientMetadata
            | some _ => .ok (.started (.start encodedLen config bulk options deadline))

end BigtableClient
