import BigtableClient.Retry

/-!
# Diagnostics

The events an operation reports to its observer, and the trackers that report
them.  A tracker reports its end once: when it is finished, or else when it is
dropped.  Elapsed times, spans and metrics are left out.
-/

namespace BigtableClient

inductive BigtableOperation where
  | readRows
  | mutateRows
  deriving DecidableEq, Repr

inductive DiagnosticEvent where
  | operationStarted (operation : BigtableOperation) (tableId : String) (entries : Nat)
  | attemptStarted (operation : BigtableOperation) (batch : Option Nat) (attempt : Nat)
      (entries : Nat) (timeout : Duration)
  | firstResponse (operation : BigtableOperation) (batch : Option Nat) (attempt : Nat)
  | retryScheduled (operation : BigtableOperation) (batch : Option Nat) (attempt : Nat)
      (code : Code) (delay : Duration) (pendingEntries : Nat)
  | attemptFinished (operation : BigtableOperation) (batch : Option Nat) (attempt : Nat)
      (code : Code) (rows : Nat) (successfulEntries failedEntries : Nat)
  | operationFinished (operation : BigtableOperation) (code : Code) (attempts retries : UInt32)
      (rows : Nat) (successfulEntries failedEntries : Nat)
  deriving DecidableEq, Repr

structure OperationSummary where
  rows : Nat := 0
  successfulEntries : Nat := 0
  failedEntries : Nat := 0
  deriving DecidableEq, Repr

structure AttemptSummary where
  rows : Nat := 0
  successfulEntries : Nat := 0
  failedEntries : Nat := 0
  deriving DecidableEq, Repr

/-- What the trackers of one operation share.  Both counters are `AtomicU32`, and so wrap. -/
structure OperationState where
  operation : BigtableOperation
  attempts : UInt32
  retries : UInt32
  events : List DiagnosticEvent
  deriving DecidableEq, Repr

structure OperationTracker where
  state : OperationState
  finished : Bool
  deriving DecidableEq, Repr

structure AttemptTracker where
  batch : Option Nat
  attempt : Nat
  firstResponse : Bool
  finished : Bool
  deriving DecidableEq, Repr

/-! ## Operations -/

namespace OperationState

def emit (state : OperationState) (event : DiagnosticEvent) : OperationState :=
  { state with events := state.events ++ [event] }

/-- An attempt starts (`OperationHandle::attempt`). -/
def attempt (state : OperationState) (batch : Option Nat) (attempt entries : Nat)
    (timeout : Duration) : AttemptTracker × OperationState :=
  ({ batch := batch, attempt := attempt, firstResponse := false, finished := false },
    { state with attempts := state.attempts + 1 }.emit
      (.attemptStarted state.operation batch attempt entries timeout))

/-- A retry is scheduled (`OperationHandle::retry`). -/
def retry (state : OperationState) (batch : Option Nat) (attempt : Nat) (code : Code)
    (delay : Duration) (pendingEntries : Nat) : OperationState :=
  { state with retries := state.retries + 1 }.emit
    (.retryScheduled state.operation batch attempt code delay pendingEntries)

end OperationState

namespace OperationTracker

/-- An operation starts (`Telemetry::operation`). -/
def start (operation : BigtableOperation) (tableId : String) (entries : Nat) :
    OperationTracker where
  state :=
    { operation := operation
      attempts := 0
      retries := 0
      events := [.operationStarted operation tableId entries] }
  finished := false

def recordFinish (tracker : OperationTracker) (code : Code) (summary : OperationSummary) :
    OperationTracker :=
  { tracker with
    state := tracker.state.emit
      (.operationFinished tracker.state.operation code tracker.state.attempts
        tracker.state.retries summary.rows summary.successfulEntries summary.failedEntries) }

def finish (tracker : OperationTracker) (code : Code) (summary : OperationSummary) :
    OperationTracker :=
  if tracker.finished then
    tracker
  else
    { tracker.recordFinish code summary with finished := true }

/-- The drop guard. -/
def drop (tracker : OperationTracker) : OperationTracker :=
  if tracker.finished then tracker else tracker.recordFinish .cancelled {}

end OperationTracker

/-! ## Attempts -/

namespace AttemptTracker

def recordFirstResponse (tracker : AttemptTracker) (state : OperationState) :
    AttemptTracker × OperationState :=
  if tracker.firstResponse then
    (tracker, state)
  else
    ({ tracker with firstResponse := true },
      state.emit (.firstResponse state.operation tracker.batch tracker.attempt))

def recordFinish (tracker : AttemptTracker) (state : OperationState) (code : Code)
    (summary : AttemptSummary) : OperationState :=
  state.emit
    (.attemptFinished state.operation tracker.batch tracker.attempt code summary.rows
      summary.successfulEntries summary.failedEntries)

def finish (tracker : AttemptTracker) (state : OperationState) (code : Code)
    (summary : AttemptSummary) : AttemptTracker × OperationState :=
  if tracker.finished then
    (tracker, state)
  else
    ({ tracker with finished := true }, tracker.recordFinish state code summary)

/-- The drop guard. -/
def drop (tracker : AttemptTracker) (state : OperationState) : OperationState :=
  if tracker.finished then state else tracker.recordFinish state .cancelled {}

end AttemptTracker

end BigtableClient
